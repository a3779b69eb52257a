import ComputeKernel.Shader.Output
import ComputeKernel.Source.Name

/-!
# Types in kernel text

Containers of the source language become resource types of the kernel language, and other names are
taken over. A type that is qualified by `ReadOnly` becomes the read-only counterpart of what stands
before the qualifier. Any other qualifier is dropped, as kernel text has no name spaces.
-/

namespace ComputeKernel.Shader

/-- The resource type that a container becomes; other names stay. -/
def resourceType (name : String) : String :=
  if name = "NativeArray" then "RWStructuredBuffer"
  else if name = "NativeList" then "AppendStructuredBuffer"
  else name

/-- The read-only counterpart of a resource type, if it has one. -/
def readOnlyType? (name : String) : Option String :=
  if name = "RWStructuredBuffer" then some "StructuredBuffer" else none

/-- The qualifier that asks for the read-only counterpart. -/
def readOnlyQualifier : String := "ReadOnly"

/-- The name of a type, or of its read-only counterpart. A name without one is a problem and stays
as it is. -/
def typeName (readOnly : Bool) (name : String) (span : Span) : Output :=
  let type := resourceType name
  if readOnly then
    match readOnlyType? type with
    | some counterpart => .lit counterpart
    | none => .problem (.noReadOnly type) span ++ .lit type
  else .lit type

mutual

/-- A type in kernel text, or its read-only counterpart. -/
def typeOutput (readOnly : Bool) : TypeRef → Span → Output
  | .identifier name, span => typeName readOnly name span
  | .predefined name, span => typeName readOnly name span
  | .qualified left right, _ =>
    let last := placedType false right
    if last.text = readOnlyQualifier then { problems := last.problems } ++ placedType true left
    else last
  | .generic name args, span =>
    typeName readOnly name span ++
      match args with
      | none => {}
      | some args => .lit "<" ++ Output.separated " " (typeList args) ++ .lit ">"
  | t@(.array _ _), span => .problem (.unsupported t.kindName t.nodeName) span
  | t@(.pointer _), span => .problem (.unsupported t.kindName t.nodeName) span
  | t@(.nullable _), span => .problem (.unsupported t.kindName t.nodeName) span
  | t@(.tuple _), span => .problem (.unsupported t.kindName t.nodeName) span

/-- A type with its place. -/
def placedType (readOnly : Bool) : Spanned TypeRef → Output
  | ⟨node, span⟩ => typeOutput readOnly node span

/-- The arguments of a generic type. -/
def typeList : List (Spanned TypeRef) → List Output
  | [] => []
  | t :: ts => placedType false t :: typeList ts

end

end ComputeKernel.Shader
