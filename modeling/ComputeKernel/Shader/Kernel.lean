import ComputeKernel.Files.Path
import ComputeKernel.Shader.Statement

/-!
# Kernel texts

A class becomes one kernel text: a line for each entry point, then the fields, then the methods.
Members of other kinds leave no trace. `translateLossy` gives the text whatever the class holds, and
`translate?` only if all of it could be translated. `translateFile` does this for every class of a
file.
-/

namespace ComputeKernel.Shader

variable (path : String)
variable (c : ClassDecl)

/-- The attribute that makes a method an entry point. -/
def entryAttribute : String := "numthreads"

/-- The kernel spelling of a parameter's modifier. -/
def modifierText (modifier : String) : String := if modifier = "ref" then "inout" else modifier

/-- The lines that name the entry points. -/
def entryLines (methods : List MethodDecl) : Output :=
  .lit (String.join ((methods.filter (·.hasAttribute entryAttribute)).map
    fun m => "#pragma kernel " ++ m.name.node ++ "\n"))

/-- One declared variable of a field whose type has this text. -/
def variableLine (type : String) (v : VariableDecl) : Output :=
  .lit (type ++ " " ++ v.name.node)
    ++ (match v.init with
      | none => {}
      | some init => .lit " = " ++ placedExpr init)
    ++ .lit ";\n"

/-- A field: one line for each of its variables. The type is translated once. -/
def fieldOutput (field : FieldDecl) : Output :=
  let type := placedType false field.ty
  { problems := type.problems } ++ .all (field.declarators.map (variableLine type.text))

/-- An attribute. -/
def attributeOutput (a : Attribute) : Output := .lit a.name.node ++ arguments a.args

/-- The attributes of a list, without its brackets. -/
def attributeListOutput (list : AttributeList) : Output :=
  .separated ", " (list.attributes.map attributeOutput)

/-- A parameter. -/
def paramOutput (p : Param) : Output :=
  .lit (String.join (p.modifiers.map fun m => modifierText m ++ " "))
    ++ placedType false p.ty ++ .lit (" " ++ p.name.node)
    ++ (if p.attributes.isEmpty then {}
      else .lit " : " ++ .separated ", " (p.attributes.map attributeListOutput))
    ++ (match p.default with
      | none => {}
      | some value => .lit " = " ++ placedExpr value)

/-- The lines of a method's body. -/
def bodyOutput (m : MethodDecl) : Output :=
  match m.body with
  | some body => stmtLines indentStep body.node.stmts
  | none => .problem (.missingBody m.name.node) m.name.span

/-- A method with its attributes and body. -/
def methodOutput (m : MethodDecl) : Output :=
  .all (m.attributes.map fun list => .lit "[" ++ attributeListOutput list ++ .lit "]\n")
    ++ placedType false m.returnTy ++ .lit (" " ++ m.name.node ++ " (")
    ++ .separated ", " (m.params.map paramOutput) ++ .lit ")\n\x7b\n"
    ++ bodyOutput m ++ .lit "\x7d\n\n"

/-- A class. -/
def classOutput : Output :=
  entryLines c.methods ++ .lit "\n"
    ++ .all (c.fields.map fieldOutput) ++ .lit "\n"
    ++ .all (c.methods.map methodOutput)

/-- The kernel text of a class, with all that is to be told about it. -/
structure KernelText where
  source : String
  diagnostics : List Diagnostic
deriving Repr, Inhabited

/-- Whether some of it could not be translated. -/
def KernelText.hasErrors (t : KernelText) : Bool := t.diagnostics.any (·.isError)

/-- A path as links show it: with slashes only. -/
def linkPath : String := path.map fun c => if c = '\\' then '/' else c

/-- Translate a class as far as that can be done. -/
def translateLossy : KernelText :=
  let out := classOutput c
  { source := out.text
    diagnostics := out.problems.map (·.diagnostic (linkPath path) c.name.node) }

/-- Translate a class that has no problems. -/
def translate? : Except (List Diagnostic) String :=
  let t := translateLossy path c
  if t.hasErrors then .error t.diagnostics else .ok t.source

/-- What is told about a class without a name. -/
def unnamedClass : Diagnostic :=
  ((Diagnostic.error "class declaration has no name" c.name.span).inFile path).withHelp
    "the syntax tree must name every class; re-export it from the parser"

/-- Translate one class of a file. -/
def translateNamed : Except (List Diagnostic) (String × String) :=
  if c.name.node.isEmpty then .error [unnamedClass path c]
  else (translate? path c).map (c.name.node, ·)

/-- The path of a file as it is shown: below the root where it lies there. -/
def shownPath (root : Option String) (path : String) : String :=
  (root.bind (Path.relativeTo? · path)).getD path

/-- Kernel texts by class name, and what is told about the other classes. -/
structure FileKernels where
  kernels : List (String × String) := []
  diagnostics : List Diagnostic := []
deriving Repr, Inhabited

/-- Translate every class of a file. -/
def translateFile (file : SourceFile) (root : Option String) : FileKernels :=
  let results := file.classes.map (translateNamed (shownPath root file.path))
  { kernels := results.filterMap fun r => r.toOption
    diagnostics := results.flatMap fun
      | .error ds => ds
      | .ok _ => [] }

end ComputeKernel.Shader
