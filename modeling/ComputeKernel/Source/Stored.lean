import ComputeKernel.Json.Value
import ComputeKernel.Source.Name

/-!
# Storing trees

A tree is stored as a JSON value in which every field is written: records as objects with their
fields in the order of their declaration, absent things as `null`, and nodes of several kinds with
their tag first.
-/

namespace ComputeKernel

open ComputeKernel.Expr
open Json (Value Number)

/-- A place. -/
def Span.toValue (s : Span) : Value :=
  .object
    [("start", .number (.natural s.start.toNat)),
     ("end", .number (.natural s.stop.toNat)),
     ("line", .number (.natural s.line.toNat))]

/-- A node that has been stored, with its place. -/
def Span.wrap (s : Span) (node : Value) : Value := .object [("node", node), ("span", s.toValue)]

/-- A tagged node. -/
def taggedValue (tag : String) (fields : List (String × Value)) : Value :=
  .object (("kind", .string tag) :: fields)

/-- A name with its place. -/
def nameValue (s : Spanned String) : Value := s.span.wrap (.string s.node)

/-- Modifiers. -/
def modifiersValue (modifiers : List String) : Value := .array (modifiers.map .string)

mutual

/-- A type. -/
def TypeRef.toValue : TypeRef → Value
  | .identifier name => taggedValue "Identifier" [("name", .string name)]
  | .predefined name => taggedValue "Predefined" [("name", .string name)]
  | .qualified left right =>
    taggedValue "Qualified" [("left", TypeRef.placedValue left),
      ("right", TypeRef.placedValue right)]
  | .generic name args =>
    taggedValue "Generic" [("name", .string name), ("args", TypeRef.argsValue args)]
  | .array element rank =>
    taggedValue "Array"
      [("element", TypeRef.placedValue element), ("rank", .number (.natural rank.toNat))]
  | .pointer element => taggedValue "Pointer" [("element", TypeRef.placedValue element)]
  | .nullable element => taggedValue "Nullable" [("element", TypeRef.placedValue element)]
  | .tuple elements => taggedValue "Tuple" [("elements", .array (TypeRef.listValues elements))]

/-- A type with its place. -/
def TypeRef.placedValue : Spanned TypeRef → Value
  | ⟨node, span⟩ => span.wrap (TypeRef.toValue node)

/-- Types with their places. -/
def TypeRef.listValues : List (Spanned TypeRef) → List Value
  | [] => []
  | t :: ts => TypeRef.placedValue t :: TypeRef.listValues ts

/-- Type arguments that may be absent. -/
def TypeRef.argsValue : Option (List (Spanned TypeRef)) → Value
  | none => .null
  | some args => .array (TypeRef.listValues args)

end

mutual

/-- An expression. -/
def Expr.toValue : Expr → Value
  | .numericLiteral text => taggedValue "NumericLiteral" [("text", .string text)]
  | .stringLiteral text => taggedValue "StringLiteral" [("text", .string text)]
  | .boolLiteral value => taggedValue "BoolLiteral" [("value", .bool value)]
  | .identifier name => taggedValue "Identifier" [("name", .string name)]
  | .memberAccess target name =>
    taggedValue "MemberAccess" [("target", placedValue target), ("name", nameValue name)]
  | .invocation callee args =>
    taggedValue "Invocation" [("callee", placedValue callee), ("args", argsValue args)]
  | .cast ty operand =>
    taggedValue "Cast" [("ty", TypeRef.placedValue ty), ("operand", placedValue operand)]
  | .elementAccess target indices =>
    taggedValue "ElementAccess"
      [("target", placedValue target), ("indices", .array (listValues indices))]
  | .parenthesized inner => taggedValue "Parenthesized" [("inner", placedValue inner)]
  | .binary op lhs rhs =>
    taggedValue "Binary"
      [("op", .string op.tag), ("lhs", placedValue lhs), ("rhs", placedValue rhs)]
  | .assignment op lhs rhs =>
    taggedValue "Assignment"
      [("op", .string op.tag), ("lhs", placedValue lhs), ("rhs", placedValue rhs)]
  | .objectCreation ty args =>
    taggedValue "ObjectCreation" [("ty", TypeRef.placedValue ty), ("args", argsValue args)]
  | .unary op operand =>
    taggedValue "Unary" [("op", .string op.tag), ("operand", placedValue operand)]
  | .conditional condition whenTrue whenFalse =>
    taggedValue "Conditional"
      [("condition", placedValue condition), ("when_true", placedValue whenTrue),
       ("when_false", placedValue whenFalse)]

/-- An expression with its place. -/
def Expr.placedValue : Spanned Expr → Value
  | ⟨node, span⟩ => span.wrap (toValue node)

/-- Expressions with their places. -/
def Expr.listValues : List (Spanned Expr) → List Value
  | [] => []
  | e :: es => placedValue e :: listValues es

/-- Arguments that may be absent. -/
def Expr.argsValue : Option (List (Spanned Expr)) → Value
  | none => .null
  | some args => .array (listValues args)

end

/-- An expression that may be absent. -/
def Expr.optionalValue : Option (Spanned Expr) → Value
  | none => .null
  | some e => placedValue e

/-- A declared variable. -/
def VariableDecl.toValue (d : VariableDecl) : Value :=
  .object [("name", nameValue d.name), ("init", optionalValue d.init)]

mutual

/-- A statement. -/
def Stmt.toValue : Stmt → Value
  | .expression expr => taggedValue "Expression" [("expr", Expr.placedValue expr)]
  | .return value => taggedValue "Return" [("value", Expr.optionalValue value)]
  | .ifThenElse condition thenBranch elseBranch =>
    taggedValue "If"
      [("condition", Expr.placedValue condition), ("then_branch", Stmt.placedValue thenBranch),
       ("else_branch", Stmt.optionalValue elseBranch)]
  | .block stmts => taggedValue "Block" [("stmts", .array (Stmt.listValues stmts))]
  | .localDeclaration ty declarators =>
    taggedValue "LocalDeclaration"
      [("ty", TypeRef.placedValue ty), ("variables", .array (declarators.map VariableDecl.toValue))]
  | .while condition body =>
    taggedValue "While" [("condition", Expr.placedValue condition), ("body", Stmt.placedValue body)]
  | .for body => taggedValue "For" [("body", Stmt.placedValue body)]
  | .break => taggedValue "Break" []
  | .continue => taggedValue "Continue" []
  | .empty => taggedValue "Empty" []

/-- A statement with its place. -/
def Stmt.placedValue : Spanned Stmt → Value
  | ⟨node, span⟩ => span.wrap (Stmt.toValue node)

/-- Statements with their places. -/
def Stmt.listValues : List (Spanned Stmt) → List Value
  | [] => []
  | s :: ss => Stmt.placedValue s :: Stmt.listValues ss

/-- A statement that may be absent. -/
def Stmt.optionalValue : Option (Spanned Stmt) → Value
  | none => .null
  | some s => Stmt.placedValue s

end

/-- A method body. -/
def Block.toValue (b : Block) : Value := .object [("stmts", .array (Stmt.listValues b.stmts))]

/-- An attribute. -/
def Attribute.toValue (a : Attribute) : Value :=
  .object [("name", nameValue a.name), ("args", argsValue a.args)]

/-- Attributes between one pair of brackets. -/
def AttributeList.toValue (l : AttributeList) : Value :=
  .object [("attributes", .array (l.attributes.map Attribute.toValue)), ("span", l.span.toValue)]

/-- A parameter. -/
def Param.toValue (p : Param) : Value :=
  .object
    [("attributes", .array (p.attributes.map AttributeList.toValue)),
     ("modifiers", modifiersValue p.modifiers), ("ty", TypeRef.placedValue p.ty),
     ("name", nameValue p.name), ("default", optionalValue p.default)]

/-- The fields of a stored field declaration. -/
def FieldDecl.members (d : FieldDecl) : List (String × Value) :=
  [("modifiers", modifiersValue d.modifiers), ("ty", TypeRef.placedValue d.ty),
   ("variables", .array (d.declarators.map VariableDecl.toValue))]

/-- A method body that may be absent. -/
def Block.optionalValue : Option (Spanned Block) → Value
  | none => .null
  | some b => b.span.wrap b.node.toValue

/-- The fields of a stored method declaration. -/
def MethodDecl.members (d : MethodDecl) : List (String × Value) :=
  [("attributes", .array (d.attributes.map AttributeList.toValue)),
   ("modifiers", modifiersValue d.modifiers), ("return_ty", TypeRef.placedValue d.returnTy),
   ("name", nameValue d.name), ("params", .array (d.params.map Param.toValue)),
   ("body", Block.optionalValue d.body)]

/-- A member. -/
def Member.toValue : Member → Value
  | .field decl => taggedValue "Field" decl.members
  | .method decl => taggedValue "Method" decl.members
  | .constructor name => taggedValue "Constructor" [("name", .string name)]
  | .property name => taggedValue "Property" [("name", .string name)]

/-- A class. -/
def ClassDecl.toValue (c : ClassDecl) : Value :=
  .object
    [("name", nameValue c.name),
     ("members", .array (c.members.map fun m => m.span.wrap m.node.toValue))]

/-- A file. -/
def SourceFile.toValue (f : SourceFile) : Value :=
  .object
    [("path", .string f.path), ("text", (f.text.map .string).getD .null),
     ("classes", .array (f.classes.map ClassDecl.toValue))]

/-- The stored form of a file of declarations. -/
def SourceFile.store (f : SourceFile) : String := f.toValue.render

end ComputeKernel
