import ComputeKernel.Source.Span

/-!
# Trees of declarations

The declarations of one source file, as the external parser hands them over. Only classes are kept,
and of a class its fields and methods are looked at; constructors and properties are carried along.
Nodes that have no counterpart in kernel text are part of the tree too, so that they can be reported
where they stand instead of being dropped.

Types, statements and expressions are nested in themselves through `Spanned`, `Option` and `List`. A
function on them is one function per such layer, in one mutual block.
-/

namespace ComputeKernel

/-- An operator between two operands. -/
inductive BinaryOp where
  | add | subtract | multiply | divide | modulo | leftShift | rightShift
  | lessThan | lessThanOrEqual | greaterThan | greaterThanOrEqual | notEquals
  | equals | logicalAnd | logicalOr | bitwiseAnd | bitwiseOr | exclusiveOr
deriving DecidableEq, Repr, Inhabited

/-- An operator that assigns. -/
inductive AssignOp where
  | assign | addAssign | subtractAssign | multiplyAssign | divideAssign
deriving DecidableEq, Repr, Inhabited

/-- An operator with one operand. -/
inductive UnaryOp where
  | negate | not | preIncrement | postIncrement
deriving DecidableEq, Repr, Inhabited

/-- A type as it is written. -/
inductive TypeRef where
  | identifier (name : String)
  /-- A keyword that names a type, such as `uint` or `void`. -/
  | predefined (name : String)
  /-- `left.right` -/
  | qualified (left right : Spanned TypeRef)
  /-- `name<args>`; the list may be absent altogether. -/
  | generic (name : String) (args : Option (List (Spanned TypeRef)))
  | array (element : Spanned TypeRef) (rank : UInt32)
  | pointer (element : Spanned TypeRef)
  | nullable (element : Spanned TypeRef)
  | tuple (elements : List (Spanned TypeRef))
deriving Inhabited

/-- An expression as it is written. -/
inductive Expr where
  /-- The literal as it is written, with its suffix. -/
  | numericLiteral (text : String)
  | stringLiteral (text : String)
  | boolLiteral (value : Bool)
  | identifier (name : String)
  | memberAccess (target : Spanned Expr) (name : Spanned String)
  /-- A call; the argument list may be absent altogether. -/
  | invocation (callee : Spanned Expr) (args : Option (List (Spanned Expr)))
  | cast (ty : Spanned TypeRef) (operand : Spanned Expr)
  | elementAccess (target : Spanned Expr) (indices : List (Spanned Expr))
  | parenthesized (inner : Spanned Expr)
  | binary (op : BinaryOp) (lhs rhs : Spanned Expr)
  | assignment (op : AssignOp) (lhs rhs : Spanned Expr)
  | objectCreation (ty : Spanned TypeRef) (args : Option (List (Spanned Expr)))
  | unary (op : UnaryOp) (operand : Spanned Expr)
  | conditional (condition whenTrue whenFalse : Spanned Expr)
deriving Inhabited

/-- One declarator of a field or a local: `name = init`. -/
structure VariableDecl where
  name : Spanned String
  init : Option (Spanned Expr) := none
deriving Inhabited

/-- A statement as it is written. -/
inductive Stmt where
  | expression (expr : Spanned Expr)
  | return (value : Option (Spanned Expr))
  | ifThenElse (condition : Spanned Expr) (thenBranch : Spanned Stmt)
      (elseBranch : Option (Spanned Stmt))
  | block (stmts : List (Spanned Stmt))
  | localDeclaration (ty : Spanned TypeRef) (declarators : List VariableDecl)
  | while (condition : Spanned Expr) (body : Spanned Stmt)
  | for (body : Spanned Stmt)
  | break
  | continue
  | empty
deriving Inhabited

/-- A method body: statements between braces. -/
structure Block where
  stmts : List (Spanned Stmt)
deriving Inhabited

/-- `name(args)`; without parentheses the list is absent. -/
structure Attribute where
  name : Spanned String
  args : Option (List (Spanned Expr)) := none
deriving Inhabited

/-- Attributes between one pair of brackets: `[a, b(1, 2)]`. -/
structure AttributeList where
  attributes : List Attribute
  span : Span := {}
deriving Inhabited

/-- A parameter of a method. -/
structure Param where
  attributes : List AttributeList := []
  modifiers : List String := []
  ty : Spanned TypeRef
  name : Spanned String
  default : Option (Spanned Expr) := none
deriving Inhabited

/-- A field of a class. -/
structure FieldDecl where
  modifiers : List String := []
  ty : Spanned TypeRef
  declarators : List VariableDecl
deriving Inhabited

/-- A method of a class. -/
structure MethodDecl where
  attributes : List AttributeList := []
  modifiers : List String := []
  returnTy : Spanned TypeRef
  name : Spanned String
  params : List Param := []
  /-- Absent when the method is abstract or is written as one expression. -/
  body : Option (Spanned Block) := none
deriving Inhabited

/-- A member of a class. -/
inductive Member where
  | field (decl : FieldDecl)
  | method (decl : MethodDecl)
  | constructor (name : String)
  | property (name : String)
deriving Inhabited

/-- A class; it becomes one kernel text. -/
structure ClassDecl where
  name : Spanned String
  members : List (Spanned Member) := []
deriving Inhabited

/-- The classes of a file. -/
structure SourceFile where
  /-- Path of the declaring file. -/
  path : String
  /-- The text of the file, when the parser kept it. -/
  text : Option String := none
  classes : List ClassDecl
deriving Inhabited

/-- The field a member declares, if it declares one. -/
def Member.field? : Member → Option FieldDecl
  | .field decl => some decl
  | _ => none

/-- The method a member declares, if it declares one. -/
def Member.method? : Member → Option MethodDecl
  | .method decl => some decl
  | _ => none

/-- The fields of a class, in the order of their declarations. -/
def ClassDecl.fields (c : ClassDecl) : List FieldDecl := c.members.filterMap (·.node.field?)

/-- The methods of a class, in the order of their declarations. -/
def ClassDecl.methods (c : ClassDecl) : List MethodDecl := c.members.filterMap (·.node.method?)

/-- Whether one of a method's attributes has this name. -/
def MethodDecl.hasAttribute (m : MethodDecl) (name : String) : Bool :=
  m.attributes.any fun list => list.attributes.any (·.name.node == name)

end ComputeKernel
