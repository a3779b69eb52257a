import ComputeKernel.Source.Tree

/-!
# Constructing trees

Short constructors for trees that are made in code. Nodes have no place, except that a statement
stands where its first expression does; `Spanned.onLine` gives a node a line.
-/

namespace ComputeKernel.Construct

/-- A name. -/
def name (text : String) : Spanned String := ⟨text, {}⟩

/-! ## Types -/

/-- A type with a name. -/
def type (name : String) : Spanned TypeRef := ⟨.identifier name, {}⟩

/-- A type of the language. -/
def predefined (name : String) : Spanned TypeRef := ⟨.predefined name, {}⟩

/-- A generic type with its arguments. -/
def generic (name : String) (args : List (Spanned TypeRef)) : Spanned TypeRef :=
  ⟨.generic name (some args), {}⟩

/-- A qualified type. -/
def qualified (left right : Spanned TypeRef) : Spanned TypeRef := ⟨.qualified left right, {}⟩

/-! ## Expressions -/

/-- A number. -/
def number (text : String) : Spanned Expr := ⟨.numericLiteral text, {}⟩

/-- A name in an expression. -/
def ident (name : String) : Spanned Expr := ⟨.identifier name, {}⟩

/-- A member of an object. -/
def select (target : Spanned Expr) (field : String) : Spanned Expr :=
  ⟨.memberAccess target (name field), {}⟩

/-- A call. -/
def call (callee : Spanned Expr) (args : List (Spanned Expr)) : Spanned Expr :=
  ⟨.invocation callee (some args), {}⟩

/-- A cast. -/
def cast (target : Spanned TypeRef) (operand : Spanned Expr) : Spanned Expr :=
  ⟨.cast target operand, {}⟩

/-- An element. -/
def index (target : Spanned Expr) (indices : List (Spanned Expr)) : Spanned Expr :=
  ⟨.elementAccess target indices, {}⟩

/-- An expression in parentheses. -/
def paren (inner : Spanned Expr) : Spanned Expr := ⟨.parenthesized inner, {}⟩

/-- An operation with two operands. -/
def binary (op : BinaryOp) (lhs rhs : Spanned Expr) : Spanned Expr := ⟨.binary op lhs rhs, {}⟩

/-- An assignment. -/
def assign (lhs rhs : Spanned Expr) : Spanned Expr := ⟨.assignment .assign lhs rhs, {}⟩

/-- A new object. -/
def newObject (target : Spanned TypeRef) (args : List (Spanned Expr)) : Spanned Expr :=
  ⟨.objectCreation target (some args), {}⟩

/-- A choice between two expressions. -/
def conditional (condition whenTrue whenFalse : Spanned Expr) : Spanned Expr :=
  ⟨.conditional condition whenTrue whenFalse, {}⟩

/-! ## Statements -/

/-- An expression as a statement. -/
def expressionStmt (expr : Spanned Expr) : Spanned Stmt := ⟨.expression expr, expr.span⟩

/-- Return a value. -/
def returnStmt (value : Spanned Expr) : Spanned Stmt := ⟨.return (some value), value.span⟩

/-- A conditional statement. -/
def ifStmt (condition : Spanned Expr) (thenBranch : Spanned Stmt)
    (elseBranch : Option (Spanned Stmt)) : Spanned Stmt :=
  ⟨.ifThenElse condition thenBranch elseBranch, condition.span⟩

/-- Statements between braces. -/
def block (stmts : List (Spanned Stmt)) : Spanned Stmt := ⟨.block stmts, {}⟩

/-! ## Members -/

/-- An attribute. -/
def attr (attrName : String) (args : Option (List (Spanned Expr))) : Attribute :=
  ⟨name attrName, args⟩

/-- Attributes between one pair of brackets. -/
def attributeList (attributes : List Attribute) : AttributeList := { attributes }

/-- `[numthreads(x, y, z)]` -/
def numthreads (x y z : UInt32) : AttributeList :=
  attributeList [attr "numthreads"
    (some [number (toString x), number (toString y), number (toString z)])]

/-- A field of one variable. -/
def field (ty : Spanned TypeRef) (fieldName : String) (init : Option (Spanned Expr)) :
    Spanned Member :=
  ⟨.field { ty, declarators := [⟨name fieldName, init⟩] }, {}⟩

/-- A parameter. -/
def param (ty : Spanned TypeRef) (paramName : String) : Param := { ty, name := name paramName }

/-- The parameter that receives the id of the running thread. -/
def dispatchIdParam (paramName : String) : Param :=
  { param (type "uint3") paramName with
    attributes := [attributeList [attr "SV_DispatchThreadID" none]] }

/-- A public method. -/
def method (returnTy : Spanned TypeRef) (methodName : String) (attributes : List AttributeList)
    (params : List Param) (body : List (Spanned Stmt)) : Spanned Member :=
  ⟨.method
    { attributes, modifiers := ["public"], returnTy, name := name methodName, params
      body := some ⟨⟨body⟩, {}⟩ }, {}⟩

/-- A class. -/
def classOf (className : String) (members : List (Spanned Member)) : ClassDecl :=
  ⟨name className, members⟩

end ComputeKernel.Construct
