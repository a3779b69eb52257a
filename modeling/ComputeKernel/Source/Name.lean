import ComputeKernel.Source.Tree

/-!
# Names of nodes and operators

Each kind of node has two names: the tag it carries in a stored tree (`tag`), and the name of its
shape in the grammar of the source language (`kindName`). Messages about a node give both, the tag
together with the type of the node (`nodeName`).
-/

namespace ComputeKernel

namespace BinaryOp

/-- All operators under the names they have in a stored tree. -/
def table : List (String × BinaryOp) :=
  [("Add", .add), ("Subtract", .subtract), ("Multiply", .multiply), ("Divide", .divide),
   ("Modulo", .modulo), ("LeftShift", .leftShift), ("RightShift", .rightShift),
   ("LessThan", .lessThan), ("LessThanOrEqual", .lessThanOrEqual), ("GreaterThan", .greaterThan),
   ("GreaterThanOrEqual", .greaterThanOrEqual), ("NotEquals", .notEquals), ("Equals", .equals),
   ("LogicalAnd", .logicalAnd), ("LogicalOr", .logicalOr), ("BitwiseAnd", .bitwiseAnd),
   ("BitwiseOr", .bitwiseOr), ("ExclusiveOr", .exclusiveOr)]

/-- The name of an operator in a stored tree. -/
def tag : BinaryOp → String
  | .add => "Add"
  | .subtract => "Subtract"
  | .multiply => "Multiply"
  | .divide => "Divide"
  | .modulo => "Modulo"
  | .leftShift => "LeftShift"
  | .rightShift => "RightShift"
  | .lessThan => "LessThan"
  | .lessThanOrEqual => "LessThanOrEqual"
  | .greaterThan => "GreaterThan"
  | .greaterThanOrEqual => "GreaterThanOrEqual"
  | .notEquals => "NotEquals"
  | .equals => "Equals"
  | .logicalAnd => "LogicalAnd"
  | .logicalOr => "LogicalOr"
  | .bitwiseAnd => "BitwiseAnd"
  | .bitwiseOr => "BitwiseOr"
  | .exclusiveOr => "ExclusiveOr"

/-- The operator as it is written. -/
def symbol : BinaryOp → String
  | .add => "+"
  | .subtract => "-"
  | .multiply => "*"
  | .divide => "/"
  | .modulo => "%"
  | .leftShift => "<<"
  | .rightShift => ">>"
  | .lessThan => "<"
  | .lessThanOrEqual => "<="
  | .greaterThan => ">"
  | .greaterThanOrEqual => ">="
  | .notEquals => "!="
  | .equals => "=="
  | .logicalAnd => "&&"
  | .logicalOr => "||"
  | .bitwiseAnd => "&"
  | .bitwiseOr => "|"
  | .exclusiveOr => "^"

/-- The name of its shape. -/
def kindName (op : BinaryOp) : String := op.tag ++ "Expression"

end BinaryOp

namespace AssignOp

/-- All operators under the names they have in a stored tree. -/
def table : List (String × AssignOp) :=
  [("Assign", .assign), ("AddAssign", .addAssign), ("SubtractAssign", .subtractAssign),
   ("MultiplyAssign", .multiplyAssign), ("DivideAssign", .divideAssign)]

/-- The name of an operator in a stored tree. -/
def tag : AssignOp → String
  | .assign => "Assign"
  | .addAssign => "AddAssign"
  | .subtractAssign => "SubtractAssign"
  | .multiplyAssign => "MultiplyAssign"
  | .divideAssign => "DivideAssign"

/-- The operator as it is written. -/
def symbol : AssignOp → String
  | .assign => "="
  | .addAssign => "+="
  | .subtractAssign => "-="
  | .multiplyAssign => "*="
  | .divideAssign => "/="

/-- The name of its shape. -/
def kindName : AssignOp → String
  | .assign => "SimpleAssignmentExpression"
  | .addAssign => "AddAssignmentExpression"
  | .subtractAssign => "SubtractAssignmentExpression"
  | .multiplyAssign => "MultiplyAssignmentExpression"
  | .divideAssign => "DivideAssignmentExpression"

end AssignOp

namespace UnaryOp

/-- All operators under the names they have in a stored tree. -/
def table : List (String × UnaryOp) :=
  [("Negate", .negate), ("Not", .not), ("PreIncrement", .preIncrement),
   ("PostIncrement", .postIncrement)]

/-- The name of an operator in a stored tree. -/
def tag : UnaryOp → String
  | .negate => "Negate"
  | .not => "Not"
  | .preIncrement => "PreIncrement"
  | .postIncrement => "PostIncrement"

/-- The name of its shape. -/
def kindName : UnaryOp → String
  | .negate => "UnaryMinusExpression"
  | .not => "LogicalNotExpression"
  | .preIncrement => "PreIncrementExpression"
  | .postIncrement => "PostIncrementExpression"

end UnaryOp

namespace TypeRef

/-- The tag of a type. -/
def tag : TypeRef → String
  | .identifier _ => "Identifier"
  | .predefined _ => "Predefined"
  | .qualified _ _ => "Qualified"
  | .generic _ _ => "Generic"
  | .array _ _ => "Array"
  | .pointer _ => "Pointer"
  | .nullable _ => "Nullable"
  | .tuple _ => "Tuple"

/-- The name of its shape. -/
def kindName : TypeRef → String
  | .identifier _ => "IdentifierName"
  | .predefined _ => "PredefinedType"
  | .qualified _ _ => "QualifiedName"
  | .generic _ _ => "GenericName"
  | .array _ _ => "ArrayType"
  | .pointer _ => "PointerType"
  | .nullable _ => "NullableType"
  | .tuple _ => "TupleType"

/-- The tag with the type of the node. -/
def nodeName (t : TypeRef) : String := "TypeRef::" ++ t.tag

end TypeRef

namespace Stmt

/-- The tag of a statement. -/
def tag : Stmt → String
  | .expression _ => "Expression"
  | .return _ => "Return"
  | .ifThenElse _ _ _ => "If"
  | .block _ => "Block"
  | .localDeclaration _ _ => "LocalDeclaration"
  | .while _ _ => "While"
  | .for _ => "For"
  | .break => "Break"
  | .continue => "Continue"
  | .empty => "Empty"

/-- The name of its shape. -/
def kindName : Stmt → String
  | .expression _ => "ExpressionStatement"
  | .return _ => "ReturnStatement"
  | .ifThenElse _ _ _ => "IfStatement"
  | .block _ => "Block"
  | .localDeclaration _ _ => "LocalDeclarationStatement"
  | .while _ _ => "WhileStatement"
  | .for _ => "ForStatement"
  | .break => "BreakStatement"
  | .continue => "ContinueStatement"
  | .empty => "EmptyStatement"

/-- The tag with the type of the node. -/
def nodeName (s : Stmt) : String := "Stmt::" ++ s.tag

end Stmt

namespace Expr

/-- The tag of an expression. -/
def tag : Expr → String
  | .numericLiteral _ => "NumericLiteral"
  | .stringLiteral _ => "StringLiteral"
  | .boolLiteral _ => "BoolLiteral"
  | .identifier _ => "Identifier"
  | .memberAccess _ _ => "MemberAccess"
  | .invocation _ _ => "Invocation"
  | .cast _ _ => "Cast"
  | .elementAccess _ _ => "ElementAccess"
  | .parenthesized _ => "Parenthesized"
  | .binary _ _ _ => "Binary"
  | .assignment _ _ _ => "Assignment"
  | .objectCreation _ _ => "ObjectCreation"
  | .unary _ _ => "Unary"
  | .conditional _ _ _ => "Conditional"

/-- The name of its shape. -/
def kindName : Expr → String
  | .numericLiteral _ => "NumericLiteralExpression"
  | .stringLiteral _ => "StringLiteralExpression"
  | .boolLiteral true => "TrueLiteralExpression"
  | .boolLiteral false => "FalseLiteralExpression"
  | .identifier _ => "IdentifierName"
  | .memberAccess _ _ => "SimpleMemberAccessExpression"
  | .invocation _ _ => "InvocationExpression"
  | .cast _ _ => "CastExpression"
  | .elementAccess _ _ => "ElementAccessExpression"
  | .parenthesized _ => "ParenthesizedExpression"
  | .binary op _ _ => op.kindName
  | .assignment op _ _ => op.kindName
  | .objectCreation _ _ => "ObjectCreationExpression"
  | .unary op _ => op.kindName
  | .conditional _ _ _ => "ConditionalExpression"

/-- The tag with the type of the node. -/
def nodeName (e : Expr) : String := "Expr::" ++ e.tag

end Expr

end ComputeKernel
