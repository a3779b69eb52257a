import ComputeKernel.Json.Stream
import ComputeKernel.Report.Diagnostic
import ComputeKernel.Source.Stored

/-!
# Loading stored trees

The inverse of storing a tree, and more generous: fields may stand in any order, fields with a
default may be left out, and every record and node may also be written as an array. The file, its
classes and the places of names and members are read from left to right. A member is read as a whole
and then understood, and so is all that lies inside it; there `fuel` bounds how many tagged nodes
may lie inside one another, which the limit on nesting already does.
-/

namespace ComputeKernel

open Json.Record
open Json.Value Json.Content
open Json (Value Record Cause Refusal Content Variants Document Placed)

variable {ν ε α : Type}
variable (fuel room : Nat) (text : String)

/-! ## Shapes that are read in both ways -/

/-- The fields of a place. -/
def Span.record (word : ν → Except ε UInt32) : Record ν ε Span :=
  (((pure Span.mk).field "start" word).field "end" word).field "line" word

/-- The fields of a node with its place. -/
def Spanned.record (node : ν → Except ε α) (span : ν → Except ε Span) : Record ν ε (Spanned α) :=
  ((pure Spanned.mk).field "node" node).optional "span" {} span

/-! ## Values -/

/-- A place. -/
def Span.ofValue? : Value → Except Cause Span := (Span.record word?).ofValue? "struct Span"

/-- A node with its place. -/
def Spanned.ofValue? (node : Value → Except Cause α) : Value → Except Cause (Spanned α) :=
  (Spanned.record node Span.ofValue?).ofValue? "struct Spanned"

/-- A name with its place. -/
def nameOfValue? : Value → Except Cause (Spanned String) := Spanned.ofValue? text?

/-- Modifiers. -/
def modifiersOfValue? : Value → Except Cause (List String) := list? text?

/-- The variants of types, where the types inside them are read by `self`. -/
def TypeRef.variants (self : Value → Except Cause TypeRef) : Variants TypeRef :=
  let child := Spanned.ofValue? self
  let shape (tag : String) (r : Record Value Cause TypeRef) :=
    (tag, record? r ("struct variant TypeRef::" ++ tag))
  [shape "Identifier" ((Record.pure .identifier).field "name" text?),
   shape "Predefined" ((Record.pure .predefined).field "name" text?),
   shape "Qualified" (((Record.pure .qualified).field "left" child).field "right" child),
   shape "Generic"
    (((Record.pure .generic).field "name" text?).optional "args" none
      (option? (list? child))),
   shape "Array" (((Record.pure .array).field "element" child).field "rank" word?),
   shape "Pointer" ((Record.pure .pointer).field "element" child),
   shape "Nullable" ((Record.pure .nullable).field "element" child),
   shape "Tuple" ((Record.pure .tuple).field "elements" (list? child))]

/-- A type. -/
def TypeRef.ofValue? : Nat → Value → Except Cause TypeRef
  | 0, _ => .error .notJson
  | fuel + 1, v => (TypeRef.variants (TypeRef.ofValue? fuel)).ofValue? "TypeRef" v

/-- The variants of expressions, where the types and expressions inside them are read by `type` and
`self`. -/
def Expr.variants (type : Value → Except Cause TypeRef) (self : Value → Except Cause Expr) :
    Variants Expr :=
  let ty := Spanned.ofValue? type
  let child := Spanned.ofValue? self
  let args := option? (list? child)
  let shape (tag : String) (r : Record Value Cause Expr) :=
    (tag, record? r ("struct variant Expr::" ++ tag))
  [shape "NumericLiteral" ((Record.pure .numericLiteral).field "text" text?),
   shape "StringLiteral" ((Record.pure .stringLiteral).field "text" text?),
   shape "BoolLiteral" ((Record.pure .boolLiteral).field "value" bool?),
   shape "Identifier" ((Record.pure .identifier).field "name" text?),
   shape "MemberAccess"
    (((Record.pure .memberAccess).field "target" child).field "name" nameOfValue?),
   shape "Invocation" (((Record.pure .invocation).field "callee" child).optional "args" none args),
   shape "Cast" (((Record.pure .cast).field "ty" ty).field "operand" child),
   shape "ElementAccess"
    (((Record.pure .elementAccess).field "target" child).field "indices" (list? child)),
   shape "Parenthesized" ((Record.pure .parenthesized).field "inner" child),
   shape "Binary"
    ((((Record.pure .binary).field "op" (Json.operatorOfValue? BinaryOp.table)).field "lhs"
      child).field "rhs" child),
   shape "Assignment"
    ((((Record.pure .assignment).field "op" (Json.operatorOfValue? AssignOp.table)).field "lhs"
      child).field "rhs" child),
   shape "ObjectCreation"
    (((Record.pure .objectCreation).field "ty" ty).optional "args" none args),
   shape "Unary"
    (((Record.pure .unary).field "op" (Json.operatorOfValue? UnaryOp.table)).field "operand" child),
   shape "Conditional"
    ((((Record.pure .conditional).field "condition" child).field "when_true" child).field
      "when_false" child)]

/-- An expression. -/
def Expr.ofValue? : Nat → Value → Except Cause Expr
  | 0, _ => .error .notJson
  | fuel + 1, v => (Expr.variants (TypeRef.ofValue? fuel) (Expr.ofValue? fuel)).ofValue? "Expr" v

/-- A declared variable. -/
def VariableDecl.ofValue? : Value → Except Cause VariableDecl :=
  (((pure VariableDecl.mk).field "name" nameOfValue?).optional "init" none
    (option? (Spanned.ofValue? (Expr.ofValue? fuel)))).ofValue? "struct VariableDecl"

/-- Statements between braces, where the statements are read by `self`. -/
def Block.record (self : Value → Except Cause Stmt) : Record Value Cause Block :=
  (pure Block.mk).field "stmts" (list? (Spanned.ofValue? self))

/-- The variants of statements, where the statements inside them are read by `self` and the rest
with this fuel. -/
def Stmt.variants (self : Value → Except Cause Stmt) : Variants Stmt :=
  let ty := Spanned.ofValue? (TypeRef.ofValue? fuel)
  let expr := Spanned.ofValue? (Expr.ofValue? fuel)
  let child := Spanned.ofValue? self
  let shape (tag : String) (r : Record Value Cause Stmt) :=
    (tag, record? r ("struct variant Stmt::" ++ tag))
  [shape "Expression" ((Record.pure .expression).field "expr" expr),
   shape "Return" ((Record.pure .return).optional "value" none (option? expr)),
   shape "If"
    ((((Record.pure .ifThenElse).field "condition" expr).field "then_branch" child).optional
      "else_branch" none (option? child)),
   ("Block", fun content =>
    (record? (Block.record self) "struct Block" content).map (.block ·.stmts)),
   shape "LocalDeclaration"
    (((Record.pure .localDeclaration).field "ty" ty).field "variables"
      (list? (VariableDecl.ofValue? fuel))),
   shape "While" (((Record.pure .while).field "condition" expr).field "body" child),
   shape "For" ((Record.pure .for).field "body" child),
   ("Break", unit? .break),
   ("Continue", unit? .continue),
   ("Empty", unit? .empty)]

/-- A statement. -/
def Stmt.ofValue? : Nat → Value → Except Cause Stmt
  | 0, _ => .error .notJson
  | fuel + 1, v => (Stmt.variants fuel (Stmt.ofValue? fuel)).ofValue? "Stmt" v

/-- A method body. -/
def Block.ofValue? : Value → Except Cause Block :=
  (Block.record (Stmt.ofValue? fuel)).ofValue? "struct Block"

/-- An attribute. -/
def Attribute.ofValue? : Value → Except Cause Attribute :=
  (((pure Attribute.mk).field "name" nameOfValue?).optional "args" none
    (option? (list? (Spanned.ofValue? (Expr.ofValue? fuel))))).ofValue? "struct Attribute"

/-- Attributes between one pair of brackets. -/
def AttributeList.ofValue? : Value → Except Cause AttributeList :=
  (((pure AttributeList.mk).field "attributes"
    (list? (Attribute.ofValue? fuel))).optional "span" {} Span.ofValue?).ofValue?
      "struct AttributeList"

/-- A parameter. -/
def Param.ofValue? : Value → Except Cause Param :=
  pure Param.mk
    |>.optional "attributes" [] (list? (AttributeList.ofValue? fuel))
    |>.optional "modifiers" [] modifiersOfValue?
    |>.field "ty" (Spanned.ofValue? (TypeRef.ofValue? fuel))
    |>.field "name" nameOfValue?
    |>.optional "default" none (option? (Spanned.ofValue? (Expr.ofValue? fuel)))
    |>.ofValue? "struct Param"

/-- The fields of a field declaration. -/
def FieldDecl.record : Record Value Cause FieldDecl :=
  (((pure FieldDecl.mk).optional "modifiers" [] modifiersOfValue?).field "ty"
    (Spanned.ofValue? (TypeRef.ofValue? fuel))).field "variables"
      (list? (VariableDecl.ofValue? fuel))

/-- The fields of a method declaration. -/
def MethodDecl.record : Record Value Cause MethodDecl :=
  pure MethodDecl.mk
    |>.optional "attributes" [] (list? (AttributeList.ofValue? fuel))
    |>.optional "modifiers" [] modifiersOfValue?
    |>.field "return_ty" (Spanned.ofValue? (TypeRef.ofValue? fuel))
    |>.field "name" nameOfValue?
    |>.optional "params" [] (list? (Param.ofValue? fuel))
    |>.optional "body" none (option? (Spanned.ofValue? (Block.ofValue? fuel)))

/-- The variants of members. -/
def Member.variants : Variants Member :=
  [("Field", fun content =>
    (record? (FieldDecl.record fuel) "struct FieldDecl" content).map .field),
   ("Method", fun content =>
    (record? (MethodDecl.record fuel) "struct MethodDecl" content).map .method),
   ("Constructor", record? ((Record.pure .constructor).field "name" text?)
    "struct variant Member::Constructor"),
   ("Property", record? ((Record.pure .property).field "name" text?)
    "struct variant Member::Property")]

/-! ## Documents -/

open Json (nestingLimit)

/-- A place in a document. -/
def Span.ofDocument? : Document → Except Refusal Span :=
  (Span.record (Document.word? ·.value)).ofDocument? "struct Span" room

/-- A node with its place; inside the record there is room for one container less. -/
def Spanned.ofDocument? (node : Placed → Except Refusal α) (room : Nat) :
    Document → Except Refusal (Spanned α) :=
  (Spanned.record node (Span.ofDocument? (room - 1) ·.value)).ofDocument? "struct Spanned" room

/-- A member in a document. -/
def Member.ofPlaced? : Placed → Except Refusal Member :=
  (Member.variants nestingLimit).ofPlaced? "Member" room

/-- A class in a document. -/
def ClassDecl.ofDocument? : Document → Except Refusal ClassDecl :=
  (((pure ClassDecl.mk).field "name"
    (Spanned.ofDocument? (Document.text? ·.value) (room - 1) ·.value)).optional "members" []
    (Document.list? (Spanned.ofDocument? (Member.ofPlaced? (room - 3)) (room - 2)) (room - 1)
      ·.value)).ofDocument? "struct ClassDecl" room

/-- A file in a document. -/
def SourceFile.ofDocument? : Document → Except Refusal SourceFile :=
  ((((pure SourceFile.mk).field "path" (Document.text? ·.value)).optional "text" none
    (Document.option? Document.text? ·.value)).field "classes"
    (Document.list? (ClassDecl.ofDocument? (room - 2)) (room - 1) ·.value)).ofDocument?
      "struct SourceFile" room

/-- Load a stored file of declarations. -/
def SourceFile.load? : Except Refusal SourceFile :=
  Json.parse (SourceFile.ofDocument? nestingLimit ·.value) text

/-- Whether the stored form of a file loads as the same file. Different files are stored as
different texts, so the stored forms are compared. -/
def SourceFile.reloads (f : SourceFile) : Bool :=
  match SourceFile.load? f.store with
  | .ok again => again.store == f.store
  | .error _ => false

/-- Load a single type. -/
def TypeRef.load? : Except Refusal TypeRef :=
  Json.parse
    ((TypeRef.variants (TypeRef.ofValue? nestingLimit)).ofPlaced? "TypeRef" nestingLimit) text

/-- Load a single expression. -/
def Expr.load? : Except Refusal Expr :=
  Json.parse
    ((Expr.variants (TypeRef.ofValue? nestingLimit) (Expr.ofValue? nestingLimit)).ofPlaced? "Expr"
      nestingLimit) text

/-- Load a single statement. -/
def Stmt.load? : Except Refusal Stmt :=
  Json.parse
    ((Stmt.variants nestingLimit (Stmt.ofValue? nestingLimit)).ofPlaced? "Stmt" nestingLimit) text

/-- Load a binary operator. -/
def BinaryOp.load? : Except Refusal BinaryOp :=
  Json.parse (Json.operatorOfDocument? BinaryOp.table ·.value) text

/-- Load an operator of assignments. -/
def AssignOp.load? : Except Refusal AssignOp :=
  Json.parse (Json.operatorOfDocument? AssignOp.table ·.value) text

/-- Load a unary operator. -/
def UnaryOp.load? : Except Refusal UnaryOp :=
  Json.parse (Json.operatorOfDocument? UnaryOp.table ·.value) text

/-- What is told about a text that is no stored tree. -/
def malformedTree (r : Refusal) : Diagnostic :=
  .error ("malformed syntax tree: " ++ r.cause.message) (.atLine r.line.toUInt32)

end ComputeKernel
