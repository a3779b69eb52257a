import ComputeKernel.Shader.Literal
import ComputeKernel.Shader.TypeName

/-!
# Expressions in kernel text

Expressions are written as they stand: nothing is reordered, and parentheses are those of the
source.
-/

namespace ComputeKernel.Shader

/-- Whether an operator may stand in kernel text. -/
def isSupported : BinaryOp → Bool
  | .add | .subtract | .multiply | .divide | .modulo | .leftShift | .rightShift
  | .lessThan | .lessThanOrEqual | .greaterThan | .greaterThanOrEqual | .notEquals => true
  | .equals | .logicalAnd | .logicalOr | .bitwiseAnd | .bitwiseOr | .exclusiveOr => false

/-- A node that has no counterpart. -/
def unsupportedExpr (e : Expr) (span : Span) : Output :=
  .problem (.unsupported e.kindName e.nodeName) span

mutual

/-- An expression in kernel text. -/
def exprOutput : Expr → Span → Output
  | .numericLiteral text, _ => .lit (numericLiteral text)
  | .identifier name, _ => .lit name
  | .memberAccess target name, _ => placedExpr target ++ .lit ("." ++ name.node)
  | .invocation callee args, _ => placedExpr callee ++ arguments args
  | .cast ty operand, _ => .lit "(" ++ placedType false ty ++ .lit ")" ++ placedExpr operand
  | .elementAccess target [], _ => placedExpr target
  | .elementAccess target (i :: is), _ =>
    placedExpr target ++ .lit "[" ++ Output.separated ", " (placedExpr i :: exprList is) ++ .lit "]"
  | .parenthesized inner, _ => .lit "(" ++ placedExpr inner ++ .lit ")"
  | .binary op lhs rhs, span =>
    if isSupported op then placedExpr lhs ++ .lit (" " ++ op.symbol ++ " ") ++ placedExpr rhs
    else unsupportedExpr (.binary op lhs rhs) span
  | .assignment .assign lhs rhs, _ =>
    placedExpr lhs ++ .lit (" " ++ AssignOp.assign.symbol ++ " ") ++ placedExpr rhs
  | .objectCreation ty args, _ => placedType false ty ++ arguments args
  | e@(.assignment _ _ _), span => unsupportedExpr e span
  | e@(.stringLiteral _), span => unsupportedExpr e span
  | e@(.boolLiteral _), span => unsupportedExpr e span
  | e@(.unary _ _), span => unsupportedExpr e span
  | e@(.conditional _ _ _), span => unsupportedExpr e span

/-- An expression with its place. -/
def placedExpr : Spanned Expr → Output
  | ⟨node, span⟩ => exprOutput node span

/-- Expressions in kernel text. -/
def exprList : List (Spanned Expr) → List Output
  | [] => []
  | e :: es => placedExpr e :: exprList es

/-- Arguments between parentheses. A list that is absent gives nothing, an empty one gives `()`. -/
def arguments : Option (List (Spanned Expr)) → Output
  | none => {}
  | some args => .lit "(" ++ Output.separated ", " (exprList args) ++ .lit ")"

end

end ComputeKernel.Shader
