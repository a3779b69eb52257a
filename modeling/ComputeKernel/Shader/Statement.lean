import ComputeKernel.Shader.Expression

/-!
# Statements in kernel text

A statement is written from where the line's blanks end, and its last line is left open. Branches
always stand between braces, one level deeper, whether they are blocks in the source or not.
-/

namespace ComputeKernel.Shader

/-- A node that has no counterpart. -/
def unsupportedStmt (s : Stmt) (span : Span) : Output :=
  .problem (.unsupported s.kindName s.nodeName) span

mutual

/-- A statement in kernel text. -/
def stmtOutput (indent : Nat) : Stmt → Span → Output
  | .expression expr, _ => placedExpr expr ++ .lit ";"
  | .return none, span => .lit "return " ++ .problem .bareReturn span ++ .lit ";"
  | .return (some value), _ => .lit "return " ++ placedExpr value ++ .lit ";"
  | .ifThenElse condition thenBranch none, _ =>
    .lit "if (" ++ placedExpr condition ++ .lit ")\n" ++ branch indent thenBranch
  | .ifThenElse condition thenBranch (some elseBranch), _ =>
    .lit "if (" ++ placedExpr condition ++ .lit ")\n" ++ branch indent thenBranch
      ++ .lit "\n" ++ .blanks indent ++ .lit "else\n" ++ branch indent elseBranch
  | .block stmts, _ =>
    .lit "\x7b\n" ++ stmtLines (indent + indentStep) stmts ++ .blanks indent ++ .lit "\x7d"
  | s@(.localDeclaration _ _), span => unsupportedStmt s span
  | s@(.while _ _), span => unsupportedStmt s span
  | s@(.for _), span => unsupportedStmt s span
  | .break, span => unsupportedStmt .break span
  | .continue, span => unsupportedStmt .continue span
  | .empty, span => unsupportedStmt .empty span

/-- Statements on lines of their own. -/
def stmtLines (indent : Nat) : List (Spanned Stmt) → Output
  | [] => {}
  | ⟨node, span⟩ :: ss =>
    .blanks indent ++ stmtOutput indent node span ++ .lit "\n" ++ stmtLines indent ss

/-- A branch between braces. -/
def branch (indent : Nat) : Spanned Stmt → Output
  | ⟨.block stmts, _⟩ =>
    .blanks indent ++ .lit "\x7b\n" ++ stmtLines (indent + indentStep) stmts
      ++ .blanks indent ++ .lit "\x7d"
  | ⟨node, span⟩ =>
    .blanks indent ++ .lit "\x7b\n"
      ++ (.blanks (indent + indentStep) ++ stmtOutput (indent + indentStep) node span ++ .lit "\n")
      ++ .blanks indent ++ .lit "\x7d"

end

end ComputeKernel.Shader
