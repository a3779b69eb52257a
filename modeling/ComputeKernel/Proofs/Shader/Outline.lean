import ComputeKernel.Shader.Statement

/-!
# The lines of statements

What is written of a statement is decided by its `Outline`: the texts of its expressions, and how
they are nested. Outlines are written row by row (`Outline.rows`), and the text of statements is
that of the rows of their outlines (`toList_stmtLines`). So whatever concerns lines and nesting is
shown for outlines, which have five forms.
-/

namespace ComputeKernel.Shader

/-- What is written of a statement. A branch is the list of its statements. -/
inductive Outline where
  | expression (text : String)
  | return (text : String)
  | ifThenElse (condition : String) (thenPart : List Outline) (elsePart : Option (List Outline))
  | block (stmts : List Outline)
  /-- A statement that has no counterpart, with what is left of it. -/
  | gap (text : String)

mutual

/-- The outline of a statement. -/
def outline : Stmt → Outline
  | .expression expr => .expression (placedExpr expr).text
  | .return (some value) => .return (placedExpr value).text
  | .return none => .gap "return ;"
  | .ifThenElse condition thenBranch none =>
    .ifThenElse (placedExpr condition).text (branchOutlines thenBranch) none
  | .ifThenElse condition thenBranch (some elseBranch) =>
    .ifThenElse (placedExpr condition).text (branchOutlines thenBranch)
      (some (branchOutlines elseBranch))
  | .block stmts => .block (outlines stmts)
  | .localDeclaration _ _ | .while _ _ | .for _ | .break | .continue | .empty => .gap ""

/-- The outlines of statements. -/
def outlines : List (Spanned Stmt) → List Outline
  | [] => []
  | ⟨node, _⟩ :: ss => outline node :: outlines ss

/-- The statements of a branch. -/
def branchOutlines : Spanned Stmt → List Outline
  | ⟨.block stmts, _⟩ => outlines stmts
  | ⟨node, _⟩ => [outline node]

end

/-! ## Rows -/

/-- A line without its end. -/
def row (indent : Nat) (text : String) : List Char := List.replicate indent ' ' ++ text.toList

/-- What else than blanks is in a row. -/
theorem mem_row {indent : Nat} {text : String} {c : Char} (h : c ≠ ' ') :
    c ∈ row indent text ↔ c ∈ text.toList := by
  simp [row, List.mem_replicate, h]

/-- Rows between braces. -/
def braced (indent : Nat) (rows : List (List Char)) : List (List Char) :=
  row indent "\x7b" :: (rows ++ [row indent "\x7d"])

namespace Outline

mutual

/-- The rows of an outline. -/
def rows (indent : Nat) : Outline → List (List Char)
  | .expression text => [row indent (text ++ ";")]
  | .return text => [row indent ("return " ++ text ++ ";")]
  | .ifThenElse condition thenPart none =>
    row indent ("if (" ++ condition ++ ")") ::
      braced indent (rowsAll (indent + indentStep) thenPart)
  | .ifThenElse condition thenPart (some elsePart) =>
    row indent ("if (" ++ condition ++ ")") ::
      (braced indent (rowsAll (indent + indentStep) thenPart) ++ row indent "else" ::
        braced indent (rowsAll (indent + indentStep) elsePart))
  | .block stmts => braced indent (rowsAll (indent + indentStep) stmts)
  | .gap text => [row indent text]

/-- The rows of outlines. -/
def rowsAll (indent : Nat) : List Outline → List (List Char)
  | [] => []
  | o :: os => rows indent o ++ rowsAll indent os

end

end Outline

/-- The text of rows, each of which ends its line. -/
def unlines (rows : List (List Char)) : List Char := rows.flatMap (· ++ ['\n'])

@[simp] theorem unlines_nil : unlines [] = [] := rfl

@[simp] theorem unlines_cons (r : List Char) (rows : List (List Char)) :
    unlines (r :: rows) = r ++ '\n' :: unlines rows := by
  simp [unlines]

@[simp] theorem unlines_append (rows rows' : List (List Char)) :
    unlines (rows ++ rows') = unlines rows ++ unlines rows' := List.flatMap_append

/-- A line ends at its first line break. -/
theorem line_inj : ∀ {r r' rest rest' : List Char}, '\n' ∉ r → '\n' ∉ r' →
    r ++ '\n' :: rest = r' ++ '\n' :: rest' → r = r' ∧ rest = rest'
  | [], [], _, _, _, _, h => ⟨rfl, (List.cons.inj h).2⟩
  | [], _ :: _, _, _, _, hr', h => absurd ((List.cons.inj h).1 ▸ .head _) hr'
  | _ :: _, [], _, _, hr, _, h => absurd ((List.cons.inj h).1 ▸ .head _) hr
  | c :: r, c' :: r', rest, rest', hr, hr', h => by
    obtain ⟨rfl, htail⟩ := List.cons.inj h
    obtain ⟨rfl, hrest⟩ :=
      line_inj (fun hmem => hr (.tail _ hmem)) (fun hmem => hr' (.tail _ hmem)) htail
    exact ⟨rfl, hrest⟩

/-! ## The text of statements -/

@[simp] theorem toList_blanks (indent : Nat) :
    (Output.blanks indent).text.toList = List.replicate indent ' ' := by
  rw [Output.blanks, Output.text_lit, String.pushn_eq_repeat_push]
  induction indent with
  | zero => rfl
  | succ n ih => rw [Nat.repeat, String.toList_push, ih, List.replicate_succ']

mutual

/-- A statement is its rows. -/
theorem toList_stmtOutput (indent : Nat) : ∀ (s : Stmt) (span : Span),
    List.replicate indent ' ' ++ (stmtOutput indent s span).text.toList ++ ['\n'] =
      unlines ((outline s).rows indent)
  | .expression expr, _ => by simp [stmtOutput, outline, Outline.rows, row]
  | .return none, span => by simp [stmtOutput, outline, Outline.rows, row]
  | .return (some value), _ => by simp [stmtOutput, outline, Outline.rows, row]
  | .ifThenElse condition thenBranch none, _ => by
    simp [stmtOutput, outline, Outline.rows, row, ← toList_branch indent thenBranch]
  | .ifThenElse condition thenBranch (some elseBranch), _ => by
    simp [stmtOutput, outline, Outline.rows, row, ← toList_branch indent thenBranch,
      ← toList_branch indent elseBranch]
  | .block stmts, _ => by
    simp [stmtOutput, outline, Outline.rows, row, braced,
      toList_stmtLines (indent + indentStep) stmts]
  | .localDeclaration _ _, _ | .while _ _, _ | .for _, _ | .break, _ | .continue,
      _ | .empty, _ => by
    simp [stmtOutput, unsupportedStmt, outline, Outline.rows, row]

/-- So are statements. -/
theorem toList_stmtLines (indent : Nat) : ∀ ss : List (Spanned Stmt),
    (stmtLines indent ss).text.toList = unlines (Outline.rowsAll indent (outlines ss))
  | [] => rfl
  | ⟨node, span⟩ :: ss => by
    rw [outlines, Outline.rowsAll, unlines_append, ← toList_stmtOutput indent node span,
      ← toList_stmtLines indent ss]
    simp [stmtLines]

/-- So is a branch. -/
theorem toList_branch (indent : Nat) : ∀ s : Spanned Stmt,
    (branch indent s).text.toList ++ ['\n'] =
      unlines (braced indent (Outline.rowsAll (indent + indentStep) (branchOutlines s)))
  | ⟨node, span⟩ => by
    -- A block as a branch is written like a block on a line of its own, and any other branch like
    -- the one statement of a block.
    have hblock := toList_stmtOutput indent node span
    have hlone := toList_stmtOutput (indent + indentStep) node span
    cases node with
    | block stmts =>
      rw [outline, Outline.rows] at hblock
      rw [branchOutlines, ← hblock]
      simp [branch, stmtOutput]
    | _ => simp [branch, branchOutlines, braced, row, Outline.rowsAll, ← hlone]

end

end ComputeKernel.Shader
