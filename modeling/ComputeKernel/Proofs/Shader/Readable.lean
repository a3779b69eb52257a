import ComputeKernel.Proofs.Shader.Outline
import ComputeKernel.Source.Construct

/-!
# Statements are read back from their lines

Which statements were written can be told from the text, up to what an `Outline` leaves out. The
first row of a statement says of which form it is, by its last character, and what is nested in it
stands further to the right than the brace that ends it. So statements can be read from their rows
from front to back: two lists of rows that are equal have the same statements at the front, as long
as they do not go on with one more statement (`Outline.rowsAll_inj`). An `else` is told from a
statement by its row, and so belongs to the `if` it was written for.

Two things must hold of the texts of expressions. A line break in one of them would be the end of a
row, and a statement that is an expression must not look like one that returns a value.
-/

namespace ComputeKernel.Shader

open List
open Outline
variable (indent : Nat)

namespace Outline

mutual

/-- A supported statement whose expressions fit in their lines. -/
def Readable : Outline → Prop
  | .expression text => '\n' ∉ text.toList ∧ ¬ "return ".toList <+: text.toList
  | .return text => '\n' ∉ text.toList
  | .ifThenElse condition thenPart none => '\n' ∉ condition.toList ∧ ReadableAll thenPart
  | .ifThenElse condition thenPart (some elsePart) =>
    '\n' ∉ condition.toList ∧ ReadableAll thenPart ∧ ReadableAll elsePart
  | .block stmts => ReadableAll stmts
  | .gap _ => False

/-- Statements that are so. -/
def ReadableAll : List Outline → Prop
  | [] => True
  | o :: os => Readable o ∧ ReadableAll os

end

/-! ## First rows -/

/-- The text of the first row. -/
def first : Outline → String
  | .expression text => text ++ ";"
  | .return text => "return " ++ text ++ ";"
  | .ifThenElse condition _ _ => "if (" ++ condition ++ ")"
  | .block _ => "\x7b"
  | .gap text => text

/-- The first row comes first. -/
theorem rows_eq_cons (indent : Nat) (o : Outline) :
    ∃ later, o.rows indent = row indent o.first :: later := by
  cases o with
  | ifThenElse condition thenPart elsePart => cases elsePart <;> exact ⟨_, rfl⟩
  | _ => exact ⟨_, rfl⟩

/-- How the first row of a statement ends. -/
def lastChar : Outline → Char
  | .expression _ | .return _ => ';'
  | .ifThenElse _ _ _ => ')'
  | .block _ => '\x7b'
  | .gap _ => ' '

/-- The last character stays. -/
theorem getLast?_append_char (s : String) {t : String} {c : Char} (h : t.toList = [c]) :
    (s ++ t).toList.getLast? = some c := by
  rw [String.toList_append, h, getLast?_concat]

/-- The first row ends so. -/
theorem getLast?_first {o : Outline} (h : o.Readable) :
    o.first.toList.getLast? = some o.lastChar := by
  cases o with
  | expression text => exact getLast?_append_char text rfl
  | «return» text => exact getLast?_append_char ("return " ++ text) rfl
  | ifThenElse condition thenPart elsePart => exact getLast?_append_char ("if (" ++ condition) rfl
  | block stmts =>
    show "\x7b".toList.getLast? = some '\x7b'
    decide
  | gap text => exact h.elim

/-- Outlines of the same form with the same text in their first rows. -/
def Alike : Outline → Outline → Prop
  | .expression text, .expression text' | .return text, .return text' => text = text'
  | .ifThenElse condition _ _, .ifThenElse condition' _ _ => condition = condition'
  | .block _, .block _ => True
  | _, _ => False

/-- An expression does not look like the return of a value. -/
theorem expression_ne_return {text : String} (h : (expression text).Readable) (text' : String) :
    text ++ ";" ≠ "return " ++ text' ++ ";" := by
  intro heq
  obtain rfl := (String.append_left_inj ";").1 heq
  refine h.2 ⟨text'.toList, ?_⟩
  rw [String.toList_append]

/-- The first row of a statement says of which form it is. -/
theorem alike_of_first_eq {o p : Outline} (ho : o.Readable) (hp : p.Readable)
    (h : o.first = p.first) : o.Alike p := by
  have hlast : o.lastChar = p.lastChar :=
    Option.some.inj (by rw [← getLast?_first ho, ← getLast?_first hp, h])
  cases o with
  | expression text =>
    cases p with
    | expression text' => exact (String.append_left_inj ";").1 h
    | «return» text' => exact absurd h (expression_ne_return ho text')
    | _ => exact absurd hlast (by simp [lastChar])
  | «return» text =>
    cases p with
    | expression text' => exact absurd h.symm (expression_ne_return hp text)
    | «return» text' =>
      exact (String.append_right_inj "return ").1 ((String.append_left_inj ";").1 h)
    | _ => exact absurd hlast (by simp [lastChar])
  | ifThenElse condition thenPart elsePart =>
    cases p with
    | ifThenElse condition' thenPart' elsePart' =>
      exact (String.append_right_inj "if (").1 ((String.append_left_inj ")").1 h)
    | _ => exact absurd hlast (by simp [lastChar])
  | block stmts =>
    cases p with
    | block stmts' => trivial
    | _ => exact absurd hlast (by simp [lastChar])
  | gap text => exact ho.elim

end Outline

/-! ## Rows that go on -/

/-- A row has one text. -/
theorem row_injective {indent : Nat} {text text' : String}
    (h : row indent text = row indent text') : text = text' :=
  String.toList_inj.1 (append_cancel_left h)

/-- Rows that do not go on with a statement. -/
def Ends (rest : List (List Char)) : Prop := ∀ r ∈ rest.head?, ¬ replicate indent ' ' <+: r

/-- Rows that do not go on with the second branch of an `if`. -/
def NoElse (rest : List (List Char)) : Prop := rest.head? ≠ some (row indent "else")

/-- A closing brace ends the statements that are nested in the braces. -/
theorem ends_brace (rest : List (List Char)) :
    Ends (indent + indentStep) (row indent "\x7d" :: rest) := by
  rintro _ ⟨⟩ hprefix
  rw [← replicate_append_replicate, row, prefix_append_right_inj] at hprefix
  exact absurd hprefix (by decide)

/-- Rows between braces end where the braces do. -/
theorem braced_append_inj {indent : Nat} {rows rows' rest rest' : List (List Char)}
    (h : braced indent rows ++ rest = braced indent rows' ++ rest') :
    rows ++ row indent "\x7d" :: rest = rows' ++ row indent "\x7d" :: rest' := by
  have htail : rows ++ [row indent "\x7d"] ++ rest = rows' ++ [row indent "\x7d"] ++ rest' :=
    (List.cons.inj h).2
  rwa [append_assoc, append_assoc] at htail

namespace Outline

variable {indent : Nat}
variable {rest : List (List Char)}

/-- Statements are not mistaken for the second branch of an `if`. -/
theorem noElse_rowsAll {os : List Outline} (hos : ReadableAll os) (hrest : Ends indent rest) :
    NoElse indent (rowsAll indent os ++ rest) := by
  cases os with
  | nil =>
    intro hhead
    exact hrest _ hhead ⟨"else".toList, rfl⟩
  | cons o os =>
    obtain ⟨later, hrows⟩ := rows_eq_cons indent o
    intro hhead
    rw [rowsAll, hrows] at hhead
    have hfirst : o.first = "else" := row_injective (Option.some.inj hhead)
    have hlast := getLast?_first hos.1
    rw [hfirst] at hlast
    cases o with
    | gap text => exact hos.1.elim
    | _ => exact absurd hlast (by simp [lastChar])

/-- Statements are not mistaken for the end of statements. -/
theorem not_ends_rows (o : Outline) : ¬ Ends indent (o.rows indent ++ rest) := by
  obtain ⟨later, hrows⟩ := rows_eq_cons indent o
  intro hends
  rw [hrows] at hends
  exact hends _ rfl ⟨o.first.toList, rfl⟩

/-- Equal rows begin alike. -/
theorem alike_of_rows_append {o p : Outline} (ho : o.Readable) (hp : p.Readable)
    {rest rest' : List (List Char)} (h : o.rows indent ++ rest = p.rows indent ++ rest') :
    o.Alike p := by
  obtain ⟨later, hrows⟩ := rows_eq_cons indent o
  obtain ⟨later', hrows'⟩ := rows_eq_cons indent p
  rw [hrows, hrows'] at h
  exact alike_of_first_eq ho hp (row_injective (List.cons.inj h).1)

mutual

/-- A statement is read back from its rows, if no `else` follows. -/
theorem rows_inj : ∀ (indent : Nat) (o p : Outline) {rest rest' : List (List Char)}, o.Readable →
    p.Readable →
    NoElse indent rest → NoElse indent rest' → o.rows indent ++ rest = p.rows indent ++ rest' →
    o = p ∧ rest = rest'
  | indent, .expression text, p, rest, rest', ho, hp, _, _, h => by
    have halike := alike_of_rows_append ho hp h
    cases p with
    | expression text' =>
      obtain rfl := halike
      exact ⟨rfl, (List.cons.inj h).2⟩
    | _ => exact halike.elim
  | indent, .return text, p, rest, rest', ho, hp, _, _, h => by
    have halike := alike_of_rows_append ho hp h
    cases p with
    | «return» text' =>
      obtain rfl := halike
      exact ⟨rfl, (List.cons.inj h).2⟩
    | _ => exact halike.elim
  | indent, .ifThenElse condition thenPart none, p, rest, rest', ho, hp, hrest, _, h => by
    have halike := alike_of_rows_append ho hp h
    cases p with
    | ifThenElse condition' thenPart' elsePart' =>
      obtain rfl := halike
      cases elsePart' with
      | none =>
        obtain ⟨rfl, hclose⟩ := rowsAll_inj _ thenPart thenPart' ho.2 hp.2 (ends_brace indent rest)
          (ends_brace indent rest') (braced_append_inj (List.cons.inj h).2)
        exact ⟨rfl, (List.cons.inj hclose).2⟩
      | some elsePart' =>
        -- What follows the branch on the right would be the `else` of the one on the left.
        have htail := (List.cons.inj h).2.trans (append_assoc _ _ _)
        obtain ⟨-, hclose⟩ := rowsAll_inj _ thenPart thenPart' ho.2 hp.2.1 (ends_brace indent rest)
          (ends_brace indent _) (braced_append_inj htail)
        exact absurd (congrArg head? (List.cons.inj hclose).2) hrest
    | _ => exact halike.elim
  | indent, .ifThenElse condition thenPart (some elsePart), p, rest, rest', ho, hp, _,
      hrest', h => by
    have halike := alike_of_rows_append ho hp h
    cases p with
    | ifThenElse condition' thenPart' elsePart' =>
      obtain rfl := halike
      cases elsePart' with
      | none =>
        have htail := (append_assoc _ _ _).symm.trans (List.cons.inj h).2
        obtain ⟨-, hclose⟩ := rowsAll_inj _ thenPart thenPart' ho.2.1 hp.2 (ends_brace indent _)
          (ends_brace indent rest') (braced_append_inj htail)
        exact absurd (congrArg head? (List.cons.inj hclose).2).symm hrest'
      | some elsePart' =>
        have htail := (append_assoc _ _ _).symm.trans
          ((List.cons.inj h).2.trans (append_assoc _ _ _))
        obtain ⟨rfl, hclose⟩ := rowsAll_inj _ thenPart thenPart' ho.2.1 hp.2.1 (ends_brace indent _)
          (ends_brace indent _) (braced_append_inj htail)
        obtain ⟨rfl, hclose'⟩ :=
          rowsAll_inj _ elsePart elsePart' ho.2.2 hp.2.2 (ends_brace indent rest)
          (ends_brace indent rest') (braced_append_inj (List.cons.inj (List.cons.inj hclose).2).2)
        exact ⟨rfl, (List.cons.inj hclose').2⟩
    | _ => exact halike.elim
  | indent, .block stmts, p, rest, rest', ho, hp, _, _, h => by
    have halike := alike_of_rows_append ho hp h
    cases p with
    | block stmts' =>
      obtain ⟨rfl, hclose⟩ :=
        rowsAll_inj _ stmts stmts' ho hp (ends_brace indent rest) (ends_brace indent rest')
        (braced_append_inj h)
      exact ⟨rfl, (List.cons.inj hclose).2⟩
    | _ => exact halike.elim
  | _, .gap _, _, _, _, ho, _, _, _, _ => ho.elim

/-- Statements are read back from their rows, if no other follows. -/
theorem rowsAll_inj : ∀ (indent : Nat) (os ps : List Outline) {rest rest' : List (List Char)},
    ReadableAll os → ReadableAll ps → Ends indent rest → Ends indent rest' →
    rowsAll indent os ++ rest = rowsAll indent ps ++ rest' → os = ps ∧ rest = rest'
  | _, [], [], _, _, _, _, _, _, h => ⟨rfl, h⟩
  | indent, [], p :: ps, rest, rest', _, _, hrest, _, h => by
    rw [rowsAll, nil_append, rowsAll, append_assoc] at h
    exact absurd (h ▸ hrest) (not_ends_rows p)
  | indent, o :: os, [], rest, rest', _, _, _, hrest', h => by
    rw [rowsAll, rowsAll, nil_append, append_assoc] at h
    exact absurd (h ▸ hrest') (not_ends_rows o)
  | indent, o :: os, p :: ps, rest, rest', hos, hps, hrest, hrest', h => by
    rw [rowsAll, rowsAll, append_assoc, append_assoc] at h
    obtain ⟨rfl, htail⟩ :=
      rows_inj indent o p hos.1 hps.1 (noElse_rowsAll hos.2 hrest) (noElse_rowsAll hps.2 hrest') h
    obtain ⟨rfl, hend⟩ := rowsAll_inj indent os ps hos.2 hps.2 hrest hrest' htail
    exact ⟨rfl, hend⟩

end

end Outline

/-! ## Rows are lines -/

/-- Braces add no line break. -/
theorem newline_not_mem_braced {rows : List (List Char)} (h : ∀ r ∈ rows, '\n' ∉ r) :
    ∀ r ∈ braced indent rows, '\n' ∉ r := by
  rw [braced, forall_mem_cons, forall_mem_append]
  exact ⟨by simp [mem_row], h, by simp [mem_row]⟩

/-- Rows are read back from their text. -/
theorem unlines_injective : ∀ {rows rows' : List (List Char)}, (∀ r ∈ rows, '\n' ∉ r) →
    (∀ r ∈ rows', '\n' ∉ r) → unlines rows = unlines rows' → rows = rows'
  | [], [], _, _, _ => rfl
  | [], _ :: _, _, _, h => by simp at h
  | _ :: _, [], _, _, h => by simp at h
  | r :: rows, r' :: rows', hrows, hrows', h => by
    rw [forall_mem_cons] at hrows hrows'
    rw [unlines_cons, unlines_cons] at h
    obtain ⟨rfl, hrest⟩ := line_inj hrows.1 hrows'.1 h
    rw [unlines_injective hrows.2 hrows'.2 hrest]

namespace Outline

mutual

/-- No row has a line break. -/
theorem newline_not_mem_rows : ∀ (indent : Nat) (o : Outline), o.Readable →
    ∀ r ∈ o.rows indent, '\n' ∉ r
  | indent, .expression text, ho => by simpa [rows, mem_row] using ho.1
  | indent, .return text, ho => by
    rw [Readable] at ho
    simpa [rows, mem_row] using ho
  | indent, .ifThenElse condition thenPart none, ho => by
    have hthen := newline_not_mem_braced indent (newline_not_mem_rowsAll (indent + indentStep)
      thenPart ho.2)
    rw [rows, forall_mem_cons]
    exact ⟨by simpa [mem_row] using ho.1, hthen⟩
  | indent, .ifThenElse condition thenPart (some elsePart), ho => by
    have hthen := newline_not_mem_braced indent (newline_not_mem_rowsAll (indent + indentStep)
      thenPart ho.2.1)
    have helse := newline_not_mem_braced indent (newline_not_mem_rowsAll (indent + indentStep)
      elsePart ho.2.2)
    rw [rows, forall_mem_cons, forall_mem_append, forall_mem_cons]
    exact ⟨by simpa [mem_row] using ho.1, hthen, by simp [mem_row], helse⟩
  | indent, .block stmts, ho =>
    newline_not_mem_braced indent (newline_not_mem_rowsAll (indent + indentStep) stmts ho)
  | _, .gap _, ho => ho.elim

/-- Nor do several. -/
theorem newline_not_mem_rowsAll : ∀ (indent : Nat) (os : List Outline), ReadableAll os →
    ∀ r ∈ rowsAll indent os, '\n' ∉ r
  | _, [], _ => fun _ h => nomatch h
  | indent, o :: os, hos => by
    rw [rowsAll, forall_mem_append]
    exact ⟨newline_not_mem_rows indent o hos.1, newline_not_mem_rowsAll indent os hos.2⟩

end

end Outline

/-- **The nesting of statements is read back from their text.** Two lists of supported statements,
whose expressions have no line break in their texts and do not look like the return of a value, have
the same text at the same indentation only if they have the same outlines. These are the statements
themselves, with the expressions replaced by their texts and the branches that are no blocks by
blocks of one statement. -/
theorem outlines_eq_of_stmtLines_eq {indent : Nat} {ss ts : List (Spanned Stmt)}
    (hs : ReadableAll (outlines ss)) (ht : ReadableAll (outlines ts))
    (h : (stmtLines indent ss).text = (stmtLines indent ts).text) : outlines ss = outlines ts := by
  have hrows : Outline.rowsAll indent (outlines ss) = Outline.rowsAll indent (outlines ts) := by
    refine unlines_injective (newline_not_mem_rowsAll indent _ hs)
      (newline_not_mem_rowsAll indent _ ht) ?_
    rw [← toList_stmtLines, ← toList_stmtLines, h]
  have hends : Ends indent [] := fun _ hr => nomatch hr
  refine (rowsAll_inj indent _ _ hs ht hends hends ?_).1
  rw [append_nil, append_nil, hrows]

open Construct in
/-- A choice in a choice without braces, with a second branch of the inner. -/
def looseChoice : List (Spanned Stmt) :=
  [ifStmt (ident "a") (ifStmt (ident "b") (returnStmt (ident "x"))
    (some (expressionStmt (ident "y")))) none]

open Construct in
/-- The same choice with braces. -/
def bracedChoice : List (Spanned Stmt) :=
  [ifStmt (ident "a") (block [ifStmt (ident "b") (block [returnStmt (ident "x")])
    (some (block [expressionStmt (ident "y")]))]) none]

/-- Both have one text and one outline. -/
theorem choices_same_outlines :
    (stmtLines 4 looseChoice).text = (stmtLines 4 bracedChoice).text ∧
      outlines looseChoice = outlines bracedChoice := by
  have htext : (stmtLines 4 looseChoice).text = (stmtLines 4 bracedChoice).text := by decide +kernel
  have hreadable : ReadableAll
      [.ifThenElse "a" [.ifThenElse "b" [.return "x"] (some [.expression "y"])] none] := by
    simp [ReadableAll, Readable]
  exact ⟨htext, outlines_eq_of_stmtLines_eq hreadable hreadable htext⟩

end ComputeKernel.Shader
