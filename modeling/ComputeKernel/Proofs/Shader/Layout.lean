import ComputeKernel.Proofs.Shader.Outline

/-!
# The layout of kernel texts

A kernel text is well laid out if its braces match and each of its lines stands as far to the right
as braces are open in front of it (`Layout`). This is said of the characters alone. That a text is
written line by line, and what a line may do to the depth, is said by `Line` and `Laid`: there are
plain lines, and lines that have nothing but a brace. A text that is `Laid` from depth zero back to
depth zero has a layout (`Laid.layout`), and the rows of outlines whose texts are plain are `Laid`
at any depth (`Outline.laid_rowsAll`).
-/

namespace ComputeKernel.Shader

open List

/-- A text without braces and line breaks. -/
def Plain (text : String) : Prop := ∀ c ∈ text.toList, c ∉ ['\x7b', '\x7d', '\n']

instance (text : String) : Decidable (Plain text) := decidableBAll _ text.toList

/-- How many of the braces in these characters are open at their end. -/
def depthAfter (chars : List Char) : Nat := chars.count '\x7b' - chars.count '\x7d'

/-- A text whose braces match and whose lines show how deep they are nested. -/
structure Layout (text : String) : Prop where
  /-- No brace is closed that is not open. -/
  nested : ∀ front, front <+: text.toList → front.count '\x7d' ≤ front.count '\x7b'
  /-- All braces are closed in the end. -/
  closed : text.toList.count '\x7d' = text.toList.count '\x7b'
  /-- A line stands four columns to the right for each brace that is open in front of it, or for
  each but one if the line closes a brace. -/
  indented : ∀ before line after, text.toList = before ++ (line ++ after) →
    before = [] ∨ before.getLast? = some '\n' → '\n' ∉ line → after = [] ∨ after.head? = some '\n' →
    replicate (4 * (if '\x7d' ∈ line then depthAfter before - 1 else depthAfter before))
      ' ' <+: line

/-! ## Lines -/

/-- A line at one depth, and the depth after it. -/
inductive Line : Nat → List Char → Nat → Prop where
  | flat (depth : Nat) {text : String} (h : Plain text) : Line depth
    (row (indentStep * depth) text) depth
  | opens (depth : Nat) : Line depth (row (indentStep * depth) "\x7b") (depth + 1)
  | closes (depth : Nat) : Line (depth + 1) (row (indentStep * depth) "\x7d") depth

/-- Blanks do not count. -/
theorem count_row {indent : Nat} {text : String} {c : Char} (h : ' ' ≠ c) :
    (row indent text).count c = text.toList.count c := by
  rw [row, count_append, count_replicate, if_neg (by simpa using h), Nat.zero_add]

@[simp] theorem plain_append {s t : String} : Plain (s ++ t) ↔ Plain s ∧ Plain t := by
  rw [Plain, String.toList_append, forall_mem_append]
  rfl

/-- Plain text between plain texts. -/
theorem Plain.between {before text after : String} (h : Plain text) (hbefore : Plain before)
    (hafter : Plain after) :
    Plain (before ++ text ++ after) :=
  plain_append.2 ⟨plain_append.2 ⟨hbefore, h⟩, hafter⟩

/-- What plain text does not have. -/
theorem Plain.not_mem {text : String} (h : Plain text) {c : Char}
    (hc : c ∈ ['\x7b', '\x7d', '\n']) : c ∉ text.toList :=
  fun hmem => h c hmem hc

namespace Line

variable {d e : Nat} {r : List Char}

/-- A line has no line break. -/
theorem newline_not_mem (h : Line d r e) : '\n' ∉ r := by
  cases h with
  | flat _ hplain => exact fun hmem => hplain.not_mem (by decide) ((mem_row (by decide)).1 hmem)
  | opens | closes => exact fun hmem => absurd ((mem_row (by decide)).1 hmem) (by decide)

/-- A line closes only what is open. -/
theorem count (h : Line d r e) : r.count '\x7d' ≤ d ∧ d + r.count '\x7b' = e + r.count '\x7d' := by
  cases h with
  | flat _ hplain =>
    rw [count_row (by decide), count_row (by decide),
      count_eq_zero_of_not_mem (hplain.not_mem (by decide)),
      count_eq_zero_of_not_mem (hplain.not_mem (by decide))]
    exact ⟨Nat.zero_le _, rfl⟩
  | opens =>
    rw [count_row (by decide), count_row (by decide)]
    exact ⟨Nat.zero_le _, rfl⟩
  | closes =>
    rw [count_row (by decide), count_row (by decide)]
    exact ⟨Nat.le_add_left _ _, rfl⟩

/-- A line stands at its depth. -/
theorem indented (h : Line d r e) :
    replicate (indentStep * (if '\x7d' ∈ r then d - 1 else d)) ' ' <+: r := by
  cases h with
  | flat _ hplain =>
    rw [if_neg fun hmem => hplain.not_mem (by decide) ((mem_row (by decide)).1 hmem)]
    exact prefix_append _ _
  | opens =>
    rw [if_neg fun hmem => absurd ((mem_row (by decide)).1 hmem) (by decide)]
    exact prefix_append _ _
  | closes =>
    rw [if_pos ((mem_row (by decide)).2 (by decide))]
    exact prefix_append _ _

end Line

/-! ## Texts of lines -/

/-- A text of lines, each at the depth at which the one before ends. -/
inductive Laid : Nat → List Char → Nat → Prop where
  | nil (depth : Nat) : Laid depth [] depth
  | line {d d' e : Nat} {r rest : List Char} : Line d r d' → Laid d' rest e →
    Laid d (r ++ '\n' :: rest) e

/-- The first line of a text, however the text is cut behind it. -/
theorem eq_line_of_append {r rest line after : List Char} (hr : '\n' ∉ r) (hline : '\n' ∉ line)
    (hafter : after = [] ∨ after.head? = some '\n') (h : r ++ '\n' :: rest = line ++ after) :
    r = line := by
  have hmem : '\n' ∈ line ++ after := h ▸ mem_append_right _ (.head _)
  rcases hafter with rfl | hhead
  · exact absurd hmem (by rwa [append_nil])
  · obtain ⟨tail, rfl⟩ := head?_eq_some_iff.1 hhead
    exact (line_inj hr hline h).1

/-- Lines at the front of a text start with its first line. -/
theorem line_front {r rest before after : List Char} (hr : '\n' ∉ r)
    (hbefore : before.getLast? = some '\n') (h : r ++ '\n' :: rest = before ++ after) :
    ∃ later, before = r ++ '\n' :: later ∧ rest = later ++ after := by
  have hmem : '\n' ∈ before := mem_of_getLast? hbefore
  rcases append_eq_append_iff.1 h with ⟨later, rfl, hrest⟩ | ⟨later, rfl, -⟩
  · cases later with
    | nil => exact absurd hmem (by rwa [append_nil])
    | cons c later =>
      obtain ⟨rfl, htail⟩ := List.cons.inj hrest
      exact ⟨later, rfl, htail⟩
  · exact absurd (mem_append_left _ hmem) hr

namespace Laid

variable {d e f : Nat} {text text' : List Char}

/-- One text after another. -/
theorem append (h : Laid d text e) (h' : Laid e text' f) : Laid d (text ++ text') f := by
  induction h with
  | nil => exact h'
  | line hline _ ih =>
    rw [append_assoc]
    exact .line hline (ih h')

/-- What is open at the end. -/
theorem count (h : Laid d text e) : d + text.count '\x7b' = e + text.count '\x7d' := by
  induction h with
  | nil => rfl
  | line hline _ ih =>
    have hcount := hline.count.2
    rw [count_append, count_append, count_cons_of_ne (by decide), count_cons_of_ne (by decide)]
    omega

/-- Only what is open is closed. -/
theorem nested (h : Laid d text e) {front : List Char} (hfront : front <+: text) :
    front.count '\x7d' ≤ d + front.count '\x7b' := by
  induction h generalizing front with
  | nil =>
    rw [prefix_nil.1 hfront]
    exact Nat.zero_le _
  | @line d d' e r rest hline _ ih =>
    obtain ⟨hle, hcount⟩ := hline.count
    -- The front ends in the line or behind it.
    rcases prefix_or_prefix_of_prefix hfront (prefix_append _ _) with hin | ⟨later, rfl⟩
    · exact Nat.le_trans (hin.sublist.count_le _) (Nat.le_trans hle (Nat.le_add_right _ _))
    · rw [count_append, count_append]
      rcases prefix_cons_iff.1 ((prefix_append_right_inj r).1 hfront) with rfl |
        ⟨later, rfl, hlater⟩
      · rw [count_nil, count_nil]
        omega
      · have hrest := ih hlater
        rw [count_cons_of_ne (by decide), count_cons_of_ne (by decide)]
        omega

/-- Each line stands at its depth. -/
theorem indented (h : Laid d text 0) {before line after : List Char}
    (htext : text = before ++ (line ++ after)) (hbefore : before = [] ∨ before.getLast? = some '\n')
    (hline : '\n' ∉ line) (hafter : after = [] ∨ after.head? = some '\n') :
    replicate (indentStep * (if '\x7d' ∈ line then d + before.count '\x7b' - before.count '\x7d' - 1
      else d + before.count '\x7b' - before.count '\x7d')) ' ' <+: line := by
  generalize hend : 0 = e at h
  induction h generalizing before with
  | nil =>
    subst hend
    obtain ⟨rfl, hrest⟩ := append_eq_nil_iff.1 htext.symm
    obtain ⟨rfl, rfl⟩ := append_eq_nil_iff.1 hrest
    exact prefix_rfl
  | @line d d' e r rest hr _ ih =>
    rcases hbefore with rfl | hbefore
    · obtain rfl := eq_line_of_append hr.newline_not_mem hline hafter htext
      exact hr.indented
    · obtain ⟨later, rfl, hrest⟩ := line_front hr.newline_not_mem hbefore htext
      have hdepth : d + (r ++ '\n' :: later).count '\x7b' - (r ++ '\n' :: later).count '\x7d' =
          d' + later.count '\x7b' - later.count '\x7d' := by
        have hcount := hr.count.2
        rw [count_append, count_append, count_cons_of_ne (by decide), count_cons_of_ne (by decide)]
        omega
      rw [hdepth]
      refine ih hrest ?_ hend
      cases later with
      | nil => exact .inl rfl
      | cons c later => exact .inr (by simpa [getLast?_cons] using hbefore)

/-- Such a text has a layout. -/
theorem layout {s : String} (h : Laid 0 s.toList 0) : Layout s where
  nested front hfront := by
    have hnested := h.nested hfront
    rwa [Nat.zero_add] at hnested
  closed := by
    have hcount := h.count
    rw [Nat.zero_add, Nat.zero_add] at hcount
    exact hcount.symm
  indented before line after htext hbefore hline hafter := by
    have hindented := h.indented htext hbefore hline hafter
    rw [Nat.zero_add] at hindented
    exact hindented

end Laid

/-! ## Outlines -/

/-- A line by itself. -/
theorem laid_line {d e : Nat} {r : List Char} (h : Line d r e) : Laid d (unlines [r]) e := by
  rw [unlines_cons]
  exact .line h (.nil e)

/-- Braces on lines of their own hold what is one level deeper. -/
theorem laid_braced {d : Nat} {rows : List (List Char)} (h : Laid (d + 1) (unlines rows) (d + 1)) :
    Laid d (unlines (braced (indentStep * d) rows)) d := by
  rw [braced, unlines_cons, unlines_append]
  exact .line (.opens d) (h.append (laid_line (.closes d)))

namespace Outline

mutual

/-- An outline whose texts are plain. -/
def Plain : Outline → Prop
  | .expression text | .return text | .gap text => Shader.Plain text
  | .ifThenElse condition thenPart none => Shader.Plain condition ∧ PlainAll thenPart
  | .ifThenElse condition thenPart (some elsePart) =>
    Shader.Plain condition ∧ PlainAll thenPart ∧ PlainAll elsePart
  | .block stmts => PlainAll stmts

/-- Outlines whose texts are plain. -/
def PlainAll : List Outline → Prop
  | [] => True
  | o :: os => Plain o ∧ PlainAll os

end

mutual

/-- A statement leaves the depth as it is. -/
theorem laid_rows :
    ∀ (d : Nat) (o : Outline), o.Plain → Laid d (unlines (o.rows (indentStep * d))) d
  | d, .expression text, ho => laid_line (.flat d (plain_append.2 ⟨ho, by decide⟩))
  | d, .return text, ho => laid_line (.flat d (ho.between (by decide) (by decide)))
  | d, .gap text, ho => laid_line (.flat d ho)
  | d, .ifThenElse condition thenPart none, ho => by
    have hthen := laid_braced (laid_rowsAll (d + 1) thenPart ho.2)
    rw [rows, unlines_cons]
    exact .line (.flat d (ho.1.between (by decide) (by decide))) hthen
  | d, .ifThenElse condition thenPart (some elsePart), ho => by
    have hthen := laid_braced (laid_rowsAll (d + 1) thenPart ho.2.1)
    have helse := laid_braced (laid_rowsAll (d + 1) elsePart ho.2.2)
    rw [rows, unlines_cons, unlines_append, unlines_cons]
    exact .line (.flat d (ho.1.between (by decide) (by decide)))
      (hthen.append (.line (.flat d (by decide)) helse))
  | d, .block stmts, ho => laid_braced (laid_rowsAll (d + 1) stmts ho)

/-- So do statements. -/
theorem laid_rowsAll : ∀ (d : Nat) (os : List Outline), PlainAll os →
    Laid d (unlines (rowsAll (indentStep * d) os)) d
  | d, [], _ => .nil d
  | d, o :: os, hos => by
    rw [rowsAll, unlines_append]
    exact (laid_rows d o hos.1).append (laid_rowsAll d os hos.2)

end

end Outline

end ComputeKernel.Shader
