import Mathlib.Algebra.Ring.Parity
import Mathlib.Data.List.TakeDrop
import ComputeKernel.Project.Settings
import ComputeKernel.Proofs.Files.Path

/-!
# Lines of project files

What a line says is told by its first character that is not blank. A line that starts with a bracket
is a header if it ends with one, and any other line with a `=` is an entry, cut at the first one
(`Settings.Line.read_of_split`). Blanks around a key and a value do not count, and a value ends
before a `#` with an even number of quotes in front of it (`Settings.beforeComment_append`).
-/

namespace ComputeKernel

open List

namespace Text

variable {p : Char → Bool} {c : Char} {cs ds : List Char}
variable {separator : Char}

/-! ## Dropping characters -/

/-- Nothing is dropped from there on. -/
theorem dropWhile_append_cons (hc : p c = false) (cs ds : List Char) :
    (cs ++ c :: ds).dropWhile p = cs.dropWhile p ++ c :: ds := by
  induction cs with
  | nil => exact dropWhile_cons_of_neg (by simp [hc])
  | cons b cs ih =>
    rw [cons_append, dropWhile_cons, dropWhile_cons]
    split
    · exact ih
    · rfl

/-- Nor is anything dropped before. -/
theorem dropEndWhile_append_cons (hc : p c = false) (cs ds : List Char) :
    dropEndWhile p (cs ++ c :: ds) = cs ++ c :: dropEndWhile p ds := by
  simp [dropEndWhile, dropWhile_append_cons hc]

/-- What is dropped at the ends of a text with a character that stays. -/
theorem dropBoth_append_cons (hc : p c = false) (cs ds : List Char) :
    dropBoth p (cs ++ c :: ds) = cs.dropWhile p ++ c :: dropEndWhile p ds := by
  rw [dropBoth, dropWhile_append_cons hc, dropEndWhile_append_cons hc]

/-- All may be dropped at the end. -/
theorem dropEndWhile_eq_nil (h : ∀ c ∈ cs, p c = true) : dropEndWhile p cs = [] := by
  rw [dropEndWhile, reverse_eq_nil_iff, dropWhile_eq_nil_iff]
  exact fun c hc => h c (mem_reverse.1 hc)

/-- Or at both ends. -/
theorem dropBoth_eq_nil (h : ∀ c ∈ cs, p c = true) : dropBoth p cs = [] := by
  rw [dropBoth, dropWhile_eq_nil_iff.2 h]
  rfl

/-- All characters of a text are dropped, or there is a first that stays. -/
theorem all_or_exists_first (p : Char → Bool) (cs : List Char) :
    (∀ c ∈ cs, p c = true) ∨ ∃ front c back, cs = front ++ c :: back ∧ p c = false ∧ ∀ b ∈ front,
    p b = true := by
  induction cs with
  | nil => exact .inl fun c hc => absurd hc not_mem_nil
  | cons b cs ih =>
    cases hb : p b with
    | false => exact .inr ⟨[], b, cs, rfl, hb, fun c hc => absurd hc not_mem_nil⟩
    | true =>
      rcases ih with hall | ⟨front, c, back, rfl, hc, hfront⟩
      · exact .inl (forall_mem_cons.2 ⟨hb, hall⟩)
      · exact .inr ⟨b :: front, c, back, rfl, hc, forall_mem_cons.2 ⟨hb, hfront⟩⟩

/-- What was dropped in front. -/
theorem dropBoth_dropWhile (p : Char → Bool) (cs : List Char) :
    dropBoth p (cs.dropWhile p) = dropBoth p cs := by
  rw [dropBoth, dropWhile_idempotent, dropBoth]

/-- What was dropped at the end. -/
theorem dropBoth_dropEndWhile (p : Char → Bool) (cs : List Char) :
    dropBoth p (dropEndWhile p cs) = dropBoth p cs := by
  rcases all_or_exists_first p cs with hall | ⟨front, c, back, rfl, hc, -⟩
  · rw [dropEndWhile_eq_nil hall, dropBoth_eq_nil hall]
    rfl
  · rw [dropEndWhile_append_cons hc, dropBoth_append_cons hc, dropBoth_append_cons hc, dropEndWhile,
      dropEndWhile, reverse_reverse, dropWhile_idempotent]

/-- Characters at the ends of a text that are dropped do not count. -/
theorem dropBoth_padded {front back : List Char} (hfront : ∀ c ∈ front, p c = true)
    (hback : ∀ c ∈ back, p c = true) (cs : List Char) :
    dropBoth p (front ++ cs ++ back) = dropBoth p cs := by
  rcases all_or_exists_first p cs with hall | ⟨before, c, after, rfl, hc, -⟩
  · rw [dropBoth_eq_nil hall, dropBoth_eq_nil]
    intro c hc
    rcases mem_append.1 hc with hc | hc
    · rcases mem_append.1 hc with hc | hc
      · exact hfront c hc
      · exact hall c hc
    · exact hback c hc
  · have hassoc : front ++ (before ++ c :: after) ++ back =
      (front ++ before) ++ c :: (after ++ back) := by simp
    have hend : dropEndWhile p (after ++ back) = dropEndWhile p after := by
      rw [dropEndWhile, reverse_append,
        dropWhile_append_of_pos fun b hb => hback b (mem_reverse.1 hb), dropEndWhile]
    rw [hassoc, dropBoth_append_cons hc, dropBoth_append_cons hc, hend,
      dropWhile_append_of_pos hfront]

/-- Nothing is dropped at the end. -/
theorem dropEndWhile_eq_self (hlast : ∀ c, cs.getLast? = some c → p c = false) :
    dropEndWhile p cs = cs := by
  rcases eq_nil_or_concat' cs with rfl | ⟨front, last, rfl⟩
  · rfl
  · rw [dropEndWhile_append_cons (hlast last getLast?_concat)]
    rfl

/-- A text that starts and ends with characters that stay is kept. -/
theorem dropBoth_eq_self (hfirst : ∀ c, cs.head? = some c → p c = false)
    (hlast : ∀ c, cs.getLast? = some c → p c = false) : dropBoth p cs = cs := by
  have hfront : cs.dropWhile p = cs := by
    cases cs with
    | nil => rfl
    | cons b cs => exact dropWhile_cons_of_neg (by simp [hfirst b rfl])
  rw [dropBoth, hfront, dropEndWhile_eq_self hlast]

/-- What is not dropped stays. -/
theorem mem_dropBoth (hc : p c = false) (h : c ∈ cs) : c ∈ dropBoth p cs := by
  obtain ⟨front, back, rfl⟩ := append_of_mem h
  rw [dropBoth_append_cons hc]
  exact mem_append_right _ mem_cons_self

/-- Nothing is added. -/
theorem dropBoth_subset (p : Char → Bool) (cs : List Char) : dropBoth p cs ⊆ cs :=
  have hfront : dropBoth p cs <+: cs.dropWhile p := rdropWhile_prefix _ _
  Subset.trans hfront.subset (dropWhile_suffix _).subset

/-! ## Cutting at the first separator -/

/-- A text is cut at the first separator. -/
theorem splitFirst?_append {before : List Char} (h : separator ∉ before) (after : List Char) :
    splitFirst? separator (before ++ separator :: after) = some (before, after) := by
  have hbefore : ∀ c ∈ before, (c != separator) = true := by
    intro c hc
    rw [bne_iff_ne]
    rintro rfl
    exact h hc
  rw [splitFirst?, span_eq_takeWhile_dropWhile, takeWhile_append_of_pos hbefore,
    dropWhile_append_of_pos hbefore]
  simp

/-- Without one it is not. -/
theorem splitFirst?_of_not_mem (h : separator ∉ cs) : splitFirst? separator cs = none := by
  have hdrop : cs.dropWhile (· != separator) = [] := by
    rw [dropWhile_eq_nil_iff]
    intro c hc
    rw [bne_iff_ne]
    rintro rfl
    exact h hc
  rw [splitFirst?, span_eq_takeWhile_dropWhile, hdrop]

/-- The first separator has none in front of it. -/
theorem splitFirst?_eq_some_iff {before after : List Char} :
    splitFirst? separator cs = some (before, after) ↔ cs = before ++ separator :: after ∧
    separator ∉ before := by
  constructor
  · intro h
    by_cases hmem : separator ∈ cs
    · obtain ⟨front, back, rfl, hfront⟩ := eq_append_cons_of_mem hmem
      rw [splitFirst?_append hfront] at h
      cases h
      exact ⟨rfl, hfront⟩
    · rw [splitFirst?_of_not_mem hmem] at h
      cases h
  · rintro ⟨rfl, hbefore⟩
    exact splitFirst?_append hbefore after

end Text

namespace Settings

open ComputeKernel.Text
variable (s : Settings)

/-! ## Comments -/

section

variable {cs line key value : List Char}

/-- A text without a `#` is kept, and an odd number of quotes leaves them open. -/
theorem beforeComment_append (quoted : Bool) (h : '#' ∉ cs) (ds : List Char) :
    beforeComment quoted (cs ++ ds) =
      cs ++ beforeComment (quoted ^^ decide (Odd (cs.count '"'))) ds := by
  induction cs generalizing quoted with
  | nil => simp
  | cons c cs ih =>
    obtain ⟨hc, hcs⟩ := ne_and_not_mem_of_not_mem_cons h
    rw [cons_append, beforeComment]
    split
    next hquote =>
      subst hquote
      have hodd : decide (Odd (cs.count '"' + 1)) = !decide (Odd (cs.count '"')) := by
        rw [← decide_not, decide_eq_decide, Nat.odd_add_one]
      rw [ih (!quoted) hcs, count_cons_self, hodd, cons_append, Bool.not_xor, Bool.xor_not]
    next hquote =>
      rw [if_neg (by simp [Ne.symm hc]), ih quoted hcs, count_cons_of_ne hquote, cons_append]

/-- Without a `#` there is no comment. -/
theorem stripComment_of_not_mem (h : '#' ∉ cs) : stripComment cs = dropEndWhile isBlank cs := by
  rw [stripComment]
  have := beforeComment_append false h []
  rw [append_nil] at this
  rw [this]
  simp [beforeComment]

/-- A comment after a text in which quotes are closed is left out. -/
theorem stripComment_append (h : '#' ∉ cs) (hquotes : ¬ Odd (cs.count '"')) (comment : List Char) :
    stripComment (cs ++ '#' :: comment) = dropEndWhile isBlank cs := by
  rw [stripComment, beforeComment_append false h]
  simp [hquotes, beforeComment]

/-! ## Reading a line -/

/-- A blank line says nothing. -/
theorem Line.read_of_blank (h : ∀ c ∈ line, isBlank c = true) : Line.read line = .nothing := by
  have htrim : trim line = [] := dropBoth_eq_nil h
  rw [Line.read, htrim]
  rfl

/-- Nor does a comment. -/
theorem Line.read_of_comment (h : (trim line).head? = some '#') : Line.read line = .nothing := by
  rw [Line.read, h]
  simp

/-- A line in brackets is a header. -/
theorem Line.read_of_brackets (hfirst : (trim line).head? = some '[')
    (hlast : (trim line).getLast? = some ']') :
    Line.read line = .header (trim ((trim line).drop 1).dropLast) := by
  have hne : trim line ≠ [] := by
    intro hnil
    rw [hnil] at hfirst
    cases hfirst
  rw [Line.read, hfirst, hlast]
  simp [hne]

/-- A line that is no header is an entry if it has a `=`, whatever blanks are at its ends. -/
theorem Line.read_of_split (hhash : (trim line).head? ≠ some '#')
    (hheader : ¬((trim line).head? = some '[' ∧ (trim line).getLast? = some ']'))
    (h : splitFirst? '=' line = some (key, value)) :
    Line.read line = .entry (unquote (trim key)) (unquote (stripComment (trim value))) := by
  obtain ⟨rfl, hkey⟩ := splitFirst?_eq_some_iff.1 h
  have htrim : trim (key ++ '=' :: value) =
    key.dropWhile isBlank ++ '=' :: dropEndWhile isBlank value :=
    dropBoth_append_cons (by decide) key value
  have hkey' : '=' ∉ key.dropWhile isBlank := fun hmem => hkey ((dropWhile_suffix _).subset hmem)
  have hne : (trim (key ++ '=' :: value)).isEmpty = false := by
    rw [htrim]
    simp
  have hparts : splitFirst? '=' (trim (key ++ '=' :: value)) =
      some (key.dropWhile isBlank, dropEndWhile isBlank value) := by
    rw [htrim, splitFirst?_append hkey']
  rw [Line.read, if_neg (by simp [hne, hhash]), if_neg (by simpa using hheader), hparts]
  dsimp only
  rw [trim, dropBoth_dropWhile, trim, dropBoth_dropEndWhile, ← trim, ← trim]

/-- A line without a `=` says nothing. -/
theorem Line.read_of_not_mem
    (hheader : ¬((trim line).head? = some '[' ∧ (trim line).getLast? = some ']')) (h : '=' ∉ line) :
    Line.read line = .nothing := by
  have hnone : splitFirst? '=' (trim line) = none :=
    splitFirst?_of_not_mem fun hmem => h (dropBoth_subset isBlank line hmem)
  rw [Line.read]
  split
  next => rfl
  next => rw [if_neg (by simpa using hheader), hnone]

/-! ## Line after line -/

/-- What a line makes of the header and the settings that it finds. -/
def Line.apply (header : List Char) (s : Settings) : Line → Option (List Char × Settings)
  | .nothing => some (header, s)
  | .header name => some (name, s)
  | .entry key value =>
    (s.set? (String.ofList header) (String.ofList key) value).map fun next => (header, next)

/-- Lines are read one after the other. -/
theorem readLines_cons_eq_ok_iff {number : Nat} {header : List Char} {s t : Settings}
    {lines : List (List Char)} :
    readLines number header s (line :: lines) = .ok t ↔
      ∃ next u, (Line.read line).apply header s = some (next, u) ∧
      readLines (number + 1) next u lines = .ok t := by
  rw [readLines]
  cases Line.read line with
  | nothing => simp [Line.apply]
  | header name => simp [Line.apply]
  | entry key value =>
    dsimp only [Line.apply]
    cases s.set? (String.ofList header) (String.ofList key) value with
    | none => simp
    | some next => simp

end

/-! ## Fields -/

/-- What a project file can set. -/
inductive Field where
  | name
  | source
  | output
  | lead
  | extension
  | workers
deriving DecidableEq

/-- The header that a field is set under. -/
def Field.header : Field → String
  | .workers => "dispatch"
  | _ => "project"

/-- The key of a field. -/
def Field.key : Field → String
  | .name => "name"
  | .source => "source"
  | .output => "output"
  | .lead => "prefix"
  | .extension => "extension"
  | .workers => "workers"

/-- Two fields have two keys. -/
theorem Field.key_inj {f g : Field} (h : f.key = g.key) : f = g := by
  revert h
  cases f <;> cases g <;> decide

/-- The text of a field. -/
def get : Field → String
  | .name => s.name
  | .source => s.source
  | .output => s.output
  | .lead => s.lead
  | .extension => s.extension
  | .workers => toString s.workers

/-- What a value sets a field to. Points in front of an extension are left out. -/
def Field.clean : Field → List Char → String
  | .extension, value => String.ofList (value.dropWhile (· == '.'))
  | _, value => String.ofList value

/-- A number is what its digits say. -/
theorem ofDigits_toDigits (n : Nat) : ofDigits (Nat.toDigits 10 n) = n := by
  rw [ofDigits, ← Nat.ofDigitChars_eq_foldl, Nat.ofDigitChars_ten_toDigits]

/-- Two numbers are written in two ways. -/
theorem toString_inj {m n : Nat} (h : toString m = toString n) : m = n := by
  rw [Nat.toString_eq_ofList_toDigits, Nat.toString_eq_ofList_toDigits] at h
  rw [← ofDigits_toDigits m, String.ofList_injective h, ofDigits_toDigits]

/-- Settings are what their fields are. -/
theorem ext_get {s t : Settings} (h : ∀ f, s.get f = t.get f) : s = t := by
  obtain ⟨name, source, output, lead, extension, workers⟩ := s
  obtain rfl := h .name
  obtain rfl := h .source
  obtain rfl := h .output
  obtain rfl := h .lead
  obtain rfl := h .extension
  obtain rfl := toString_inj (h .workers)
  rfl

/-- A number below `2 ^ 64` is read as it is written. -/
theorem readCount?_toString {n : Nat} (h : n < UInt64.size) :
    readCount? (toString n).toList = some n := by
  rw [Nat.toString_eq_ofList_toDigits, String.toList_ofList]
  have hdigit : ∀ c ∈ Nat.toDigits 10 n, c.isDigit = true :=
    fun c hc => Nat.isDigit_of_mem_toDigits (by decide) (by decide) hc
  have hall : (Nat.toDigits 10 n).all (fun c => '0' ≤ c && c ≤ '9') = true := by
    rw [all_eq_true]
    intro c hc
    simpa [Char.isDigit, Char.le_def] using hdigit c hc
  unfold readCount?
  split
  next rest hrest => exact absurd (hdigit '+' (hrest ▸ mem_cons_self)) (by decide)
  next =>
    dsimp only
    rw [ofDigits_toDigits, if_neg (by simp [hall, Nat.toDigits_ne_nil]), if_pos h]

/-- Keys that are not known under a header are passed over. -/
theorem set?_of_unknown {header key : String} (h : ∀ f : Field, f.header = header → f.key ≠ key)
    (s : Settings) (value : List Char) : s.set? header key value = some s := by
  unfold set?
  split
  next => exact absurd rfl (h .name rfl)
  next => exact absurd rfl (h .source rfl)
  next => exact absurd rfl (h .output rfl)
  next => exact absurd rfl (h .lead rfl)
  next => exact absurd rfl (h .extension rfl)
  next => exact absurd rfl (h .workers rfl)
  next => rfl

/-- The number of threads is a number. -/
theorem set?_workers (value : List Char) :
    s.set? Field.workers.header Field.workers.key value = (readCount? value).map fun workers =>
      { s with workers } := rfl

/-- An entry of a field sets this field and no other. -/
theorem exists_set? (f : Field) (value : List Char)
    (h : f = .workers → ∃ n, readCount? value = some n ∧ String.ofList value = toString n) :
    ∃ next, s.set? f.header f.key value = some next ∧
      ∀ g, next.get g = if g = f then f.clean value else s.get g := by
  cases f with
  | workers =>
    obtain ⟨n, hcount, htext⟩ := h rfl
    refine ⟨{ s with workers := n }, ?_, fun g => ?_⟩
    · rw [set?_workers, hcount]
      rfl
    · cases g with
      | workers => exact htext.symm
      | _ => rfl
  | _ => exact ⟨_, rfl, fun g => by cases g <;> rfl⟩

end Settings

end ComputeKernel
