import ComputeKernel.Proofs.Project.Lines
import ComputeKernel.Proofs.Project.Search

/-!
# Written project files

A project file is written row by row: empty rows, comments, headers in brackets and entries, with
blanks at the ends of a row and around a `=` (`Settings.Row`). Texts stand in quotes, where
everything but a quote is kept as it is, and the number of threads is a number. Keys that are not
known under their header are left alone. Loading such a file gives back what it sets: of a field
that is set more than once the last value, and of one that is not set the default.
-/

namespace ComputeKernel

open Project ComputeKernel.Path

namespace Settings

open ComputeKernel.Text
variable {c : Char} {cs : List Char} {key : Wording}
variable (doc : Document) (row : Row)

/-! ## Documents -/

/-- A key or a value as it is written: bare or in quotes. -/
inductive Wording where
  | bare (text : String)
  | quoted (text : String)
deriving DecidableEq

/-- What is meant. -/
def Wording.text : Wording → String
  | .bare text => text
  | .quoted text => text

/-- The characters as they are written. -/
def Wording.chars : Wording → List Char
  | .bare text => text.toList
  | .quoted text => '"' :: text.toList ++ ['"']

/-- A bare key has no blanks in it, and nothing that starts something else. -/
def Wording.IsKey : Wording → Prop
  | .bare text => text ≠ "" ∧ ∀ c ∈ text.toList, isBlank c = false ∧ c ∉ ['"', '=', '#', '[']
  | .quoted text => ∀ c ∈ text.toList, c ∉ ['"', '=', '\n']

instance (w : Wording) : Decidable w.IsKey :=
  match w with
  | .bare text => @instDecidableAnd _ _ _ (List.decidableBAll _ text.toList)
  | .quoted text => List.decidableBAll _ text.toList

/-- What a row says. -/
inductive Item where
  | empty
  | comment (text : String)
  | header (name : String)
  | entry (key value : Wording)

/-- What can be said in one row. -/
def Item.Valid : Item → Prop
  | .empty => True
  | .comment text => '\n' ∉ text.toList
  | .header name => '\n' ∉ name.toList
  | .entry key value => key.IsKey ∧ '\n' ∉ value.text.toList

instance (item : Item) : Decidable item.Valid :=
  match item with
  | .empty => inferInstanceAs (Decidable True)
  | .comment text => inferInstanceAs (Decidable ('\n' ∉ text.toList))
  | .header name => inferInstanceAs (Decidable ('\n' ∉ name.toList))
  | .entry _ _ => inferInstanceAs (Decidable (_ ∧ _))

/-- Blanks within a row. -/
structure Blanks where
  chars : List Char
  blank : ∀ c ∈ chars, isBlank c = true ∧ c ≠ '\n'

/-- No blanks. -/
def Blanks.none : Blanks := ⟨[], List.forall_mem_nil _⟩

/-- One blank. -/
def Blanks.single (c : Char) (h : isBlank c = true ∧ c ≠ '\n' := by decide) : Blanks :=
  ⟨[c], List.forall_mem_singleton.2 h⟩

/-- What a row says, with the blanks at its ends and around its `=`. -/
structure Row where
  item : Item
  front : Blanks := .none
  before : Blanks := .single ' '
  after : Blanks := .single ' '
  back : Blanks := .none
  valid : item.Valid := by decide

/-- The characters of a row without the blanks at its ends. -/
def Row.body : List Char :=
  match row.item with
  | .empty => []
  | .comment text => '#' :: text.toList
  | .header name => '[' :: name.toList ++ [']']
  | .entry key value => (key.chars ++ row.before.chars) ++ '=' :: (row.after.chars ++ value.chars)

/-- The characters of a row. -/
def Row.chars : List Char := row.front.chars ++ row.body ++ row.back.chars

/-- A header as it counts: without blanks at its ends. -/
def trimmed (name : String) : String := String.ofList (trim name.toList)

/-- The last value of a field in rows that start under a header. -/
def lastUnder (f : Field) (header : String) : List Row → Option String
  | [] => none
  | row :: rows =>
    match row.item with
    | .header name => lastUnder f (trimmed name) rows
    | .entry key value =>
      (lastUnder f header rows).or (if f.header = header ∧
        f.key = key.text then some value.text else none)
    | _ => lastUnder f header rows

/-- A number below `2 ^ 64`. -/
def Wording.IsCount : Wording → Prop
  | .bare text => ∃ n < UInt64.size, text = toString n
  | .quoted _ => False

/-- A text in quotes, without other ones. -/
def Wording.IsPhrase : Wording → Prop
  | .bare _ => False
  | .quoted text => '"' ∉ text.toList

/-- How the value of a field is written. -/
def Field.Takes (f : Field) (value : Wording) : Prop :=
  if f = .workers then value.IsCount else value.IsPhrase

/-- Rows under a header, in which the values of fields are written well. -/
def Proper (header : String) : List Row → Prop
  | [] => True
  | row :: rows =>
    match row.item with
    | .header name => Proper (trimmed name) rows
    | .entry key value =>
      (∀ f : Field, f.header = header → f.key = key.text → f.Takes value) ∧ Proper header rows
    | _ => Proper header rows

instance (value : Wording) : Decidable value.IsCount :=
  match value with
  | .bare text =>
    decidable_of_iff (ofDigits text.toList < UInt64.size ∧
        text = toString (ofDigits text.toList)) <| by
      constructor
      · rintro ⟨hsize, htext⟩
        exact ⟨_, hsize, htext⟩
      · rintro ⟨n, hn, rfl⟩
        have hvalue : ofDigits (toString n).toList = n := by
          rw [Nat.toString_eq_ofList_toDigits, String.toList_ofList, ofDigits_toDigits]
        rw [hvalue]
        exact ⟨hn, rfl⟩
  | .quoted _ => inferInstanceAs (Decidable False)

instance (value : Wording) : Decidable value.IsPhrase :=
  match value with
  | .bare _ => inferInstanceAs (Decidable False)
  | .quoted text => inferInstanceAs (Decidable ('"' ∉ text.toList))

instance (f : Field) (value : Wording) : Decidable (f.Takes value) :=
  inferInstanceAs (Decidable (ite _ _ _))

instance {P : Field → Prop} [DecidablePred P] : Decidable (∀ f, P f) :=
  decidable_of_iff (∀ f ∈ [Field.name, .source, .output, .lead, .extension, .workers], P f)
    ⟨fun h f => h f (by cases f <;> decide), fun h f _ => h f⟩

instance decidableProper : (header : String) → (rows : List Row) → Decidable (Proper header rows)
  | _, [] => inferInstanceAs (Decidable True)
  | header, ⟨.empty, _, _, _, _, _⟩ :: rows => decidableProper header rows
  | header, ⟨.comment _, _, _, _, _, _⟩ :: rows => decidableProper header rows
  | _, ⟨.header name, _, _, _, _, _⟩ :: rows => decidableProper (trimmed name) rows
  | header, ⟨.entry key value, _, _, _, _, _⟩ :: rows =>
    have := decidableProper header rows
    inferInstanceAs (Decidable ((∀ f : Field, f.header = header → f.key = key.text →
      f.Takes value) ∧ Proper header rows))

/-- A project file. -/
structure Document where
  rows : List Row
  proper : Proper "" rows

/-- The text of a project file. -/
def Document.text : String := String.ofList (['\n'].intercalate (doc.rows.map Row.chars))

/-- The last value of a field. -/
def Document.last? (f : Field) : Option String := lastUnder f "" doc.rows

/-! ## Rows -/

/-- Blanks are blank. -/
theorem Blanks.all (blanks : Blanks) : ∀ c ∈ blanks.chars, isBlank c = true :=
  fun c hc => (blanks.blank c hc).1

/-- Nothing else is among them. -/
theorem Blanks.not_mem (blanks : Blanks) (hc : isBlank c = false) : c ∉ blanks.chars := by
  intro hmem
  rw [blanks.all c hmem] at hc
  cases hc

/-- Blanks at the ends do not count. -/
theorem trim_padded (front back : Blanks) (cs : List Char) :
    trim (front.chars ++ cs ++ back.chars) = trim cs :=
  dropBoth_padded front.all back.all cs

/-- The first character of a row that is not blank. -/
theorem head?_trim_row (front : Blanks) (hc : isBlank c = false) (cs : List Char) :
    (trim (front.chars ++ c :: cs)).head? = some c := by
  rw [trim, dropBoth_append_cons hc, List.dropWhile_eq_nil_iff.2 front.all]
  rfl

/-- Nothing is trimmed without blanks. -/
theorem trim_eq_self (h : ∀ c ∈ cs, isBlank c = false) : trim cs = cs :=
  dropBoth_eq_self (fun c hc => h c (List.mem_of_head? hc)) fun c hc =>
    h c (List.mem_of_getLast? hc)

/-- Between two marks that are not blank, blanks are kept. -/
theorem trim_between {left right : Char} (hleft : isBlank left = false)
    (hright : isBlank right = false) (cs : List Char) :
    trim (left :: cs ++ [right]) = left :: cs ++ [right] := by
  refine dropBoth_eq_self (fun c hc => ?_) fun c hc => ?_
  · cases hc
    exact hleft
  · rw [List.getLast?_concat] at hc
    cases hc
    exact hright

/-- Nothing is lost without quotes. -/
theorem unquote_eq_self (h : '"' ∉ cs) : unquote cs = cs := by
  have hquote {c : Char} (hc : c ∈ cs) : (c == '"') = false :=
    beq_false_of_ne fun heq => h (heq ▸ hc)
  exact dropBoth_eq_self (fun c hc => hquote (List.mem_of_head? hc)) fun c hc =>
    hquote (List.mem_of_getLast? hc)

/-- Quotes around a text without quotes are left out. -/
theorem unquote_quotes (h : '"' ∉ cs) : unquote ('"' :: cs ++ ['"']) = cs := by
  have hquote : ∀ c ∈ ['"'], (c == '"') = true := List.forall_mem_singleton.2 (by decide)
  exact (dropBoth_padded hquote hquote cs).trans (unquote_eq_self h)

/-- A key is read as it is meant. -/
theorem Wording.IsKey.unquote_trim (h : key.IsKey) :
    unquote (trim key.chars) = key.text.toList := by
  cases key with
  | bare text =>
    have hquote : '"' ∉ text.toList := fun hmem => (h.2 _ hmem).2 (by decide)
    rw [Wording.chars, trim_eq_self fun c hc => (h.2 c hc).1, unquote_eq_self hquote, Wording.text]
  | quoted text =>
    have hquote : '"' ∉ text.toList := fun hmem => h _ hmem (by decide)
    rw [Wording.chars, trim_between (by decide) (by decide), unquote_quotes hquote, Wording.text]

/-- A key starts neither a comment nor a header. -/
theorem Wording.IsKey.exists_first (h : key.IsKey) :
    ∃ c rest, key.chars = c :: rest ∧ isBlank c = false ∧ c ≠ '#' ∧ c ≠ '[' := by
  cases key with
  | bare text =>
    cases htext : text.toList with
    | nil => exact absurd (String.toList_eq_nil_iff.1 htext) h.1
    | cons c rest =>
      obtain ⟨hblank, hc⟩ := h.2 c (htext ▸ List.mem_cons_self)
      refine ⟨c, rest, htext, hblank, ?_, ?_⟩
      · rintro rfl
        exact hc (by decide)
      · rintro rfl
        exact hc (by decide)
  | quoted text => exact ⟨'"', _, rfl, by decide, by decide, by decide⟩

/-- A key has no `=` in it. -/
theorem Wording.IsKey.not_mem (h : key.IsKey) : '=' ∉ key.chars := by
  cases key with
  | bare text => exact fun hmem => (h.2 _ hmem).2 (by decide)
  | quoted text =>
    intro hmem
    have htext : '=' ∈ text.toList := by simpa [Wording.chars] using hmem
    exact h _ htext (by decide)

/-- What a row is read as. -/
def Item.line : Item → Line
  | .header name => .header (trim name.toList)
  | .entry key value => .entry key.text.toList (unquote (stripComment (trim value.chars)))
  | _ => .nothing

/-- A row is read as what it says. -/
theorem Row.read_chars : Line.read row.chars = row.item.line := by
  obtain ⟨item, front, before, after, back, valid⟩ := row
  cases item with
  | empty =>
    refine Line.read_of_blank fun c hc => ?_
    rcases List.mem_append.1 hc with hc | hc
    · rw [Row.body, List.append_nil] at hc
      exact front.all c hc
    · exact back.all c hc
  | comment text =>
    refine Line.read_of_comment ?_
    rw [Row.chars, List.append_assoc]
    exact head?_trim_row front (by decide) (text.toList ++ back.chars)
  | header name =>
    have hchars := (trim_padded front back ('[' :: name.toList ++ [']'])).trans
      (trim_between (by decide) (by decide) name.toList)
    have hread := @Line.read_of_brackets (front.chars ++
      ('[' :: name.toList ++ [']']) ++ back.chars)
    rw [hchars] at hread
    refine (hread rfl List.getLast?_concat).trans ?_
    rw [List.cons_append, List.drop_one, List.tail_cons, List.dropLast_concat]
    rfl
  | entry key value =>
    obtain ⟨hkey, -⟩ := valid
    have hchars : (front.chars ++
      ((key.chars ++ before.chars) ++ '=' :: (after.chars ++ value.chars)) ++ back.chars) =
        (front.chars ++ key.chars ++ before.chars) ++ '=' ::
            (after.chars ++ value.chars ++ back.chars) := by
      simp
    have hsplit : '=' ∉ front.chars ++ key.chars ++ before.chars := by
      have hblank : isBlank '=' = false := by decide
      simp [front.not_mem hblank, hkey.not_mem, before.not_mem hblank]
    obtain ⟨c, rest, hfirst, hblank, hhash, hbracket⟩ := hkey.exists_first
    have hhead : (trim ((front.chars ++ key.chars ++ before.chars) ++
        '=' :: (after.chars ++ value.chars ++ back.chars))).head? = some c := by
      rw [hfirst]
      simpa using head?_trim_row front hblank (rest ++ before.chars ++ '=' ::
        (after.chars ++ value.chars ++ back.chars))
    rw [Row.chars, Row.body, hchars]
    refine (Line.read_of_split ?_ ?_ (splitFirst?_append hsplit _)).trans ?_
    · rw [hhead]
      simpa using hhash
    · rw [hhead]
      simp [hbracket]
    · rw [trim_padded, trim_padded, hkey.unquote_trim]
      rfl

/-- It is one line. -/
theorem Row.not_mem_chars : '\n' ∉ row.chars := by
  have hblanks (blanks : Blanks) : '\n' ∉ blanks.chars := fun hmem => (blanks.blank _ hmem).2 rfl
  have hbody : '\n' ∉ row.body := by
    obtain ⟨item, front, before, after, back, valid⟩ := row
    cases item with
    | empty => exact List.not_mem_nil
    | comment text => exact List.not_mem_cons_of_ne_of_not_mem (by decide) valid
    | header name =>
      have hname : '\n' ∉ name.toList := valid
      simp [Row.body, hname]
    | entry key value =>
      obtain ⟨hkey, hvalue⟩ := valid
      have hkey' : '\n' ∉ key.chars := by
        cases key with
        | bare text => exact fun hmem => absurd (hkey.2 _ hmem).1 (by decide)
        | quoted text =>
          have htext : '\n' ∉ text.toList := fun hmem => hkey _ hmem (by decide)
          simp [Wording.chars, htext]
      have hvalue' : '\n' ∉ value.chars := by
        cases value with
        | bare text => exact hvalue
        | quoted text =>
          have htext : '\n' ∉ text.toList := hvalue
          simp [Wording.chars, htext]
      simp [Row.body, hkey', hvalue', hblanks before, hblanks after]
  simp [Row.chars, hbody, hblanks row.front, hblanks row.back]

/-! ## Values -/

/-- In quotes, everything up to the next quote is kept. -/
theorem beforeComment_quoted (h : '"' ∉ cs) (ds : List Char) :
    beforeComment true (cs ++ '"' :: ds) = cs ++ '"' :: beforeComment false ds := by
  induction cs with
  | nil => simp [beforeComment]
  | cons c cs ih =>
    obtain ⟨hc, hcs⟩ := List.ne_and_not_mem_of_not_mem_cons h
    rw [List.cons_append, beforeComment, if_neg (Ne.symm hc), if_neg (by simp), ih hcs,
      List.cons_append]

/-- What is in quotes has no comment. -/
theorem stripComment_quotes (h : '"' ∉ cs) :
    stripComment ('"' :: cs ++ ['"']) = '"' :: cs ++ ['"'] := by
  have hkept : beforeComment false ('"' :: cs ++ ['"']) = '"' :: cs ++ ['"'] := by
    have := beforeComment_quoted h []
    simpa [beforeComment] using this
  have hend := dropEndWhile_append_cons (show isBlank '"' = false by decide) ('"' :: cs) []
  rw [stripComment, hkept, hend]
  rfl

/-- No digit is blank. -/
theorem isBlank_of_isDigit (h : c.isDigit = true) : isBlank c = false := by
  rw [Char.isDigit, Bool.and_eq_true, decide_eq_true_eq, decide_eq_true_eq] at h
  have hlow : 48 ≤ c.toNat := UInt32.le_iff_toNat_le.1 h.1
  have hhigh : c.toNat ≤ 57 := UInt32.le_iff_toNat_le.1 h.2
  rw [isBlank]
  simp only [Bool.or_eq_false_iff, Bool.and_eq_false_iff, decide_eq_false_iff_not,
    beq_eq_false_iff_ne]
  omega

/-- The value of a field is read as it is meant. -/
theorem Field.Takes.read_value {f : Field} {value : Wording} (h : f.Takes value) :
    unquote (stripComment (trim value.chars)) = value.text.toList ∧
      (f = .workers → ∃ n, readCount? value.text.toList = some n ∧ value.text = toString n) := by
  unfold Field.Takes at h
  split at h
  next =>
    cases value with
    | quoted text => exact absurd h id
    | bare text =>
      obtain ⟨n, hn, rfl⟩ := h
      have hdigit : ∀ c ∈ (toString n).toList, c.isDigit = true := by
        rw [Nat.toString_eq_ofList_toDigits, String.toList_ofList]
        exact fun c hc => Nat.isDigit_of_mem_toDigits (by decide) (by decide) hc
      have hblank : ∀ c ∈ (toString n).toList, isBlank c = false :=
        fun c hc => isBlank_of_isDigit (hdigit c hc)
      have hnot {c : Char} (hc : c.isDigit = false) : c ∉ (toString n).toList := by
        intro hmem
        rw [hdigit c hmem] at hc
        cases hc
      refine ⟨?_, fun _ => ⟨n, readCount?_toString hn, rfl⟩⟩
      rw [Wording.chars, trim_eq_self hblank, stripComment_of_not_mem (hnot (by decide)),
        dropEndWhile_eq_self fun c hc => hblank c (List.mem_of_getLast? hc),
          unquote_eq_self (hnot (by decide)),
        Wording.text]
  next hf =>
    cases value with
    | bare text => exact absurd h id
    | quoted text =>
      refine ⟨?_, fun hworkers => absurd hworkers hf⟩
      rw [Wording.chars, trim_between (by decide) (by decide), stripComment_quotes h,
        unquote_quotes h, Wording.text]

/-! ## Reading a document -/

/-- An entry sets the field that it names under its header, if there is one. -/
theorem exists_apply_entry {key value : Wording} {header : String}
    (hvalue : ∀ f : Field, f.header = header → f.key = key.text → f.Takes value) (s : Settings) :
    ∃ u, (Item.entry key value).line.apply header.toList s = some (header.toList, u) ∧
      ∀ g, u.get g = if g.header = header ∧
      g.key = key.text then g.clean value.text.toList else s.get g := by
  rw [Item.line, Line.apply, String.ofList_toList, String.ofList_toList]
  by_cases hknown : ∃ f : Field, f.header = header ∧ f.key = key.text
  · obtain ⟨f, rfl, hkey⟩ := hknown
    obtain ⟨hread, hcount⟩ := (hvalue f rfl hkey).read_value
    obtain ⟨u, hset, hget⟩ : ∃ u, s.set? f.header f.key value.text.toList = some u ∧
        ∀ g, u.get g = if g = f then f.clean value.text.toList else s.get g := by
      refine exists_set? s f _ fun hf => ?_
      obtain ⟨n, hn, htext⟩ := hcount hf
      exact ⟨n, hn, String.ofList_toList.trans htext⟩
    rw [hread, ← hkey, hset]
    refine ⟨u, rfl, fun g => ?_⟩
    rw [hget g]
    by_cases hg : g = f
    · subst hg
      rw [if_pos rfl, if_pos ⟨rfl, rfl⟩]
    · rw [if_neg hg, if_neg fun h => hg (Field.key_inj h.2)]
  · rw [set?_of_unknown fun f hf hkey => hknown ⟨f, hf, hkey⟩]
    exact ⟨s, rfl, fun g => (if_neg fun h => hknown ⟨g, h⟩).symm⟩

/-- Reading rows sets each field to its last value, if it has one. -/
theorem exists_readLines {rows : List Row} {header : String} (hrows : Proper header rows)
    (number : Nat) (s : Settings) :
    ∃ t, readLines number header.toList s (rows.map Row.chars) = .ok t ∧
      ∀ f, t.get f =
        ((lastUnder f header rows).map fun value => f.clean value.toList).getD (s.get f) := by
  induction rows generalizing number header s with
  | nil => exact ⟨s, rfl, fun f => rfl⟩
  | cons row rows ih =>
    have hstep {next : String} {u t : Settings} (happly : row.item.line.apply header.toList s =
      some (next.toList, u))
        (hrest : readLines (number + 1) next.toList u (rows.map Row.chars) = .ok t) :
        readLines number header.toList s ((row :: rows).map Row.chars) = .ok t :=
      readLines_cons_eq_ok_iff.2 ⟨next.toList, u, row.read_chars ▸ happly, hrest⟩
    unfold lastUnder
    unfold Proper at hrows
    cases hitem : row.item with
    | empty =>
      rw [hitem] at hrows hstep
      obtain ⟨t, hrun, ht⟩ := ih hrows (number + 1) s
      exact ⟨t, hstep rfl hrun, ht⟩
    | comment text =>
      rw [hitem] at hrows hstep
      obtain ⟨t, hrun, ht⟩ := ih hrows (number + 1) s
      exact ⟨t, hstep rfl hrun, ht⟩
    | header name =>
      rw [hitem] at hrows hstep
      obtain ⟨t, hrun, ht⟩ := ih hrows (number + 1) s
      refine ⟨t, hstep ?_ hrun, ht⟩
      rw [trimmed, String.toList_ofList]
      rfl
    | entry key value =>
      rw [hitem] at hrows hstep
      obtain ⟨hvalue, hrest⟩ := hrows
      obtain ⟨u, happly, hget⟩ := exists_apply_entry hvalue s
      obtain ⟨t, hrun, ht⟩ := ih hrest (number + 1) u
      refine ⟨t, hstep happly hrun, fun g => ?_⟩
      rw [ht g, hget g]
      cases lastUnder g header rows with
      | some last => rfl
      | none => by_cases hg : g.header = header ∧ g.key = key.text <;> simp [hg]

/-- A document sets each field to its last value, or leaves the default. -/
theorem Document.exists_read (h : doc.rows ≠ []) :
    ∃ t, read doc.text = .ok t ∧
      ∀ f, t.get f =
        ((doc.last? f).map fun value => f.clean value.toList).getD (({} : Settings).get f) := by
  have hlines : split '\n' doc.text.toList = doc.rows.map Row.chars := by
    rw [Document.text, String.toList_ofList]
    exact split_intercalate '\n' (List.map_eq_nil_iff.not.2 h)
      (List.forall_mem_map.2 fun row _ => row.not_mem_chars)
  rw [read, hlines]
  exact exists_readLines doc.proper 1 {}

/-- Without a point in front, a value is taken as it is. -/
theorem Field.clean_eq {f : Field} {value : String}
    (h : f = .extension → value.toList.head? ≠ some '.') :
    f.clean value.toList = value := by
  cases f with
  | extension =>
    have hpoint : value.toList.dropWhile (· == '.') = value.toList := by
      cases hvalue : value.toList with
      | nil => rfl
      | cons c cs =>
        have hc : c ≠ '.' := by
          rintro rfl
          exact h rfl (by rw [hvalue]; rfl)
        exact List.dropWhile_cons_of_neg (by simp [hc])
    rw [Field.clean, hpoint, String.ofList_toList]
  | _ => exact String.ofList_toList

end Settings

open Settings

/-- Loading a written project file gives back what it sets. -/
theorem load_document {doc : Document} {s : Settings} {d : Disk} {path : String}
    (hread : d.read path = .ok doc.text)
    (hset : ∀ f, (doc.last? f).getD (({} : Settings).get f) = s.get f)
    (hname : s.name ≠ "") (hextension : s.extension.toList.head? ≠ some '.') :
    (load path : StateM Disk _) d =
      (.ok
        { name := s.name
          rootDir := (parent? path).getD "."
          sourceDir := join ((parent? path).getD ".") s.source
          outputDir := join ((parent? path).getD ".") s.output
          lead := s.lead
          extension := s.extension
          workers := s.workers }, d) := by
  have hrows : doc.rows ≠ [] := by
    intro hnil
    have hdefault := hset .name
    rw [Document.last?, hnil] at hdefault
    exact hname hdefault.symm
  obtain ⟨t, ht, hget⟩ := doc.exists_read hrows
  have hsame : t = s := by
    refine ext_get fun f => ?_
    rw [hget, ← hset]
    cases hlast : doc.last? f with
    | none => rfl
    | some value =>
      refine Field.clean_eq fun hf => ?_
      have hvalue := hset f
      rw [hlast, hf] at hvalue
      exact (show value = s.extension from hvalue) ▸ hextension
  exact (load_eq_ok_iff hread).2 ⟨s, hsame ▸ ht, hname, rfl⟩

namespace Ledger

/-- Sections with a field that is set twice, unknown keys and quoted marks. -/
def document : Document where
  rows := [
    { item := .comment "[x" },
    { item := .header " project " },
    { item := .entry (.bare "name") (.quoted "a") },
    { item := .entry (.bare "key") (.bare "\"1\" # =") },
    { item := .empty, front := .single '\t' },
    { item := .header "dispatch", back := .single '\r' },
    { item := .entry (.bare "name") (.quoted "b") },
    { item := .entry (.bare "workers") (.bare "18446744073709551615") },
    { item := .header "project" },
    { item := .entry (.quoted "name") (.quoted " # = [c] "), before := .none }]
  proper := by decide +kernel

/-- What it sets. -/
def settings : Settings := { name := " # = [c] ", workers := 18446744073709551615 }

end Ledger

/-- Marks and blanks in quotes are kept, the last value holds, and what is not known is left
alone. -/
theorem load_ledger :
    Ledger.document.text =
        "#[x\n[ project ]\nname = \"a\"\nkey = \"1\" # =\n\t\n[dispatch]\r\nname = \"b\"\n" ++
          "workers = 18446744073709551615\n[project]\n\"name\"= \" # = [c] \"" ∧
      (load "/rspu.toml" : StateM Disk _) (diskWith Ledger.document.text) =
        (.ok
          { name := " # = [c] "
            rootDir := "/"
            sourceDir := "/kernels"
            outputDir := "/generated"
            lead := "rspu-"
            extension := "compute"
            workers := 18446744073709551615 }, diskWith Ledger.document.text) := by
  have hset : ∀ f, (Ledger.document.last? f).getD (({} : Settings).get f) =
      Ledger.settings.get f := by
    decide +kernel
  have hload := load_document (read_diskWith _) hset (by decide) (by decide)
  have hparent : (parent? "/rspu.toml").getD "." = "/" := by decide +kernel
  have hsource : join "/" Ledger.settings.source = "/kernels" := by decide +kernel
  have houtput : join "/" Ledger.settings.output = "/generated" := by decide +kernel
  rw [hparent, hsource, houtput] at hload
  exact ⟨by decide +kernel, hload⟩

end ComputeKernel
