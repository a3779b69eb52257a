import Mathlib.Data.List.TakeDrop
import ComputeKernel.Json.Document

/-!
# Reading a compact text back

The compact text of a value is read as the value that it was made of. A text is read as a
`Document`, which has lines as well; a compact text has no line breaks, so all lines are the one it
begins on (`Value.document`).

Strings and numbers are read back first (`readString_escaped`, `numberDocument_natural`). A string
may have any characters, but a number has to be whole and fit in 64 bits (`Value.Plain`). Then
`readValue_chars` follows the values. What stands after the text is left over; it must not go on a
number, and inside a value it never does.
-/

namespace ComputeKernel.Json

open List

variable {c : Char} {more rest : List Char}
variable (n : Nat)

/-! ## Strings -/

/-- The escape of a control character. -/
theorem hexValue4_digitChar : ∀ n < 32,
    hexValue4 '0' '0' (Nat.digitChar (n / 16)) (Nat.digitChar (n % 16)) = some n := by
  decide

/-- A control character is read from its unit. -/
theorem readUnits_control (hc : c.toNat < 32) (rest : List Char) (line : Nat) :
    readUnits ('0' :: '0' :: Nat.digitChar (c.toNat / 16) ::
      Nat.digitChar (c.toNat % 16) :: rest) line
      = .ok (c, rest) := by
  have hlow : isLowSurrogate c.toNat = false := by
    simp only [isLowSurrogate, Bool.and_eq_false_iff, decide_eq_false_iff_not]
    omega
  have hhigh : isHighSurrogate c.toNat = false := by
    simp only [isHighSurrogate, Bool.and_eq_false_iff, decide_eq_false_iff_not]
    omega
  simp only [readUnits, readHex, hexValue4_digitChar _ hc, bind, Except.bind, hlow, hhigh]
  rw [Char.ofNat_toNat]
  rfl

/-- A character that stands for itself. -/
theorem readString_plain (hquote : c ≠ '"') (hslash : c ≠ '\\') (hc : ¬ c.toNat < 32) (fuel : Nat)
    (rest : List Char) (line : Nat) :
    readString (fuel + 1) (c :: rest) line
      = (readString fuel rest line).map fun (text, cursor) => (c :: text, cursor) := by
  rw [readString]
  · rw [if_neg hc]
    cases readString fuel rest line with
    | ok p => rfl
    | error e => rfl
  · exact hquote
  · exact fun h _ => hslash h
  · exact fun _ h _ => hslash h
  · exact fun _ _ h _ => hslash h

/-- A character that is written with a backslash. -/
theorem readString_simple {e c : Char} (he : simpleEscape e = some c) (fuel : Nat)
    (rest : List Char) (line : Nat) :
    readString (fuel + 1) ('\\' :: e :: rest) line
      = (readString fuel rest line).map fun (text, cursor) => (c :: text, cursor) := by
  have hu : e ≠ 'u' := by
    rintro rfl
    cases he
  rw [readString]
  · rw [he]
    cases readString fuel rest line with
    | ok p => rfl
    | error e => rfl
  · exact fun h => hu h

/-- A character that is written as a unit. -/
theorem readString_unit {fuel line : Nat} {cs rest : List Char}
    (h : readUnits cs line = .ok (c, rest)) :
    readString (fuel + 1) ('\\' :: 'u' :: cs) line
      = (readString fuel rest line).map fun (text, cursor) => (c :: text, cursor) := by
  rw [readString, h]
  simp only [bind, Except.bind]
  cases readString fuel rest line with
  | ok p => rfl
  | error e => rfl

/-- One character is read back, and takes one unit of fuel. -/
theorem readString_escapedChar (fuel : Nat) (c : Char) (rest : List Char) (line : Nat) :
    readString (fuel + 1) (escapedChar c ++ rest) line
      = (readString fuel rest line).map fun (text, cursor) => (c :: text, cursor) := by
  unfold escapedChar
  by_cases hquote : c = '"'
  · subst hquote
    exact readString_simple rfl fuel rest line
  by_cases hslash : c = '\\'
  · subst hslash
    exact readString_simple rfl fuel rest line
  rw [if_neg hquote, if_neg hslash]
  iterate 5
    split
    next h => exact h ▸ readString_simple (by decide) fuel rest line
  split
  next hc => exact readString_unit (readUnits_control hc rest line)
  next hc => exact readString_plain hquote hslash hc fuel rest line

/-- The characters of a string are read back up to the closing quote. -/
theorem readString_escaped (rest : List Char) (line : Nat) :
    ∀ (cs : List Char) (fuel : Nat), cs.length < fuel →
      readString fuel (cs.flatMap escapedChar ++ '"' :: rest) line = .ok (cs, ⟨rest, line⟩)
  | _, 0, h => absurd h (Nat.not_lt_zero _)
  | [], fuel + 1, _ => rfl
  | c :: cs, fuel + 1, h => by
    have ih := readString_escaped rest line cs fuel (Nat.lt_of_succ_lt_succ h)
    rw [flatMap_cons, append_assoc, readString_escapedChar, ih]
    rfl

/-- A string is read back from after its opening quote. -/
theorem readQuotation_string (s : String) {fuel : Nat} (hfuel : s.toList.length < fuel)
    (rest : List Char) (line : Nat) :
    readQuotation fuel (s.toList.flatMap escapedChar ++ '"' :: rest) line =
      (.text line s, some ⟨rest, line⟩) := by
  rw [readQuotation, readString_escaped rest line _ _ hfuel]
  simp only [String.ofList_toList]

/-! ## Numbers -/

/-- What follows a text cannot go on a number. -/
def Stops (rest : List Char) : Prop :=
  ∀ c ∈ rest.head?, c.isDigit = false ∧ c ≠ '.' ∧ c ≠ 'e' ∧ c ≠ 'E'

/-- More digits never make a number smaller. -/
theorem le_ofDigitChars (cs : List Char) : ∀ n, n ≤ Nat.ofDigitChars 10 cs n := by
  induction cs with
  | nil => exact Nat.le_refl
  | cons c cs ih =>
    intro n
    rw [Nat.ofDigitChars_cons]
    exact Nat.le_trans (by omega) (ih _)

/-- A significand that stays below the bound takes all digits. -/
theorem extend_eq (cs : List Char) :
    ∀ n, Nat.ofDigitChars 10 cs n < UInt64.size → extend n cs = (Nat.ofDigitChars 10 cs n, []) := by
  induction cs with
  | nil => exact fun n _ => rfl
  | cons c cs ih =>
    intro n hn
    rw [Nat.ofDigitChars_cons] at hn ⊢
    have hfirst : 10 * n + digitValue c < UInt64.size :=
      Nat.lt_of_le_of_lt (le_ofDigitChars cs _) hn
    rw [extend, if_pos hfirst]
    exact ih _ hn

/-- The digits of a number come before what follows it. -/
theorem span_toDigits (hrest : Stops rest) :
    (Nat.toDigits 10 n ++ rest).span Char.isDigit = (Nat.toDigits 10 n, rest) := by
  have hdigits : ∀ c ∈ Nat.toDigits 10 n, c.isDigit = true :=
    fun c hc => Nat.isDigit_of_mem_toDigits (by decide) (by decide) hc
  rw [span_eq_takeWhile_dropWhile, takeWhile_append_of_pos hdigits,
    dropWhile_append_of_pos hdigits]
  cases rest with
  | nil => simp
  | cons c rest =>
    have hc := (hrest c rfl).1
    simp [hc]

/-- A number has no zero in front, unless it is zero. -/
theorem toDigits_zero_head {n : Nat} {cs : List Char} (h : Nat.toDigits 10 n = '0' :: cs) :
    cs = [] := by
  induction n using Nat.strongRecOn generalizing cs with
  | ind n ih =>
    by_cases hn : n < 10
    · rw [Nat.toDigits_of_lt_base hn] at h
      exact (List.cons.inj h).2.symm
    · -- The digits before the last one begin with a zero too, so they are no more than that zero.
      rw [Nat.toDigits_of_base_le (by decide) (Nat.le_of_not_lt hn)] at h
      cases hfront : Nat.toDigits 10 (n / 10) with
      | nil => exact absurd hfront Nat.toDigits_ne_nil
      | cons c front =>
        rw [hfront, cons_append] at h
        obtain ⟨rfl, -⟩ := List.cons.inj h
        obtain rfl := ih (n / 10) (by omega) hfront
        have hvalue := Nat.ofDigitChars_toDigits (b := 10) (n := n / 10) (by decide) (by decide)
        rw [hfront] at hvalue
        have hzero : n / 10 = 0 := hvalue.symm
        omega

/-- The digits of a number are read as a numeral. -/
theorem readNumeral_natural (hrest : Stops rest) (line : Nat) :
    readNumeral false (Nat.toDigits 10 n ++ rest) line
      = .ok ({ negative := false, whole := Nat.toDigits 10 n }, rest) := by
  rw [readNumeral, span_toDigits n hrest]
  split
  next h => exact absurd (congrArg Prod.fst h) Nat.toDigits_ne_nil
  next h => exact absurd (congrArg Prod.fst h) Nat.toDigits_ne_nil
  next h => exact absurd (toDigits_zero_head (congrArg Prod.fst h)) (cons_ne_nil _ _)
  next h =>
    cases h
    cases rest with
    | nil => rfl
    | cons c rest =>
      obtain ⟨-, hpoint, he, hE⟩ := hrest c rfl
      simp [hpoint, he, hE, bind, Except.bind, pure, Except.pure]

/-- A whole number of 64 bits is read back. -/
theorem numberDocument_natural {n : Nat} (hn : n < UInt64.size) (hrest : Stops rest) (line : Nat) :
    numberDocument false (Nat.toDigits 10 n ++ rest) line
      = (.number line (.natural n), some ⟨rest, line⟩) := by
  have hvalue := Nat.ofDigitChars_toDigits (b := 10) (n := n) (by decide) (by decide)
  have hextend := extend_eq (Nat.toDigits 10 n) 0 (hvalue.symm ▸ hn)
  rw [hvalue] at hextend
  simp only [numberDocument, readNumeral_natural n hrest, Numeral.value, hextend]
  rfl

/-! ## Values -/

namespace Value

mutual

/-- The document of the compact text of a value. -/
def document (line : Nat) : Value → Document
  | .null => .null line
  | .bool b => .bool line b
  | .number n => .number line n
  | .string s => .string line s
  | .array items => .array line (documents line items) line
  | .object members => .object line (entries line members) line

/-- The documents of the items of an array. -/
def documents (line : Nat) : List Value → List (Item Document)
  | [] => []
  | v :: vs => ⟨document line v, line⟩ :: documents line vs

/-- The documents of the members of an object. -/
def entries (line : Nat) : List (String × Value) → List (Entry Document)
  | [] => []
  | (name, v) :: ms => ⟨.text line name, line, document line v, line⟩ :: entries line ms

end

mutual

/-- The numbers of a value are whole and fit in 64 bits. -/
def Plain : Value → Prop
  | .number (.natural n) => n < UInt64.size
  | .number _ => False
  | .array items => PlainItems items
  | .object members => PlainMembers members
  | _ => True

/-- The numbers of the items are whole and fit in 64 bits. -/
def PlainItems : List Value → Prop
  | [] => True
  | v :: vs => Plain v ∧ PlainItems vs

/-- The numbers of the members are whole and fit in 64 bits. -/
def PlainMembers : List (String × Value) → Prop
  | [] => True
  | (_, v) :: ms => Plain v ∧ PlainMembers ms

end

end Value

/-- The first character of a value. -/
def Opens (c : Char) : Prop := isBlank c = false ∧ c ≠ ']'

/-- A character that is not blank is where reading goes on. -/
theorem skipBlank_of_not_blank (h : isBlank c = false) (cs : List Char) (line : Nat) :
    skipBlank (c :: cs) line = ⟨c :: cs, line⟩ := by
  rw [skipBlank, h]
  rfl

/-- A digit is one of ten characters. -/
theorem mem_digits_of_isDigit (h : c.isDigit = true) :
    c ∈ ['0', '1', '2', '3', '4', '5', '6', '7', '8', '9'] := by
  have hall : ∀ n < 58, 48 ≤ n → Char.ofNat n ∈ ['0', '1', '2', '3', '4', '5', '6', '7', '8',
    '9'] := by decide
  simp only [Char.isDigit, Bool.and_eq_true, decide_eq_true_eq, ge_iff_le,
    UInt32.le_iff_toNat_le] at h
  rw [← Char.ofNat_toNat c]
  exact hall c.toNat (Nat.lt_succ_of_le h.2) h.1

/-- A text that begins with a digit is read as a number. -/
theorem readValue_digit (h : c.isDigit = true) (fuel : Nat) (cs : List Char) (line : Nat) :
    readValue (fuel + 1) (c :: cs) line = numberDocument false (c :: cs) line := by
  have hc := mem_digits_of_isDigit h
  simp only [mem_cons, not_mem_nil, or_false] at hc
  rcases hc with rfl | rfl | rfl | rfl | rfl | rfl | rfl | rfl | rfl | rfl <;> rfl

/-- A digit opens a value. -/
theorem opens_of_isDigit (h : c.isDigit = true) : Opens c := by
  have hc := mem_digits_of_isDigit h
  simp only [mem_cons, not_mem_nil, or_false] at hc
  rcases hc with rfl | rfl | rfl | rfl | rfl | rfl | rfl | rfl | rfl | rfl <;>
    exact ⟨by decide, by decide⟩

/-- The text of a number begins with a digit. -/
theorem toDigits_eq_cons : ∃ c cs, Nat.toDigits 10 n = c :: cs ∧ c.isDigit = true := by
  cases h : Nat.toDigits 10 n with
  | nil => exact absurd h Nat.toDigits_ne_nil
  | cons c cs =>
    exact ⟨c, cs, rfl, Nat.isDigit_of_mem_toDigits (by decide) (by decide) (h ▸ mem_cons_self)⟩

namespace Value

/-- The items of an array and its closing bracket. -/
def itemsText : List Value → List Char
  | [] => [']']
  | v :: vs => chars v ++ moreItems vs

/-- The members of an object and its closing brace. -/
def membersText : List (String × Value) → List Char
  | [] => ['\x7d']
  | (name, v) :: ms => stringChars name ++ ':' :: (chars v ++ moreMembers ms)

/-- The text of an array. -/
theorem chars_array (vs : List Value) : chars (.array vs) = '[' :: itemsText vs := by
  cases vs <;> rfl

/-- The text of an object. -/
theorem chars_object (ms : List (String × Value)) :
    chars (.object ms) = '\x7b' :: membersText ms := by
  cases ms with
  | nil => rfl
  | cons m ms => rfl

/-- The text of a value has a first character, which opens a value. -/
theorem chars_eq_cons {v : Value} (hv : v.Plain) : ∃ c cs, v.chars = c :: cs ∧ Opens c := by
  cases v with
  | null => exact ⟨_, _, rfl, by decide, by decide⟩
  | bool b => cases b <;> exact ⟨_, _, rfl, by decide, by decide⟩
  | string s => exact ⟨_, _, rfl, by decide, by decide⟩
  | array vs => exact ⟨_, _, chars_array vs, by decide, by decide⟩
  | object ms => exact ⟨_, _, chars_object ms, by decide, by decide⟩
  | number n =>
    cases n with
    | natural n =>
      obtain ⟨c, cs, hcs, hc⟩ := toDigits_eq_cons n
      exact ⟨c, cs, Nat.toList_repr.trans hcs, opens_of_isDigit hc⟩
    | negative n => exact hv.elim
    | real bits => exact hv.elim

end Value

/-! ## Reading values back -/

variable {fuel line line' close : Nat} {first : Bool} {c : Char} {cs cs' rest : List Char}
    {d : Document}
  {cursor : Cursor}

/-- The last item of an array, with blanks around it. -/
theorem readItems_end (hstart : skipBlank cs line = ⟨c :: cs', line'⟩) (hc : c ≠ ']')
    (hvalue : readValue fuel (c :: cs') line' = (d, some cursor))
    (hend : skipBlank cursor.rest cursor.line = ⟨']' :: rest, close⟩) :
    readItems (fuel + 1) first cs line = ([⟨d, close⟩], close, some ⟨rest, close⟩) := by
  rw [readItems, hstart]
  split
  next heq => exact absurd (List.cons.inj (congrArg Cursor.rest heq)).1 hc
  next heq =>
    cases heq
    simp only [hvalue, hend]

/-- An item with others after it, and blanks around. -/
theorem readItems_next {items : List (Item Document)} {after : Option Cursor}
    (hstart : skipBlank cs line = ⟨c :: cs', line'⟩) (hc : c ≠ ']')
    (hvalue : readValue fuel (c :: cs') line' = (d, some cursor)) {line'' : Nat}
    (hnext : skipBlank cursor.rest cursor.line = ⟨',' :: more, line''⟩)
    (hitems : readItems fuel false more line'' = (items, close, after)) :
    readItems (fuel + 1) first cs line = (⟨d, (skipBlank more line'').line⟩ :: items, close,
    after) := by
  rw [readItems, hstart]
  split
  next heq => exact absurd (List.cons.inj (congrArg Cursor.rest heq)).1 hc
  next heq =>
    cases heq
    simp only [hvalue, hnext, hitems]

/-- The last member of an object, with blanks around it. -/
theorem readMembers_end {key : Quotation} {cursor' : Cursor} {colon : Nat}
    (hstart : skipBlank cs line = ⟨'"' :: cs', line'⟩)
    (hkey : readQuotation fuel cs' line' = (key, some cursor))
    (hcolon : skipBlank cursor.rest cursor.line = ⟨':' :: more, colon⟩)
    (hvalue : readValue fuel more colon = (d, some cursor'))
    (hend : skipBlank cursor'.rest cursor'.line = ⟨'\x7d' :: rest, close⟩) :
    readMembers (fuel + 1) first cs line =
      ([⟨key, colon, d, close⟩], close, some ⟨rest, close⟩) := by
  rw [readMembers, hstart]
  simp only [hkey, hcolon, hvalue, hend]

/-- A member with others after it, and blanks around. -/
theorem readMembers_next {key : Quotation} {cursor' : Cursor} {colon : Nat}
    {members : List (Entry Document)} {after : Option Cursor}
    (hstart : skipBlank cs line = ⟨'"' :: cs', line'⟩)
    (hkey : readQuotation fuel cs' line' = (key, some cursor))
    (hcolon : skipBlank cursor.rest cursor.line = ⟨':' :: more, colon⟩)
    (hvalue : readValue fuel more colon = (d, some cursor')) {more' : List Char} {line'' : Nat}
    (hnext : skipBlank cursor'.rest cursor'.line = ⟨',' :: more', line''⟩)
    (hmembers : readMembers fuel false more' line'' = (members, close, after)) :
    readMembers (fuel + 1) first cs line = (⟨key, colon, d, line''⟩ :: members, close, after) := by
  rw [readMembers, hstart]
  simp only [hkey, hcolon, hvalue, hnext, hmembers]

/-- The text of a string is no shorter than the string. -/
theorem length_le_flatMap_escapedChar (cs : List Char) :
    cs.length ≤ (cs.flatMap escapedChar).length := by
  induction cs with
  | nil => exact Nat.le_refl 0
  | cons c cs ih =>
    have hc : 1 ≤ (escapedChar c).length := by
      unfold escapedChar
      repeat (split; · simp)
      simp
    rw [flatMap_cons, length_append, length_cons]
    omega

/-- The text of a member: its name, a colon and what follows it. -/
theorem stringChars_append (name : String) (cs : List Char) :
    stringChars name ++ cs = '"' :: (name.toList.flatMap escapedChar ++ '"' :: cs) := by
  rw [stringChars, cons_append, append_assoc, singleton_append]

/-- A character that cannot go on a number. -/
theorem stops_cons (h : c.isDigit = false ∧ c ≠ '.' ∧ c ≠ 'e' ∧ c ≠ 'E') : Stops (c :: cs) := by
  intro c' hc'
  obtain rfl := Option.some.inj hc'
  exact h

namespace Value

variable (vs : List Value)

/-- What follows an item does not go on a number. -/
theorem stops_moreItems : Stops (moreItems vs ++ rest) := by
  cases vs with
  | nil => exact stops_cons (by decide)
  | cons v vs => exact stops_cons (by decide)

/-- What follows a member does not go on a number. -/
theorem stops_moreMembers (ms : List (String × Value)) : Stops (moreMembers ms ++ rest) := by
  cases ms with
  | nil => exact stops_cons (by decide)
  | cons m ms => exact stops_cons (by decide)

/-- A bracket closes the items. -/
theorem length_moreItems_pos : 0 < (moreItems vs).length := by
  cases vs <;> exact Nat.succ_pos _

/-- A brace closes the members. -/
theorem length_moreMembers_pos (ms : List (String × Value)) : 0 < (moreMembers ms).length := by
  cases ms with
  | nil => exact Nat.succ_pos _
  | cons m ms => exact Nat.succ_pos _

/-- So it does when there are none. -/
theorem length_itemsText_pos : 0 < (itemsText vs).length := by
  cases vs with
  | nil => exact Nat.succ_pos _
  | cons v vs =>
    rw [itemsText, length_append]
    exact Nat.add_pos_right _ (length_moreItems_pos vs)

/-- So it does when there are none. -/
theorem length_membersText_pos (ms : List (String × Value)) : 0 < (membersText ms).length := by
  cases ms with
  | nil => exact Nat.succ_pos _
  | cons m ms => exact Nat.succ_pos _

mutual

/-- The text of a value is read, and what follows is left. -/
theorem readValue_chars : ∀ (v : Value), v.Plain → ∀ (fuel : Nat) (rest : List Char),
    2 * v.chars.length ≤ fuel → Stops rest →
      readValue fuel (v.chars ++ rest) line = (v.document line, some ⟨rest, line⟩)
  | v, hv, 0, rest, hfuel, _ => by
    obtain ⟨c, cs, hcs, -⟩ := chars_eq_cons hv
    rw [hcs, length_cons] at hfuel
    omega
  | .null, _, fuel + 1, rest, _, _ => rfl
  | .bool true, _, fuel + 1, rest, _, _ => rfl
  | .bool false, _, fuel + 1, rest, _, _ => rfl
  | .number (.natural n), hv, fuel + 1, rest, _, hrest => by
    obtain ⟨c, cs, hcs, hc⟩ := toDigits_eq_cons n
    have hnumber := numberDocument_natural hv hrest line
    have hchars : chars (.number (.natural n)) = c :: cs := Nat.toList_repr.trans hcs
    rw [hcs] at hnumber
    rw [hchars, cons_append, readValue_digit hc, ← cons_append, hnumber]
    rfl
  | .string s, _, fuel + 1, rest, hfuel, _ => by
    have hlength := length_le_flatMap_escapedChar s.toList
    simp only [chars, stringChars, length_cons, length_append, length_nil] at hfuel
    have hroom : s.toList.length < fuel := by omega
    rw [chars, stringChars_append, readValue, skipBlank_of_not_blank (by decide)]
    simp only [readQuotation_string s hroom rest line]
    rfl
  | .array vs, hv, fuel + 1, rest, hfuel, _ => by
    rw [chars_array, length_cons] at hfuel
    have hitems := readItems_chars vs hv fuel rest true (.inl rfl) (by omega)
    rw [chars_array, cons_append, readValue, skipBlank_of_not_blank (by decide)]
    simp only [hitems]
    rfl
  | .object ms, hv, fuel + 1, rest, hfuel, _ => by
    rw [chars_object, length_cons] at hfuel
    have hmembers := readMembers_chars ms hv fuel rest true (.inl rfl) (by omega)
    rw [chars_object, cons_append, readValue, skipBlank_of_not_blank (by decide)]
    simp only [hmembers]
    rfl

/-- Items are read up to the closing bracket. Only the first may be missing. -/
theorem readItems_chars :
    ∀ (vs : List Value), PlainItems vs → ∀ (fuel : Nat) (rest : List Char) (first : Bool),
    first = true ∨ vs ≠ [] → 2 * (itemsText vs).length ≤ fuel →
      readItems fuel first (itemsText vs ++ rest) line =
        (documents line vs, line, some ⟨rest, line⟩)
  | vs, _, 0, rest, first, _, hfuel => by
    have hpos := length_itemsText_pos vs
    omega
  | [], _, fuel + 1, rest, first, hfirst, _ => by
    obtain rfl : first = true := hfirst.resolve_right fun h => h rfl
    rfl
  | v :: vs, hv, fuel + 1, rest, first, _, hfuel => by
    rw [itemsText, length_append] at hfuel
    have hpos := length_moreItems_pos vs
    have hvalue := readValue_chars v hv.1 fuel (moreItems vs ++ rest) (by omega)
      (stops_moreItems vs)
    obtain ⟨c, cs, hcs, hc⟩ := chars_eq_cons hv.1
    have hstart := skipBlank_of_not_blank hc.1 (cs ++ (moreItems vs ++ rest)) line
    rw [hcs, cons_append] at hvalue
    rw [itemsText, append_assoc, hcs, cons_append]
    cases vs with
    | nil => exact readItems_end hstart hc.2 hvalue rfl
    | cons v' vs =>
      have hlength : (moreItems (v' :: vs)).length = (itemsText (v' :: vs)).length + 1 := rfl
      have hitems := readItems_chars (v' :: vs) hv.2 fuel rest false
        (.inr (cons_ne_nil _ _)) (by omega)
      have hafter : skipBlank (moreItems (v' :: vs) ++ rest) line =
        ⟨',' :: (itemsText (v' :: vs) ++ rest), line⟩ := rfl
      obtain ⟨c', cs', hcs', hc'⟩ := chars_eq_cons hv.2.1
      rw [readItems_next hstart hc.2 hvalue hafter hitems, itemsText, hcs', cons_append,
        cons_append, skipBlank_of_not_blank hc'.1]
      rfl

/-- Members are read up to the closing brace. Only the first may be missing. -/
theorem readMembers_chars : ∀ (ms : List (String × Value)), PlainMembers ms →
    ∀ (fuel : Nat) (rest : List Char) (first : Bool), first = true ∨ ms ≠ [] →
    2 * (membersText ms).length ≤ fuel →
      readMembers fuel first (membersText ms ++ rest) line =
        (entries line ms, line, some ⟨rest, line⟩)
  | ms, _, 0, rest, first, _, hfuel => by
    have hpos := length_membersText_pos ms
    omega
  | [], _, fuel + 1, rest, first, hfirst, _ => by
    obtain rfl : first = true := hfirst.resolve_right fun h => h rfl
    rfl
  | (name, v) :: ms, hv, fuel + 1, rest, first, _, hfuel => by
    have hname := length_le_flatMap_escapedChar name.toList
    simp only [membersText, stringChars, length_append, length_cons, length_nil] at hfuel
    have hpos := length_moreMembers_pos ms
    have hkey : readQuotation fuel _ line = _ :=
      readQuotation_string name (by omega) (':' :: (v.chars ++ (moreMembers ms ++ rest))) line
    have hvalue := readValue_chars v hv.1 fuel (moreMembers ms ++ rest) (by omega)
      (stops_moreMembers ms)
    rw [membersText, append_assoc, cons_append, append_assoc, stringChars_append]
    cases ms with
    | nil => exact readMembers_end rfl hkey rfl hvalue rfl
    | cons m ms =>
      have hlength : (moreMembers (m :: ms)).length = (membersText (m :: ms)).length + 1 := rfl
      have hmembers := readMembers_chars (m :: ms) hv.2 fuel rest false
        (.inr (cons_ne_nil _ _)) (by omega)
      exact readMembers_next rfl hkey rfl hvalue rfl hmembers

end

/-- The compact text of a value is read to its end. -/
theorem read_render {v : Value} (hv : v.Plain) : read v.render = (v.document 1, some ⟨[], 1⟩) := by
  have hvalue : readValue (2 * v.chars.length + 2) (v.chars ++ []) 1 =
    (v.document 1, some ⟨[], 1⟩) :=
    readValue_chars v hv _ [] (by omega) fun c hc => nomatch hc
  rw [append_nil] at hvalue
  rw [read, render, String.toList_ofList]
  exact hvalue

end Value

end ComputeKernel.Json
