import ComputeKernel.Json.Document
import ComputeKernel.Shader.Literal
import Mathlib.Algebra.Field.Rat
import Mathlib.Tactic.NormNum

/-!
# The number that a literal stands for

A `Numeral` is a number as it is written, without a suffix: digits with a fraction and an exponent,
each of which may be absent, or `0x` and digits to base sixteen. Every text is at most one numeral
(`Numeral.chars_injective`), so what a kernel text stands for is a partial function
(`Denotes.unique`). A literal of the source is a numeral with a suffix.

A literal keeps its number when it is put into kernel text, except for one form. A literal that is
marked as a float and has no point gets its fraction at the end, and that is behind the exponent if
it has one: `1e5f` becomes `1e5.0`, which is no numeral (`numericLiteral_denotes_iff`).
-/

namespace ComputeKernel.Shader

open List

variable {base : Nat}
variable (c : Char)

/-! ## Numerals -/

/-- The value of a character as a digit to a base of sixteen at most. -/
def digit? (base : Nat) (c : Char) : Option Nat := (Json.hexValue c).filter (· < base)

/-- Whether a character is a digit. -/
def isDigit (base : Nat) (c : Char) : Bool := (digit? base c).isSome

/-- The number that a row of digits stands for. -/
def digitsValue (base : Nat) (cs : List Char) : Nat :=
  cs.foldl (fun n c => base * n + (digit? base c).getD 0) 0

/-- One or more digits. -/
@[ext] structure Digits (base : Nat) where
  chars : List Char
  nonempty : chars ≠ []
  valid : ∀ c ∈ chars, isDigit base c

/-- One digit. -/
def Digits.single (h : isDigit base c) : Digits base where
  chars := [c]
  nonempty := cons_ne_nil c []
  valid _ hmem := mem_singleton.1 hmem ▸ h

/-- The sign of an exponent. -/
inductive Sign where
  | plus
  | minus
deriving DecidableEq, Repr

/-- The character of a sign. -/
def Sign.char : Sign → Char
  | .plus => '+'
  | .minus => '-'

/-- A power of ten as it is written, after `E` if `upper`, else after `e`. -/
structure Exponent where
  upper : Bool
  sign : Option Sign
  digits : Digits 10

namespace Exponent

/-- The letter of an exponent. -/
def mark (upper : Bool) : Char := if upper then 'E' else 'e'

/-- The characters of an exponent. -/
def chars (e : Exponent) : List Char :=
  mark e.upper :: ((e.sign.map Sign.char).toList ++ e.digits.chars)

/-- The power that is written. -/
def value (e : Exponent) : Int :=
  if e.sign = some .minus then -(digitsValue 10 e.digits.chars) else digitsValue 10 e.digits.chars

end Exponent

/-- A number as it is written. -/
inductive Numeral where
  | decimal (whole : Digits 10) (fraction : Option (Digits 10)) (exponent : Option Exponent)
  /-- Digits to base sixteen, after `0X` if `upper`, else after `0x`. -/
  | hexadecimal (upper : Bool) (digits : Digits 16)

namespace Numeral

/-- What tells digits to base sixteen from others. -/
def mark (upper : Bool) : Char := if upper then 'X' else 'x'

/-- The point and the digits after it. -/
def fractionChars : Option (Digits 10) → List Char
  | none => []
  | some places => '.' :: places.chars

/-- The characters of an exponent, if any. -/
def exponentChars : Option Exponent → List Char
  | none => []
  | some e => e.chars

/-- The characters of a numeral. -/
def chars : Numeral → List Char
  | .decimal whole fraction exponent =>
    whole.chars ++ (fractionChars fraction ++ exponentChars exponent)
  | .hexadecimal upper digits => '0' :: mark upper :: digits.chars

/-- The number that is written. -/
def value : Numeral → ℚ
  | .decimal whole fraction exponent =>
    let places := (fraction.map Digits.chars).getD []
    digitsValue 10 (whole.chars ++ places) *
      10 ^ ((exponent.map Exponent.value).getD 0 - places.length)
  | .hexadecimal _ digits => digitsValue 16 digits.chars

end Numeral

/-- A kernel text stands for a number. -/
def Denotes (text : String) (q : ℚ) : Prop := ∃ n : Numeral, n.chars = text.toList ∧ n.value = q

/-! ## Texts are at most one numeral -/

/-- What is checked for the items of a list one by one. A decision might go through all characters
there are instead. -/
theorem forall_mem_of_all {α : Type} {p : α → Prop} [DecidablePred p] {l : List α}
    (h : l.all fun a => p a) :
    ∀ a ∈ l, p a := fun a ha => of_decide_eq_true (all_eq_true.1 h a ha)

/-- The characters of a numeral that are no digits to base ten. -/
def marks : List Char := ['.', 'E', 'e', '+', '-', 'X', 'x']

/-- Marks are no digits. -/
theorem not_digit_of_mark {c : Char} (h : c ∈ marks) : ¬ isDigit 10 c :=
  forall_mem_of_all (p := fun c => ¬ isDigit 10 c) (by decide) c h

/-- Digits end where no digit follows. -/
theorem Digits.append_inj {ds ds' : Digits base} {xs ys : List Char}
    (hx : ∀ c ∈ xs.head?, ¬ isDigit base c) (hy : ∀ c ∈ ys.head?, ¬ isDigit base c)
    (h : ds.chars ++ xs = ds'.chars ++ ys) : ds = ds' ∧ xs = ys := by
  have htake : ∀ {es : Digits base} {r : List Char}, (∀ c ∈ r.head?, ¬ isDigit base c) →
      (es.chars ++ r).takeWhile (isDigit base) = es.chars := by
    intro es r hr
    rw [takeWhile_append_of_pos es.valid]
    cases r with
    | nil => simp
    | cons c cs => rw [takeWhile_cons_of_neg (hr c rfl), append_nil]
  have hds : ds = ds' := Digits.ext (by rw [← htake hx, h, htake hy])
  subst hds
  exact ⟨rfl, append_cancel_left h⟩

namespace Exponent

/-- The letter tells its case. -/
theorem mark_injective : ∀ {upper upper' : Bool}, mark upper = mark upper' → upper = upper' := by
  decide

/-- The sign and the digits of an exponent can be told apart. -/
theorem sign_digits_inj {s s' : Option Sign} {ds ds' : Digits 10}
    (h : (s.map Sign.char).toList ++ ds.chars = (s'.map Sign.char).toList ++ ds'.chars) :
    s = s' ∧ ds = ds' := by
  -- A sign on one side only would be a digit on the other.
  have hsign : ∀ (t : Sign) (es : Digits 10) (cs : List Char), es.chars ≠ t.char :: cs := by
    intro t es cs heq
    exact not_digit_of_mark (by cases t <;> decide) (es.valid t.char (heq ▸ .head _))
  cases s with
  | none =>
    cases s' with
    | none => exact ⟨rfl, Digits.ext h⟩
    | some t' => exact absurd h (hsign t' ds _)
  | some t =>
    cases s' with
    | none => exact absurd h.symm (hsign t ds' _)
    | some t' =>
      obtain ⟨hchar, hchars⟩ := List.cons.inj h
      have ht : t = t' := by
        revert hchar
        cases t <;> cases t' <;> decide
      exact ⟨congrArg some ht, Digits.ext hchars⟩

/-- A text is at most one exponent. -/
theorem chars_injective {e e' : Exponent} (h : e.chars = e'.chars) : e = e' := by
  obtain ⟨upper, sign, digits⟩ := e
  obtain ⟨upper', sign', digits'⟩ := e'
  obtain ⟨hmark, htail⟩ := List.cons.inj h
  obtain ⟨rfl, rfl⟩ := sign_digits_inj htail
  obtain rfl := mark_injective hmark
  rfl

end Exponent

namespace Numeral

/-- What follows the digits in front of a decimal numeral. -/
theorem head_tail (fraction : Option (Digits 10)) (exponent : Option Exponent) :
    ∀ c ∈ (fractionChars fraction ++ exponentChars exponent).head?, c ∈ ['.', 'E', 'e'] := by
  cases fraction with
  | some places => simp [fractionChars]
  | none =>
    cases exponent with
    | none => simp [fractionChars, exponentChars]
    | some e => cases hupper : e.upper <;> simp [fractionChars, exponentChars, Exponent.chars,
      Exponent.mark, hupper]

/-- Digits end before them. -/
theorem not_digit_of_head_tail (fraction : Option (Digits 10)) (exponent : Option Exponent) :
    ∀ c ∈ (fractionChars fraction ++ exponentChars exponent).head?, ¬ isDigit 10 c := by
  intro c hc
  have hmarks : ∀ c ∈ ['.', 'E', 'e'], c ∈ marks := forall_mem_of_all (by decide)
  exact not_digit_of_mark (hmarks c (head_tail fraction exponent c hc))

/-- So it is if it may be absent. -/
theorem exponentChars_injective {e e' : Option Exponent} (h : exponentChars e = exponentChars e') :
    e = e' := by
  cases e with
  | none =>
    cases e' with
    | none => rfl
    | some e' => cases h
  | some e =>
    cases e' with
    | none => cases h
    | some e' => exact congrArg some (Exponent.chars_injective h)

/-- A fraction and an exponent can be told apart. -/
theorem tail_inj {fraction fraction' : Option (Digits 10)} {exponent exponent' : Option Exponent}
    (h : fractionChars fraction ++ exponentChars exponent =
      fractionChars fraction' ++ exponentChars exponent') :
    fraction = fraction' ∧ exponent = exponent' := by
  -- An exponent does not begin with a point.
  have hpoint : ∀ (e : Option Exponent) (cs : List Char), exponentChars e ≠ '.' :: cs := by
    rintro (_ | ⟨upper, sign, digits⟩) cs heq
    · cases heq
    · have hhead : Exponent.mark upper = '.' := (List.cons.inj heq).1
      cases upper <;> exact absurd hhead (by decide)
  cases fraction with
  | none =>
    cases fraction' with
    | none => exact ⟨rfl, exponentChars_injective h⟩
    | some places' => exact absurd h (hpoint exponent _)
  | some places =>
    cases fraction' with
    | none => exact absurd h.symm (hpoint exponent' _)
    | some places' =>
      obtain ⟨rfl, hexponent⟩ := Digits.append_inj (not_digit_of_head_tail none exponent)
        (not_digit_of_head_tail none exponent') (List.cons.inj h).2
      exact ⟨rfl, exponentChars_injective hexponent⟩

/-- A numeral to base sixteen has one digit in front. -/
theorem decimal_ne_hexadecimal (whole : Digits 10) (fraction : Option (Digits 10))
    (exponent : Option Exponent) (upper : Bool) (digits : Digits 16) :
    (decimal whole fraction exponent).chars ≠ (hexadecimal upper digits).chars := by
  intro h
  let zero : Digits 10 := .single '0' rfl
  have hmark : mark upper ∈ marks := by cases upper <;> decide
  have hsplit : whole.chars ++ (fractionChars fraction ++ exponentChars exponent) =
      zero.chars ++ mark upper :: digits.chars := h
  obtain ⟨-, htail⟩ := Digits.append_inj (not_digit_of_head_tail fraction exponent)
    (by rintro _ ⟨⟩; exact not_digit_of_mark hmark) hsplit
  have hhead := head_tail fraction exponent (mark upper) (htail ▸ rfl)
  cases upper <;> exact absurd hhead (by decide)

/-- A text is at most one numeral. -/
theorem chars_injective {n n' : Numeral} (h : n.chars = n'.chars) : n = n' := by
  cases n with
  | decimal whole fraction exponent =>
    cases n' with
    | decimal whole' fraction' exponent' =>
      obtain ⟨rfl, htail⟩ := Digits.append_inj (not_digit_of_head_tail fraction exponent)
        (not_digit_of_head_tail fraction' exponent') h
      obtain ⟨rfl, rfl⟩ := tail_inj htail
      rfl
    | hexadecimal upper' digits' => exact absurd h (decimal_ne_hexadecimal _ _ _ _ _)
  | hexadecimal upper digits =>
    cases n' with
    | decimal whole' fraction' exponent' => exact absurd h.symm (decimal_ne_hexadecimal _ _ _ _ _)
    | hexadecimal upper' digits' =>
      obtain ⟨hmark, hdigits⟩ := List.cons.inj (List.cons.inj h).2
      obtain rfl := Digits.ext hdigits
      have hupper : upper = upper' := by
        revert hmark
        cases upper <;> cases upper' <;> decide
      rw [hupper]

end Numeral

/-- A kernel text stands for one number at most. -/
theorem Denotes.unique {text : String} {q q' : ℚ} (h : Denotes text q) (h' : Denotes text q') :
    q = q' := by
  obtain ⟨n, hchars, rfl⟩ := h
  obtain ⟨n', hchars', rfl⟩ := h'
  rw [Numeral.chars_injective (hchars.trans hchars'.symm)]

/-! ## Literals of the source -/

/-- The suffixes of integers. -/
def integerSuffixes : List String := ["", "u", "U", "l", "L", "ul", "uL", "Ul", "UL"]

/-- The suffixes that a numeral may have. -/
def Numeral.suffixes : Numeral → List String
  | .decimal _ _ _ => integerSuffixes ++ ["f", "F", "d", "D", "m", "M"]
  | .hexadecimal _ _ => integerSuffixes

/-- A literal as it stands in the source. -/
structure SourceLiteral where
  numeral : Numeral
  suffix : String
  valid : suffix ∈ numeral.suffixes

namespace SourceLiteral

variable (l : SourceLiteral)

/-- The text of a literal. -/
def text : String := String.ofList l.numeral.chars ++ l.suffix

/-- The literal is marked as a float. -/
def IsFloat : Prop := l.suffix = "f" ∨ l.suffix = "F"

instance (l : SourceLiteral) : Decidable l.IsFloat := inferInstanceAs (Decidable (_ ∨ _))

/-- The literal is marked as a float, and has an exponent but no fraction. -/
def LacksPoint : Prop :=
  l.IsFloat ∧ ∃ whole exponent, l.numeral = .decimal whole none (some exponent)

end SourceLiteral

/-! ## What is taken off and put on -/

/-- A suffix is taken off. -/
theorem trimEnd_append {p : Char → Bool} {cs : List Char} {s : String} (hs : ∀ c ∈ s.toList, p c)
    (hcs : ∀ c ∈ cs.getLast?, ¬ p c) : trimEnd p (String.ofList cs ++ s) = String.ofList cs := by
  have hdrop : cs.reverse.dropWhile p = cs.reverse := by
    rw [← head?_reverse] at hcs
    cases hrev : cs.reverse with
    | nil => rfl
    | cons c rest =>
      rw [hrev] at hcs
      exact dropWhile_cons_of_neg (hcs c rfl)
  rw [trimEnd, String.toList_append, String.toList_ofList, reverse_append,
    dropWhile_append_of_pos fun c hc => hs c (mem_reverse.1 hc), hdrop, reverse_reverse]

/-- What ends with digits ends with a digit. -/
theorem Digits.not_of_getLast? {p : Char → Bool} (hp : ∀ c, p c → ¬ isDigit base c)
    (ds : Digits base) (front : List Char) : ∀ c ∈ (front ++ ds.chars).getLast?, ¬ p c := by
  intro c hc hpc
  rw [getLast?_append, getLast?_eq_some_getLast ds.nonempty, Option.some_or] at hc
  obtain rfl := Option.some.inj hc
  exact hp _ hpc (ds.valid _ (getLast_mem ds.nonempty))

namespace Numeral

variable (whole : Digits 10)

/-- A decimal numeral ends with digits. -/
theorem decimal_ends (fraction : Option (Digits 10)) (exponent : Option Exponent) :
    ∃ (front : List Char) (ds : Digits 10), (decimal whole fraction exponent).chars =
      front ++ ds.chars := by
  cases exponent with
  | some e =>
    refine ⟨whole.chars ++ (fractionChars fraction ++ Exponent.mark e.upper ::
      (e.sign.map Sign.char).toList), e.digits, ?_⟩
    simp [chars, exponentChars, Exponent.chars]
  | none =>
    cases fraction with
    | some places =>
      exact ⟨whole.chars ++ ['.'], places, by simp [chars, fractionChars, exponentChars]⟩
    | none => exact ⟨[], whole, by simp [chars, fractionChars, exponentChars]⟩

/-- What stands in an exponent. -/
theorem mem_exponentChars {exponent : Option Exponent} {c : Char} (h : c ∈ exponentChars exponent) :
    isDigit 10 c ∨ c ∈ ['E', 'e', '+', '-'] := by
  cases exponent with
  | none => cases h
  | some e =>
    obtain ⟨upper, sign, digits⟩ := e
    rcases mem_cons.1 h with rfl | htail
    · refine .inr ?_
      show Exponent.mark upper ∈ _
      cases upper <;> decide
    · rcases mem_append.1 htail with hsign | hdigits
      · cases sign with
        | none => cases hsign
        | some t =>
          obtain rfl := mem_singleton.1 hsign
          exact .inr (by cases t <;> decide)
      · exact .inl (digits.valid c hdigits)

/-- A point stands before a fraction only, and no mark of base sixteen in a decimal. -/
theorem mark_mem_iff (fraction : Option (Digits 10)) (exponent : Option Exponent) {c : Char}
    (hc : c ∈ ['.', 'X', 'x']) : c ∈ (decimal whole fraction exponent).chars ↔ c = '.' ∧
    fraction ≠ none := by
  have hmarks : ∀ c ∈ ['.', 'X', 'x'], c ∈ marks ∧ c ∉ ['E', 'e', '+', '-'] :=
    forall_mem_of_all (by decide)
  have hdigits : ∀ ds : Digits 10, c ∉ ds.chars :=
    fun ds h => not_digit_of_mark (hmarks c hc).1 (ds.valid c h)
  have hexponent : c ∉ exponentChars exponent := fun h =>
    (mem_exponentChars h).elim (not_digit_of_mark (hmarks c hc).1) (hmarks c hc).2
  cases fraction with
  | none => simp [chars, fractionChars, hdigits, hexponent]
  | some places => simp [chars, fractionChars, hdigits, hexponent]

/-- A fraction of zero changes nothing. -/
theorem value_point_zero (whole zero : Digits 10) (hzero : zero.chars = ['0']) :
    (decimal whole (some zero) none).value = (decimal whole none none).value := by
  have hdigits : digitsValue 10 (whole.chars ++ ['0']) = digitsValue 10 whole.chars * 10 := by
    rw [digitsValue, foldl_append, ← digitsValue, Nat.mul_comm]
    rfl
  show (digitsValue 10 (whole.chars ++ zero.chars) : ℚ) * 10 ^ (0 - (zero.chars.length : ℤ)) =
    digitsValue 10 (whole.chars ++ []) * 10 ^ (0 - (([] : List Char).length : ℤ))
  rw [hzero, hdigits, append_nil]
  simp

end Numeral

/-- In base sixteen the letters of integer suffixes are no digits. -/
theorem not_digit_of_isIntegerSuffix (h : isIntegerSuffix c) : ¬ isDigit 16 c := by
  have hletters : ∀ c ∈ ['u', 'l', 'U', 'L'], ¬ isDigit 16 c := forall_mem_of_all (by decide)
  exact hletters c (of_decide_eq_true h)

/-- In base ten the letters of all suffixes are no digits. -/
theorem not_digit_of_isSuffix (h : isSuffix c) : ¬ isDigit 10 c := by
  have hletters : ∀ c ∈ ['f', 'd', 'u', 'm', 'l', 'F', 'D', 'U', 'M', 'L'], ¬ isDigit 10 c :=
    forall_mem_of_all (by decide)
  exact hletters c (of_decide_eq_true h)

/-- What the suffixes of a decimal numeral are made of. -/
theorem suffix_chars {s : String} (hs : s ∈ integerSuffixes ++ ["f", "F", "d", "D", "m", "M"]) :
    (∀ c ∈ s.toList, isSuffix c ∧ c ∉ ['.', 'X', 'x']) ∧
      (s.toList.getLast? = some 'f' ↔ s = "f") ∧ (s.toList.getLast? = some 'F' ↔ s = "F") := by
  have hletters : ∀ s ∈ integerSuffixes ++ ["f", "F", "d", "D", "m", "M"],
      s.toList.all fun c => isSuffix c ∧ c ∉ ['.', 'X', 'x'] := by decide
  have hlast : ∀ s ∈ integerSuffixes ++ ["f", "F", "d", "D", "m", "M"],
      (s.toList.getLast? = some 'f' ↔ s = "f") ∧
        (s.toList.getLast? = some 'F' ↔ s = "F") := by decide
  exact ⟨forall_mem_of_all (hletters s hs), hlast s hs⟩

namespace SourceLiteral

variable {l : SourceLiteral}

/-- The characters of a literal. -/
theorem toList_text (l : SourceLiteral) : l.text.toList = l.numeral.chars ++ l.suffix.toList := by
  rw [text, String.toList_append, String.toList_ofList]

section Decimal

variable {whole : Digits 10} {fraction : Option (Digits 10)} {exponent : Option Exponent}
  (hl : l.numeral = .decimal whole fraction exponent)

include hl

/-- The suffixes of decimal literals. -/
theorem suffix_decimal : l.suffix ∈ integerSuffixes ++ ["f", "F", "d", "D", "m", "M"] := by
  have hvalid := l.valid
  rwa [hl] at hvalid

/-- The same for a decimal literal. -/
theorem mark_mem_text_iff {c : Char} (hc : c ∈ ['.', 'X', 'x']) :
    c ∈ l.text.toList ↔ c = '.' ∧ fraction ≠ none := by
  rw [toList_text, mem_append, hl, Numeral.mark_mem_iff whole fraction exponent hc]
  exact or_iff_left fun h => ((suffix_chars (suffix_decimal hl)).1 c h).2 hc

/-- A decimal literal does not begin as one to base sixteen. -/
theorem startsWith_eq_false {pattern : String} {c : Char} (hc : c ∈ pattern.toList)
    (hmark : c ∈ ['X', 'x']) :
    l.text.startsWith pattern = false := by
  have hmarks : ∀ c ∈ ['X', 'x'], c ∈ ['.', 'X', 'x'] ∧ c ≠ '.' := forall_mem_of_all (by decide)
  refine Bool.eq_false_iff.2 fun hstarts => ?_
  have hmem := (String.startsWith_string_iff.1 hstarts).subset hc
  exact (hmarks c hmark).2 ((mark_mem_text_iff hl (hmarks c hmark).1).1 hmem).1

/-- A decimal literal ends with a letter if its suffix does. -/
theorem endsWith_iff {pattern : String} (c : Char) (hpattern : pattern.toList = [c])
    (hc : isSuffix c) :
    l.text.endsWith pattern = true ↔ l.suffix.toList.getLast? = some c := by
  obtain ⟨front, ds, hends⟩ := Numeral.decimal_ends whole fraction exponent
  have hlast : (front ++ ds.chars).getLast? ≠ some c := fun h =>
    ds.not_of_getLast? not_digit_of_isSuffix front c h hc
  rw [← String.endsWith_toSlice, String.Slice.endsWith_string_iff, hpattern, String.copy_toSlice,
    singleton_suffix_iff_getLast?_eq_some, toList_text, hl, hends, getLast?_append,
    Option.or_eq_some_iff]
  exact or_iff_left fun h => hlast h.2

/-- A float is told by its last letter. -/
theorem isFloat_iff : (l.text.endsWith "f" || l.text.endsWith "F") = true ↔ l.IsFloat := by
  obtain ⟨-, hf, hF⟩ := suffix_chars (suffix_decimal hl)
  rw [Bool.or_eq_true, endsWith_iff hl 'f' rfl (by decide), endsWith_iff hl 'F' rfl (by decide), hf,
    hF, IsFloat]

/-- What is put into kernel text for a decimal literal. -/
theorem numericLiteral_of_decimal : numericLiteral l.text =
    if l.IsFloat ∧ fraction = none then String.ofList l.numeral.chars ++ ".0"
    else String.ofList l.numeral.chars := by
  obtain ⟨front, ds, hends⟩ := Numeral.decimal_ends whole fraction exponent
  have htrim : trimEnd isSuffix l.text = String.ofList l.numeral.chars := by
    refine trimEnd_append (fun c hc => ((suffix_chars (suffix_decimal hl)).1 c hc).1) ?_
    rw [hl, hends]
    exact ds.not_of_getLast? not_digit_of_isSuffix front
  have hpoint : (!l.text.toList.contains '.') = true ↔ fraction = none := by
    rw [Bool.not_eq_true', Bool.eq_false_iff, Ne, contains_iff_mem,
      mark_mem_text_iff hl (by decide)]
    simp
  have hx : l.text.startsWith "0x" = false :=
    startsWith_eq_false hl (c := 'x') (by decide) (by decide)
  have hX : l.text.startsWith "0X" = false :=
    startsWith_eq_false hl (c := 'X') (by decide) (by decide)
  rw [numericLiteral, hx, hX]
  simp only [Bool.or_self, Bool.false_eq_true, if_false, htrim, Bool.and_eq_true,
    isFloat_iff hl, hpoint]

end Decimal

/-- A literal to base sixteen loses its suffix and nothing else. -/
theorem numericLiteral_of_hexadecimal {upper : Bool} {digits : Digits 16}
    (hl : l.numeral = .hexadecimal upper digits) :
    numericLiteral l.text = String.ofList l.numeral.chars := by
  have hletters : ∀ s ∈ integerSuffixes, s.toList.all isIntegerSuffix := by decide
  have hsuffix : l.suffix ∈ integerSuffixes := by
    have hvalid := l.valid
    rwa [hl] at hvalid
  have hstarts : l.text.startsWith "0x" = true ∨ l.text.startsWith "0X" = true := by
    rw [String.startsWith_string_iff, String.startsWith_string_iff, toList_text, hl]
    cases upper with
    | false => exact .inl ⟨digits.chars ++ l.suffix.toList, rfl⟩
    | true => exact .inr ⟨digits.chars ++ l.suffix.toList, rfl⟩
  rw [numericLiteral, if_pos (Bool.or_eq_true_iff.2 hstarts)]
  refine trimEnd_append (all_eq_true.1 (hletters l.suffix hsuffix)) ?_
  rw [hl]
  exact digits.not_of_getLast? not_digit_of_isIntegerSuffix ['0', Numeral.mark upper]

end SourceLiteral

/-! ## What literals stand for -/

/-- A fraction behind an exponent makes no numeral. -/
theorem not_denotes_of_exponent (whole : Digits 10) (exponent : Exponent) (q : ℚ) :
    ¬ Denotes (String.ofList (Numeral.decimal whole none (some exponent)).chars ++ ".0") q := by
  rintro ⟨n, hchars, -⟩
  rw [String.toList_append, String.toList_ofList] at hchars
  have hpoint : '.' ∈ n.chars := hchars ▸ mem_append_right _ (.head _)
  cases n with
  | hexadecimal upper digits =>
    rcases mem_cons.1 hpoint with hzero | hpoint
    · exact absurd hzero (by decide)
    · rcases mem_cons.1 hpoint with hmark | hdigit
      · cases upper <;> exact absurd hmark (by decide)
      · exact absurd (digits.valid _ hdigit) (by decide)
  | decimal whole' fraction exponent' =>
    obtain ⟨-, hfraction⟩ := (Numeral.mark_mem_iff whole' fraction exponent' (by decide)).1 hpoint
    obtain ⟨places, rfl⟩ := Option.ne_none_iff_exists'.1 hfraction
    -- Behind the digits in front stands the point on one side, and the mark of the exponent on the
    -- other.
    have hmark : ∀ upper, ¬ isDigit 10 (Exponent.mark upper) ∧ '.' ≠ Exponent.mark upper := by
      decide
    have hsplit : whole'.chars ++
      (Numeral.fractionChars (some places) ++ Numeral.exponentChars exponent') =
        whole.chars ++ Exponent.mark exponent.upper ::
          ((exponent.sign.map Sign.char).toList ++ exponent.digits.chars ++ ['.', '0']) :=
      hchars.trans (append_assoc _ _ _)
    obtain ⟨-, htail⟩ := Digits.append_inj (Numeral.not_digit_of_head_tail (some places) exponent')
      (by rintro _ ⟨⟩; exact (hmark exponent.upper).1) hsplit
    exact (hmark exponent.upper).2 (List.cons.inj htail).1

/-- A fraction of zero behind a whole number changes nothing. -/
theorem denotes_point_zero (whole : Digits 10) :
    Denotes (String.ofList (Numeral.decimal whole none none).chars ++ ".0")
      (Numeral.decimal whole none none).value := by
  refine ⟨.decimal whole (some (.single '0' rfl)) none, ?_, Numeral.value_point_zero whole _ rfl⟩
  rw [String.toList_append, String.toList_ofList]
  simp [Numeral.chars, Numeral.fractionChars, Numeral.exponentChars, Digits.single]

/-- A numeral stands for its value. -/
theorem denotes_numeral (n : Numeral) : Denotes (String.ofList n.chars) n.value :=
  ⟨n, String.toList_ofList.symm, rfl⟩

namespace SourceLiteral

/-- A literal keeps its number, or its fraction ends up behind its exponent. -/
theorem denotes_or_lacksPoint (l : SourceLiteral) :
    ¬ l.LacksPoint ∧ Denotes (numericLiteral l.text) l.numeral.value ∨
      l.LacksPoint ∧ numericLiteral l.text = String.ofList l.numeral.chars ++ ".0" ∧
        ∀ q, ¬ Denotes (numericLiteral l.text) q := by
  cases hl : l.numeral with
  | hexadecimal upper digits =>
    refine .inl ⟨?_, ?_⟩
    · rintro ⟨-, whole, exponent, hdecimal⟩
      cases hl.symm.trans hdecimal
    · rw [numericLiteral_of_hexadecimal hl, hl]
      exact denotes_numeral _
  | decimal whole fraction exponent =>
    have hwritten := numericLiteral_of_decimal hl
    by_cases hpoint : l.IsFloat ∧ fraction = none
    · rw [if_pos hpoint, hl] at hwritten
      obtain ⟨hfloat, rfl⟩ := hpoint
      cases exponent with
      | none =>
        refine .inl ⟨?_, hwritten ▸ denotes_point_zero whole⟩
        rintro ⟨-, whole', exponent', hdecimal⟩
        cases hl.symm.trans hdecimal
      | some exponent =>
        exact .inr ⟨⟨hfloat, whole, exponent, hl⟩, hwritten,
          hwritten ▸ not_denotes_of_exponent whole exponent⟩
    · rw [if_neg hpoint, hl] at hwritten
      refine .inl ⟨?_, hwritten ▸ denotes_numeral _⟩
      rintro ⟨hfloat, whole', exponent', hdecimal⟩
      cases hl.symm.trans hdecimal
      exact hpoint ⟨hfloat, rfl⟩

end SourceLiteral

/-- **When a literal keeps its number.** For all literals: what is put into kernel text stands for a
number exactly if it is not a float that has an exponent and no fraction, and then for the number of
the literal alone. For such a float the fraction is put behind the exponent. -/
theorem numericLiteral_denotes_iff (l : SourceLiteral) :
    (∀ q, Denotes (numericLiteral l.text) q ↔ q = l.numeral.value ∧ ¬ l.LacksPoint) ∧
      (l.LacksPoint → numericLiteral l.text = String.ofList l.numeral.chars ++ ".0") := by
  rcases l.denotes_or_lacksPoint with ⟨hpoint, hdenotes⟩ | ⟨hpoint, hwritten, hnone⟩
  · refine ⟨fun q => ⟨fun h => ⟨h.unique hdenotes, hpoint⟩, ?_⟩, fun h => absurd h hpoint⟩
    rintro ⟨rfl, -⟩
    exact hdenotes
  · exact ⟨fun q => iff_of_false (hnone q) fun h => h.2 hpoint, fun _ => hwritten⟩

/-- A hundred thousand as a float, in short. -/
def hundredThousand : SourceLiteral where
  numeral := .decimal (.single '1' rfl) none (some ⟨false, none, .single '5' rfl⟩)
  suffix := "f"
  valid := by decide

/-- A hundred thousand becomes a text that stands for no number. -/
theorem hundredThousand_lost :
    hundredThousand.text = "1e5f" ∧ hundredThousand.numeral.value = 100000 ∧
      numericLiteral hundredThousand.text = "1e5.0" ∧
      ∀ q, ¬ Denotes (numericLiteral hundredThousand.text) q := by
  have hwritten : numericLiteral hundredThousand.text = "1e5.0" := by decide +kernel
  refine ⟨by decide +kernel, ?_, hwritten, ?_⟩
  · show ((1 : ℕ) : ℚ) * 10 ^ ((5 : ℤ) - (0 : ℕ)) = 100000
    norm_num
  · rcases hundredThousand.denotes_or_lacksPoint with ⟨hpoint, -⟩ | ⟨-, -, hnone⟩
    · exact absurd ⟨.inl rfl, _, _, rfl⟩ hpoint
    · exact hnone

end ComputeKernel.Shader
