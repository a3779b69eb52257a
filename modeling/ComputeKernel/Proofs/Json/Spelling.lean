import ComputeKernel.Proofs.Json.Text

/-!
# How strings and numbers are spelled

One string can be spelled in many ways, and so can one number. A `Quote` is a string letter by
letter, with its escapes, and a `Figure` is a number digit by digit. Not every one has a value: a
quote may have half of a surrogate pair (`Quote.text?`), and a figure may be beyond the largest
number. Both are read all the same, as what they say or as something flawed (`exists_readQuotation`,
`readNumeral_body`). What follows a number must not go on it.
-/

namespace ComputeKernel.Json

open List

/-! ## Blanks -/

/-- Blank characters. -/
structure Blank where
  chars : List Char
  blank : ∀ c ∈ chars, isBlank c = true

namespace Blank

/-- Reading goes on after blanks. -/
theorem skipBlank_append (b : Blank) (cs : List Char) (line : Nat) :
    skipBlank (b.chars ++ cs) line = skipBlank cs (lineAfterAll line b.chars) := by
  obtain ⟨chars, hblank⟩ := b
  induction chars generalizing line with
  | nil => rfl
  | cons c chars ih =>
    rw [forall_mem_cons] at hblank
    simp only [cons_append, skipBlank, hblank.1, if_true]
    exact ih _ hblank.2

/-- A blank does not go on a number. -/
theorem stops_append (b : Blank) {rest : List Char} (h : Stops rest) : Stops (b.chars ++ rest) := by
  obtain ⟨chars, hblank⟩ := b
  cases chars with
  | nil => exact h
  | cons c chars =>
    have hc := hblank c (.head _)
    simp only [isBlank, Bool.or_eq_true, beq_iff_eq] at hc
    refine stops_cons ?_
    rcases hc with ((rfl | rfl) | rfl) | rfl <;> decide

end Blank

/-! ## Strings -/

/-- A character of a string as it is written. -/
inductive Letter where
  | plain (c : Char) (h : c ≠ '"' ∧ c ≠ '\\' ∧ ¬ c.toNat < 32)
  /-- A backslash and one more character. -/
  | escape (c : Char) (h : (simpleEscape c).isSome = true)
  /-- A unit in base sixteen. -/
  | unit (a b c d : Char) (h : (hexValue4 a b c d).isSome = true)

/-- The characters of a letter. -/
def Letter.chars : Letter → List Char
  | .plain c _ => [c]
  | .escape c _ => ['\\', c]
  | .unit a b c d _ => ['\\', 'u', a, b, c, d]

/-- A string as it is written. -/
structure Quote where
  letters : List Letter

namespace Quote

/-- The string from after its opening quote. -/
def body (q : Quote) : List Char := q.letters.flatMap Letter.chars ++ ['"']

/-- The characters of a string. -/
def chars (q : Quote) : List Char := '"' :: q.body

/-- What letters stand for, if all surrogates are in pairs. -/
def decode : List Letter → Option (List Char)
  | [] => some []
  | .plain c _ :: rest => (decode rest).map (c :: ·)
  | .escape c _ :: rest => (simpleEscape c).bind fun c => (decode rest).map (c :: ·)
  | .unit a b c d _ :: rest => (hexValue4 a b c d).bind fun high =>
    if isLowSurrogate high then none
    else if isHighSurrogate high then
      match rest with
      | .unit a b c d _ :: rest => (hexValue4 a b c d).bind fun low =>
        if isLowSurrogate low then
          (decode rest).map (Char.ofNat (0x10000 + (high - 0xd800) * 0x400 + (low - 0xdc00)) :: ·)
        else none
      | _ => none
    else (decode rest).map (Char.ofNat high :: ·)

/-- What a string says, if it says something. -/
def text? (q : Quote) : Option String := (decode q.letters).map String.ofList

/-- The letters of a string and its closing quote, with what follows. -/
theorem body_append (q : Quote) (rest : List Char) :
    q.body ++ rest = q.letters.flatMap Letter.chars ++ '"' :: rest := by
  rw [body, append_assoc, singleton_append]

end Quote

section

variable {fuel line : Nat} {cs rest : List Char}

/-- Forgetting the error of a change. -/
theorem toOption_map {ε α β : Type} (x : Except ε α) (f : α → β) :
    (x.map f).toOption = x.toOption.map f := by
  cases x with
  | ok a => rfl
  | error e => rfl

/-- A flawed unit flaws the string. -/
theorem readString_unit_error {fault : Nat} (h : readUnits cs line = .error fault) :
    readString (fuel + 1) ('\\' :: 'u' :: cs) line = .error fault := by
  rw [readString, h]
  rfl

variable {a b c d : Char} {high : Nat}

/-- A unit is read as its number. -/
theorem readHex_unit {n : Nat} (h : hexValue4 a b c d = some n) (rest : List Char) (line : Nat) :
    readHex (a :: b :: c :: d :: rest) line = .ok (n, rest) := by
  rw [readHex, h]

/-- A second half comes first. -/
theorem readUnits_low (h : hexValue4 a b c d = some high) (hlow : isLowSurrogate high = true) :
    readUnits (a :: b :: c :: d :: rest) line = .error line := by
  simp only [readUnits, readHex_unit h, bind, Except.bind, hlow, if_true]

/-- A unit that is no half. -/
theorem readUnits_single (h : hexValue4 a b c d = some high) (hlow : isLowSurrogate high = false)
    (hhigh : isHighSurrogate high = false) :
    readUnits (a :: b :: c :: d :: rest) line = .ok (Char.ofNat high, rest) := by
  simp only [readUnits, readHex_unit h, bind, Except.bind, hlow, hhigh,
    Bool.false_eq_true, if_false]
  rfl

/-- The first half of a surrogate pair, and a unit for the second. -/
theorem readString_pair {a' b' c' d' : Char} {low : Nat} (h : hexValue4 a b c d = some high)
    (hlow : isLowSurrogate high = false) (hhigh : isHighSurrogate high = true)
    (h' : hexValue4 a' b' c' d' = some low) :
    (readString (fuel + 1) ('\\' :: 'u' :: a :: b :: c :: d :: '\\' :: 'u' :: a' :: b' ::
      c' :: d' :: rest)
        line).toOption =
      if isLowSurrogate low then
        (readString fuel rest line).toOption.map fun (text, cursor) =>
          (Char.ofNat (0x10000 + (high - 0xd800) * 0x400 + (low - 0xdc00)) :: text, cursor)
      else none := by
  have hunits : readUnits (a :: b :: c :: d :: '\\' :: 'u' :: a' :: b' :: c' :: d' :: rest) line =
      if isLowSurrogate low then
        .ok (Char.ofNat (0x10000 + (high - 0xd800) * 0x400 + (low - 0xdc00)), rest)
      else .error line := by
    simp only [readUnits, readHex_unit h, readHex_unit h', bind, Except.bind, hlow, hhigh,
      Bool.false_eq_true, if_false, if_true]
    rfl
  split at hunits
  next hsecond => rw [readString_unit hunits, toOption_map, if_pos hsecond]
  next hsecond =>
    rw [readString_unit_error hunits, if_neg hsecond]
    rfl

/-- The first half of a surrogate pair, not followed by a unit. -/
theorem readString_half (h : hexValue4 a b c d = some high) (hlow : isLowSurrogate high = false)
    (hhigh : isHighSurrogate high = true) (hrest : ∀ more, rest ≠ '\\' :: 'u' :: more) :
    (readString (fuel + 1) ('\\' :: 'u' :: a :: b :: c :: d :: rest) line).toOption = none := by
  have hunits : ∃ fault, readUnits (a :: b :: c :: d :: rest) line = .error fault := by
    simp only [readUnits, readHex_unit h, bind, Except.bind, hlow, hhigh, Bool.false_eq_true,
      if_false, if_true]
    split
    next more => exact absurd rfl (hrest more)
    all_goals exact ⟨_, rfl⟩
  obtain ⟨fault, hfault⟩ := hunits
  rw [readString_unit_error hfault]
  rfl

/-- Letters are read as what they stand for, if they stand for something. -/
theorem readString_letters (rest : List Char) (line : Nat) : ∀ (letters : List Letter) (fuel : Nat),
    letters.length < fuel →
      (readString fuel (letters.flatMap Letter.chars ++ '"' :: rest) line).toOption =
        (Quote.decode letters).map fun cs => (cs, ⟨rest, line⟩)
  | _, 0, h => absurd h (Nat.not_lt_zero _)
  | [], fuel + 1, _ => rfl
  | .plain c hc :: letters, fuel + 1, h => by
    have ih := readString_letters rest line letters fuel (Nat.lt_of_succ_lt_succ h)
    show (readString (fuel + 1) (c :: (letters.flatMap Letter.chars ++ '"' :: rest))
      line).toOption = _
    rw [readString_plain hc.1 hc.2.1 hc.2.2, toOption_map, ih, Quote.decode, Option.map_map,
      Option.map_map]
    rfl
  | .escape c hc :: letters, fuel + 1, h => by
    have ih := readString_letters rest line letters fuel (Nat.lt_of_succ_lt_succ h)
    obtain ⟨e, he⟩ := Option.isSome_iff_exists.1 hc
    show (readString (fuel + 1) ('\\' :: c :: (letters.flatMap Letter.chars ++ '"' :: rest))
      line).toOption = _
    rw [readString_simple he, toOption_map, ih, Quote.decode, he, Option.bind_some, Option.map_map,
      Option.map_map]
    rfl
  | .unit a b c d hn :: letters, fuel + 1, h => by
    obtain ⟨high, hhex⟩ := Option.isSome_iff_exists.1 hn
    rw [Quote.decode, hhex, Option.bind_some]
    cases hlow : isLowSurrogate high with
    | true =>
      refine (congrArg Except.toOption (readString_unit_error (readUnits_low hhex hlow))).trans ?_
      rfl
    | false =>
      cases hhigh : isHighSurrogate high with
      | false =>
        have ih := readString_letters rest line letters fuel (Nat.lt_of_succ_lt_succ h)
        show (readString (fuel + 1) ('\\' :: 'u' :: a :: b :: c :: d ::
          (letters.flatMap Letter.chars ++ '"' :: rest)) line).toOption = _
        rw [readString_unit (readUnits_single hhex hlow hhigh), toOption_map, ih, Option.map_map]
        simp only [Bool.false_eq_true, if_false, Option.map_map]
        rfl
      | true =>
        simp only [Bool.false_eq_true, if_false, if_true]
        -- A unit has to come next, and is read together with this one.
        match letters, h with
        | [], _ =>
          exact readString_half hhex hlow hhigh fun more hmore =>
            absurd (List.cons.inj hmore).1 (by decide)
        | .plain c hc :: letters, _ =>
          exact readString_half hhex hlow hhigh fun more hmore => hc.2.1 (List.cons.inj hmore).1
        | .escape c hc :: letters, _ =>
          refine readString_half hhex hlow hhigh fun more hmore => ?_
          obtain rfl : c = 'u' := (List.cons.inj (List.cons.inj hmore).2).1
          cases hc
        | .unit a' b' c' d' hn' :: letters, h =>
          obtain ⟨low, hhex'⟩ := Option.isSome_iff_exists.1 hn'
          have ih := readString_letters rest line letters fuel
            (Nat.lt_of_succ_lt (Nat.lt_of_succ_lt_succ h))
          refine (readString_pair hhex hlow hhigh hhex').trans ?_
          dsimp only
          rw [hhex', Option.bind_some]
          cases isLowSurrogate low with
          | false => rfl
          | true =>
            simp only [if_true, Option.map_map]
            refine (congrArg _ ih).trans ?_
            rw [Option.map_map]
            rfl

/-- A plain character is passed over. -/
theorem skipString_plain {c : Char} (hquote : c ≠ '"') (hslash : c ≠ '\\') (hc : ¬ c.toNat < 32)
    (fuel : Nat) (rest : List Char) (line : Nat) :
    skipString (fuel + 1) (c :: rest) line = skipString fuel rest line := by
  rw [skipString]
  · rw [if_neg hc]
  · exact hquote
  · exact fun h _ => hslash h
  · exact fun _ h _ => hslash h
  · exact fun _ _ h _ => hslash h

/-- So is an escaped one. -/
theorem skipString_simple {e c : Char} (he : simpleEscape e = some c) (fuel : Nat)
    (rest : List Char) (line : Nat) :
    skipString (fuel + 1) ('\\' :: e :: rest) line = skipString fuel rest line := by
  have hu : e ≠ 'u' := by
    rintro rfl
    cases he
  rw [skipString]
  · rw [he]
  · exact fun h => hu h

/-- Letters are passed over, whatever they stand for. -/
theorem skipString_letters (rest : List Char) (line : Nat) : ∀ (letters : List Letter) (fuel : Nat),
    letters.length < fuel → skipString fuel (letters.flatMap Letter.chars ++ '"' :: rest) line =
      .ok ⟨rest, line⟩
  | _, 0, h => absurd h (Nat.not_lt_zero _)
  | [], fuel + 1, _ => rfl
  | letter :: letters, fuel + 1, h => by
    have ih := skipString_letters rest line letters fuel (Nat.lt_of_succ_lt_succ h)
    cases letter with
    | plain c hc => exact (skipString_plain hc.1 hc.2.1 hc.2.2 fuel _ line).trans ih
    | escape c hc =>
      obtain ⟨e, he⟩ := Option.isSome_iff_exists.1 hc
      exact (skipString_simple he fuel _ line).trans ih
    | unit a b c d hn =>
      obtain ⟨n, hhex⟩ := Option.isSome_iff_exists.1 hn
      show skipString (fuel + 1) ('\\' :: 'u' :: a :: b :: c :: d ::
        (letters.flatMap Letter.chars ++ '"' :: rest)) line = _
      rw [skipString, readHex_unit hhex]
      exact ih

/-- A string is read as what it says, or as one that says nothing. -/
def Quote.Shows (q : Quote) : Quotation → Prop
  | .text _ s => q.text? = some s
  | .flawed _ _ => q.text? = none
  | .broken _ _ _ => False

/-- A string is read as what it shows. -/
theorem exists_readQuotation (q : Quote) (rest : List Char) (line : Nat)
    (hfuel : q.letters.length < fuel) :
    ∃ shown, readQuotation fuel (q.body ++ rest) line = (shown, some ⟨rest, line⟩) ∧
    q.Shows shown := by
  have hread := readString_letters rest line q.letters fuel hfuel
  have hskip := skipString_letters rest line q.letters fuel hfuel
  rw [q.body_append, readQuotation]
  cases hresult : readString fuel (q.letters.flatMap Letter.chars ++ '"' :: rest) line with
  | ok r =>
    obtain ⟨text, cursor⟩ := r
    rw [hresult] at hread
    obtain ⟨cs, hcs, heq⟩ := Option.map_eq_some_iff.1 hread.symm
    cases heq
    exact ⟨_, rfl, congrArg (Option.map String.ofList) hcs⟩
  | error fault =>
    rw [hresult] at hread
    simp only [hskip]
    exact ⟨_, rfl, congrArg (Option.map String.ofList) (Option.map_eq_none_iff.1 hread.symm)⟩

/-- It is longer than its letters. -/
theorem Quote.length_lt_body (q : Quote) : q.letters.length < q.body.length := by
  obtain ⟨letters⟩ := q
  rw [body, length_append, length_singleton, Nat.lt_succ_iff]
  show letters.length ≤ (letters.flatMap Letter.chars).length
  induction letters with
  | nil => exact Nat.le_refl 0
  | cons letter letters ih =>
    have hletter : 0 < letter.chars.length := by cases letter <;> exact Nat.succ_pos _
    rw [flatMap_cons, length_append, length_cons]
    omega

/-! ## Numbers -/

/-- At least one digit. -/
structure Digits where
  chars : List Char
  nonempty : chars ≠ []
  digits : ∀ c ∈ chars, c.isDigit = true

/-- An exponent as it is written. -/
structure Exponent where
  mark : Char
  mark_eq : mark = 'e' ∨ mark = 'E'
  sign : List Char
  sign_mem : sign ∈ [[], ['+'], ['-']]
  digits : Digits

/-- A number as it is written. There are no zeros in front. -/
structure Figure where
  negative : Bool
  whole : Digits
  leading : ∀ cs, whole.chars = '0' :: cs → cs = []
  fraction : Option Digits
  exponent : Option Exponent

namespace Figure

/-- The characters of a fraction. -/
def fractionChars : Option Digits → List Char
  | none => []
  | some digits => '.' :: digits.chars

/-- The characters of an exponent. -/
def exponentChars : Option Exponent → List Char
  | none => []
  | some e => e.mark :: (e.sign ++ e.digits.chars)

/-- The number from after its sign. -/
def body (f : Figure) : List Char :=
  f.whole.chars ++ (fractionChars f.fraction ++ exponentChars f.exponent)

/-- The characters of a number. -/
def chars (f : Figure) : List Char := if f.negative then '-' :: f.body else f.body

/-- The parts of the number that matter to its value. -/
def numeral (f : Figure) : Numeral where
  negative := f.negative
  whole := f.whole.chars
  fraction := f.fraction.map Digits.chars
  exponent := f.exponent.map fun e => (e.sign == ['-'], e.digits.chars)

end Figure

/-- What follows cannot go on digits. -/
def StopsDigits (rest : List Char) : Prop := ∀ c ∈ rest.head?, c.isDigit = false

/-- What stops a number stops digits. -/
theorem Stops.digits (h : Stops rest) : StopsDigits rest := fun c hc => (h c hc).1

/-- Digits come before what stops them. -/
theorem Digits.span_append (digits : Digits) (h : StopsDigits rest) :
    (digits.chars ++ rest).span Char.isDigit = (digits.chars, rest) := by
  rw [span_eq_takeWhile_dropWhile, takeWhile_append_of_pos digits.digits,
    dropWhile_append_of_pos digits.digits]
  cases rest with
  | nil => simp
  | cons c rest =>
    have hc := h c rfl
    simp [hc]

/-- The digits of a fraction are read. -/
theorem readFraction_digits (digits : Digits) (h : StopsDigits rest) (line : Nat) :
    readFraction (digits.chars ++ rest) line = .ok (digits.chars, rest) := by
  rw [readFraction, digits.span_append h]
  split
  next heq => exact absurd (congrArg Prod.fst heq) digits.nonempty
  next heq => exact absurd (congrArg Prod.fst heq) digits.nonempty
  next heq => rw [← (Prod.mk.inj heq).1, ← (Prod.mk.inj heq).2]

/-- An exponent with a plus. -/
theorem readExponent_plus (cs : List Char) (line : Nat) :
    readExponent ('+' :: cs) line = (readFraction cs line).map fun r => ((false, r.1), r.2) := by
  simp only [readExponent, readFraction]
  split <;> rfl

/-- An exponent with a minus. -/
theorem readExponent_minus (cs : List Char) (line : Nat) :
    readExponent ('-' :: cs) line = (readFraction cs line).map fun r => ((true, r.1), r.2) := by
  simp only [readExponent, readFraction]
  split <;> rfl

/-- An exponent without a sign. -/
theorem readExponent_unsigned (hplus : ∀ more, cs ≠ '+' :: more) (hminus : ∀ more, cs ≠ '-' :: more)
    (line : Nat) :
    readExponent cs line = (readFraction cs line).map fun r => ((false, r.1), r.2) := by
  unfold readExponent
  split
  next heq =>
    split at heq
    next => exact absurd rfl (hplus _)
    next => exact absurd rfl (hminus _)
    next =>
      cases heq
      rw [readFraction]
      split <;> rfl

/-- Digits begin with a digit. -/
theorem Digits.chars_eq_cons (digits : Digits) :
    ∃ c cs, digits.chars = c :: cs ∧ c.isDigit = true := by
  obtain ⟨chars, hne, hdigits⟩ := digits
  cases chars with
  | nil => exact absurd rfl hne
  | cons c cs => exact ⟨c, cs, rfl, hdigits c (.head _)⟩

/-- What begins with digits does not begin with another character. -/
theorem Digits.append_ne (digits : Digits) {c : Char} (hc : c.isDigit = false)
    (cs more : List Char) :
    digits.chars ++ cs ≠ c :: more := by
  obtain ⟨c', cs', heq, hdigit⟩ := digits.chars_eq_cons
  rw [heq]
  rintro hcons
  obtain rfl : c' = c := (List.cons.inj hcons).1
  exact Bool.noConfusion (hc.symm.trans hdigit)

/-- An exponent is read. -/
theorem readExponent_digits (e : Exponent) (h : StopsDigits rest) (line : Nat) :
    readExponent (e.sign ++ (e.digits.chars ++ rest)) line =
      .ok ((e.sign == ['-'], e.digits.chars), rest) := by
  obtain ⟨mark, hmark, sign, hsign, digits⟩ := e
  have hread := readFraction_digits digits h line
  simp only [mem_cons, not_mem_nil, or_false] at hsign
  rcases hsign with rfl | rfl | rfl
  · rw [nil_append, readExponent_unsigned (digits.append_ne rfl rest)
      (digits.append_ne rfl rest), hread]
    rfl
  · exact (readExponent_plus _ line).trans (congrArg _ hread)
  · exact (readExponent_minus _ line).trans (congrArg _ hread)

/-- The fraction of a number, if there is one. -/
def fractionPart (cs : List Char) (line : Nat) : Except Nat (Option (List Char) × List Char) :=
  match cs with
  | '.' :: cs => do
    let (digits, rest) ← readFraction cs line
    pure (some digits, rest)
  | rest => pure (none, rest)

/-- The exponent of a number, if there is one. -/
def exponentPart (cs : List Char) (line : Nat) :
    Except Nat (Option (Bool × List Char) × List Char) :=
  match cs with
  | 'e' :: cs | 'E' :: cs => do
    let (exponent, rest) ← readExponent cs line
    pure (some exponent, rest)
  | rest => pure (none, rest)

/-- A number is read in its parts, once its first digits have been read. -/
theorem readNumeral_of_span {whole : List Char} (hspan : cs.span Char.isDigit = (whole, rest))
    (hne : whole ≠ []) (hleading : ∀ more, whole = '0' :: more → more = []) (negative : Bool)
    (line : Nat) :
    readNumeral negative cs line = (do
      let (fraction, rest) ← fractionPart rest line
      let (exponent, rest) ← exponentPart rest line
      return ({ negative, whole, fraction, exponent }, rest)) := by
  unfold readNumeral
  rw [hspan]
  split
  next heq => exact absurd (congrArg Prod.fst heq) hne
  next heq => exact absurd (congrArg Prod.fst heq) hne
  next heq => exact absurd (hleading _ (congrArg Prod.fst heq)) (cons_ne_nil _ _)
  next whole' rest' hnil hcons hzero heq =>
    cases heq
    clear hnil hcons hzero
    -- The exponent is read alike in both cases.
    have hexponent (fraction : Option (List Char)) (rest : List Char) :
        (match rest with
          | 'e' :: cs => do
            let (exponent, rest) ← readExponent cs line
            return (Numeral.mk negative whole fraction (some exponent), rest)
          | 'E' :: cs => do
            let (exponent, rest) ← readExponent cs line
            return (Numeral.mk negative whole fraction (some exponent), rest)
          | rest => Except.ok (Numeral.mk negative whole fraction none, rest)) = (do
        let (exponent, rest) ← exponentPart rest line
        return (Numeral.mk negative whole fraction exponent, rest)) := by
      split
      next cs =>
        rw [exponentPart]
        cases readExponent cs line <;> rfl
      next cs =>
        rw [exponentPart]
        cases readExponent cs line <;> rfl
      next he hE =>
        rw [exponentPart]
        · rfl
        · exact he
        · exact hE
    split
    next cs =>
      rw [fractionPart]
      cases readFraction cs line with
      | error fault => rfl
      | ok r => exact hexponent (some r.1) r.2
    next hpoint =>
      rw [fractionPart]
      · exact hexponent none _
      · exact hpoint

/-- So it is if it may be absent. -/
theorem exponentPart_chars (e : Option Exponent) (h : Stops rest) (line : Nat) :
    exponentPart (Figure.exponentChars e ++ rest) line
      = .ok (e.map fun e => (e.sign == ['-'], e.digits.chars), rest) := by
  cases e with
  | none =>
    rw [Figure.exponentChars, nil_append, exponentPart]
    · rfl
    · exact fun more hmore => (h 'e' (by rw [hmore]; rfl)).2.2.1 rfl
    · exact fun more hmore => (h 'E' (by rw [hmore]; rfl)).2.2.2 rfl
  | some e =>
    have hread := readExponent_digits e h.digits line
    rw [Figure.exponentChars, cons_append, append_assoc]
    rcases e.mark_eq with hmark | hmark
    · rw [hmark, exponentPart, hread]
      rfl
    · rw [hmark, exponentPart, hread]
      rfl

/-- What follows the digits of a number is no digit. -/
theorem stopsDigits_exponentChars (e : Option Exponent) (h : Stops rest) :
    StopsDigits (Figure.exponentChars e ++ rest) := by
  cases e with
  | none => exact h.digits
  | some e =>
    rintro c ⟨⟩
    rcases e.mark_eq with hmark | hmark <;> rw [hmark] <;> rfl

/-- A fraction that may be absent is read. -/
theorem fractionPart_chars (fraction : Option Digits) (e : Option Exponent) (h : Stops rest)
    (line : Nat) :
    fractionPart (Figure.fractionChars fraction ++ (Figure.exponentChars e ++ rest)) line
      = .ok (fraction.map Digits.chars, Figure.exponentChars e ++ rest) := by
  cases fraction with
  | none =>
    rw [Figure.fractionChars, nil_append, fractionPart]
    · rfl
    · intro more hmore
      cases e with
      | none => exact (h '.' (by rw [← nil_append rest]; exact congrArg head? hmore)).2.1 rfl
      | some e =>
        have hmark : e.mark = '.' := (List.cons.inj hmore).1
        rcases e.mark_eq with heq | heq <;> cases hmark.symm.trans heq
  | some digits =>
    rw [Figure.fractionChars, cons_append, fractionPart,
      readFraction_digits digits (stopsDigits_exponentChars e h) line]
    rfl

/-- What follows the first digits of a number is no digit. -/
theorem stopsDigits_fractionChars (fraction : Option Digits) (e : Option Exponent)
    (h : Stops rest) :
    StopsDigits (Figure.fractionChars fraction ++ (Figure.exponentChars e ++ rest)) := by
  cases fraction with
  | none => exact stopsDigits_exponentChars e h
  | some digits =>
    rintro c ⟨⟩
    rfl

/-- A number is read in its parts, and what follows is left. -/
theorem readNumeral_body (f : Figure) (h : Stops rest) (line : Nat) :
    readNumeral f.negative (f.body ++ rest) line = .ok (f.numeral, rest) := by
  rw [Figure.body, append_assoc, append_assoc,
    readNumeral_of_span (f.whole.span_append (stopsDigits_fractionChars f.fraction f.exponent h))
    f.whole.nonempty
      f.leading, fractionPart_chars f.fraction f.exponent h]
  show (exponentPart (Figure.exponentChars f.exponent ++ rest) line >>= _) = _
  rw [exponentPart_chars f.exponent h]
  rfl

end

end ComputeKernel.Json
