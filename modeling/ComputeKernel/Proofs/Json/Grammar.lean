import ComputeKernel.Proofs.Json.Nesting
import ComputeKernel.Proofs.Json.Script

/-!
# Every text that is read is a script

Whatever has been read to an end, with a value or without one, is the text of a script. So a
statement about the scripts of a text is not empty for any text that can be read
(`Page.exists_of_read`). Each reader has one lemma, which says how the characters that it has gone
over are spelled. Those of values, items and members are proved together, along the fuel.
-/

namespace ComputeKernel.Json

open List
open Script

variable {fuel line : Nat} {cs rest : List Char} {cursor : Cursor}
variable {d : Document}

/-! ## Blanks -/

namespace Blank

/-- No blanks. -/
def nil : Blank := ⟨[], fun _ hc => nomatch hc⟩

/-- Blanks after blanks. -/
def append (b b' : Blank) : Blank where
  chars := b.chars ++ b'.chars
  blank c hc := (mem_append.1 hc).elim (b.blank c) (b'.blank c)

end Blank

/-- What is passed over before the next character is blank. -/
theorem exists_of_skipBlank (cs : List Char) (line : Nat) :
    ∃ b : Blank, cs = b.chars ++ (skipBlank cs line).rest := by
  induction cs generalizing line with
  | nil => exact ⟨.nil, rfl⟩
  | cons c cs ih =>
    rw [skipBlank]
    split
    next hc =>
      obtain ⟨b, hb⟩ := ih (lineAfter line c)
      exact ⟨⟨c :: b.chars, forall_mem_cons.2 ⟨hc, b.blank⟩⟩, congrArg (c :: ·) hb⟩
    next => exact ⟨.nil, rfl⟩

/-- A word is spelled as it is. -/
theorem eq_of_readWord {word : List Char} (h : readWord word cs line = .ok cursor) :
    cs = word ++ cursor.rest := by
  induction word generalizing cs with
  | nil =>
    cases h
    rfl
  | cons w word ih =>
    cases cs with
    | nil => cases h
    | cons c cs =>
      rw [readWord] at h
      split at h
      next hc => rw [hc, ih h, cons_append]
      next => cases h

/-! ## Strings -/

/-- Four digits are four characters. -/
theorem exists_of_readHex {n : Nat} (h : readHex cs line = .ok (n, rest)) :
    ∃ a b c d, cs = a :: b :: c :: d :: rest ∧ (hexValue4 a b c d).isSome = true := by
  unfold readHex at h
  split at h
  next a b c d more =>
    split at h
    next heq =>
      cases h
      exact ⟨a, b, c, d, rfl, Option.isSome_iff_exists.2 ⟨_, heq⟩⟩
    next => cases h
  next => cases h

/-- What follows `\u` is one unit, or two. -/
theorem exists_of_readUnits {c : Char} (h : readUnits cs line = .ok (c, rest)) :
    ∃ letters : List Letter, '\\' :: 'u' :: cs = letters.flatMap Letter.chars ++ rest := by
  obtain ⟨⟨high, more⟩, hhex, hmore⟩ := exists_of_bind_ok h
  obtain ⟨a, b, c, d, rfl, hn⟩ := exists_of_readHex hhex
  dsimp only at hmore
  split at hmore
  next => cases hmore
  next =>
    split at hmore
    next =>
      split at hmore
      next more' =>
        obtain ⟨⟨low, rest'⟩, hhex', hrest⟩ := exists_of_bind_ok hmore
        obtain ⟨a', b', c', d', rfl, hn'⟩ := exists_of_readHex hhex'
        dsimp only at hrest
        split at hrest
        next =>
          obtain rfl : rest' = rest := congrArg Prod.snd (Except.ok.inj hrest)
          exact ⟨[.unit a b c d hn, .unit a' b' c' d' hn'], rfl⟩
        next => cases hrest
      all_goals cases hmore
    next =>
      cases hmore
      exact ⟨[.unit a b c d hn], rfl⟩

/-- The letters before other letters. -/
theorem exists_letters_append {cs cs' : List Char} (letters : List Letter)
    (h : cs = letters.flatMap Letter.chars ++ cs')
    (h' : ∃ more : List Letter, cs' = more.flatMap Letter.chars ++ '"' :: rest) :
    ∃ letters : List Letter, cs = letters.flatMap Letter.chars ++ '"' :: rest := by
  obtain ⟨more, rfl⟩ := h'
  exact ⟨letters ++ more, by rw [h, flatMap_append, append_assoc]⟩

/-- A character that no escape begins with is not a backslash. -/
theorem ne_slash {c : Char} (hnil : c = '\\' → cs = [] → False)
    (hcons : ∀ e more, c = '\\' → cs = e :: more → False) : c ≠ '\\' := by
  intro hc
  cases cs with
  | nil => exact hnil hc rfl
  | cons e more => exact hcons e more hc rfl

/-- A string that has been read is spelled by letters. -/
theorem exists_of_readString {text : List Char} (h : readString fuel cs line = .ok (text, cursor)) :
    ∃ letters : List Letter, cs = letters.flatMap Letter.chars ++ '"' :: cursor.rest := by
  fun_induction readString fuel cs line generalizing text cursor with
  | case1 => cases h
  | case2 => cases h
  | case3 =>
    cases h
    exact ⟨[], rfl⟩
  | case4 => cases h
  | case5 fuel cs line ih =>
    obtain ⟨⟨c, rest⟩, hunits, h⟩ := exists_of_bind_ok h
    obtain ⟨letters, hletters⟩ := exists_of_readUnits hunits
    obtain ⟨⟨text, cursor⟩, hrest, h⟩ := exists_of_bind_ok h
    cases h
    exact exists_letters_append letters hletters (ih rest hrest)
  | case6 fuel c cs line hu e he ih =>
    obtain ⟨⟨text, cursor⟩, hrest, h⟩ := exists_of_bind_ok h
    cases h
    exact exists_letters_append [.escape c (Option.isSome_iff_exists.2 ⟨e, he⟩)] rfl (ih hrest)
  | case7 => cases h
  | case8 => cases h
  | case9 fuel c cs line hquote hnil hu hslash hc ih =>
    obtain ⟨⟨text, cursor⟩, hrest, h⟩ := exists_of_bind_ok h
    cases h
    have hplain : c ≠ '"' ∧ c ≠ '\\' ∧ ¬ c.toNat < 32 := ⟨hquote, ne_slash hnil hslash, hc⟩
    exact exists_letters_append [.plain c hplain] rfl (ih hrest)

/-- A string that has been passed over is spelled by letters. -/
theorem exists_of_skipString (h : skipString fuel cs line = .ok cursor) :
    ∃ letters : List Letter, cs = letters.flatMap Letter.chars ++ '"' :: cursor.rest := by
  fun_induction skipString fuel cs line generalizing cursor with
  | case1 => cases h
  | case2 => cases h
  | case3 =>
    cases h
    exact ⟨[], rfl⟩
  | case4 => cases h
  | case5 fuel cs line ih =>
    obtain ⟨⟨n, rest⟩, hhex, hrest⟩ := exists_of_bind_ok h
    obtain ⟨a, b, c, d, rfl, hn⟩ := exists_of_readHex hhex
    exact exists_letters_append [.unit a b c d hn] rfl (ih rest hrest)
  | case6 fuel c cs line hu e he ih =>
    exact exists_letters_append [.escape c (Option.isSome_iff_exists.2 ⟨e, he⟩)] rfl (ih h)
  | case7 => cases h
  | case8 => cases h
  | case9 fuel c cs line hquote hnil hu hslash hc ih =>
    have hplain : c ≠ '"' ∧ c ≠ '\\' ∧ ¬ c.toNat < 32 := ⟨hquote, ne_slash hnil hslash, hc⟩
    exact exists_letters_append [.plain c hplain] rfl (ih h)

/-- A string that has been read, or passed over, is a quote. -/
theorem exists_of_readQuotation {shown : Quotation}
    (h : readQuotation fuel cs line = (shown, some cursor)) :
    ∃ q : Quote, cs = q.body ++ cursor.rest := by
  suffices hletters : ∃ letters : List Letter, cs =
      letters.flatMap Letter.chars ++ '"' :: cursor.rest by
    obtain ⟨letters, hletters⟩ := hletters
    exact ⟨⟨letters⟩, hletters.trans (Quote.body_append ⟨letters⟩ _).symm⟩
  rw [readQuotation] at h
  split at h
  next hread =>
    cases h
    exact exists_of_readString hread
  next =>
    split at h
    next hskip =>
      cases h
      exact exists_of_skipString hskip
    next => cases h

/-! ## Numbers -/

/-- Digits in front are digits. -/
theorem exists_of_span {digits : List Char} (h : cs.span Char.isDigit = (digits, rest))
    (hne : digits ≠ []) :
    ∃ d : Digits, d.chars = digits ∧ cs = digits ++ rest := by
  rw [span_eq_takeWhile_dropWhile] at h
  obtain ⟨htake, hdrop⟩ := Prod.mk.inj h
  refine ⟨⟨digits, hne, fun c hc => ?_⟩, rfl, ?_⟩
  · exact (all_eq_true.1 all_takeWhile) c (htake ▸ hc)
  · rw [← htake, ← hdrop, takeWhile_append_dropWhile]

/-- A fraction is digits. -/
theorem exists_of_readFraction {digits : List Char}
    (h : readFraction cs line = .ok (digits, rest)) :
    ∃ d : Digits, cs = d.chars ++ rest := by
  rw [readFraction] at h
  split at h
  next => cases h
  next => cases h
  next digits' rest' hnil hcons hspan =>
    cases h
    have hne : digits ≠ [] := by
      intro heq
      cases rest with
      | nil => exact hnil heq rfl
      | cons c rest => exact hcons c rest heq rfl
    obtain ⟨d, hd, hcs⟩ := exists_of_span hspan hne
    exact ⟨d, hd ▸ hcs⟩

/-- An exponent is a sign and digits. -/
theorem exists_of_readExponent {exponent : Bool × List Char}
    (h : readExponent cs line = .ok (exponent, rest)) :
    ∃ sign ∈ [[], ['+'], ['-']], ∃ d : Digits, cs = sign ++ (d.chars ++ rest) := by
  have hdigits {below : Bool} {more : List Char}
      (h : ((readFraction more line).map fun r => ((below, r.1), r.2)) = .ok (exponent, rest)) :
      ∃ d : Digits, more = d.chars ++ rest := by
    obtain ⟨⟨digits, rest'⟩, hread, heq⟩ := exists_of_map_ok h
    cases heq
    exact exists_of_readFraction hread
  by_cases hplus : ∃ more, cs = '+' :: more
  · obtain ⟨more, rfl⟩ := hplus
    obtain ⟨d, hd⟩ := hdigits (readExponent_plus more line ▸ h)
    exact ⟨['+'], by decide, d, congrArg _ hd⟩
  by_cases hminus : ∃ more, cs = '-' :: more
  · obtain ⟨more, rfl⟩ := hminus
    obtain ⟨d, hd⟩ := hdigits (readExponent_minus more line ▸ h)
    exact ⟨['-'], by decide, d, congrArg _ hd⟩
  · rw [readExponent_unsigned (fun more heq => hplus ⟨more, heq⟩) fun more heq =>
      hminus ⟨more, heq⟩] at h
    obtain ⟨d, hd⟩ := hdigits h
    exact ⟨[], by decide, d, hd⟩

/-- A fraction may be absent. -/
theorem exists_of_fractionPart {fraction : Option (List Char)}
    (h : fractionPart cs line = .ok (fraction, rest)) :
    ∃ d : Option Digits, cs = Figure.fractionChars d ++ rest := by
  unfold fractionPart at h
  split at h
  next more =>
    obtain ⟨⟨digits, rest'⟩, hread, heq⟩ := exists_of_bind_ok h
    cases heq
    obtain ⟨d, hd⟩ := exists_of_readFraction hread
    exact ⟨some d, congrArg _ hd⟩
  next =>
    cases h
    exact ⟨none, rfl⟩

/-- So may an exponent. -/
theorem exists_of_exponentPart {exponent : Option (Bool × List Char)}
    (h : exponentPart cs line = .ok (exponent, rest)) :
    ∃ e : Option Exponent, cs = Figure.exponentChars e ++ rest := by
  have hmarked {mark : Char} (hmark : mark = 'e' ∨ mark = 'E') {more : List Char}
      (h : (readExponent more line >>= fun read => pure (some read.1, read.2)) =
        Except.ok (exponent, rest)) :
      ∃ e : Option Exponent, mark :: more = Figure.exponentChars e ++ rest := by
    obtain ⟨⟨read, rest'⟩, hread, heq⟩ := exists_of_bind_ok h
    cases heq
    obtain ⟨sign, hsign, d, rfl⟩ := exists_of_readExponent hread
    exact ⟨some ⟨mark, hmark, sign, hsign, d⟩,
      by rw [Figure.exponentChars, cons_append, append_assoc]⟩
  unfold exponentPart at h
  split at h
  next => exact hmarked (.inl rfl) h
  next => exact hmarked (.inr rfl) h
  next =>
    cases h
    exact ⟨none, rfl⟩

/-- A number that has been read is a figure. -/
theorem exists_of_readNumeral {negative : Bool} {numeral : Numeral}
    (h : readNumeral negative cs line = .ok (numeral, rest)) :
    ∃ f : Figure, f.negative = negative ∧ cs = f.body ++ rest := by
  obtain ⟨whole, more, hspan⟩ : ∃ whole more, cs.span Char.isDigit = (whole, more) := ⟨_, _, rfl⟩
  have hne : whole ≠ [] := by
    rintro rfl
    rw [readNumeral, hspan] at h
    cases more <;> cases h
  have hleading : ∀ zs, whole = '0' :: zs → zs = [] := by
    rintro zs rfl
    cases zs with
    | nil => rfl
    | cons z zs =>
      rw [readNumeral, hspan] at h
      cases h
  rw [readNumeral_of_span hspan hne hleading] at h
  obtain ⟨⟨fraction, afterFraction⟩, hfraction, h⟩ := exists_of_bind_ok h
  obtain ⟨⟨exponent, afterExponent⟩, hexponent, h⟩ := exists_of_bind_ok h
  cases h
  obtain ⟨w, rfl, rfl⟩ := exists_of_span hspan hne
  obtain ⟨d, rfl⟩ := exists_of_fractionPart hfraction
  obtain ⟨e, rfl⟩ := exists_of_exponentPart hexponent
  refine ⟨⟨negative, w, hleading, d, e⟩, rfl, ?_⟩
  rw [Figure.body, append_assoc, append_assoc]

/-- A number that has been read is a figure. -/
theorem exists_of_numberDocument {negative : Bool}
    (h : numberDocument negative cs line = (d, some cursor)) :
    ∃ f : Figure, f.negative = negative ∧ cs = f.body ++ cursor.rest := by
  rw [numberDocument] at h
  split at h
  next => cases h
  next hread =>
    split at h
    all_goals
      cases h
      exact exists_of_readNumeral hread

/-- A word is spelled as it is. -/
theorem eq_of_wordDocument {word : List Char} {value : Nat → Document}
    (h : wordDocument word value cs line = (d, some cursor)) : cs = word ++ cursor.rest := by
  rw [wordDocument] at h
  split at h
  next hread =>
    cases h
    exact eq_of_readWord hread
  next => cases h

/-! ## Values, items and members -/

/-- A comma stands before more. -/
theorem comma_of_ne_nil {α : Type} {parts : List α} (h : parts ≠ []) : comma parts = [','] := by
  cases parts with
  | nil => exact absurd rfl h
  | cons p parts => rfl

/-- The characters of a scalar. -/
theorem Script.chars_scalar (s : Scalar) : (scalar s).chars = s.chars := by rw [Script.chars]

mutual

/-- What has been read as a value is a script, after blanks. -/
theorem exists_of_readValue :
    ∀ {fuel : Nat} {cs : List Char} {line : Nat} {d : Document} {cursor : Cursor},
    readValue fuel cs line = (d, some cursor) →
      ∃ (lead : Blank) (x : Script), cs = lead.chars ++ (x.chars ++ cursor.rest)
  | 0, _, _, _, _, h => by
    rw [readValue] at h
    cases h
  | fuel + 1, cs, line, d, cursor, h => by
    obtain ⟨lead, hlead⟩ := exists_of_skipBlank cs line
    refine ⟨lead, ?_⟩
    suffices hx : ∃ x : Script, (skipBlank cs line).rest = x.chars ++ cursor.rest by
      obtain ⟨x, hx⟩ := hx
      exact ⟨x, hx ▸ hlead⟩
    rw [readValue] at h
    split at h
    next => cases h
    next more line' heq =>
      cases hread : readQuotation fuel more line' with
      | mk shown after =>
        rw [hread] at h
        cases h
        obtain ⟨q, rfl⟩ := exists_of_readQuotation hread
        exact ⟨.scalar (.string q), by rw [heq, chars_scalar]; rfl⟩
    next heq =>
      obtain ⟨f, hsign, hf⟩ := exists_of_numberDocument h
      exact ⟨.scalar (.number f),
        by rw [heq, hf, chars_scalar, Scalar.chars, Figure.chars, hsign]; rfl⟩
    next heq => exact ⟨.scalar .null, by rw [heq, eq_of_wordDocument h, chars_scalar]; rfl⟩
    next heq => exact ⟨.scalar (.bool true), by rw [heq, eq_of_wordDocument h, chars_scalar]; rfl⟩
    next heq => exact ⟨.scalar (.bool false), by rw [heq, eq_of_wordDocument h, chars_scalar]; rfl⟩
    next more line' heq =>
      rw [heq]
      obtain ⟨items, close, after, hread⟩ :
          ∃ items close after, readItems fuel true more line' = (items, close, after) :=
            ⟨_, _, _, rfl⟩
      rw [hread] at h
      cases h
      rcases exists_of_readItems hread with ⟨parts, -, rfl⟩ | ⟨-, inner, rfl⟩
      · exact ⟨.array .nil parts, by rw [Script.chars]; rfl⟩
      · exact ⟨.array inner [], by simp [Script.chars, itemsChars]⟩
    next more line' heq =>
      rw [heq]
      obtain ⟨members, close, after, hread⟩ : ∃ members close after,
          readMembers fuel true more line' = (members, close, after) := ⟨_, _, _, rfl⟩
      rw [hread] at h
      cases h
      rcases exists_of_readMembers hread with ⟨parts, -, rfl⟩ | ⟨-, inner, rfl⟩
      · exact ⟨.object .nil parts, by rw [Script.chars]; rfl⟩
      · exact ⟨.object inner [], by simp [Script.chars, membersChars]⟩
    next heq =>
      split at h
      next =>
        obtain ⟨f, hsign, hf⟩ := exists_of_numberDocument h
        exact ⟨.scalar (.number f),
          by rw [heq, hf, chars_scalar, Scalar.chars, Figure.chars, hsign]; rfl⟩
      next => cases h

/-- What was read as items is spelled by parts, if any. -/
theorem exists_of_readItems : ∀ {fuel : Nat} {first : Bool} {cs : List Char} {line : Nat}
    {items : List (Item Document)} {close : Nat} {cursor : Cursor},
    readItems fuel first cs line = (items, close, some cursor) →
      (∃ parts, parts ≠ [] ∧ cs = itemsChars parts ++ cursor.rest) ∨
        first = true ∧ ∃ inner : Blank, cs = inner.chars ++ ']' :: cursor.rest
  | 0, _, _, _, _, _, _, h => by
    rw [readItems] at h
    cases h
  | fuel + 1, first, cs, line, items, close, cursor, h => by
    obtain ⟨lead, hlead⟩ := exists_of_skipBlank cs line
    rw [readItems] at h
    split at h
    next heq =>
      split at h
      next hfirst =>
        cases h
        exact .inr ⟨hfirst, lead, by rw [heq] at hlead; exact hlead⟩
      next => cases h
    next more line' hmore heq =>
      split at h
      next => cases h
      next d cursor' hvalue =>
        obtain ⟨lead', x, hx⟩ := exists_of_readValue hvalue
        obtain ⟨trail, htrail⟩ := exists_of_skipBlank cursor'.rest cursor'.line
        have htext (parts : List (Part Blank Script))
          (htail : (skipBlank cursor'.rest cursor'.line).rest =
            comma parts ++ itemsChars parts ++ cursor.rest) :
            cs = itemsChars (⟨lead.append lead', x, trail⟩ :: parts) ++ cursor.rest := by
          rw [hlead, heq, itemsChars, Blank.append]
          simp only [append_assoc] at htail ⊢
          rw [← htail, ← htrail, ← hx]
        refine .inl ?_
        split at h
        next hclose =>
          cases h
          exact ⟨_, cons_ne_nil _ _, htext [] (by rw [hclose, itemsChars]; rfl)⟩
        next rest line'' hcomma =>
          obtain ⟨items, close, after, hread⟩ : ∃ items close after,
              readItems fuel false rest line'' = (items, close, after) := ⟨_, _, _, rfl⟩
          rw [hread] at h
          cases h
          rcases exists_of_readItems hread with ⟨parts, hne, rfl⟩ | ⟨hfirst, -⟩
          · exact ⟨_, cons_ne_nil _ _, htext parts (by rw [hcomma, comma_of_ne_nil hne]; rfl)⟩
          · cases hfirst
        next => cases h

/-- What was read as members is spelled by parts, if any. -/
theorem exists_of_readMembers : ∀ {fuel : Nat} {first : Bool} {cs : List Char} {line : Nat}
    {members : List (Entry Document)} {close : Nat} {cursor : Cursor},
    readMembers fuel first cs line = (members, close, some cursor) →
      (∃ parts, parts ≠ [] ∧ cs = membersChars parts ++ cursor.rest) ∨
        first = true ∧ ∃ inner : Blank, cs = inner.chars ++ '\x7d' :: cursor.rest
  | 0, _, _, _, _, _, _, h => by
    rw [readMembers] at h
    cases h
  | fuel + 1, first, cs, line, members, close, cursor, h => by
    obtain ⟨lead, hlead⟩ := exists_of_skipBlank cs line
    rw [readMembers] at h
    split at h
    next heq =>
      split at h
      next hfirst =>
        cases h
        exact .inr ⟨hfirst, lead, by rw [heq] at hlead; exact hlead⟩
      next => cases h
    next more line' heq =>
      split at h
      next => cases h
      next key cursor₁ hkey =>
        obtain ⟨name, hname⟩ := exists_of_readQuotation hkey
        obtain ⟨gap, hgap⟩ := exists_of_skipBlank cursor₁.rest cursor₁.line
        split at h
        next more' colon hcolon =>
          split at h
          next => cases h
          next d cursor₂ hvalue =>
            obtain ⟨space, x, hx⟩ := exists_of_readValue hvalue
            obtain ⟨trail, htrail⟩ := exists_of_skipBlank cursor₂.rest cursor₂.line
            have htext (parts : List (Part Head Script))
              (htail : (skipBlank cursor₂.rest cursor₂.line).rest =
                comma parts ++ membersChars parts ++ cursor.rest) :
                cs = membersChars (⟨⟨lead, name, gap, space⟩, x, trail⟩ :: parts) ++
                    cursor.rest := by
              rw [hlead, heq, membersChars, Head.chars, Quote.chars]
              simp only [append_assoc, cons_append] at htail ⊢
              rw [← htail, ← htrail, ← hx, hname, hgap, hcolon]
            refine .inl ?_
            split at h
            next hclose =>
              cases h
              exact ⟨_, cons_ne_nil _ _, htext [] (by rw [hclose, membersChars]; rfl)⟩
            next rest line'' hcomma =>
              obtain ⟨members, close, after, hread⟩ : ∃ members close after,
                  readMembers fuel false rest line'' = (members, close, after) := ⟨_, _, _, rfl⟩
              rw [hread] at h
              cases h
              rcases exists_of_readMembers hread with ⟨parts, hne, rfl⟩ | ⟨hfirst, -⟩
              · exact ⟨_, cons_ne_nil _ _, htext parts (by rw [hcomma, comma_of_ne_nil hne]; rfl)⟩
              · cases hfirst
            next => cases h
        next => cases h
    next => cases h

end

/-- A text that has been read to blanks at its end is a page. -/
theorem Page.exists_of_read {text : String} (h : Json.read text = (d, some cursor))
    (hend : (skipBlank cursor.rest cursor.line).rest = []) : ∃ p : Page, p.text = text := by
  obtain ⟨lead, x, hx⟩ := exists_of_readValue h
  obtain ⟨trail, htrail⟩ := exists_of_skipBlank cursor.rest cursor.line
  rw [hend, append_nil] at htrail
  refine ⟨⟨lead, x, trail⟩, ?_⟩
  rw [Page.text, Page.chars, ← htrail, ← hx, String.ofList_toList]

end ComputeKernel.Json
