import Mathlib.Data.List.Forall2
import ComputeKernel.Proofs.Json.Spelling

/-!
# JSON texts, part by part

A `Script` is a JSON text in its parts, just as they are written: how each string and number is
spelled, and what blanks stand where. `Script.chars` is the text. Nothing is understood yet, so
strings and numbers need not have a value. `Script.Shows x d` says that a document is what the
script says, on whatever lines. The text of a script is read as a document that it shows
(`Script.exists_readValue`); a `Page` is a text with nothing else in it (`Page.exists_read`).
-/

namespace ComputeKernel.Json

open List

variable (b : Blank)
variable (fuel : Nat)

/-! ## Scripts -/

/-- A text without other texts inside it. -/
inductive Scalar where
  | null
  | bool (value : Bool)
  | number (figure : Figure)
  | string (quote : Quote)

/-- The characters of a scalar. -/
def Scalar.chars : Scalar → List Char
  | .null => ['n', 'u', 'l', 'l']
  | .bool true => ['t', 'r', 'u', 'e']
  | .bool false => ['f', 'a', 'l', 's', 'e']
  | .number f => f.chars
  | .string q => q.chars

/-- A part of a container: what stands before a value, the value, and blanks. -/
structure Part (φ α : Type) where
  lead : φ
  value : α
  trail : Blank

/-- What stands before the value of a member. -/
structure Head where
  lead : Blank
  name : Quote
  /-- The blanks before the colon, and those after it. -/
  gap : Blank
  space : Blank

/-- What is written before the value. -/
def Head.chars (h : Head) : List Char :=
  h.lead.chars ++ (h.name.chars ++ (h.gap.chars ++ ':' :: h.space.chars))

/-- A JSON text, part by part. -/
inductive Script where
  | scalar (scalar : Scalar)
  | array (inner : Blank) (items : List (Part Blank Script))
  | object (inner : Blank) (members : List (Part Head Script))

/-- The comma before more parts. -/
def comma {α : Type} : List α → List Char
  | [] => []
  | _ :: _ => [',']

namespace Script

mutual

/-- The characters of a script. -/
def chars : Script → List Char
  | .scalar s => s.chars
  | .array inner items => '[' :: (inner.chars ++ itemsChars items)
  | .object inner members => '\x7b' :: (inner.chars ++ membersChars members)

/-- The items of an array and its closing bracket. -/
def itemsChars : List (Part Blank Script) → List Char
  | [] => [']']
  | ⟨lead, x, trail⟩ :: parts =>
    lead.chars ++ (chars x ++ (trail.chars ++ (comma parts ++ itemsChars parts)))

/-- The members of an object and its closing brace. -/
def membersChars : List (Part Head Script) → List Char
  | [] => ['\x7d']
  | ⟨lead, x, trail⟩ :: parts =>
    lead.chars ++ (chars x ++ (trail.chars ++ (comma parts ++ membersChars parts)))

end

end Script

/-! ### What a script shows -/

/-- A document is what a scalar says, or that it says nothing. -/
inductive Scalar.Shows : Scalar → Document → Prop
  | null (line : Nat) : Shows .null (.null line)
  | bool (b : Bool) (line : Nat) : Shows (.bool b) (.bool line b)
  | number {f : Figure} {n : Number} (line : Nat) : f.numeral.value = some n →
    Shows (.number f) (.number line n)
  | string {q : Quote} {s : String} (line : Nat) : q.text? = some s →
    Shows (.string q) (.string line s)
  | noNumber {f : Figure} (line fault : Nat) : f.numeral.value = none →
    Shows (.number f) (.flawed line fault)
  | noString {q : Quote} (line fault : Nat) : q.text? = none →
    Shows (.string q) (.flawed line fault)

/-- A document is what a script says, on whatever lines. -/
inductive Script.Shows : Script → Document → Prop
  | scalar {s : Scalar} {d : Document} : s.Shows d → Shows (.scalar s) d
  | array {inner : Blank} {parts : List (Part Blank Script)} {line : Nat}
    {items : List (Item Document)} {close : Nat} :
      Forall₂ (fun p i => Shows p.value i.value) parts items →
      Shows (.array inner parts) (.array line items close)
  | object {inner : Blank} {parts : List (Part Head Script)} {line : Nat}
    {es : List (Entry Document)} {close : Nat} :
      Forall₂ (fun p e => p.lead.name.Shows e.key) parts es →
      Forall₂ (fun p e => Shows p.value e.value) parts es →
        Shows (.object inner parts) (.object line es close)

/-! ### Reading scripts -/

/-- Blanks before a value are passed over. -/
theorem readValue_blank (cs : List Char) (line : Nat) :
    readValue (fuel + 1) (b.chars ++ cs) line =
      readValue (fuel + 1) cs (lineAfterAll line b.chars) := by
  rw [readValue, readValue, b.skipBlank_append]

/-- So are blanks before an item. -/
theorem readItems_blank (first : Bool) (cs : List Char) (line : Nat) :
    readItems (fuel + 1) first (b.chars ++ cs) line =
      readItems (fuel + 1) first cs (lineAfterAll line b.chars) := by
  rw [readItems, readItems, b.skipBlank_append]

/-- So are blanks before a member. -/
theorem readMembers_blank (first : Bool) (cs : List Char) (line : Nat) :
    readMembers (fuel + 1) first (b.chars ++ cs) line =
      readMembers (fuel + 1) first cs (lineAfterAll line b.chars) := by
  rw [readMembers, readMembers, b.skipBlank_append]

/-- A number is read as its value, or as one that has none. -/
theorem exists_numberDocument (f : Figure) {rest : List Char} (h : Stops rest) (line : Nat) :
    ∃ d, numberDocument f.negative (f.body ++ rest) line = (d, some ⟨rest, line⟩) ∧
    (Scalar.number f).Shows d := by
  rw [numberDocument, readNumeral_body f h]
  dsimp only
  cases hvalue : f.numeral.value with
  | some n => exact ⟨_, rfl, .number _ hvalue⟩
  | none => exact ⟨_, rfl, .noNumber _ _ hvalue⟩

/-- A scalar is read. -/
theorem exists_readScalar (s : Scalar) (rest : List Char) (line fuel : Nat)
    (hfuel : s.chars.length ≤ fuel) (h : Stops rest) :
    ∃ d, readValue (fuel + 1) (s.chars ++ rest) line = (d, some ⟨rest, line⟩) ∧ s.Shows d := by
  cases s with
  | null => exact ⟨_, rfl, .null _⟩
  | bool b => cases b <;> exact ⟨_, rfl, .bool _ _⟩
  | number f =>
    obtain ⟨d, hd, hshows⟩ := exists_numberDocument f h line
    refine ⟨d, ?_, hshows⟩
    rw [Scalar.chars, Figure.chars]
    cases hsign : f.negative with
    | true =>
      rw [hsign] at hd
      exact hd
    | false =>
      rw [hsign] at hd
      obtain ⟨c, cs, hwhole, hc⟩ := f.whole.chars_eq_cons
      rw [Figure.body, hwhole] at hd ⊢
      exact (readValue_digit hc fuel _ line).trans hd
  | string q =>
    have hroom : q.letters.length < fuel :=
      Nat.lt_of_lt_of_le q.length_lt_body (Nat.le_of_succ_le hfuel)
    obtain ⟨shown, hread, hshows⟩ := exists_readQuotation q rest line hroom
    refine ⟨shown.document, ?_, ?_⟩
    · rw [Scalar.chars, Quote.chars, cons_append, readValue, skipBlank_of_not_blank (by decide)]
      simp only [hread]
    · cases shown with
      | text line s => exact .string line hshows
      | flawed line fault => exact .noString line fault hshows
      | broken line fault skipFault => exact hshows.elim

namespace Head

/-- It is longer than the name. -/
theorem length_lt (h : Head) : h.name.letters.length < h.chars.length := by
  have hname := h.name.length_lt_body
  simp only [chars, Quote.chars, length_append, length_cons]
  omega

/-- What stands before the value of a member is read up to the colon. -/
theorem exists_read (h : Head) (fuel line : Nat) (rest : List Char)
    (hfuel : h.name.letters.length < fuel) :
    ∃ key line₁ line₂,
      skipBlank (h.chars ++ rest) line =
        ⟨'"' :: (h.name.body ++ (h.gap.chars ++ ':' :: (h.space.chars ++ rest))), line₁⟩ ∧
      readQuotation fuel (h.name.body ++ (h.gap.chars ++ ':' :: (h.space.chars ++ rest))) line₁ =
        (key, some ⟨h.gap.chars ++ ':' :: (h.space.chars ++ rest), line₁⟩) ∧
      h.name.Shows key ∧
      skipBlank (h.gap.chars ++ ':' :: (h.space.chars ++ rest)) line₁ =
        ⟨':' :: (h.space.chars ++ rest), line₂⟩ := by
  obtain ⟨key, hkey, hshown⟩ :=
    exists_readQuotation h.name (h.gap.chars ++ ':' :: (h.space.chars ++ rest))
    (lineAfterAll line h.lead.chars) hfuel
  refine ⟨key, _, lineAfterAll (lineAfterAll line h.lead.chars) h.gap.chars, ?_, hkey, hshown, ?_⟩
  · rw [chars, Quote.chars]
    simp only [append_assoc, cons_append]
    rw [h.lead.skipBlank_append, skipBlank_of_not_blank (by decide)]
  · rw [h.gap.skipBlank_append, skipBlank_of_not_blank (by decide)]

end Head

/-- A scalar opens a value. -/
theorem Scalar.chars_eq_cons (s : Scalar) : ∃ c cs, s.chars = c :: cs ∧ Opens c := by
  cases s with
  | null => exact ⟨_, _, rfl, by decide, by decide⟩
  | bool b => cases b <;> exact ⟨_, _, rfl, by decide, by decide⟩
  | string q => exact ⟨_, _, rfl, by decide, by decide⟩
  | number f =>
    rw [Scalar.chars, Figure.chars]
    split
    next => exact ⟨_, _, rfl, by decide, by decide⟩
    next =>
      obtain ⟨c, cs, hwhole, hc⟩ := f.whole.chars_eq_cons
      rw [Figure.body, hwhole]
      exact ⟨c, _, rfl, opens_of_isDigit hc⟩

namespace Script

/-- A script has a first character, which opens a value. -/
theorem chars_eq_cons (x : Script) : ∃ c cs, x.chars = c :: cs ∧ Opens c := by
  cases x with
  | scalar s =>
    rw [chars]
    exact s.chars_eq_cons
  | array inner items => exact ⟨'[', _, chars.eq_2 inner items, by decide, by decide⟩
  | object inner members => exact ⟨'\x7b', _, chars.eq_3 inner members, by decide, by decide⟩

/-- A bracket closes the items. -/
theorem length_itemsChars_pos (parts : List (Part Blank Script)) :
    0 < (itemsChars parts).length := by
  induction parts with
  | nil =>
    rw [itemsChars]
    exact Nat.succ_pos 0
  | cons p parts ih =>
    obtain ⟨lead, x, trail⟩ := p
    simp only [itemsChars, length_append]
    omega

/-- A brace closes the members. -/
theorem length_membersChars_pos (parts : List (Part Head Script)) :
    0 < (membersChars parts).length := by
  induction parts with
  | nil =>
    rw [membersChars]
    exact Nat.succ_pos 0
  | cons p parts ih =>
    obtain ⟨lead, x, trail⟩ := p
    simp only [membersChars, length_append]
    omega

/-- What follows an item does not go on a number. -/
theorem stops_itemsChars (parts : List (Part Blank Script)) (rest : List Char) :
    Stops (comma parts ++ itemsChars parts ++ rest) := by
  cases parts with
  | nil =>
    rw [itemsChars]
    exact stops_cons (by decide)
  | cons p parts => exact stops_cons (by decide)

/-- What follows a member does not go on a number. -/
theorem stops_membersChars (parts : List (Part Head Script)) (rest : List Char) :
    Stops (comma parts ++ membersChars parts ++ rest) := by
  cases parts with
  | nil =>
    rw [membersChars]
    exact stops_cons (by decide)
  | cons p parts => exact stops_cons (by decide)

mutual

/-- A script is read as a document that it shows, and what follows is left. -/
theorem exists_readValue : ∀ (x : Script) (fuel : Nat) (rest : List Char) (line : Nat),
    2 * x.chars.length ≤ fuel → Stops rest →
      ∃ d line', readValue fuel (x.chars ++ rest) line = (d, some ⟨rest, line'⟩) ∧ x.Shows d
  | x, 0, rest, line, hfuel, _ => by
    obtain ⟨c, cs, hcs, -⟩ := x.chars_eq_cons
    rw [hcs, length_cons] at hfuel
    omega
  | .scalar s, fuel + 1, rest, line, hfuel, hrest => by
    rw [chars] at hfuel ⊢
    obtain ⟨d, hd, hshows⟩ := exists_readScalar s rest line fuel (by omega) hrest
    exact ⟨d, line, hd, .scalar hshows⟩
  | .array inner items, fuel + 1, rest, line, hfuel, _ => by
    have hpos := length_itemsChars_pos items
    rw [chars, length_cons, length_append] at hfuel
    obtain ⟨fuel, rfl⟩ : ∃ n, fuel = n + 1 := ⟨fuel - 1, by omega⟩
    obtain ⟨ds, close, line', hread, hshow⟩ := exists_readItems items (fuel + 1) rest
      (lineAfterAll line inner.chars) true (.inl rfl) (by omega)
    refine ⟨.array line ds close, line', ?_, .array hshow⟩
    rw [chars, cons_append, append_assoc, readValue, skipBlank_of_not_blank (by decide)]
    simp only [readItems_blank, hread]
  | .object inner members, fuel + 1, rest, line, hfuel, _ => by
    have hpos := length_membersChars_pos members
    rw [chars, length_cons, length_append] at hfuel
    obtain ⟨fuel, rfl⟩ : ∃ n, fuel = n + 1 := ⟨fuel - 1, by omega⟩
    obtain ⟨es, close, line', hread, hnames, hshow⟩ := exists_readMembers members (fuel + 1) rest
      (lineAfterAll line inner.chars) true (.inl rfl) (by omega)
    refine ⟨.object line es close, line', ?_, .object hnames hshow⟩
    rw [chars, cons_append, append_assoc, readValue, skipBlank_of_not_blank (by decide)]
    simp only [readMembers_blank, hread]

/-- Items are read up to the closing bracket. Only the first may be missing. -/
theorem exists_readItems :
    ∀ (parts : List (Part Blank Script)) (fuel : Nat) (rest : List Char) (line : Nat)
    (first : Bool), first = true ∨ parts ≠ [] → 2 * (itemsChars parts).length ≤ fuel →
      ∃ ds close line', readItems fuel first (itemsChars parts ++ rest) line =
        (ds, close, some ⟨rest, line'⟩) ∧ Forall₂ (fun p i => p.value.Shows i.value) parts ds
  | parts, 0, rest, line, first, _, hfuel => by
    have hpos := length_itemsChars_pos parts
    omega
  | [], fuel + 1, rest, line, first, hfirst, _ => by
    obtain rfl : first = true := hfirst.resolve_right fun h => h rfl
    refine ⟨[], line, line, ?_, .nil⟩
    rw [itemsChars]
    rfl
  | ⟨lead, x, trail⟩ :: parts, fuel + 1, rest, line, first, _, hfuel => by
    have hpos := length_itemsChars_pos parts
    obtain ⟨c, cs, hcs, hc⟩ := x.chars_eq_cons
    have hlength : x.chars.length = cs.length + 1 := by rw [hcs, length_cons]
    simp only [itemsChars, length_append] at hfuel
    obtain ⟨d, line', hvalue, hshows⟩ := exists_readValue x fuel
      (trail.chars ++ (comma parts ++ itemsChars parts ++ rest))
        (lineAfterAll line lead.chars) (by omega)
      (trail.stops_append (stops_itemsChars parts rest))
    have htext : itemsChars (⟨lead, x, trail⟩ :: parts) ++ rest =
        lead.chars ++
            (c :: (cs ++ (trail.chars ++ (comma parts ++ itemsChars parts ++ rest)))) := by
      simp only [itemsChars, hcs, append_assoc, cons_append]
    have hstart := (lead.skipBlank_append _ line).trans (skipBlank_of_not_blank hc.1
      (cs ++ (trail.chars ++ (comma parts ++ itemsChars parts ++ rest)))
      (lineAfterAll line lead.chars))
    have hafter := trail.skipBlank_append (comma parts ++ itemsChars parts ++ rest) line'
    rw [hcs] at hvalue
    rw [htext]
    cases parts with
    | nil =>
      rw [itemsChars] at hafter hvalue hstart
      exact ⟨_, _, _, readItems_end hstart hc.2 hvalue (hafter.trans rfl), .cons hshows .nil⟩
    | cons p parts =>
      obtain ⟨ds, close, line'', hitems, hshow⟩ := exists_readItems (p :: parts) fuel rest
        (lineAfterAll line' trail.chars) false (.inr (cons_ne_nil _ _)) (by omega)
      exact ⟨_, _, _, readItems_next hstart hc.2 hvalue (hafter.trans rfl) hitems,
        .cons hshows hshow⟩

/-- Members are read up to the closing brace. Only the first may be missing. -/
theorem exists_readMembers :
    ∀ (parts : List (Part Head Script)) (fuel : Nat) (rest : List Char) (line : Nat) (first : Bool),
    first = true ∨ parts ≠ [] → 2 * (membersChars parts).length ≤ fuel →
      ∃ es close line', readMembers fuel first (membersChars parts ++ rest) line =
        (es, close, some ⟨rest, line'⟩) ∧ Forall₂ (fun p e => p.lead.name.Shows e.key) parts es ∧
        Forall₂ (fun p e => p.value.Shows e.value) parts es
  | parts, 0, rest, line, first, _, hfuel => by
    have hpos := length_membersChars_pos parts
    omega
  | [], fuel + 1, rest, line, first, hfirst, _ => by
    obtain rfl : first = true := hfirst.resolve_right fun h => h rfl
    refine ⟨[], line, line, ?_, .nil, .nil⟩
    rw [membersChars]
    rfl
  | ⟨lead, x, trail⟩ :: parts, fuel + 1, rest, line, first, _, hfuel => by
    have hpos := length_membersChars_pos parts
    have hlead := lead.length_lt
    simp only [membersChars, length_append] at hfuel
    obtain ⟨fuel, rfl⟩ : ∃ n, fuel = n + 1 := ⟨fuel - 1, by omega⟩
    obtain ⟨key, line₁, line₂, hstart, hkey, hshown, hcolon⟩ := lead.exists_read (fuel + 1) line
      (x.chars ++ (trail.chars ++ (comma parts ++ membersChars parts ++ rest))) (by omega)
    obtain ⟨d, line', hvalue, hshows⟩ := exists_readValue x (fuel + 1)
      (trail.chars ++ (comma parts ++ membersChars parts ++ rest))
        (lineAfterAll line₂ lead.space.chars) (by omega)
      (trail.stops_append (stops_membersChars parts rest))
    rw [← readValue_blank] at hvalue
    have htext : membersChars (⟨lead, x, trail⟩ :: parts) ++ rest =
        lead.chars ++ (x.chars ++
            (trail.chars ++ (comma parts ++ membersChars parts ++ rest))) := by
      simp only [membersChars, append_assoc]
    have hafter := trail.skipBlank_append (comma parts ++ membersChars parts ++ rest) line'
    rw [htext]
    cases parts with
    | nil =>
      rw [membersChars] at hafter hvalue hstart hkey hcolon
      exact ⟨_, _, _, readMembers_end hstart hkey hcolon hvalue (hafter.trans rfl),
        .cons hshown .nil, .cons hshows .nil⟩
    | cons p parts =>
      obtain ⟨es, close, line'', hmembers, hnames, hshow⟩ :=
        exists_readMembers (p :: parts) (fuel + 1) rest
        (lineAfterAll line' trail.chars) false (.inr (cons_ne_nil _ _)) (by omega)
      exact ⟨_, _, _, readMembers_next hstart hkey hcolon hvalue (hafter.trans rfl) hmembers,
        .cons hshown hnames, .cons hshows hshow⟩

end

end Script

/-! ## Pages -/

/-- A text that holds one script, with blanks around it. -/
abbrev Page := Part Blank Script

namespace Page

variable (p : Page)

/-- The characters of a page. -/
def chars : List Char := p.lead.chars ++ (p.value.chars ++ p.trail.chars)

/-- The text of a page. -/
def text : String := String.ofList p.chars

/-- A page is read to its last blanks, as a document that it shows. -/
theorem exists_read :
    ∃ d line, read p.text = (d, some ⟨p.trail.chars, line⟩) ∧ p.value.Shows d := by
  have hstops : Stops p.trail.chars := by
    have hnil : Stops [] := fun c hc => nomatch hc
    simpa using p.trail.stops_append hnil
  obtain ⟨d, line, hread, hshows⟩ := p.value.exists_readValue (2 * p.chars.length + 2) p.trail.chars
    (lineAfterAll 1 p.lead.chars) (by simp only [chars, length_append]; omega) hstops
  refine ⟨d, line, ?_, hshows⟩
  rw [← hread, read, text, String.toList_ofList]
  exact readValue_blank p.lead _ _ 1

end Page

end ComputeKernel.Json
