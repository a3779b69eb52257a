import ComputeKernel.Json.Value

/-!
# JSON texts as they are written

A `Document` is what a text says together with the lines on which it says it. A text that is not
JSON also gives a document, which ends in a leaf where reading had to stop. So whoever looks for
something in a document meets the first thing that is wrong with the text, be it its form or its
content.

Two leaves are not values:

* `broken` stands where the text goes on in a way that no JSON text does. Nothing after it is read.
* `flawed` stands for a string or a number that is well formed and has no value: half of a surrogate
  pair, or a number beyond the largest one. It does no harm where nobody looks at the value.
-/

namespace ComputeKernel.Json

/-- An item of an array. -/
structure Item (α : Type) where
  value : α
  /-- The line of what follows the item; a comma after it is passed over. -/
  next : Nat
deriving Inhabited

/-- A string as it is written. -/
inductive Quotation where
  | text (line : Nat) (text : String)
  /-- A well-formed string without a value, and the line where that shows. -/
  | flawed (line : Nat) (fault : Nat)
  /-- The end of what can be read, with the lines that `Document.broken` has. -/
  | broken (line : Nat) (fault skipFault : Nat)
deriving DecidableEq, Repr, Inhabited

/-- The line on which a string begins. -/
def Quotation.line : Quotation → Nat
  | .text line _ | .flawed line _ | .broken line _ _ => line

/-- A member of an object. -/
structure Entry (α : Type) where
  /-- The name. Where something other than a string stands, reading stops. -/
  key : Quotation
  /-- The line of what follows the name. -/
  colon : Nat
  value : α
  /-- The line of what follows the value. -/
  next : Nat
deriving Inhabited

/-- A JSON text with its lines, which are counted from one. -/
inductive Document where
  | null (line : Nat)
  | bool (line : Nat) (value : Bool)
  | number (line : Nat) (value : Number)
  | string (line : Nat) (text : String)
  | array (line : Nat) (items : List (Item Document)) (close : Nat)
  | object (line : Nat) (members : List (Entry Document)) (close : Nat)
  /-- A well-formed string or number without a value, and the line where that shows. -/
  | flawed (line : Nat) (fault : Nat)
  /-- The end of what can be read: the line where it begins, the line of the fault for a reader that
  wants the value, and for one that passes over it. -/
  | broken (line : Nat) (fault skipFault : Nat)
deriving Inhabited

/-- The line on which a document begins. -/
def Document.line : Document → Nat
  | .null line | .bool line _ | .number line _ | .string line _ | .array line _ _
  | .object line _ _ | .flawed line _ | .broken line _ _ => line

/-- Where in a text reading has come. -/
structure Cursor where
  rest : List Char
  line : Nat
deriving DecidableEq, Repr, Inhabited

/-- The line after a character. -/
def lineAfter (line : Nat) (c : Char) : Nat := if c = '\n' then line + 1 else line

/-- The line after a list of characters. -/
def lineAfterAll (line : Nat) (cs : List Char) : Nat := cs.foldl lineAfter line

/-- Whether a character is blank between values. -/
def isBlank (c : Char) : Bool := c == ' ' || c == '\n' || c == '\t' || c == '\r'

/-- Go to the next character that is not blank. -/
def skipBlank : List Char → Nat → Cursor
  | [], line => ⟨[], line⟩
  | c :: cs, line => if isBlank c then skipBlank cs (lineAfter line c) else ⟨c :: cs, line⟩

/-- Read a fixed word; a fault is at the line after the first character that differs. -/
def readWord : List Char → List Char → Nat → Except Nat Cursor
  | [], cs, line => .ok ⟨cs, line⟩
  | _ :: _, [], line => .error line
  | w :: ws, c :: cs, line => if c = w then readWord ws cs line else .error (lineAfter line c)

/-! ## Strings -/

/-- The value of a digit in base sixteen. -/
def hexValue (c : Char) : Option Nat :=
  if '0' ≤ c ∧ c ≤ '9' then some (c.toNat - '0'.toNat)
  else if 'a' ≤ c ∧ c ≤ 'f' then some (c.toNat - 'a'.toNat + 10)
  else if 'A' ≤ c ∧ c ≤ 'F' then some (c.toNat - 'A'.toNat + 10)
  else none

/-- The characters that begin within the first `n` bytes, or nothing when there are fewer bytes. -/
def withinBytes : Nat → List Char → Option (List Char)
  | 0, _ => some []
  | _ + 1, [] => none
  | n + 1, c :: cs => (withinBytes (n + 1 - c.utf8Size) cs).map (c :: ·)
termination_by structural _ cs => cs

/-- The line of the fault when four digits in base sixteen are wanted and something else stands
there: after the four bytes, or at the end of the text when there are fewer. -/
def hexFault (cs : List Char) (line : Nat) : Nat :=
  match withinBytes 4 cs with
  | some four => lineAfterAll line four
  | none => lineAfterAll line cs

/-- The value of four digits in base sixteen. -/
def hexValue4 (a b c d : Char) : Option Nat := do
  return (((← hexValue a) * 16 + (← hexValue b)) * 16 + (← hexValue c)) * 16 + (← hexValue d)

/-- Read four digits in base sixteen. -/
def readHex (cs : List Char) (line : Nat) : Except Nat (Nat × List Char) :=
  match cs with
  | a :: b :: c :: d :: rest =>
    match hexValue4 a b c d with
    | some n => .ok (n, rest)
    | none => .error (hexFault cs line)
  | _ => .error (hexFault cs line)

/-- What a backslash and one more character stand for. -/
def simpleEscape (c : Char) : Option Char :=
  match c with
  | '"' => some '"'
  | '\\' => some '\\'
  | '/' => some '/'
  | 'b' => some (Char.ofNat 8)
  | 'f' => some (Char.ofNat 12)
  | 'n' => some '\n'
  | 'r' => some '\r'
  | 't' => some '\t'
  | _ => none

/-- Whether a unit is the second of a surrogate pair. -/
def isLowSurrogate (n : Nat) : Bool := 0xdc00 ≤ n && n ≤ 0xdfff

/-- Whether a unit is the first of one. -/
def isHighSurrogate (n : Nat) : Bool := 0xd800 ≤ n && n ≤ 0xdbff

/-- Read what follows `\u`: one unit, or a surrogate pair. -/
def readUnits (cs : List Char) (line : Nat) : Except Nat (Char × List Char) := do
  let (high, rest) ← readHex cs line
  if isLowSurrogate high then .error line
  else if isHighSurrogate high then
    match rest with
    | '\\' :: 'u' :: more =>
      let (low, rest) ← readHex more line
      if isLowSurrogate low then
        return (Char.ofNat (0x10000 + (high - 0xd800) * 0x400 + (low - 0xdc00)), rest)
      else .error line
    | '\\' :: c :: _ => .error (lineAfter line c)
    | '\\' :: [] => .error line
    | c :: _ => .error (lineAfter line c)
    | [] => .error line
  else return (Char.ofNat high, rest)

/-- Read a string from after its opening quote. -/
def readString : Nat → List Char → Nat → Except Nat (List Char × Cursor)
  | 0, _, line => .error line
  | _ + 1, [], line => .error line
  | _ + 1, '"' :: cs, line => .ok ([], ⟨cs, line⟩)
  | _ + 1, '\\' :: [], line => .error line
  | fuel + 1, '\\' :: 'u' :: cs, line => do
    let (c, rest) ← readUnits cs line
    let (text, cursor) ← readString fuel rest line
    return (c :: text, cursor)
  | fuel + 1, '\\' :: c :: cs, line =>
    match simpleEscape c with
    | some c => do
      let (text, cursor) ← readString fuel cs line
      return (c :: text, cursor)
    | none => .error (lineAfter line c)
  | fuel + 1, c :: cs, line =>
    if c.toNat < 32 then .error (lineAfter line c)
    else do
      let (text, cursor) ← readString fuel cs line
      return (c :: text, cursor)

/-- Pass over a string from after its opening quote. Halves of surrogate pairs are let through, and
the line of a control character is the one it stands on. -/
def skipString : Nat → List Char → Nat → Except Nat Cursor
  | 0, _, line => .error line
  | _ + 1, [], line => .error line
  | _ + 1, '"' :: cs, line => .ok ⟨cs, line⟩
  | _ + 1, '\\' :: [], line => .error line
  | fuel + 1, '\\' :: 'u' :: cs, line => do
    let (_, rest) ← readHex cs line
    skipString fuel rest line
  | fuel + 1, '\\' :: c :: cs, line =>
    match simpleEscape c with
    | some _ => skipString fuel cs line
    | none => .error (lineAfter line c)
  | fuel + 1, c :: cs, line => if c.toNat < 32 then .error line else skipString fuel cs line

/-! ## Numbers -/

/-- Read the exponent of a number from after its `e`. -/
def readExponent (cs : List Char) (line : Nat) : Except Nat ((Bool × List Char) × List Char) :=
  let (below, cs) := match cs with
    | '+' :: cs => (false, cs)
    | '-' :: cs => (true, cs)
    | cs => (false, cs)
  match cs.span Char.isDigit with
  | ([], []) => .error line
  | ([], c :: _) => .error (lineAfter line c)
  | (digits, rest) => .ok ((below, digits), rest)

/-- Read the fraction of a number from after its point. -/
def readFraction (cs : List Char) (line : Nat) : Except Nat (List Char × List Char) :=
  match cs.span Char.isDigit with
  | ([], []) => .error line
  | ([], c :: _) => .error (lineAfter line c)
  | (digits, rest) => .ok (digits, rest)

/-- Read a number from after its sign. -/
def readNumeral (negative : Bool) (cs : List Char) (line : Nat) :
    Except Nat (Numeral × List Char) :=
  match cs.span Char.isDigit with
  | ([], []) => .error line
  | ([], c :: _) => .error (lineAfter line c)
  | ('0' :: _ :: _, _) => .error line
  | (whole, rest) => do
    let (fraction, rest) ← match rest with
      | '.' :: cs => do
        let (digits, rest) ← readFraction cs line
        pure (some digits, rest)
      | rest => pure (none, rest)
    let (exponent, rest) ← match rest with
      | 'e' :: cs | 'E' :: cs => do
        let (exponent, rest) ← readExponent cs line
        pure (some exponent, rest)
      | rest => pure (none, rest)
    return ({ negative, whole, fraction, exponent }, rest)

/-! ## Documents -/

/-- Reading stops at a line, for whoever asks. -/
def stopAt (line : Nat) : Document := .broken line line line

/-- Reading stops where a member is wanted. -/
def stopAtEntry (line : Nat) : Entry Document := ⟨.broken line line line, line, stopAt line, line⟩

/-- Read a string from after its opening quote, with what is wrong with it. The fuel is to exceed
the number of characters. -/
def readQuotation (fuel : Nat) (cs : List Char) (line : Nat) : Quotation × Option Cursor :=
  match readString fuel cs line with
  | .ok (text, cursor) => (.text line (String.ofList text), some cursor)
  | .error fault =>
    match skipString fuel cs line with
    | .ok cursor => (.flawed line fault, some cursor)
    | .error skipFault => (.broken line fault skipFault, none)

/-- A string as a document. -/
def Quotation.document : Quotation → Document
  | .text line s => .string line s
  | .flawed line fault => .flawed line fault
  | .broken line fault skipFault => .broken line fault skipFault

/-- Read a number into a document, from after its sign. -/
def numberDocument (negative : Bool) (cs : List Char) (line : Nat) : Document × Option Cursor :=
  match readNumeral negative cs line with
  | .error fault => (.broken line fault fault, none)
  | .ok (numeral, rest) =>
    match numeral.value with
    | some n => (.number line n, some ⟨rest, line⟩)
    | none => (.flawed line line, some ⟨rest, line⟩)

/-- Read a word into a document. -/
def wordDocument (word : List Char) (value : Nat → Document) (cs : List Char) (line : Nat) :
    Document × Option Cursor :=
  match readWord word cs line with
  | .ok cursor => (value line, some cursor)
  | .error fault => (.broken line fault fault, none)

mutual

/-- Read one value. Without a cursor in the result, reading has stopped inside it. A character takes
at most two units of fuel. -/
def readValue : Nat → List Char → Nat → Document × Option Cursor
  | 0, _, line => (stopAt line, none)
  | fuel + 1, cs, line =>
    match skipBlank cs line with
    | ⟨[], line⟩ => (stopAt line, none)
    | ⟨'"' :: cs, line⟩ =>
      let (quotation, cursor) := readQuotation fuel cs line
      (quotation.document, cursor)
    | ⟨'-' :: cs, line⟩ => numberDocument true cs line
    | ⟨'n' :: cs, line⟩ => wordDocument ['u', 'l', 'l'] .null cs line
    | ⟨'t' :: cs, line⟩ => wordDocument ['r', 'u', 'e'] (.bool · true) cs line
    | ⟨'f' :: cs, line⟩ => wordDocument ['a', 'l', 's', 'e'] (.bool · false) cs line
    | ⟨'[' :: cs, line⟩ =>
      let (items, close, cursor) := readItems fuel true cs line
      (.array line items close, cursor)
    | ⟨'\x7b' :: cs, line⟩ =>
      let (members, close, cursor) := readMembers fuel true cs line
      (.object line members close, cursor)
    | ⟨c :: cs, line⟩ =>
      if c.isDigit then numberDocument false (c :: cs) line else (stopAt line, none)

/-- Read items up to the closing bracket, whose line is given back. -/
def readItems : Nat → Bool → List Char → Nat → List (Item Document) × Nat × Option Cursor
  | 0, _, _, line => ([⟨stopAt line, line⟩], line, none)
  | fuel + 1, first, cs, line =>
    match skipBlank cs line with
    | ⟨']' :: cs, line⟩ =>
      if first then ([], line, some ⟨cs, line⟩) else ([⟨stopAt line, line⟩], line, none)
    | ⟨cs, line⟩ =>
      match readValue fuel cs line with
      | (value, none) => ([⟨value, line⟩], line, none)
      | (value, some cursor) =>
        match skipBlank cursor.rest cursor.line with
        | ⟨']' :: cs, line⟩ => ([⟨value, line⟩], line, some ⟨cs, line⟩)
        | ⟨',' :: cs, line⟩ =>
          let (items, close, cursor) := readItems fuel false cs line
          (⟨value, (skipBlank cs line).line⟩ :: items, close, cursor)
        | ⟨_, line⟩ => ([⟨value, line⟩, ⟨stopAt line, line⟩], line, none)

/-- Read members up to the closing brace, whose line is given back. -/
def readMembers : Nat → Bool → List Char → Nat → List (Entry Document) × Nat × Option Cursor
  | 0, _, _, line => ([stopAtEntry line], line, none)
  | fuel + 1, first, cs, line =>
    match skipBlank cs line with
    | ⟨'\x7d' :: cs, line⟩ =>
      if first then ([], line, some ⟨cs, line⟩)
      else ([stopAtEntry line], line, none)
    | ⟨'"' :: cs, line⟩ =>
      match readQuotation fuel cs line with
      | (key, none) => ([⟨key, line, stopAt line, line⟩], line, none)
      | (key, some cursor) =>
        match skipBlank cursor.rest cursor.line with
        | ⟨':' :: cs, colon⟩ =>
          match readValue fuel cs colon with
          | (value, none) => ([⟨key, colon, value, colon⟩], colon, none)
          | (value, some cursor) =>
            match skipBlank cursor.rest cursor.line with
            | ⟨'\x7d' :: cs, line⟩ => ([⟨key, colon, value, line⟩], line, some ⟨cs, line⟩)
            | ⟨',' :: cs, line⟩ =>
              let (members, close, cursor) := readMembers fuel false cs line
              (⟨key, colon, value, line⟩ :: members, close, cursor)
            | ⟨_, line⟩ =>
              ([⟨key, colon, value, line⟩, stopAtEntry line], line, none)
        | ⟨_, line⟩ => ([⟨key, line, stopAt line, line⟩], line, none)
    | ⟨_, line⟩ => ([stopAtEntry line], line, none)

end

/-- Read a text: its document, and where reading has come. -/
def read (text : String) : Document × Option Cursor :=
  let cs := text.toList
  readValue (2 * cs.length + 2) cs 1

end ComputeKernel.Json
