import ComputeKernel.Data.Word

/-!
# Bytes as text

Reading bytes as UTF-8. Bytes that are no text are shown with the replacement character: one for
each longest start of a character that is not finished, and one for each byte that starts none.
-/

namespace ComputeKernel.Text

/-- The text of bytes, if they are one. -/
def ofBytes? (bytes : Bytes) : Option String := String.fromUTF8? ⟨bytes.toArray⟩

/-- What stands for bytes that are no text. -/
def replacement : Char := Char.ofNat 0xfffd

/-- Whether a byte continues a character. -/
def isContinuation (b : UInt8) : Bool := 0x80 ≤ b && b ≤ 0xbf

/-- How many bytes follow a first byte, and between which bounds the second one lies. -/
def form? (b : UInt8) : Option (Nat × UInt8 × UInt8) :=
  if b < 0x80 then some (0, 0, 0)
  else if 0xc2 ≤ b && b ≤ 0xdf then some (1, 0x80, 0xbf)
  else if b = 0xe0 then some (2, 0xa0, 0xbf)
  else if b = 0xed then some (2, 0x80, 0x9f)
  else if 0xe1 ≤ b && b ≤ 0xef then some (2, 0x80, 0xbf)
  else if b = 0xf0 then some (3, 0x90, 0xbf)
  else if 0xf1 ≤ b && b ≤ 0xf3 then some (3, 0x80, 0xbf)
  else if b = 0xf4 then some (3, 0x80, 0x8f)
  else none

/-- How many of the first bytes continue a character that wants `n` more, the first of them between
bounds. -/
def continued (n : Nat) (low high : UInt8) (bytes : Bytes) : Nat :=
  match n, bytes with
  | n + 1, b :: rest => if low ≤ b && b ≤ high then continued n 0x80 0xbf rest + 1 else 0
  | _, _ => 0

/-- The characters of bytes; `fuel` is their number at least. -/
def shownChars (fuel : Nat) (bytes : Bytes) : List Char :=
  match fuel, bytes with
  | fuel + 1, b :: rest =>
    match form? b with
    | none => replacement :: shownChars fuel rest
    | some (n, low, high) =>
      let k := continued n low high rest
      let text := if k = n then ofBytes? (b :: rest.take k) else none
      match text with
      | some s => s.toList ++ shownChars fuel (rest.drop k)
      | none => replacement :: shownChars fuel (rest.drop k)
  | _, _ => []

/-- Bytes as they are shown. -/
def shown (bytes : Bytes) : String := String.ofList (shownChars bytes.length bytes)

end ComputeKernel.Text
