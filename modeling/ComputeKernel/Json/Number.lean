import ComputeKernel.Decimal.Shortest

/-!
# JSON numbers

A `Numeral` is a number as it is written; `Numeral.value` says what it stands for. Whole numbers of
64 bits are kept as they are. Everything else becomes a binary number of 64 bits, by way of a
significand of 64 bits and a power of ten: digits that do not fit the significand only count for the
power, so the last bit may differ from that of the nearest binary number. A numeral whose value is
beyond every binary number has none.
-/

namespace ComputeKernel.Json

/-- A number of a value. -/
inductive Number where
  | natural (n : Nat)
  /-- The number `-n`, where `n` is not zero. -/
  | negative (n : Nat)
  /-- A binary number of 64 bits, given by its bits. -/
  | real (bits : UInt64)
deriving DecidableEq, Repr, Inhabited

/-- Numbers are written in positions while at most four zeros follow the point, and exponents with
their signs. Of two equally near decimals the even one is taken. -/
def realStyle : Decimal.Style := { tie := .even, zeros := 4, plus := true }

/-- The text of a binary number. -/
def realText (bits : UInt64) : String := Decimal.text64 realStyle bits

/-- The text of a number. -/
def Number.text : Number → String
  | .natural n => toString n
  | .negative n => "-" ++ toString n
  | .real bits => realText bits

/-- A number as it is written, in its parts. -/
structure Numeral where
  negative : Bool
  whole : List Char
  /-- The digits after the point. -/
  fraction : Option (List Char) := none
  /-- Whether the exponent is negative, and its digits. -/
  exponent : Option (Bool × List Char) := none
deriving DecidableEq, Repr

/-- The value of a decimal digit. -/
def digitValue (c : Char) : Nat := c.toNat - '0'.toNat

/-- The number that a list of decimal digits stands for. -/
def digitsValue (cs : List Char) : Nat := cs.foldl (fun n c => 10 * n + digitValue c) 0

/-- Append digits to a significand as long as it stays below `2 ^ 64`; the rest is given back. -/
def extend : Nat → List Char → Nat × List Char
  | n, [] => (n, [])
  | n, c :: cs =>
    if 10 * n + digitValue c < UInt64.size then extend (10 * n + digitValue c) cs else (n, c :: cs)

/-- Scale a binary number by a power of ten. The table of powers ends at `10 ^ 308`, so smaller
numbers are reached in steps. Nothing is left of a significand of 64 bits after three of them. -/
def scale : Nat → Float → Int → Option Float
  | 0, f, _ => some f
  | fuel + 1, f, k =>
    if k.natAbs ≤ 308 then
      let power := Float.ofScientific 1 false k.natAbs
      if 0 ≤ k then
        let g := f * power
        if g.isInf then none else some g
      else some (f / power)
    else if f == 0 then some f
    else if 0 ≤ k then none
    else scale fuel (f / Float.ofScientific 1 false 308) (k + 308)

namespace Numeral

/-- The number with this significand and power of ten. -/
def realOf (negative : Bool) (significand : Nat) (power : Int) : Option Number :=
  (scale 5 significand.toUInt64.toFloat power).map fun f =>
    .real (if negative then (-f).toBits else f.toBits)

/-- The value of a whole number whose digits fit 64 bits. A negative one that does not fit 64 bits
with its sign becomes a binary number, and so does `-0`. -/
def wholeOf (negative : Bool) (n : Nat) : Number :=
  if !negative then .natural n
  else if 0 < n ∧ n ≤ Nat.pow 2 63 then .negative n
  else .real (-n.toUInt64.toFloat).toBits

/-- What a numeral stands for, or nothing when that is beyond the largest binary number. -/
def value (x : Numeral) : Option Number :=
  let (whole, surplus) := extend 0 x.whole
  if surplus.isEmpty && x.fraction.isNone && x.exponent.isNone then some (wholeOf x.negative whole)
  else
    let digits := x.fraction.getD []
    let (significand, unread) := extend whole digits
    let power : Int := surplus.length - (digits.length - unread.length)
    match x.exponent with
    | none => realOf x.negative significand power
    | some (below, exponent) =>
      let e := digitsValue exponent
      if e < Nat.pow 2 31 then realOf x.negative significand
        (if below then power - e else power + e)
      else if significand = 0 || below then realOf x.negative 0 0
      else none

end Numeral

end ComputeKernel.Json
