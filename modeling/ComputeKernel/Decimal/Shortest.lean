/-!
# Shortest decimals of binary numbers

A binary floating-point number stands for every real number that rounds to it. `Binary.shortest` is
the decimal of fewest digits among those, and of several with that many digits the one nearest to
the number. `Scaled.text` writes it: in positions up to below `10¹⁶` and down to a bound that the
`Style` sets, with a point and at least one digit after it, and otherwise as a digit, an optional
fraction and an exponent.
-/

namespace ComputeKernel.Decimal

variable (style : Style)

/-- Which of two equally near decimals is taken. -/
inductive Tie where
  | even
  | upper
deriving DecidableEq, Repr, Inhabited

/-- How the decimal of a number is chosen and written. -/
structure Style where
  tie : Tie
  /-- A number below 1 is written in positions when at most this many zeros follow the point. -/
  zeros : Nat
  /-- Whether a positive exponent has its sign. -/
  plus : Bool
deriving DecidableEq, Repr, Inhabited

/-- The one of `d` and `d + 1` that is taken when both are near. -/
def Tie.choose (t : Tie) (d : Nat) : Nat :=
  match t with
  | .even => if d % 2 = 0 then d else d + 1
  | .upper => d + 1

/-- A finite positive binary number `significand · 2 ^ exponent`, or zero. -/
structure Binary where
  significand : Nat
  exponent : Int
  /-- Whether the number below it is only half as far away as the number above it. This is so at a
  power of two, where the spacing changes. -/
  atPowerOfTwo : Bool := false
deriving DecidableEq, Repr

/-- What the bits of a floating-point number say. -/
inductive Reading where
  | notANumber
  | infinite (negative : Bool)
  | finite (negative : Bool) (value : Binary)
deriving DecidableEq, Repr

/-- Read a number with `p` bits of fraction and `e` bits of exponent. -/
def read (p e : Nat) (bits : Nat) : Reading :=
  let fraction := bits % Nat.pow 2 p
  let biased := bits / Nat.pow 2 p % Nat.pow 2 e
  let negative := bits / Nat.pow 2 (p + e) % 2 == 1
  let bias : Int := Nat.pow 2 (e - 1) - 1 + p
  if biased = Nat.pow 2 e - 1 then
    if fraction = 0 then .infinite negative else .notANumber
  else if biased = 0 then
    .finite negative { significand := fraction, exponent := 1 - bias }
  else
    .finite negative
      { significand := Nat.pow 2 p + fraction
        exponent := biased - bias
        atPowerOfTwo := fraction = 0 && 1 < biased }

/-- A decimal `digits · 10 ^ exponent`. -/
structure Scaled where
  digits : Nat
  exponent : Int
deriving DecidableEq, Repr

/-- This power of two, or one when the exponent is negative. -/
def twos (n : Int) : Nat := Nat.pow 2 n.toNat

/-- This power of ten, or one when the exponent is negative. -/
def tens (n : Int) : Nat := Nat.pow 10 n.toNat

/-- Compare the decimal `d · 10 ^ k` with the binary number `x · 2 ^ q`, by clearing the
denominators. -/
def compare (d : Nat) (k : Int) (x : Nat) (q : Int) : Ordering :=
  Ord.compare (d * tens k * twos (-q)) (x * twos q * tens (-k))

namespace Binary

variable (b : Binary) (tie : Tie)

/-- Four times the significand: in quarters the bounds of what rounds to the number are whole. -/
def quarters : Nat := 4 * b.significand

/-- Whether `d · 10 ^ k` rounds to the number. A bound belongs to the numbers with an even
significand. -/
def covers (d : Nat) (k : Int) : Bool :=
  let below := b.quarters - (if b.atPowerOfTwo then 1 else 2)
  let above := b.quarters + 2
  let low := compare d k below (b.exponent - 2)
  let high := compare d k above (b.exponent - 2)
  if b.significand % 2 = 0 then low != .lt && high != .gt else low == .gt && high == .lt

/-- The exponent `m` with `10 ^ (m - 1) ≤ b < 10 ^ m`. -/
def magnitude : Int :=
  let num := b.significand * twos b.exponent
  let den := twos (-b.exponent)
  let gap : Int := (Nat.toDigits 10 den).length - (Nat.toDigits 10 num).length
  if den * tens (-gap) ≤ num * tens gap then 1 - gap else -gap

/-- The largest decimal on the grid of spacing `10 ^ k` that is at most the number. -/
def floorOn (k : Int) : Nat :=
  b.significand * twos b.exponent * tens (-k) / (twos (-b.exponent) * tens k)

/-- Of the two neighbours of the number on the grid of spacing `10 ^ k`, the one that rounds to it;
if both do, the nearer one. -/
def nearestOn (b : Binary) (k : Int) : Option Nat :=
  let d := b.floorOn k
  match b.covers d k, b.covers (d + 1) k with
  | false, false => none
  | true, false => some d
  | false, true => some (d + 1)
  | true, true =>
    match compare (2 * d + 1) k (2 * b.quarters) (b.exponent - 2) with
    | .gt => some d
    | .lt => some (d + 1)
    | .eq => some (tie.choose d)

/-- Try the grids of `n`, `n + 1`, … digits, at most `fuel` of them. Seventeen digits tell all
numbers of 64 bits apart. -/
def search (tie : Tie) (b : Binary) : Nat → Nat → Scaled
  | 0, n => ⟨b.floorOn (b.magnitude - n), b.magnitude - n⟩
  | fuel + 1, n =>
    let k := b.magnitude - n
    match b.nearestOn tie k with
    | some d => ⟨d, k⟩
    | none => b.search tie fuel (n + 1)

/-- The decimal of fewest digits that rounds to the number. -/
def shortest (b : Binary) : Scaled :=
  if b.significand = 0 then ⟨0, 0⟩ else b.search tie 17 1

end Binary

/-- Drop zeros at the end of the digits. -/
def Scaled.trim : Nat → Scaled → Scaled
  | 0, s => s
  | fuel + 1, s =>
    if s.digits ≠ 0 ∧ s.digits % 10 = 0 then trim fuel ⟨s.digits / 10, s.exponent + 1⟩ else s

/-- Write a decimal: in positions while its leading digit stands at most sixteen places before the
point and no more zeros follow the point than the style allows, otherwise with an exponent. -/
def Scaled.text (s : Scaled) : String :=
  let s := s.trim 20
  let digits := toString s.digits
  let point : Int := digits.length + s.exponent
  if s.digits = 0 then "0.0"
  else if 0 ≤ s.exponent ∧ point ≤ 16 then
    digits ++ "".pushn '0' s.exponent.toNat ++ ".0"
  else if 0 < point ∧ point ≤ 16 then
    String.ofList (digits.toList.take point.toNat) ++ "."
      ++ String.ofList (digits.toList.drop point.toNat)
  else if -style.zeros ≤ point ∧ point ≤ 0 then
    "0." ++ "".pushn '0' (-point).toNat ++ digits
  else
    String.ofList (digits.toList.take 1)
      ++ (if digits.length = 1 then "" else "." ++ String.ofList (digits.toList.drop 1))
      ++ "e" ++ (if style.plus && 0 < point then "+" else "") ++ toString (point - 1)

/-- Write what the bits of a number say. -/
def Reading.text : Reading → String
  | .notANumber => "NaN"
  | .infinite negative => if negative then "-inf" else "inf"
  | .finite negative value =>
    (if negative then "-" else "") ++ (value.shortest style.tie).text style

/-- The text of a number of 64 bits. -/
def text64 (bits : UInt64) : String := (read 52 11 bits.toNat).text style

/-- The text of a number of 32 bits. -/
def text32 (bits : UInt32) : String := (read 23 8 bits.toNat).text style

end ComputeKernel.Decimal
