import ComputeKernel.Run.Fault

/-!
# Words and bytes

Device memory is a list of bytes, and host memory is made of 32-bit words. A word is four bytes, the
lowest first. `Word.ofBytes` and `Word.toBytes` are the two directions; bytes at the end that do not
fill a word are left out. Sums and products of words are faults when they leave 32 bits. What lies
in host memory is changed by storing words one after the other (`overwrite`).
-/

namespace ComputeKernel

/-- Bytes in order. -/
abbrev Bytes := List UInt8

/-- Store words one after the other, from a position on. Words past the end are dropped. -/
@[irreducible] def overwrite (target : Array UInt32) (position : Nat) : List UInt32 → Array UInt32
  | [] => target
  | w :: ws => overwrite (target.setIfInBounds position w) (position + 1) ws

@[simp] theorem size_overwrite (target : Array UInt32) (position : Nat) (ws : List UInt32) :
    (overwrite target position ws).size = target.size := by
  induction ws generalizing target position with
  | nil => rw [overwrite]
  | cons w ws ih => simp [overwrite, ih]

namespace Word

/-- The four bytes of a word, the lowest first. -/
def split (w : UInt32) : Bytes :=
  [w.toUInt8, (w >>> 8).toUInt8, (w >>> 16).toUInt8, (w >>> 24).toUInt8]

/-- The word of four bytes, the lowest first. -/
def join (a b c d : UInt8) : UInt32 :=
  a.toUInt32 ||| (b.toUInt32 <<< 8) ||| (c.toUInt32 <<< 16) ||| (d.toUInt32 <<< 24)

/-- The bytes of words. -/
def toBytes (words : List UInt32) : Bytes := words.flatMap split

/-- The words of bytes. -/
def ofBytes : Bytes → List UInt32
  | a :: b :: c :: d :: rest => join a b c d :: ofBytes rest
  | _ => []

/-- The sum of two words, a fault when it is no word. -/
def sum? (a b : UInt32) : Except Fault UInt32 :=
  if a.toNat + b.toNat < UInt32.size then .ok (a + b) else .error .addition

/-- The product of two words, a fault when it is no word. -/
def product? (a b : UInt32) : Except Fault UInt32 :=
  if a.toNat * b.toNat < UInt32.size then .ok (a * b) else .error .multiplication

end Word

end ComputeKernel
