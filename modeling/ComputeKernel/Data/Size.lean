import ComputeKernel.Run.Fault

/-!
# Sizes of memory

Sizes are reckoned in 64 bits, and a sum or product that leaves them is a fault. A block of memory
has at most `maxBlock` bytes. An array that is shared has a little less room: two counts of its
users lie before it in the same block, and the block ends at a multiple of their size.
-/

namespace ComputeKernel

namespace Size

/-- The sum of two sizes, a fault when it leaves 64 bits. -/
def sum? (a b : Nat) : Except Fault Nat :=
  if a + b < UInt64.size then .ok (a + b) else .error .addition

/-- The product of two sizes, a fault when it leaves 64 bits. -/
def product? (a b : Nat) : Except Fault Nat :=
  if a * b < UInt64.size then .ok (a * b) else .error .multiplication

/-- The largest number of bytes in a block of memory. -/
def maxBlock : Nat := Nat.pow 2 63 - 1

/-- The largest number of bytes in an array that is shared. -/
def maxShared : Nat := Nat.pow 2 63 - 24

/-- Refuse a block of memory that is too large. -/
def checkBlock (bytes : Nat) : Except Fault Unit :=
  if bytes ≤ maxBlock then .ok () else .error .capacity

end Size

end ComputeKernel
