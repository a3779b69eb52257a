import ComputeKernel.Data.Word

/-!
# Blocks of memory

A block is a number of bytes. It is all zeros until it is first written, and until then it takes no
room here, however large it is. `size` and `bytes` see both kinds in one way.
-/

namespace ComputeKernel

/-- A block of memory. -/
inductive MemoryBlock where
  /-- Zeros that were never written. -/
  | blank (size : Nat)
  | written (bytes : Bytes)
deriving DecidableEq, Repr, Inhabited

namespace MemoryBlock

variable (b : MemoryBlock)

/-- The number of bytes. -/
def size : MemoryBlock → Nat
  | .blank size => size
  | .written bytes => bytes.length

/-- The bytes of a block. -/
def bytes : MemoryBlock → Bytes
  | .blank size => List.replicate size 0
  | .written bytes => bytes

@[simp] theorem length_bytes : b.bytes.length = b.size := by
  cases b <;> simp [bytes, size]

/-- Store bytes at the start of the block. What does not fit is dropped. -/
def overwriteStart (bytes : Bytes) : MemoryBlock :=
  .written (bytes.take b.size ++ b.bytes.drop bytes.length)

@[simp] theorem size_overwriteStart (bytes : Bytes) :
    (b.overwriteStart bytes).size = b.size := by
  simp only [overwriteStart, size, List.length_append, List.length_take, List.length_drop,
    length_bytes]
  omega

end MemoryBlock

end ComputeKernel
