/-!
# Faults

A fault is a mistake of the calling program: an index outside a buffer, a texel outside a texture,
data of the wrong size or too large for memory, arithmetic that leaves its range. A call that meets
one ends there, and what it had done before stays done. Faults are no answers of a device or a
dispatcher: those are errors of their own.
-/

namespace ComputeKernel

/-- A mistake of the calling program. -/
inductive Fault where
  /-- An element is asked for that the buffer does not have. -/
  | index (index length : Nat)
  /-- A texel is asked for that the texture does not have. -/
  | texel (x y width height : UInt32)
  /-- A buffer is overwritten by another number of elements than it has. -/
  | elementCount (given length : Nat)
  /-- A buffer is overwritten by another number of bytes than it has. -/
  | byteCount (given size : Nat)
  | addition
  | multiplication
  /-- A block of memory is asked for that is larger than blocks can be. -/
  | capacity
  /-- A shared array is asked for that is larger than such arrays can be. -/
  | sharedCapacity
  /-- A kernel body gives up with a message of its own. -/
  | raised (message : String)
deriving DecidableEq, Repr, Inhabited

/-- The text that reports a fault. -/
def Fault.message : Fault → String
  | .index i n => "index " ++ toString i ++ " out of range for buffer of length " ++ toString n
  | .texel x y w h =>
    "texel (" ++ toString x ++ ", " ++ toString y ++ ") out of range for "
      ++ toString w ++ "x" ++ toString h ++ " texture"
  | .elementCount given n =>
    "assertion `left == right` failed: source length differs from buffer length\n  left: "
      ++ toString given ++ "\n right: " ++ toString n
  | .byteCount given n =>
    "assertion `left == right` failed\n  left: " ++ toString given ++ "\n right: " ++ toString n
  | .addition => "attempt to add with overflow"
  | .multiplication => "attempt to multiply with overflow"
  | .capacity => "capacity overflow"
  | .sharedCapacity => "called `Result::unwrap()` on an `Err` value: LayoutError"
  | .raised message => message

end ComputeKernel
