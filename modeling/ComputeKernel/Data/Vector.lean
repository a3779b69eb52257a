import ComputeKernel.Data.Word

/-!
# Vectors

The vector types of kernel programs. `Uint2` addresses a texel, `Uint3` is the id of a thread, a
count of thread groups or the extent of one group, and `Float4` is a texel. Floating-point
components are kept as their 32-bit patterns, so that copying a texel is exact for every pattern.
-/

namespace ComputeKernel

/-- A pair of words. -/
structure Uint2 where
  x : UInt32
  y : UInt32
deriving DecidableEq, Repr, Inhabited

/-- Three words. -/
structure Uint3 where
  x : UInt32
  y : UInt32
  z : UInt32
deriving DecidableEq, Repr, Inhabited

/-- Four floating-point components as bit patterns. -/
structure Float4 where
  x : UInt32
  y : UInt32
  z : UInt32
  w : UInt32
deriving DecidableEq, Repr, Inhabited

namespace Uint3

variable (v : Uint3)

/-- The vector of zeros. -/
def zero : Uint3 := ⟨0, 0, 0⟩

/-- The first two components. -/
def xy : Uint2 := ⟨v.x, v.y⟩

/-- The product of the components, when it fits in 64 bits. -/
def volume? : Option Nat :=
  let volume := v.x.toNat * v.y.toNat * v.z.toNat
  if volume < UInt64.size then some volume else none

/-- The sum of two vectors, a fault when a component leaves 32 bits. -/
def sum? (a b : Uint3) : Except Fault Uint3 := do
  let x ← Word.sum? a.x b.x
  let y ← Word.sum? a.y b.y
  let z ← Word.sum? a.z b.z
  return ⟨x, y, z⟩

/-- Whether some component is zero. -/
def isEmpty : Bool := v.x == 0 || v.y == 0 || v.z == 0

/-- The vector as it stands in messages. -/
def text : String :=
  "(" ++ toString v.x ++ ", " ++ toString v.y ++ ", " ++ toString v.z ++ ")"

end Uint3

namespace Float4

/-- The texel of zeros. -/
def zero : Float4 := ⟨0, 0, 0, 0⟩

/-- The number of bytes in a texel on the host. -/
def size : Nat := 16

/-- The four components in order. -/
def components (v : Float4) : List UInt32 := [v.x, v.y, v.z, v.w]

/-- The texel of four words; zero when there are not four. -/
def ofComponents : List UInt32 → Float4
  | [x, y, z, w] => ⟨x, y, z, w⟩
  | _ => zero

end Float4

end ComputeKernel
