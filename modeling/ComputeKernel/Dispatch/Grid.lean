import ComputeKernel.Data.Vector

/-!
# Dispatch grids

An emulated dispatch of `G` groups with extent `E` runs the threads of the grid `E * G`. There is
one lane for each point `l` of the extent, and a lane visits each point `i` of the groups; the
thread it runs there has the id `l * G + i`. Lanes are numbered with the first component running
fastest, and so are the visits of a lane.

The grid must have 32-bit components (`grid?`). The number of lanes is reckoned in 64 bits, and
counts as none when it does not fit.
-/

namespace ComputeKernel.Grid

variable (extent groups : Uint3)

/-- The product of two words, if it is one. -/
def product? (a b : UInt32) : Option UInt32 := (Word.product? a b).toOption

/-- The size of a grid, when each component fits in 32 bits. -/
def grid? : Option Uint3 := do
  let x ← product? extent.x groups.x
  let y ← product? extent.y groups.y
  let z ← product? extent.z groups.z
  return ⟨x, y, z⟩

/-- The number of lanes. -/
def laneCount : Nat := extent.volume?.getD 0

/-- The point of the extent that a lane stands for. -/
def lane (n : Nat) : Uint3 :=
  { x := (n % extent.x.toNat).toUInt32
    y := (n / extent.x.toNat % extent.y.toNat).toUInt32
    z := (n / (extent.x.toNat * extent.y.toNat)).toUInt32 }

/-- The points of the groups, the first component running fastest. -/
def points : List Uint3 :=
  (List.range groups.z.toNat).flatMap fun z =>
    (List.range groups.y.toNat).flatMap fun y =>
      (List.range groups.x.toNat).map fun x => ⟨x.toUInt32, y.toUInt32, z.toUInt32⟩

/-- One component of a thread's id. -/
def coordinate? (lane groups point : UInt32) : Except Fault UInt32 := do
  let start ← Word.product? lane groups
  Word.sum? start point

/-- The id of the thread of a lane at a point of the groups. -/
def id? (groups lane point : Uint3) : Except Fault Uint3 := do
  let x ← coordinate? lane.x groups.x point.x
  let y ← coordinate? lane.y groups.y point.y
  let z ← coordinate? lane.z groups.z point.z
  return ⟨x, y, z⟩

/-- All visits of a dispatch: a lane and a point each, lane by lane. -/
def visits : List (Uint3 × Uint3) :=
  (List.range (laneCount extent)).flatMap fun n => (points groups).map fun point =>
    (lane extent n, point)

end ComputeKernel.Grid
