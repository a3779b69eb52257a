import ComputeKernel.Data.Single
import ComputeKernel.Dispatch.Layout

/-!
# A kernel class for trials

`Workbench` has a field for each kind of resource and a small set of bodies, each of which shows one
thing about a dispatch: which threads it runs, in which order, and what they can read and write. A
field that was never bound is an empty resource. Arithmetic on words wraps, but the place of a
thread in the size is reckoned in 64 bits and a fault when it leaves them.
-/

namespace ComputeKernel

open ComputeKernel.Action

/-- The resource fields. -/
inductive WorkbenchField where
  | u0 | u1 | i0 | f0 | w0 | v0 | c0 | t0 | t1
deriving DecidableEq, Repr, Inhabited

/-- The kernel class. -/
structure Workbench where
  /-- The buffers that the fields name. -/
  buffers : WorkbenchField → Option BufferRef := fun _ => none
  /-- The textures that the fields name. -/
  textures : WorkbenchField → Option TextureRef := fun _ => none
  size : Uint3 := .zero
  /-- How often the thread at each place of the size was run. -/
  hits : Array Nat := #[]

namespace WorkbenchField

variable (f : WorkbenchField)

/-- The field of a name. -/
def ofName? : String → Option WorkbenchField
  | "u0" => some .u0 | "u1" => some .u1 | "i0" => some .i0
  | "f0" => some .f0 | "w0" => some .w0 | "v0" => some .v0
  | "c0" => some .c0 | "t0" => some .t0 | "t1" => some .t1
  | _ => none

/-- What a field holds. -/
def capability : WorkbenchField → Capability
  | .u0 | .u1 => .buffer .uint
  | .i0 => .buffer .int
  | .f0 => .buffer .float
  | .w0 => .buffer .uint2
  | .v0 => .buffer .uint3
  | .c0 => .buffer .float4
  | .t0 | .t1 => .texture

/-- Put a buffer into a field. -/
def setBuffer (r : BufferRef) (k : Workbench) : Workbench :=
  { k with buffers := fun g => if g = f then some r else k.buffers g }

/-- Put a texture into a field. -/
def setTexture (r : TextureRef) (k : Workbench) : Workbench :=
  { k with textures := fun g => if g = f then some r else k.textures g }

/-- A slot for the field. -/
def slot (name : String) : Slot Workbench :=
  { name
    field := match f.capability with
      | .buffer element => .buffer element f.setBuffer
      | .texture => .texture f.setTexture }

end WorkbenchField

namespace Workbench

variable (f : WorkbenchField)
variable (s : Scene Workbench)

/-- The buffer in a field. -/
def buffer : Buffer :=
  match s.kernel.buffers f with
  | some r => s.memory.buffer r
  | none => default

/-- The texture in a field. -/
def texture : Texture :=
  match s.kernel.textures f with
  | some r => s.memory.texture r
  | none => default

/-- The number of elements of the buffer in a field. -/
def bufferLength : Nat := (buffer f s).length

/-- An element of the buffer in a field that has one word to an element; 0 past the end. -/
def wordAt (i : Nat) (s : Scene Workbench) : UInt32 :=
  ((buffer f s).elementAt i).headD 0

/-- Change the buffer in a field. -/
def changeBuffer (change : Buffer → Buffer) (s : Scene Workbench) : Scene Workbench :=
  match s.kernel.buffers f with
  | some r => { s with memory := s.memory.modifyBuffer r change }
  | none => s

/-- Change the texture in a field. -/
def changeTexture (change : Texture → Texture) (s : Scene Workbench) : Scene Workbench :=
  match s.kernel.textures f with
  | some r => { s with memory := s.memory.modifyTexture r change }
  | none => s

/-- Set an element of the buffer in a field. -/
def setElement (i : Nat) (value : List UInt32) : Action (Scene Workbench) Unit := do
  examine fun s => ((buffer f s).checkIndex i).mapError .fault
  Action.modify (changeBuffer f (·.put i value))

/-- Set a texel of the texture in a field. -/
def setTexel (uv : Uint2) (value : Float4) : Action (Scene Workbench) Unit := do
  examine fun s => ((texture f s).checkTexel uv).mapError .fault
  Action.modify (changeTexture f (·.put uv value))

/-- The texel of the texture in a field, when it has one there. -/
def texel? (uv : Uint2) (s : Scene Workbench) : Option Float4 :=
  ((texture f s).get uv).toOption

/-- The place of a thread in the size, the first component running fastest. -/
def place? (size id : Uint3) : Except Fault Nat := do
  let plane ← Size.product? id.z.toNat size.y.toNat
  let row ← Size.sum? plane id.y.toNat
  let start ← Size.product? row size.x.toNat
  Size.sum? start id.x.toNat

/-- The place of a thread in the size of the kernel. -/
def place (id : Uint3) : Action (Scene Workbench) Nat :=
  .examine fun s => (place? s.kernel.size id).mapError .fault

/-- The number of bytes in a count of runs. -/
def countSize : Nat := 4

/-- Set the size, with no thread run yet. -/
def resize? (k : Workbench) (size : Uint3) : Except Fault Workbench := do
  let volume ← Size.product? (size.x.toNat * size.y.toNat) size.z.toNat
  Size.checkBlock (volume * countSize)
  return { k with size, hits := Array.replicate volume 0 }

/-- What a thread does. -/
inductive Body where
  | nop
  | double
  | doubleGuarded
  | copy
  | ids
  | count
  | trace
  | fill
  | brighten
  | blend
  | fault
deriving DecidableEq, Repr, Inhabited

namespace Body

/-- The body of a name. -/
def ofName? : String → Option Body
  | "nop" => some .nop
  | "double" => some .double
  | "double_guarded" => some .doubleGuarded
  | "copy" => some .copy
  | "ids" => some .ids
  | "count" => some .count
  | "trace" => some .trace
  | "fill" => some .fill
  | "brighten" => some .brighten
  | "blend" => some .blend
  | "fault" => some .fault
  | _ => none

/-- An action that is done only where the buffer in a field has an element. -/
def guarded (f : WorkbenchField) (i : Nat) (a : Action (Scene Workbench) Unit) :
    Action (Scene Workbench) Unit := do
  if i < (← gets (bufferLength f)) then a

/-- An action on the texel of a texture, done only where it has one. -/
def withTexel (f : WorkbenchField) (uv : Uint2) (a : Float4 → Action (Scene Workbench) Unit) :
    Action (Scene Workbench) Unit := do
  match ← gets (texel? f uv) with
  | some p => a p
  | none => pure ()

/-- Note that a thread was run. -/
def countHit (i : Nat) : Action (Scene Workbench) Unit :=
  .modify fun s => { s with kernel.hits := s.kernel.hits.modify i (· + 1) }

/-- The lane that a thread belongs to. -/
def laneOf (size id : Uint3) : UInt32 := id.x / size.x + 4 * (id.y / size.y) + 16 * (id.z / size.z)

/-- Mix the id of a thread into the word of its lane, so that the word tells the order of the
threads. -/
def mixId (id : Uint3) : Action (Scene Workbench) Unit := do
  let size ← gets (·.kernel.size)
  if size.isEmpty then return
  let lane := (laneOf size id).toNat
  guarded .u0 lane do
    let w ← gets (wordAt .u0 lane)
    setElement .u0 lane [w * 31 + (id.x + 100 * id.y + 10000 * id.z)]

/-- What a body does for the id of a thread. -/
def run (body : Body) (id : Uint3) : Action (Scene Workbench) Unit := do
  let i := id.x.toNat
  match body with
  | .nop => pure ()
  | .double => setElement .u0 i [id.x * 2]
  | .doubleGuarded => guarded .u0 i (setElement .u0 i [id.x * 2])
  | .copy => guarded .u0 i (guarded .u1 i do
      let w ← gets (wordAt .u0 i)
      setElement .u1 i [w + 1])
  | .ids =>
    let place ← place id
    guarded .v0 place (setElement .v0 place [id.x, id.y, id.z])
  | .count => countHit (← place id)
  | .trace => mixId id
  | .fill => withTexel .t0 id.xy fun _ =>
      setTexel .t0 id.xy ⟨Single.ofWord id.x, Single.ofWord id.y, 0, Single.one⟩
  | .brighten => withTexel .t0 id.xy fun p => setTexel .t0 id.xy { p with x := Single.double p.x }
  | .blend => withTexel .t0 id.xy fun p => setTexel .t1 id.xy ⟨p.w, p.z, p.y, p.x⟩
  | .fault => if id = ⟨3, 0, 0⟩ then fail (.fault (.raised "lane failure at 3"))

end Body

/-- An entry point with one of the bodies. -/
def entry (name : String) (extent : Uint3) (body : Body) : EntryDecl Workbench :=
  { name, extent, body := body.run }

end Workbench

end ComputeKernel
