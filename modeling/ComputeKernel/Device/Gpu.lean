import ComputeKernel.Data.MemoryBlock
import ComputeKernel.Data.Size
import ComputeKernel.Keyed
import ComputeKernel.Run.Failure

/-!
# The graphics device

A device that runs compiled shader modules. Resources are bound to numbered places of an entry
point, and a table says at which place a slot stands. The device's memory holds bytes: a surface is
kept in the bytes of its texel format, and is read back through rows that start at multiples of the
row alignment.

A dispatch changes nothing that is kept here: it is only checked, and the device's own driver has
the last word. It refuses a name that is no entry point of the module, resources that are not
exactly those the entry point uses, and group counts above `maxGroups`.
-/

namespace ComputeKernel

/-- What an entry point of a shader module expects at a place. -/
inductive PlaceKind where
  | buffer
  | surface (format : TexelFormat)
deriving DecidableEq, Repr, Inhabited

/-- A shader module: its entry points, each with the places it uses. -/
structure ShaderModule where
  points : List (String × Keyed Nat PlaceKind)
deriving DecidableEq, Repr, Inhabited

/-- A surface of the device. -/
structure GpuSurface where
  width : UInt32
  height : UInt32
  format : TexelFormat
  /-- The texels in the bytes of the format, row by row. -/
  data : MemoryBlock
deriving DecidableEq, Repr, Inhabited

/-- What can be bound. -/
inductive GpuResource where
  | buffer (handle : BufferHandle)
  | surface (handle : SurfaceHandle)
deriving DecidableEq, Repr, Inhabited

/-- The state of the device. -/
structure GpuDevice where
  module : ShaderModule
  entries : List String
  /-- The place of each slot. -/
  places : Keyed String Nat
  /-- How many handles have been given out. -/
  issued : Nat := 0
  buffers : Keyed Nat MemoryBlock := []
  surfaces : Keyed Nat GpuSurface := []
  /-- What is bound at each place, for each entry point in order. -/
  bound : List (Keyed Nat GpuResource) := []
deriving DecidableEq, Repr, Inhabited

namespace GpuDevice

variable (d : GpuDevice)
variable (entry : Nat) (h : BufferHandle)

/-- No more thread groups than this along one axis. -/
def maxGroups : UInt32 := 65535

/-- Storage bindings cannot be empty, so buffers have at least this number of bytes. -/
def minBufferSize : Nat := 4

/-- Refuse an operation. -/
def refuse {α : Type} (operation : DeviceOperation) (cause : DeviceCause) : Except DeviceError α :=
  .error { device := .gpu, operation, cause }

/-- A device for a compiled module, or for none when the text of the module does not compile. A slot
that is placed twice stands at the last of its places. -/
def compile? (module : Option ShaderModule) (entries : List String) (places : List (String × Nat)) :
    Except DeviceError GpuDevice :=
  match module with
  | none => refuse .compile .invalid
  | some module =>
    .ok { module, entries
          places := places.foldl (fun m (slot, place) => Keyed.put m slot place) []
          bound := entries.map fun _ => [] }

/-- The ordinal of an entry point. -/
def findEntry? (name : String) : Option Nat := d.entries.idxOf? name

/-! ## Buffers -/

/-- Make a buffer of at least `minBufferSize` bytes. -/
def createBuffer (count stride : Nat) : Except Failure (BufferHandle × GpuDevice) :=
  if count * stride < UInt64.size then do
    let size := max (count * stride) minBufferSize
    (Size.checkBlock size).mapError .fault
    let id := d.issued + 1
    return (⟨id⟩, { d with issued := id, buffers := d.buffers.put id (.blank size) })
  else (refuse .createBuffer .sizeOverflow).mapError .device

/-- Send bytes to the start of a buffer. -/
def upload (bytes : Bytes) : Except DeviceError GpuDevice :=
  match d.buffers.get? h.id with
  | none => refuse .upload (.unknownBuffer h)
  | some data => .ok { d with buffers := d.buffers.put h.id (data.overwriteStart bytes) }

/-- The first `size` bytes of a buffer. Nothing is looked up when no bytes are asked for. -/
def download (size : Nat) : Except DeviceError Bytes :=
  if size = 0 then .ok []
  else match d.buffers.get? h.id with
    | none => refuse .download (.unknownBuffer h)
    | some data => .ok ((MemoryBlock.blank size).overwriteStart data.bytes).bytes

/-- Release a buffer and everything it is bound to. -/
def releaseBuffer : GpuDevice :=
  { d with
    buffers := d.buffers.erase h.id
    bound := d.bound.map fun b => b.filter fun (_, r) => r ≠ .buffer h }

/-! ## Surfaces -/

/-- Make a surface, which must have texels. -/
def createSurface (width height : UInt32) (format : TexelFormat) :
    Except Failure (SurfaceHandle × GpuDevice) :=
  if width = 0 ∨ height = 0 then
    (refuse .createSurface (.emptySurface width height)).mapError .device
  else do
    let size ← (Size.product? (width.toNat * height.toNat)
      format.bytesPerTexel.toNat).mapError .fault
    (Size.checkBlock size).mapError .fault
    let id := d.issued + 1
    return (⟨id⟩, { d with
      issued := id
      surfaces := d.surfaces.put id { width, height, format, data := .blank size } })

/-- Send texels to a surface. -/
def blit (h : SurfaceHandle) (pixels : Array Float4) : Except DeviceError GpuDevice :=
  match d.surfaces.get? h.id with
  | none => refuse .blit (.unknownSurface h)
  | some s =>
    let data := s.data.overwriteStart (s.format.encode pixels.toList)
    .ok { d with surfaces := d.surfaces.put h.id { s with data } }

/-- Cut bytes into `n` pieces of `size`. -/
def rows (size : Nat) : Nat → Bytes → List Bytes
  | 0, _ => []
  | n + 1, bytes => bytes.take size :: rows size n (bytes.drop size)

/-- The surface as it is copied out of device memory: each row is filled up to `padded` bytes. -/
def staged (s : GpuSurface) (row padded : Nat) : Bytes :=
  (rows row s.height.toNat s.data.bytes).flatMap fun line => line ++ List.replicate (padded - row) 0

/-- Decode rows into texels, `width` to a row. A row that does not lie inside the texels as a whole
is left out together with all after it. -/
def placeRows (format : TexelFormat) (width row : Nat) : List Bytes → List Float4 → List Float4
  | [], out => out
  | line :: lines, out =>
    let here := out.take width
    if here.length = width then
      format.decodeInto (line.take row) here ++ placeRows format width row lines (out.drop width)
    else out

/-- What the texels of `out` become when a surface is read back. -/
def readBack (h : SurfaceHandle) (out : Array Float4) :
    Except Failure (Array Float4) :=
  match d.surfaces.get? h.id with
  | none => (refuse .readBack (.unknownSurface h)).mapError .device
  | some s => do
    let row ← (Word.product? s.width s.format.bytesPerTexel).mapError .fault
    let padded ← (s.format.paddedRow? s.width).mapError .fault
    let lines := rows padded.toNat s.height.toNat (staged s row.toNat padded.toNat)
    return (placeRows s.format s.width.toNat row.toNat lines out.toList).toArray

/-- Release a surface and everything it is bound to. -/
def releaseSurface (h : SurfaceHandle) : GpuDevice :=
  { d with
    surfaces := d.surfaces.erase h.id
    bound := d.bound.map fun b => b.filter fun (_, r) => r ≠ .surface h }

/-! ## Bindings and dispatches -/

/-- The place of a slot for an entry point. -/
def place (operation : DeviceOperation) (entry : Nat) (slot : String) :
    Except DeviceError Nat :=
  if entry < d.entries.length then
    match d.places.get? slot with
    | some place => .ok place
    | none => refuse operation (.unplacedSlot slot)
  else refuse operation (.unknownEntry entry)

/-- What is bound for an entry point. -/
def bindings : Keyed Nat GpuResource := d.bound[entry]?.getD []

/-- Bind a resource at a place. -/
def bind (entry place : Nat) (r : GpuResource) : GpuDevice :=
  { d with bound := d.bound.set entry ((d.bindings entry).put place r) }

/-- Bind a buffer to a slot. -/
def bindBuffer (slot : String) (h : BufferHandle) :
    Except DeviceError GpuDevice := do
  let place ← d.place .bindBuffer entry slot
  if d.buffers.has h.id then return d.bind entry place (.buffer h)
  else refuse .bindBuffer (.unknownBuffer h)

/-- Bind a surface to a slot. -/
def bindTexture (slot : String) (h : SurfaceHandle) :
    Except DeviceError GpuDevice := do
  let place ← d.place .bindTexture entry slot
  if d.surfaces.has h.id then return d.bind entry place (.surface h)
  else refuse .bindTexture (.unknownSurface h)

/-- The kind of a bound resource, when it is there. -/
def kindOf? : GpuResource → Option PlaceKind
  | .buffer h => if d.buffers.has h.id then some .buffer else none
  | .surface h => (d.surfaces.get? h.id).map fun s => .surface s.format

/-- The kinds of what is bound for an entry point, by place. -/
def boundKinds : List (Nat × Option PlaceKind) :=
  (d.bindings entry).map fun (place, r) => (place, d.kindOf? r)

/-- Check a dispatch; the name of its entry point is what is queued. -/
def dispatch (groups : Uint3) : Except DeviceError String :=
  match d.entries[entry]? with
  | none => refuse .dispatch (.unknownEntry entry)
  | some name =>
    match d.module.points.lookup name with
    | none => refuse .createPipeline .invalid
    | some uses =>
      if uses ≠ [] ∧ d.boundKinds entry = uses.map (fun (place, kind) => (place, some kind))
          ∧ groups.x ≤ maxGroups ∧ groups.y ≤ maxGroups ∧ groups.z ≤ maxGroups then
        .ok name
      else refuse .dispatch .invalid

end GpuDevice

end ComputeKernel
