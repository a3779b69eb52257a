import ComputeKernel.Data.MemoryBlock
import ComputeKernel.Data.Size
import ComputeKernel.Keyed
import ComputeKernel.Run.Action

/-!
# The device in host memory

A device that keeps buffers and surfaces in host memory, counts what is asked of it and records
every dispatch, but runs no kernel. What a kernel would have written is written by `writeBuffer` and
`writePixel`.

Buffers and surfaces are numbered by one count, so a number names one of them at most. A call that
is refused changes nothing: each operation gives back either an error or the device after it. Only a
buffer or surface that is too large for memory uses up a number, which is taken before room is
found.
-/

namespace ComputeKernel

/-- A surface of the device. -/
structure HostSurface where
  width : UInt32
  height : UInt32
  format : TexelFormat
  /-- The texels, row by row. -/
  pixels : Array Float4
deriving DecidableEq, Repr, Inhabited

/-- How often each thing was done since the device was made. -/
structure HostStats where
  buffersCreated : Nat := 0
  buffersReleased : Nat := 0
  uploads : Nat := 0
  downloads : Nat := 0
  surfacesCreated : Nat := 0
  surfacesReleased : Nat := 0
  blits : Nat := 0
  readBacks : Nat := 0
  dispatches : Nat := 0
deriving DecidableEq, Repr, Inhabited

/-- What is bound for one entry point, by slot. -/
structure HostBindings where
  buffers : Keyed String BufferHandle := []
  textures : Keyed String SurfaceHandle := []
deriving DecidableEq, Repr, Inhabited

/-- A dispatch that was asked for. -/
structure DispatchRecord where
  entry : Nat
  groups : Uint3
  bindings : HostBindings
deriving DecidableEq, Repr, Inhabited

/-- The state of the device. -/
structure HostDevice where
  entries : List String := []
  /-- How many handles have been given out. -/
  issued : Nat := 0
  buffers : Keyed Nat MemoryBlock := []
  surfaces : Keyed Nat HostSurface := []
  /-- What is bound, for each entry point in order. -/
  bound : List HostBindings := []
  stats : HostStats := {}
  log : List DispatchRecord := []
deriving DecidableEq, Repr, Inhabited

namespace HostDevice

variable (d : HostDevice)
variable (entry : Nat) (h : BufferHandle)

/-- A device whose kernel has the given entry points, in order. -/
def ofEntries (entries : List String) : HostDevice :=
  { entries, bound := entries.map fun _ => {} }

/-- The ordinal of an entry point. -/
def findEntry? (name : String) : Option Nat := d.entries.idxOf? name

/-- Refuse an operation. -/
def refuse {α : Type} (operation : DeviceOperation) (cause : DeviceCause) : Except DeviceError α :=
  .error { device := .host, operation, cause }

/-- Take the next number for a handle. -/
def issue : Action HostDevice Nat := fun d =>
  { result := .ok (d.issued + 1), state := { d with issued := d.issued + 1 } }

/-! ## Buffers -/

/-- Make a buffer of zeros. -/
def createBuffer (count stride : Nat) : Action HostDevice BufferHandle :=
  if count * stride < UInt64.size then do
    let id ← issue
    Action.ofExcept ((Size.checkBlock (count * stride)).mapError .fault)
    Action.modify fun d =>
      { d with
        buffers := d.buffers.put id (.blank (count * stride))
        stats.buffersCreated := d.stats.buffersCreated + 1 }
    return ⟨id⟩
  else Action.ofExcept ((refuse .createBuffer (.productOverflow count stride)).mapError .device)

/-- Send bytes to a buffer of their number. -/
def upload (bytes : Bytes) : Except DeviceError HostDevice :=
  match d.buffers.get? h.id with
  | none => refuse .upload (.unknownBuffer h)
  | some data =>
    if data.size = bytes.length then
      .ok { d with buffers := d.buffers.put h.id (.written bytes),
                   stats.uploads := d.stats.uploads + 1 }
    else refuse .upload (.uploadSize data.size bytes.length)

/-- The bytes of a buffer, for a destination of `size` bytes. -/
def download (size : Nat) : Except DeviceError (Bytes × HostDevice) :=
  match d.buffers.get? h.id with
  | none => refuse .download (.unknownBuffer h)
  | some data =>
    if data.size = size then .ok (data.bytes, { d with stats.downloads := d.stats.downloads + 1 })
    else refuse .download (.downloadSize data.size size)

/-- Release a buffer and everything it is bound to. A handle that names no buffer is not counted. -/
def releaseBuffer : HostDevice :=
  { d with
    buffers := d.buffers.erase h.id
    bound := d.bound.map fun b => { b with buffers := b.buffers.filter fun (_, bound) => bound ≠ h }
    stats.buffersReleased := d.stats.buffersReleased + if d.buffers.has h.id then 1 else 0 }

/-- Overwrite a buffer as a kernel would. Says whether there is a buffer of that size. -/
def writeBuffer (bytes : Bytes) : Bool × HostDevice :=
  match d.buffers.get? h.id with
  | some data =>
    if data.size = bytes.length then
      (true, { d with buffers := d.buffers.put h.id (.written bytes) })
    else (false, d)
  | none => (false, d)

/-! ## Surfaces -/

/-- Make a surface of zeros. -/
def createSurface (width height : UInt32) (format : TexelFormat) :
    Action HostDevice SurfaceHandle := do
  let id ← issue
  let texels := width.toNat * height.toNat
  Action.ofExcept ((Size.checkBlock (texels * Float4.size)).mapError .fault)
  Action.modify fun d =>
    { d with
      surfaces :=
        d.surfaces.put id { width, height, format, pixels := Array.replicate texels .zero }
      stats.surfacesCreated := d.stats.surfacesCreated + 1 }
  return ⟨id⟩

/-- Send texels to a surface of their number. -/
def blit (h : SurfaceHandle) (pixels : Array Float4) : Except DeviceError HostDevice :=
  match d.surfaces.get? h.id with
  | none => refuse .blit (.unknownSurface h)
  | some s =>
    if s.pixels.size = pixels.size then
      .ok { d with surfaces := d.surfaces.put h.id { s with pixels },
                   stats.blits := d.stats.blits + 1 }
    else refuse .blit (.imageSize s.pixels.size pixels.size)

/-- What the texels of `out` become when a surface is read back. -/
def readBack (h : SurfaceHandle) (out : Array Float4) :
    Except DeviceError (Array Float4 × HostDevice) :=
  match d.surfaces.get? h.id with
  | none => refuse .readBack (.unknownSurface h)
  | some s =>
    if s.pixels.size = out.size then
      .ok (s.pixels, { d with stats.readBacks := d.stats.readBacks + 1 })
    else refuse .readBack (.imageSize s.pixels.size out.size)

/-- Release a surface and everything it is bound to. A handle that names no surface is not
counted. -/
def releaseSurface (h : SurfaceHandle) : HostDevice :=
  { d with
    surfaces := d.surfaces.erase h.id
    bound := d.bound.map fun b =>
      { b with textures := b.textures.filter fun (_, bound) => bound ≠ h }
    stats.surfacesReleased := d.stats.surfacesReleased + if d.surfaces.has h.id then 1 else 0 }

/-- Overwrite a texel as a kernel would. Says whether there is such a texel. The place of the texel
is reckoned in 32 bits. -/
def writePixel (h : SurfaceHandle) (x y : UInt32) (value : Float4) :
    Except Fault (Bool × HostDevice) :=
  match d.surfaces.get? h.id with
  | some s =>
    if x < s.width ∧ y < s.height then do
      let row ← Word.product? y s.width
      let position ← Word.sum? row x
      let pixels := s.pixels.setIfInBounds position.toNat value
      return (true, { d with surfaces := d.surfaces.put h.id { s with pixels } })
    else .ok (false, d)
  | none => .ok (false, d)

/-! ## Bindings and dispatches -/

/-- What is bound for an entry point. -/
def bindings : HostBindings := d.bound[entry]?.getD {}

/-- Replace what is bound for an entry point. -/
def setBindings (b : HostBindings) : HostDevice :=
  { d with bound := d.bound.set entry b }

/-- Bind a buffer to a slot. -/
def bindBuffer (slot : String) (h : BufferHandle) :
    Except DeviceError HostDevice :=
  if entry < d.entries.length then
    if d.buffers.has h.id then
      let b := d.bindings entry
      .ok (d.setBindings entry { b with buffers := b.buffers.put slot h })
    else refuse .bindBuffer (.unknownBuffer h)
  else refuse .bindBuffer (.unknownEntry entry)

/-- Bind a surface to a slot. -/
def bindTexture (slot : String) (h : SurfaceHandle) :
    Except DeviceError HostDevice :=
  if entry < d.entries.length then
    if d.surfaces.has h.id then
      let b := d.bindings entry
      .ok (d.setBindings entry { b with textures := b.textures.put slot h })
    else refuse .bindTexture (.unknownSurface h)
  else refuse .bindTexture (.unknownEntry entry)

/-- Record a dispatch with what is bound for its entry point, in order of the slots. -/
def dispatch (groups : Uint3) : Except DeviceError HostDevice :=
  if entry < d.entries.length then
    .ok { d with
      log := d.log ++ [{ entry, groups, bindings := d.bindings entry }]
      stats.dispatches := d.stats.dispatches + 1 }
  else refuse .dispatch (.unknownEntry entry)

end HostDevice

end ComputeKernel
