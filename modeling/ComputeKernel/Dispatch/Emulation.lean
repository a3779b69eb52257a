import ComputeKernel.Dispatch.Dispatcher
import ComputeKernel.Dispatch.Grid

/-!
# Emulated dispatch

`Bench.dispatchEmulated` runs an entry point on the host. What is bound to the entry point is first
put into the fields of the kernel; fields of slots that are not bound keep what they had. Then the
body runs for each thread of the grid, lane by lane. Afterwards the texels are committed, and the
device copies count as behind.

When a body faults the threads after it do not run, and neither does what follows the grid.
-/

namespace ComputeKernel.Bench

open ComputeKernel.Action

variable {K : Type}
variable (slot : String)
variable (r : TextureRef)

/-- Put a bound buffer into its field. -/
def bindBufferField (r : BufferRef) : Action (Bench K) Unit := fun s =>
  let element := (s.memory.buffer r).element
  match (s.dispatcher.layout.slot? slot).bind (·.bindBuffer? element r s.dispatcher.kernel) with
  | some kernel =>
    { result := .ok (), state := { s with dispatcher := { s.dispatcher with kernel } } }
  | none =>
    let expected := s.dispatcher.layout.capability? slot
    { result := .error (.dispatch (.capability slot expected (.buffer element))), state := s }

/-- Put a bound texture into its field. -/
def bindTextureField : Action (Bench K) Unit := fun s =>
  match (s.dispatcher.layout.slot? slot).bind (·.bindTexture? r s.dispatcher.kernel) with
  | some kernel =>
    { result := .ok (), state := { s with dispatcher := { s.dispatcher with kernel } } }
  | none =>
    let expected := s.dispatcher.layout.capability? slot
    { result := .error (.dispatch (.capability slot expected .texture)), state := s }

/-- Change a texture. -/
def changeTexture (f : Texture → Texture) : Action (Bench K) Unit :=
  .modify fun s => { s with memory := s.memory.modifyTexture r f }

/-- Bring a texture's texels to the host when the device has newer ones and is attached. -/
def fetchTexture : Action (Bench K) Unit := fun s =>
  match s.device with
  | none => { result := .ok (), state := s }
  | some device =>
    let o := Machine.onTexture r Texture.toHost { memory := s.memory, device }
    { result := o.result
      state := { s with memory := o.state.memory, device := some o.state.device }
      events := o.events }

/-- Make a bound texture ready for the lanes: its field, its texels, and the host as the newer
side. -/
def enterTexture : Action (Bench K) Unit := do
  bindTextureField slot r
  fetchTexture r
  changeTexture r Texture.hintHost

/-- Run the body for all threads of a dispatch. -/
def runLanes (point : EntryPoint K) (groups : Uint3) : Action (Scene K) Unit :=
  forEach (Grid.visits point.extent groups) fun (lane, place) => do
    let id ← ofExcept ((Grid.id? groups lane place).mapError .fault)
    point.body id

/-- An action on the kernel and host memory. -/
def onScene {α : Type} (a : Action (Scene K) α) : Action (Bench K) α :=
  .zoom (fun s => { kernel := s.dispatcher.kernel, memory := s.memory })
    (fun scene s => { s with
      dispatcher := { s.dispatcher with kernel := scene.kernel }, memory := scene.memory }) a

/-- Put everything that is bound into the fields of the kernel, and make the textures ready for the
lanes. -/
def enter (table : Table) : Action (Bench K) Unit := do
  forEach table.buffers fun (slot, b) => bindBufferField slot b.buffer
  forEach table.textures fun (slot, r) => enterTexture slot r

/-- Run the threads of a grid; an empty one has none, which is only reported. -/
def runGrid (point : EntryPoint K) (groups grid : Uint3) : Action (Bench K) Unit :=
  if grid.isEmpty then report (.emptyGrid point.name groups)
  else do
    report (.emulatedDispatch point.name point.extent groups)
    onScene (runLanes point groups)

/-- Commit the texels that the lanes wrote, and mark the device copies of the buffers as behind. -/
def leave (entry : Nat) (table : Table) : Action (Bench K) Unit := do
  forEach table.textures fun (_, r) => changeTexture r Texture.applyHostChanges
  changeTable entry Table.markDirty
  Action.modify fun s => { s with dispatcher := s.dispatcher.ran entry .emulated }

/-- Run an entry point on the host. -/
def dispatchEmulated (entry : Nat) (groups : Uint3) : Action (Bench K) Unit := do
  let point ← check (·.layout.entry entry)
  match Grid.grid? point.extent groups with
  | none => fail (.dispatch (.gridOverflow point.name point.extent groups))
  | some grid =>
    let s ← get
    let table := s.dispatcher.table entry
    enter table
    runGrid point groups grid
    leave entry table

end ComputeKernel.Bench
