import ComputeKernel.Dispatch.Layout
import ComputeKernel.Dispatch.Table

/-!
# Dispatchers

A dispatcher owns one kernel and runs its entry points, on a device or by emulation. For each entry
point it keeps what is bound to the slots, and how the entry point last ran. A dispatcher at work is
a `Bench`: the dispatcher, host memory and the device, if one is attached.

The mistakes a caller can make in binding are found before anything is changed.
-/

namespace ComputeKernel

/-- How an entry point was run. -/
inductive DispatchPath where
  | hardware
  | emulated
deriving DecidableEq, Repr, Inhabited

/-- The name of a path in messages. -/
def DispatchPath.name : DispatchPath → String
  | .hardware => "hardware"
  | .emulated => "emulated"

/-- A dispatcher of a kernel of type `K`. -/
structure Dispatcher (K : Type) where
  kernel : K
  layout : Layout K
  /-- What is bound, for each entry point in order. -/
  tables : List Table
  /-- How each entry point last ran. -/
  last : List (Option DispatchPath)
  /-- The file that declares the kernel class. -/
  source : Option String := none
  /-- The number of threads that run emulated lanes; the shared ones when none are set apart. -/
  workers : Option Nat := none

/-- A dispatcher with the memory and the device it works on. -/
structure Bench (K : Type) where
  dispatcher : Dispatcher K
  memory : Memory
  device : Option Device := none

variable {K : Type}

namespace Dispatcher

variable (d : Dispatcher K)
variable (entry : Nat)

/-- A dispatcher for a kernel with the given declarations, and the report that it is there. -/
def ofKernel? (kernel : K) (entries : List (EntryDecl K)) (slots : List (Slot K)) :
    Except DispatchError (Dispatcher K × List Event) := do
  let layout ← Layout.of? entries slots
  return ({ kernel, layout
            tables := layout.entries.map fun _ => {}
            last := layout.entries.map fun _ => none },
          [.kernelRegistered layout.entries.length layout.slots.length])

/-- Note the file that declares the class. -/
def withSource (path : String) : Dispatcher K := { d with source := some path }

/-- Set threads apart for emulated lanes; 0 sets none apart. -/
def withWorkers (workers : Nat) : Dispatcher K :=
  { d with workers := if workers = 0 then none else some workers }

/-- The file that declares the class. -/
def sourcePath : Except DispatchError String :=
  match d.source with
  | some path => .ok path
  | none => .error .unknownSource

/-- How an entry point last ran. -/
def lastDispatch : Option DispatchPath := (d.last[entry]?).join

/-- What is bound for an entry point. -/
def table : Table := d.tables[entry]?.getD {}

/-- Replace what is bound for an entry point. -/
def setTable (t : Table) : Dispatcher K :=
  { d with tables := d.tables.set entry t }

/-- Note how an entry point ran. -/
def ran (path : DispatchPath) : Dispatcher K :=
  { d with last := d.last.set entry (some path) }

/-- The slot of that name, for an entry point. -/
def slot (name : String) : Except DispatchError (Slot K) := do
  let point ← d.layout.entry entry
  match d.layout.slot? name with
  | some s => return s
  | none => throw (.undeclaredSlot point.name name)

/-- The texture bound to a slot of an entry point. -/
def texture (slot : String) : Except DispatchError TextureRef := do
  let point ← d.layout.entry entry
  let _ ← d.slot entry slot
  match (d.table entry).textures.get? slot with
  | some r => return r
  | none => throw (.unboundTexture point.name slot)

end Dispatcher

namespace Bench

variable (entry : Nat)

/-- A result about the dispatcher alone. -/
def check {α : Type} (f : Dispatcher K → Except DispatchError α) : Action (Bench K) α :=
  .examine fun s => (f s.dispatcher).mapError .dispatch

/-- Change what is bound for an entry point. -/
def changeTable (f : Table → Table) : Action (Bench K) Unit :=
  .modify fun s =>
    { s with dispatcher := s.dispatcher.setTable entry (f (s.dispatcher.table entry)) }

/-- Refuse a resource that a slot does not accept. -/
def accept (s : Slot K) (found : Capability) : Except DispatchError Unit :=
  if s.capability = found then .ok () else .error (.capability s.name (some s.capability) found)

/-- Bind a buffer to a slot of an entry point. -/
def setBuffer (slot : String) (r : BufferRef) : Action (Bench K) Unit := do
  let declared ← check (·.slot entry slot)
  let s ← Action.get
  let b := s.memory.buffer r
  check fun _ => accept declared (.buffer b.element)
  Action.report (.bufferBound entry slot b.length)
  changeTable entry (·.bindBuffer slot r)

/-- Bind a texture to a slot of an entry point. -/
def setTexture (slot : String) (r : TextureRef) : Action (Bench K) Unit := do
  let declared ← check (·.slot entry slot)
  check fun _ => accept declared .texture
  let s ← Action.get
  let t := s.memory.texture r
  Action.report (.textureBound entry slot t.width t.height)
  changeTable entry (·.bindTexture slot r)

/-- Mark the device copies of an entry point as behind. -/
def invalidateBuffers : Action (Bench K) Unit := do
  let _ ← check (·.layout.entry entry)
  changeTable entry Table.markDirty

/-- An action on the dispatcher and the machine; an error when no device is attached. -/
def withDevice {α : Type} (a : Action (Dispatcher K × Machine) α) : Action (Bench K) α := fun s =>
  match s.device with
  | none => { result := .error (.dispatch .noDevice), state := s }
  | some device =>
    let o := a (s.dispatcher, { memory := s.memory, device })
    { result := o.result
      state := { dispatcher := o.state.1, memory := o.state.2.memory,
                 device := some o.state.2.device }
      events := o.events }

end Bench

namespace Dispatcher

/-- An action on the table of an entry point and the machine. -/
def onTable {α : Type} (entry : Nat) (a : Action (Table × Machine) α) :
    Action (Dispatcher K × Machine) α :=
  .zoom (fun s => (s.1.table entry, s.2)) (fun (t, m) s => (s.1.setTable entry t, m)) a

end Dispatcher

end ComputeKernel
