import ComputeKernel.Dispatch.Dispatcher

/-!
# Dispatch on a device

`Bench.dispatchHardware` brings the device copies of everything bound to an entry point up to date,
binds them and queues the dispatch. The device must know the entry point under the same ordinal.
What the device computes comes back by `downloadBuffers`, or when the host next reads a texture.
`dispose` gives back what the dispatcher's tables hold on the device.
-/

namespace ComputeKernel.Bench

open ComputeKernel.Action

variable {K : Type}

/-- Refuse a device that has another entry point under the ordinal. -/
def agree (point : EntryPoint K) (entry : Nat) (device : Device) : Except DispatchError Unit :=
  let reported := device.findEntry? point.name
  if reported = some entry then .ok ()
  else .error (.entryMismatch point.name entry device.kind reported)

/-- Run an entry point on the device. -/
def dispatchHardware (entry : Nat) (groups : Uint3) : Action (Bench K) Unit := do
  let point ← check (·.layout.entry entry)
  withDevice do
    let (_, m) ← get
    ofExcept ((agree point entry m.device).mapError .dispatch)
    Dispatcher.onTable entry do
      Table.presentBuffers entry
      Table.presentTextures entry
      report (.hardwareDispatch point.name groups m.device.kind)
      Table.onMachine (Machine.onDevice (Device.dispatch entry groups))
    Action.modify fun (d, m) => (d.ran entry .hardware, m)

/-- Copy all buffers of an entry point to the host. -/
def downloadBuffers (entry : Nat) : Action (Bench K) Unit := do
  let _ ← check (·.layout.entry entry)
  withDevice (Dispatcher.onTable entry (Table.onBuffers fun _ => BufferBinding.toHost))

/-- Release everything that is bound for any entry point. -/
def releaseAll : Action (Dispatcher K × Machine) Unit := do
  let (d, m) ← get
  forEach (List.range d.tables.length) fun entry => Dispatcher.onTable entry Table.release
  report (.resourcesReleased m.device.kind)

/-- Release all that is bound, when a device is attached. -/
def dispose : Action (Bench K) Unit := do
  let s ← get
  if s.device.isSome then withDevice releaseAll

end ComputeKernel.Bench
