import ComputeKernel.Device.Interface
import ComputeKernel.Resource.Memory

/-!
# Buffer transfers

A buffer that is bound to a slot, with its copy on the device. The copy is made when the device
first needs it, and made anew when its number of elements is not the buffer's. While `dirty` the
copy is behind, and it is uploaded before the device uses it.
-/

namespace ComputeKernel

open ComputeKernel.Action

/-- A device buffer and the number of elements it was made for. -/
structure DeviceCopy where
  handle : BufferHandle
  count : Nat
deriving DecidableEq, Repr, Inhabited

/-- A bound buffer with its copy. -/
structure BufferBinding where
  buffer : BufferRef
  copy : Option DeviceCopy := none
  /-- The copy is behind. -/
  dirty : Bool := true
deriving DecidableEq, Repr, Inhabited

/-- Host memory and one device. -/
structure Machine where
  memory : Memory
  device : Device
deriving Inhabited

namespace Machine

/-- An action on the device of a machine. -/
def onDevice {α : Type} (a : Action Device α) : Action Machine α :=
  .zoom (·.device) (fun device m => { m with device }) a

/-- An action on a texture in host memory and the device. -/
def onTexture {α : Type} (r : TextureRef) (a : Action (Texture × Device) α) : Action Machine α :=
  .zoom (fun m => (m.memory.texture r, m.device))
    (fun (t, device) m => { memory := m.memory.setTexture r t, device }) a

end Machine

namespace BufferBinding

variable (b : BufferBinding)

/-- An action on the machine around a binding. -/
def onMachine {α : Type} (a : Action Machine α) : Action (BufferBinding × Machine) α :=
  .zoom (·.2) (fun m s => (s.1, m)) a

/-- An action on the device. -/
def onDevice {α : Type} (a : Action Device α) : Action (BufferBinding × Machine) α :=
  onMachine (Machine.onDevice a)

/-- A change of the binding alone. -/
def change (f : BufferBinding → BufferBinding) : Action (BufferBinding × Machine) Unit :=
  .modify fun s => (f s.1, s.2)

/-- Bind another buffer. The copy stays, but is behind. -/
def rebind (buffer : BufferRef) : BufferBinding := { b with buffer, dirty := true }

/-- The copy is behind. -/
def markDirty : BufferBinding := { b with dirty := true }

/-- The bound buffer. -/
def contents : Action (BufferBinding × Machine) Buffer := do
  let (b, m) ← get
  return m.memory.buffer b.buffer

/-- Make a device copy for the bound buffer. It is behind. -/
def makeCopy (host : Buffer) : Action (BufferBinding × Machine) BufferHandle := do
  let handle ← onDevice (Device.createBuffer host.length host.stride)
  change fun b => { b with copy := some { handle, count := host.length }, dirty := true }
  return handle

/-- A device copy with as many elements as the bound buffer. One with another number is released. -/
def ensureCopy : Action (BufferBinding × Machine) BufferHandle := do
  let host ← contents
  let (b, _) ← get
  match b.copy with
  | some copy =>
    if copy.count = host.length then return copy.handle
    else
      report (.bufferRemade copy.count host.length)
      onDevice (Device.releaseBuffer copy.handle)
      makeCopy host
  | none => makeCopy host

/-- Make the device copy current, and give its handle. -/
def toDevice : Action (BufferBinding × Machine) BufferHandle := do
  let handle ← ensureCopy
  let host ← contents
  let (b, _) ← get
  if b.dirty then
    report (.bufferUploaded host.length host.element.typeName)
    onDevice (Device.upload handle host.bytes)
    change fun b => { b with dirty := false }
  return handle

/-- Overwrite the bound buffer by bytes of the device. -/
def receive (bytes : Bytes) : Action (BufferBinding × Machine) Unit :=
  .step fun (b, m) =>
    match (m.memory.buffer b.buffer).writeBytes bytes with
    | .ok host => .ok ((), b, { m with memory := m.memory.setBuffer b.buffer host })
    | .error e => .error (.fault e)

/-- Copy the device's elements to the bound buffer. Nothing happens when there is no copy, or one
with another number of elements. -/
def toHost : Action (BufferBinding × Machine) Unit := do
  let host ← contents
  let (b, _) ← get
  match b.copy with
  | none => pure ()
  | some copy =>
    if copy.count = host.length then
      let bytes ← onDevice (Device.download copy.handle (copy.count * host.stride))
      report (.bufferDownloaded copy.count)
      receive bytes
      change fun b => { b with dirty := false }
    else report (.downloadSkipped copy.count host.length)

/-- Release the device copy. -/
def release : Action (BufferBinding × Machine) Unit := do
  let (b, _) ← get
  match b.copy with
  | some copy => onDevice (Device.releaseBuffer copy.handle)
  | none => pure ()
  change fun b => { b with copy := none, dirty := true }

/-- The device copy as it is shown. -/
def copyText : Option DeviceCopy → String
  | none => "None"
  | some copy =>
    "Some(DeviceBuffer \x7b handle: " ++ copy.handle.text ++ ", count: " ++
      toString copy.count ++ " \x7d)"

/-- The binding of a buffer as it is shown. -/
def text (host : Buffer) : String :=
  "BufferState \x7b element: \"" ++ host.element.typeName ++ "\", len: " ++ toString host.length
    ++ ", device: " ++ copyText b.copy ++ ", dirty: " ++ toString b.dirty ++ " \x7d"

end BufferBinding

end ComputeKernel
