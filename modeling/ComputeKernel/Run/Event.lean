import ComputeKernel.Device.Handle

/-!
# Events

What the program reports about its work while it runs. An event is told in a line of its own: a
level, a message and named fields.
-/

namespace ComputeKernel

/-- How much an event matters. -/
inductive Level where
  | debug
  | warn
deriving DecidableEq, Repr, Inhabited

/-- The name of a level. -/
def Level.name : Level → String
  | .debug => "DEBUG"
  | .warn => "WARN"

/-- The value of a named field of an event. -/
inductive EventField where
  | number (n : Nat)
  | text (s : String)
deriving DecidableEq, Repr, Inhabited

/-- What happened. -/
inductive Event where
  | kernelRegistered (entries slots : Nat)
  | bufferBound (entry : Nat) (slot : String) (elements : Nat)
  | textureBound (entry : Nat) (slot : String) (width height : UInt32)
  /-- The device buffer has another length than the host's, and another one is made. -/
  | bufferRemade (old new : Nat)
  | bufferUploaded (elements : Nat) (element : String)
  | bufferDownloaded (elements : Nat)
  /-- The device buffer has another length than the host's, and is not downloaded. -/
  | downloadSkipped (device host : Nat)
  | textureBlitted (width height : UInt32)
  | textureReadBack (width height : UInt32)
  | moduleCompiled (entries : Nat)
  | dispatchQueued (entry : String) (groups : Uint3)
  | hardwareDispatch (entry : String) (groups : Uint3) (device : DeviceKind)
  | emulatedDispatch (entry : String) (extent groups : Uint3)
  | emptyGrid (entry : String) (groups : Uint3)
  | resourcesReleased (device : DeviceKind)
deriving DecidableEq, Repr, Inhabited

namespace Event

/-- The level of an event. -/
def level : Event → Level
  | .downloadSkipped .. | .emptyGrid .. => .warn
  | _ => .debug

/-- The event in words. -/
def message : Event → String
  | .kernelRegistered .. => "registered kernel"
  | .bufferBound .. => "binding buffer"
  | .textureBound .. => "binding texture"
  | .bufferRemade .. => "buffer length changed, recreating"
  | .bufferUploaded .. => "uploading buffer"
  | .bufferDownloaded .. => "downloaded buffer"
  | .downloadSkipped .. => "host buffer length changed since upload, skipping download"
  | .textureBlitted .. => "blitting texture to device"
  | .textureReadBack .. => "reading texture back from device"
  | .moduleCompiled .. => "compiled WGSL module"
  | .dispatchQueued .. => "queued dispatch"
  | .hardwareDispatch .. => "hardware dispatch"
  | .emulatedDispatch .. => "emulated dispatch"
  | .emptyGrid .. => "empty dispatch grid, nothing to run"
  | .resourcesReleased .. => "released device resources"

/-- The named fields of an event. -/
def fields : Event → List (String × EventField)
  | .kernelRegistered entries slots => [("entries", .number entries), ("slots", .number slots)]
  | .bufferBound entry slot elements =>
    [("entry", .number entry), ("slot", .text slot), ("elements", .number elements)]
  | .textureBound entry slot width height =>
    [("entry", .number entry), ("slot", .text slot), ("width", .number width.toNat),
      ("height", .number height.toNat)]
  | .bufferRemade old new => [("old", .number old), ("new", .number new)]
  | .bufferUploaded elements element => [("elements", .number elements), ("element", .text element)]
  | .bufferDownloaded elements => [("elements", .number elements)]
  | .downloadSkipped device host => [("device", .number device), ("host", .number host)]
  | .textureBlitted width height | .textureReadBack width height =>
    [("width", .number width.toNat), ("height", .number height.toNat)]
  | .moduleCompiled entries => [("entries", .number entries)]
  | .dispatchQueued entry groups => [("entry", .text entry), ("groups", .text groups.text)]
  | .hardwareDispatch entry groups device =>
    [("entry", .text entry), ("groups", .text groups.text), ("backend", .text device.name)]
  | .emulatedDispatch entry extent groups =>
    [("entry", .text entry), ("extent", .text extent.text), ("groups", .text groups.text)]
  | .emptyGrid entry groups => [("entry", .text entry), ("groups", .text groups.text)]
  | .resourcesReleased device => [("backend", .text device.name)]

end Event

end ComputeKernel
