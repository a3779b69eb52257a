import ComputeKernel.Device.Host
import ComputeKernel.Device.Gpu

/-!
# Devices

A device that kernels run on, of one kind or the other, and what a dispatcher asks of it. Each
operation is an action on the device.
-/

namespace ComputeKernel

/-- A device of one kind or the other. -/
inductive Device where
  | host (device : HostDevice)
  | gpu (device : GpuDevice)
deriving DecidableEq, Repr

namespace Device

variable {α : Type}
variable (entry : Nat) (h : BufferHandle)

instance : Inhabited Device := ⟨.host {}⟩

/-- The kind of a device. -/
def kind : Device → DeviceKind
  | .host _ => .host
  | .gpu _ => .gpu

/-- The ordinal of a compiled entry point. -/
def findEntry? (d : Device) (name : String) : Option Nat :=
  match d with
  | .host d => d.findEntry? name
  | .gpu d => d.findEntry? name

/-- The outcome of a step of the host device. -/
def hostStep (d : HostDevice) (r : Except DeviceError (α × HostDevice)) : Outcome Device α :=
  match r with
  | .ok (a, next) => { result := .ok a, state := .host next }
  | .error e => { result := .error (.device e), state := .host d }

/-- An action of the host device. -/
def onHost (d : HostDevice) (a : Action HostDevice α) : Outcome Device α :=
  let o := a d
  { result := o.result, state := .host o.state, events := o.events }

/-- The outcome of a step of the graphics device. -/
def gpuStep (d : GpuDevice) (r : Except Failure (α × GpuDevice)) : Outcome Device α :=
  match r with
  | .ok (a, next) => { result := .ok a, state := .gpu next }
  | .error e => { result := .error e, state := .gpu d }

/-- The outcome of a change that the graphics device may refuse. -/
def gpuChange (d : GpuDevice) (r : Except DeviceError GpuDevice) : Outcome Device Unit :=
  gpuStep d ((r.map fun next => ((), next)).mapError .device)

/-- Make a buffer. -/
def createBuffer (count stride : Nat) : Action Device BufferHandle
  | .host d => onHost d (HostDevice.createBuffer count stride)
  | .gpu d => gpuStep d (d.createBuffer count stride)

/-- Send bytes to a buffer. -/
def upload (bytes : Bytes) : Action Device Unit
  | .host d => hostStep d ((d.upload h bytes).map fun next => ((), next))
  | .gpu d => gpuChange d (d.upload h bytes)

/-- Read bytes of a buffer. -/
def download (size : Nat) : Action Device Bytes
  | .host d => hostStep d (d.download h size)
  | .gpu d => gpuStep d (((d.download h size).map fun bytes => (bytes, d)).mapError .device)

/-- Release a buffer. -/
def releaseBuffer : Action Device Unit
  | .host d => { result := .ok (), state := .host (d.releaseBuffer h) }
  | .gpu d => { result := .ok (), state := .gpu (d.releaseBuffer h) }

/-- Make a surface. -/
def createSurface (width height : UInt32) (format : TexelFormat) : Action Device SurfaceHandle
  | .host d => onHost d (HostDevice.createSurface width height format)
  | .gpu d => gpuStep d (d.createSurface width height format)

/-- Send texels to a surface. -/
def blit (h : SurfaceHandle) (pixels : Array Float4) : Action Device Unit
  | .host d => hostStep d ((d.blit h pixels).map fun next => ((), next))
  | .gpu d => gpuChange d (d.blit h pixels)

/-- What the texels of `out` become when a surface is read back. -/
def readBack (h : SurfaceHandle) (out : Array Float4) : Action Device (Array Float4)
  | .host d => hostStep d (d.readBack h out)
  | .gpu d => { result := d.readBack h out, state := .gpu d }

/-- Release a surface. -/
def releaseSurface (h : SurfaceHandle) : Action Device Unit
  | .host d => { result := .ok (), state := .host (d.releaseSurface h) }
  | .gpu d => { result := .ok (), state := .gpu (d.releaseSurface h) }

/-- Bind a buffer to a slot. -/
def bindBuffer (slot : String) (h : BufferHandle) : Action Device Unit
  | .host d => hostStep d ((d.bindBuffer entry slot h).map fun next => ((), next))
  | .gpu d => gpuChange d (d.bindBuffer entry slot h)

/-- Bind a surface to a slot. -/
def bindTexture (slot : String) (h : SurfaceHandle) : Action Device Unit
  | .host d => hostStep d ((d.bindTexture entry slot h).map fun next => ((), next))
  | .gpu d => gpuChange d (d.bindTexture entry slot h)

/-- Queue a dispatch. -/
def dispatch (groups : Uint3) : Action Device Unit
  | .host d => hostStep d ((d.dispatch entry groups).map fun next => ((), next))
  | .gpu d =>
    match d.dispatch entry groups with
    | .ok name => { result := .ok (), state := .gpu d, events := [.dispatchQueued name groups] }
    | .error e => { result := .error (.device e), state := .gpu d }

/-- A graphics device for a shader module, with the report that the module has compiled. -/
def compile? (module : Option ShaderModule) (entries : List String) (places : List (String × Nat)) :
    Except Failure Device × List Event :=
  match GpuDevice.compile? module entries places with
  | .ok d => (.ok (.gpu d), [.moduleCompiled entries.length])
  | .error e => (.error (.device e), [])

end Device

end ComputeKernel
