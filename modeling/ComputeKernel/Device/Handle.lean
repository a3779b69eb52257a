import ComputeKernel.Data.Texel

/-!
# Device handles and errors

A device names its buffers and surfaces by handles, whole numbers that it gives out from 1 on. What
a device refuses it answers with a `DeviceError`: which device, which of its operations, and the
cause.
-/

namespace ComputeKernel

/-- The handle of a buffer. -/
structure BufferHandle where
  id : Nat
deriving DecidableEq, Repr, Inhabited

/-- The handle of a surface. -/
structure SurfaceHandle where
  id : Nat
deriving DecidableEq, Repr, Inhabited

/-- The handle as it stands in messages. -/
def BufferHandle.text (h : BufferHandle) : String := "BufferHandle(" ++ toString h.id ++ ")"

/-- The handle as it stands in messages. -/
def SurfaceHandle.text (h : SurfaceHandle) : String := "SurfaceHandle(" ++ toString h.id ++ ")"

/-- The kinds of devices. -/
inductive DeviceKind where
  | host
  | gpu
deriving DecidableEq, Repr, Inhabited

/-- The name of a device in messages. -/
def DeviceKind.name : DeviceKind → String
  | .host => "host"
  | .gpu => "wgpu"

/-- What a device can be asked for. -/
inductive DeviceOperation where
  | compile
  | createBuffer
  | upload
  | download
  | createSurface
  | blit
  | readBack
  | bindBuffer
  | bindTexture
  | createPipeline
  | dispatch
deriving DecidableEq, Repr, Inhabited

/-- The name of an operation in messages. -/
def DeviceOperation.name : DeviceOperation → String
  | .compile => "compile"
  | .createBuffer => "create_buffer"
  | .upload => "upload"
  | .download => "download"
  | .createSurface => "create_surface"
  | .blit => "blit"
  | .readBack => "read_back"
  | .bindBuffer => "bind_buffer"
  | .bindTexture => "bind_texture"
  | .createPipeline => "create_pipeline"
  | .dispatch => "dispatch"

/-- Why a device refuses. -/
inductive DeviceCause where
  /-- The byte size of a buffer does not fit in 64 bits. -/
  | sizeOverflow
  /-- The same, with the numbers that overflow. -/
  | productOverflow (count stride : Nat)
  | unknownBuffer (handle : BufferHandle)
  | unknownSurface (handle : SurfaceHandle)
  /-- An upload has another size than the buffer. -/
  | uploadSize (size given : Nat)
  /-- A download has another size than the buffer. -/
  | downloadSize (size given : Nat)
  /-- An image has another number of texels than the surface. -/
  | imageSize (texels given : Nat)
  | emptySurface (width height : UInt32)
  | unknownEntry (ordinal : Nat)
  | unplacedSlot (slot : String)
  /-- The driver of the device finds the request invalid. -/
  | invalid
deriving DecidableEq, Repr, Inhabited

/-- The cause in words. -/
def DeviceCause.message : DeviceCause → String
  | .sizeOverflow => "size overflows"
  | .productOverflow count stride =>
    toString count ++ " x " ++ toString stride ++ " bytes overflows"
  | .unknownBuffer h => "unknown buffer " ++ h.text
  | .unknownSurface h => "unknown surface " ++ h.text
  | .uploadSize size given => "expected " ++ toString size ++ " bytes, got " ++ toString given
  | .downloadSize size given =>
    "buffer holds " ++ toString size ++ " bytes, destination " ++ toString given
  | .imageSize texels given =>
    "surface holds " ++ toString texels ++ " texels, image " ++ toString given
  | .emptySurface w h => toString w ++ "x" ++ toString h ++ " surface"
  | .unknownEntry ordinal => "no entry point with ordinal " ++ toString ordinal
  | .unplacedSlot slot => "slot `" ++ slot ++ "` has no binding index"
  | .invalid => "validation error"

/-- What a device refused, and why. -/
structure DeviceError where
  device : DeviceKind
  operation : DeviceOperation
  cause : DeviceCause
deriving DecidableEq, Repr, Inhabited

/-- The error in words. -/
def DeviceError.message (e : DeviceError) : String :=
  e.device.name ++ " backend: " ++ e.operation.name ++ " failed: " ++ e.cause.message

end ComputeKernel
