import ComputeKernel.Device.Interface
import ComputeKernel.Resource.Texture

/-!
# Texture transfers

Bringing one side of a texture up to date with the other. `toDevice` makes the surface current: it
is made when there is none, and the host's texels are copied to it when it is behind. `toHost` makes
the host's texels current when they are behind. Bringing a side up to date clears the flag of that
side.
-/

namespace ComputeKernel.Texture

/-- An action on the device of a texture. -/
def onDevice {α : Type} (a : Action Device α) : Action (Texture × Device) α :=
  .zoom (·.2) (fun d s => (s.1, d)) a

/-- A change of the texture alone. -/
def change (f : Texture → Texture) : Action (Texture × Device) Unit := .modify fun s => (f s.1, s.2)

/-- The surface of a texture, made when there is none. A surface that was just made is behind. -/
def ensureSurface : Action (Texture × Device) SurfaceHandle := do
  let (t, _) ← Action.get
  match t.surface with
  | some h => return h
  | none =>
    let h ← onDevice (Device.createSurface t.width t.height t.format)
    change fun t => { t with surface := some h, deviceStale := true }
    return h

/-- Make the surface current, and give its handle. -/
def toDevice : Action (Texture × Device) SurfaceHandle := do
  let h ← ensureSurface
  let (t, _) ← Action.get
  if t.deviceStale then
    change fun t => { t with image := t.snapshot }
    Action.report (.textureBlitted t.width t.height)
    onDevice (Device.blit h t.snapshot)
    change fun t => { t with deviceStale := false }
  return h

/-- Make the host's texels current. Without a surface they are as current as can be. -/
def toHost : Action (Texture × Device) Unit := do
  let (t, _) ← Action.get
  if t.hostStale then
    match t.surface with
    | some h =>
      Action.report (.textureReadBack t.width t.height)
      let image ← onDevice (Device.readBack h t.image)
      change fun t => ({ t with image } : Texture).store image.toList
    | none => pure ()
    change fun t => { t with hostStale := false }

/-- Write a texel after what the device has written has come over. -/
def writePixel (uv : Uint2) (value : Float4) : Action (Texture × Device) Unit := do
  toHost
  Action.step fun (t, d) => ((t.set uv value).map fun t => ((), t, d)).mapError .fault

/-- Read a texel after what the device has written has come over. -/
def readPixel (uv : Uint2) : Action (Texture × Device) Float4 := do
  toHost
  Action.step fun (t, d) => ((t.get uv).map fun p => (p, t, d)).mapError .fault

/-- Release the surface. The next use of the device makes another one from the host's texels. -/
def release : Action (Texture × Device) Unit := do
  let (t, _) ← Action.get
  match t.surface with
  | some h =>
    onDevice (Device.releaseSurface h)
    change fun t => { t with surface := none, deviceStale := true }
  | none => pure ()

end ComputeKernel.Texture
