import ComputeKernel.Data.Size
import ComputeKernel.Device.Handle

/-!
# Textures

A texture has texels on the host, an image that was last committed or exchanged with a device
(`image`), and, once a device has used it, a surface there. The host's texels lie in memory as one
array of words, row by row and four words for each texel (`texelWords`). Two flags say which side is
behind: the device while `deviceStale`, because the host has written, and the host while
`hostStale`, because the device has written. This module holds what needs no device; the transfers
are in `Transfer.Texture`.
-/

namespace ComputeKernel

/-- Store texels in the chunks of four words from one on, each in a chunk of its own. Texels past
the end are dropped. -/
def storeTexels (words : Array UInt32) (chunk : Nat) : List Float4 → Array UInt32
  | [] => words
  | p :: ps => storeTexels (overwrite words (chunk * 4) p.components) (chunk + 1) ps

@[simp] theorem size_storeTexels (words : Array UInt32) (chunk : Nat) (ps : List Float4) :
    (storeTexels words chunk ps).size = words.size := by
  induction ps generalizing words chunk with
  | nil => rfl
  | cons p ps ih => simp [storeTexels, ih]

/-- A texture on the host, with what it knows of its device. -/
structure Texture where
  width : UInt32
  height : UInt32
  format : TexelFormat
  /-- The device has written since the host last read. -/
  hostStale : Bool := false
  /-- The host has written since the device last read. -/
  deviceStale : Bool := true
  surface : Option SurfaceHandle := none
  /-- The texels as they were last committed or exchanged with a device. -/
  image : Array Float4
  /-- The words of the texels on the host, four for each texel, row by row. -/
  words : Array UInt32
  size_words : words.size = width.toNat * height.toNat * 4
  fits : width.toNat * height.toNat * Float4.size ≤ Size.maxBlock
deriving DecidableEq

namespace Texture

variable (t : Texture)
variable (uv : Uint2)

/-- A texture with no texels. -/
def empty (format : TexelFormat) : Texture where
  width := 0
  height := 0
  format := format
  words := #[]
  image := #[]
  size_words := by simp
  fits := by simp

instance : Inhabited Texture := ⟨empty .rgba32Float⟩

/-- A texture of zeros that no device has used. Its number of words must fit in 64 bits, and its
bytes in a block of memory. -/
def zeros? (width height : UInt32) (format : TexelFormat) : Except Fault Texture :=
  if width.toNat * height.toNat * 4 < UInt64.size then
    if fits : width.toNat * height.toNat * Float4.size ≤ Size.maxBlock then
      .ok { width, height, format
            words := Array.replicate (width.toNat * height.toNat * 4) 0
            image := Array.replicate (width.toNat * height.toNat) .zero
            size_words := by simp, fits }
    else .error .capacity
  else .error .multiplication

/-- Whether the texture has a texel. -/
def contains : Bool := uv.x < t.width && uv.y < t.height

/-- Refuse a texel that the texture does not have. -/
def checkTexel : Except Fault Unit :=
  if t.contains uv then .ok () else .error (.texel uv.x uv.y t.width t.height)

/-- The place of the first word of a texel. -/
def base : Nat := (uv.y.toNat * t.width.toNat + uv.x.toNat) * 4

/-- The four words of a texel. -/
def texelWords : List UInt32 :=
  (t.words.extract (t.base uv) (t.base uv + 4)).toList

/-- The host's texel at a place; zero outside. -/
def texel : Float4 := .ofComponents (t.texelWords uv)

/-- Read a texel on the host. -/
def get : Except Fault Float4 := (t.checkTexel uv).map fun _ => t.texel uv

/-- The host is now the newer side. -/
def hintHost : Texture := { t with hostStale := false, deviceStale := true }

/-- The device is now the newer side. -/
def hintDevice : Texture := { t with hostStale := true, deviceStale := false }

/-- Store texels of the host, row by row from the first on. -/
def store (pixels : List Float4) : Texture :=
  { t with words := storeTexels t.words 0 pixels, size_words := by simp [t.size_words] }

/-- Give the host's texel at a place another value. The host is the newer side afterwards, and what
the device had written since is lost. -/
def put (value : Float4) : Texture :=
  { t with
    words := overwrite t.words (t.base uv) value.components
    hostStale := false
    deviceStale := true
    size_words := by simp [t.size_words] }

/-- Write a texel on the host. -/
def set (value : Float4) : Except Fault Texture :=
  (t.checkTexel uv).map fun _ => t.put uv value

/-- The host's texels, read row by row. -/
def snapshot : Array Float4 :=
  ((List.range t.height.toNat).flatMap fun y =>
    (List.range t.width.toNat).map fun x => t.texel ⟨x.toUInt32, y.toUInt32⟩).toArray

/-- Commit the host's texels to the image. The device is behind afterwards. -/
def applyHostChanges : Texture := { t with image := t.snapshot, deviceStale := true }

/-- The texture as it is shown. -/
def text : String :=
  "RWTexture2D \x7b width: " ++ toString t.width ++ ", height: " ++ toString t.height
    ++ ", format: " ++ t.format.typeName ++ ", cpu_dirty: " ++ toString t.hostStale
    ++ ", gpu_dirty: " ++ toString t.deviceStale ++ " \x7d"

end Texture

end ComputeKernel
