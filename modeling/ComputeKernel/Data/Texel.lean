import ComputeKernel.Data.Vector

/-!
# Texel formats

How the texels of a surface lie in device memory. The format of four 32-bit floats keeps every bit
pattern; the format of four bytes keeps each component as a whole number of 255ths between 0 and 1.
Rows that are copied out of device memory start at multiples of `rowAlignment` bytes (`paddedRow?`).
-/

namespace ComputeKernel

/-- The format of texels. -/
inductive TexelFormat where
  | rgba32Float
  | rgba8Unorm
deriving DecidableEq, Repr, Inhabited

namespace TexelFormat

variable (f : TexelFormat)

/-- The name of a format in messages. -/
def name : TexelFormat → String
  | .rgba32Float => "rgba32float"
  | .rgba8Unorm => "rgba8unorm"

/-- The name of a format in the description of a texture. -/
def typeName : TexelFormat → String
  | .rgba32Float => "Rgba32Float"
  | .rgba8Unorm => "Rgba8Unorm"

/-- The number of bytes in a texel. -/
def bytesPerTexel : TexelFormat → UInt32
  | .rgba32Float => 16
  | .rgba8Unorm => 4

/-- A component as a number of 255ths: cut to the range from 0 to 1, then rounded, with halves away
from zero. What is no number is 0. -/
def quantize (component : UInt32) : UInt8 :=
  let c := Float32.ofBits component
  let c := if c < 0.0 then 0.0 else if c > 1.0 then 1.0 else c
  (c * 255.0).round.toUInt8

/-- The component that a number of 255ths stands for. -/
def expand (n : UInt8) : UInt32 := (n.toFloat32 / 255.0).toBits

/-- The bytes of a texel in device memory. -/
def encodeTexel (p : Float4) : Bytes :=
  match f with
  | .rgba32Float => Word.toBytes p.components
  | .rgba8Unorm => p.components.map quantize

/-- The bytes of texels in device memory. -/
def encode (pixels : List Float4) : Bytes := pixels.flatMap f.encodeTexel

/-- The texels of words, four to a texel. -/
def ofWords : List UInt32 → List Float4
  | x :: y :: z :: w :: rest => ⟨x, y, z, w⟩ :: ofWords rest
  | _ => []

/-- The texels that bytes of device memory hold. Bytes that do not fill a texel are left out. -/
def decode (bytes : Bytes) : List Float4 :=
  match f with
  | .rgba32Float => ofWords (Word.ofBytes bytes)
  | .rgba8Unorm => ofWords (bytes.map expand)

/-- What the texels of `destination` become when decoded texels are stored from its start on. -/
def decodeInto (bytes : Bytes) (destination : List Float4) : List Float4 :=
  let texels := (f.decode bytes).take destination.length
  texels ++ destination.drop texels.length

/-- Rows copied out of device memory start at multiples of this. -/
def rowAlignment : UInt32 := 256

/-- The least multiple of the row alignment that holds a row of `width` texels. -/
def paddedRow? (width : UInt32) : Except Fault UInt32 := do
  let row ← Word.product? width f.bytesPerTexel
  Word.product? ((row.toNat + rowAlignment.toNat - 1) / rowAlignment.toNat).toUInt32 rowAlignment

end TexelFormat

end ComputeKernel
