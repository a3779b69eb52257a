import ComputeKernel.Data.Element

/-!
# Capabilities

What a resource slot of a kernel accepts: buffers of one element type, or textures.
-/

namespace ComputeKernel

/-- What a slot accepts. -/
inductive Capability where
  | buffer (element : Element)
  | texture
deriving DecidableEq, Repr, Inhabited

/-- The capability as it stands in messages. -/
def Capability.text : Capability → String
  | .buffer element => "RWStructuredBuffer<" ++ element.typeName ++ ">"
  | .texture => "RWTexture2D"

end ComputeKernel
