import ComputeKernel.Decimal.Shortest

/-!
# Element types

The types a structured buffer can hold. Each is a whole number of 32-bit words, and a value of it is
the list of these words: a signed number is its two's complement and a floating-point number its bit
pattern.
-/

namespace ComputeKernel

/-- The type of an element. -/
inductive Element where
  | uint
  | int
  | float
  | uint2
  | uint3
  | float4
deriving DecidableEq, Repr, Inhabited

namespace Element

variable (e : Element)

/-- The number of 32-bit words in a value. -/
def words : Element → Nat
  | .uint | .int | .float => 1
  | .uint2 => 2
  | .uint3 => 3
  | .float4 => 4

/-- The number of bytes in a value. -/
def stride : Nat := 4 * e.words

/-- The name of the type in messages. -/
def typeName : Element → String
  | .uint => "u32"
  | .int => "i32"
  | .float => "f32"
  | .uint2 => "rspu::runtime::types::Uint2"
  | .uint3 => "rspu::runtime::types::Uint3"
  | .float4 => "rspu::runtime::types::Float4"

/-- Values are shown in positions while at most three zeros follow the point, and only negative
exponents have a sign. Of two equally near decimals the upper one is taken. -/
def floatStyle : Decimal.Style := { tie := .upper, zeros := 3, plus := false }

/-- A floating-point value as it is shown. -/
def floatText (bits : UInt32) : String := Decimal.text32 floatStyle bits

/-- A vector as it is shown: its type, then each component with its name. -/
def vectorText (type : String) (component : UInt32 → String) (value : List UInt32) : String :=
  let parts := (["x", "y", "z", "w"].zip value).map fun (name, word) => name ++ ": " ++
    component word
  type ++ " \x7b " ++ ", ".intercalate parts ++ " \x7d"

/-- A value as it is shown. -/
def valueText (value : List UInt32) : String :=
  match e with
  | .uint => toString (value.headD 0)
  | .int => toString (value.headD 0).toInt32
  | .float => floatText (value.headD 0)
  | .uint2 => vectorText "Uint2" toString value
  | .uint3 => vectorText "Uint3" toString value
  | .float4 => vectorText "Float4" floatText value

/-- No value is empty. -/
theorem words_pos : 0 < e.words := by cases e <;> decide

end Element

end ComputeKernel
