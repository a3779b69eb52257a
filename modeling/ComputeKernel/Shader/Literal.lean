/-!
# Numeric literals in kernel text

A kernel literal has no suffix. A literal that is marked as a float and has no point gets a
fraction, so that it stays a float.
-/

namespace ComputeKernel.Shader

/-- A text without the characters at its end that satisfy `p`. -/
def trimEnd (p : Char → Bool) (text : String) : String :=
  String.ofList (text.toList.reverse.dropWhile p).reverse

/-- Letters of the suffixes of integers. -/
def isIntegerSuffix (c : Char) : Bool := c ∈ ['u', 'l', 'U', 'L']

/-- Letters of all suffixes. -/
def isSuffix (c : Char) : Bool := c ∈ ['f', 'd', 'u', 'm', 'l', 'F', 'D', 'U', 'M', 'L']

/-- A numeric literal in kernel text. In base sixteen `d` and `f` are digits, so only the suffixes
of integers are taken off. -/
def numericLiteral (text : String) : String :=
  if text.startsWith "0x" || text.startsWith "0X" then trimEnd isIntegerSuffix text
  else
    let digits := trimEnd isSuffix text
    if (text.endsWith "f" || text.endsWith "F") && !text.toList.contains '.' then digits ++ ".0"
    else digits

end ComputeKernel.Shader
