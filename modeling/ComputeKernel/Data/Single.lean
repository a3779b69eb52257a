/-!
# Single-precision numbers

Floating-point numbers of 32 bits, given by their bit patterns: a sign bit, eight bits of exponent
and 23 bits of fraction.
-/

namespace ComputeKernel.Single

/-- The number 1. -/
def one : UInt32 := 0x3f800000

/-- The number nearest to a word; of two, the one with an even fraction. -/
def ofWord (n : UInt32) : UInt32 := n.toFloat32.toBits

/-- Twice a number. A number below the least normal one is shifted, others step to the next
exponent, the largest exponent gives infinity, and what is no number stays so, as a quiet one. -/
def double (bits : UInt32) : UInt32 :=
  let sign := bits &&& 0x80000000
  let exponent := (bits >>> 23) &&& 0xff
  let fraction := bits &&& 0x7fffff
  if exponent = 0xff then
    if fraction = 0 then bits else bits ||| 0x400000
  else if exponent = 0 then sign ||| (fraction <<< 1)
  else if exponent = 0xfe then sign ||| 0x7f800000
  else bits + 0x800000

end ComputeKernel.Single
