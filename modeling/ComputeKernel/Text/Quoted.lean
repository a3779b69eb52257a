import ComputeKernel.Text.Visible

/-!
# Quoted text

Texts that are shown inside a message stand between double quotes. A quote, a backslash and the
usual control characters are written with a backslash, and every other character that would not be
seen is written by its code point (`Text.isVisible`).
-/

namespace ComputeKernel.Text

/-- Digits of a number in base sixteen, in lower case. -/
def hexDigits (n : Nat) : String := String.ofList (Nat.toDigits 16 n)

/-- One character of a quoted text. -/
def quotedChar (c : Char) : String :=
  if c = Char.ofNat 0 then "\\0"
  else if c = '\t' then "\\t"
  else if c = '\r' then "\\r"
  else if c = '\n' then "\\n"
  else if c = '\\' then "\\\\"
  else if c = '"' then "\\\""
  else if isVisible c then c.toString
  else "\\u\x7b" ++ hexDigits c.toNat ++ "\x7d"

/-- A text between double quotes. -/
def quoted (s : String) : String := "\"" ++ String.join (s.toList.map quotedChar) ++ "\""

end ComputeKernel.Text
