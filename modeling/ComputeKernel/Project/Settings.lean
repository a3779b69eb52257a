import ComputeKernel.Text.Split

/-!
# Project settings

The text of a project file: lines of `key = value` under headers in brackets. A line is a header, an
entry or nothing; lines that start with `#` are nothing. A value may stand in quotes, and ends
before a `#` that stands outside quotes. Keys and headers that are not known are passed over, and of
a key that is set twice the last value holds.
-/

namespace ComputeKernel

open Text

/-- What a project file sets. -/
structure Settings where
  name : String := ""
  /-- The directory of the class syntax trees. -/
  source : String := "kernels"
  /-- The directory of the generated kernel files. -/
  output : String := "generated"
  /-- What the names of generated files start with. -/
  lead : String := "rspu-"
  /-- What the names of generated files end with, after a point. -/
  extension : String := "compute"
  /-- The number of threads for emulated dispatches; 0 for those that are shared. -/
  workers : Nat := 0
deriving DecidableEq, Repr, Inhabited

/-- A number of threads that cannot be read, and its line. -/
structure WorkersError where
  line : Nat
  value : String
deriving DecidableEq, Repr, Inhabited

/-- The error in words. -/
def WorkersError.message (e : WorkersError) : String :=
  "'workers' must be a non-negative integer, got '" ++ e.value ++ "'"

namespace Settings

variable (cs : List Char)

/-- What a line says. -/
inductive Line where
  | nothing
  | header (name : List Char)
  | entry (key value : List Char)
deriving DecidableEq, Repr, Inhabited

/-- A text without quotes at its ends. -/
def unquote : List Char := dropBoth (· == '"') cs

/-- What stands before the first `#` outside quotes. -/
def beforeComment (quoted : Bool) : List Char → List Char
  | [] => []
  | c :: cs =>
    if c = '"' then c :: beforeComment (!quoted) cs
    else if c = '#' && !quoted then []
    else c :: beforeComment quoted cs

/-- A text up to a comment, without blanks before it. -/
def stripComment : List Char := dropEndWhile isBlank (beforeComment false cs)

/-- See what a line says. -/
def Line.read (line : List Char) : Line :=
  let cs := trim line
  if cs.isEmpty || cs.head? = some '#' then .nothing
  else if cs.head? = some '[' && cs.getLast? = some ']' then .header (trim (cs.drop 1).dropLast)
  else match splitFirst? '=' cs with
    | some (key, value) => .entry (unquote (trim key)) (unquote (stripComment (trim value)))
    | none => .nothing

/-- The number that decimal digits stand for. -/
def ofDigits (digits : List Char) : Nat :=
  digits.foldl (fun n c => 10 * n + (c.toNat - '0'.toNat)) 0

/-- A number below `2 ^ 64` in decimal digits, with an optional `+`. -/
def readCount? : Option Nat :=
  let digits := match cs with
    | '+' :: rest => rest
    | _ => cs
  if digits.isEmpty || !digits.all (fun c => '0' ≤ c && c ≤ '9') then none
  else if ofDigits digits < UInt64.size then some (ofDigits digits) else none

/-- The settings after an entry under a header; none when a number cannot be read. -/
def set? (s : Settings) (header key : String) (value : List Char) : Option Settings :=
  let text := String.ofList value
  match header, key with
  | "project", "name" => some { s with name := text }
  | "project", "source" => some { s with source := text }
  | "project", "output" => some { s with output := text }
  | "project", "prefix" => some { s with lead := text }
  | "project", "extension" =>
    some { s with extension := String.ofList (value.dropWhile (· == '.')) }
  | "dispatch", "workers" => (readCount? value).map fun workers => { s with workers }
  | _, _ => some s

/-- The settings after lines, the first of which has the given number and stands under a header. -/
def readLines (number : Nat) (header : List Char) (s : Settings) :
    List (List Char) → Except WorkersError Settings
  | [] => .ok s
  | line :: lines =>
    match Line.read line with
    | .nothing => readLines (number + 1) header s lines
    | .header name => readLines (number + 1) name s lines
    | .entry key value =>
      match s.set? (String.ofList header) (String.ofList key) value with
      | some next => readLines (number + 1) header next lines
      | none => .error { line := number, value := String.ofList value }

/-- The settings that a text makes. -/
def read (text : String) : Except WorkersError Settings :=
  readLines 1 [] {} (split '\n' text.toList)

end Settings

end ComputeKernel
