/-!
# Arguments

What the words of a command line ask for. Options may stand anywhere after the name of the command,
as `--name value`, `--name=value`, `-n value`, `-nvalue` or `-n=value`, each at most once; after
`--` everything is an operand. A word that starts with `-` is no value of an option, unless it is
`-` itself. Paths are not empty.
-/

namespace ComputeKernel.Command

/-- What is asked for. -/
inductive Request where
  | transpile (input : String) (output cls : Option String)
  | check (input : String)
  | sync (dir : Option String)
  | version
  | help
  /-- The words make no sense. -/
  | misuse
deriving DecidableEq, Repr, Inhabited

/-- An option that takes a value. -/
structure OptionDecl where
  long : String
  short : Option Char
  /-- Whether the value is a path. -/
  path : Bool
deriving DecidableEq, Repr, Inhabited

/-- What was read so far: options by their long names, and operands in order. -/
structure Reading where
  options : List (String × String) := []
  operands : List String := []
deriving DecidableEq, Repr, Inhabited

/-- What words come to. -/
inductive ReadResult where
  | words (reading : Reading)
  | help
  | misuse
deriving DecidableEq, Repr, Inhabited

/-- Take a value for an option. -/
def Reading.give (r : Reading) (o : OptionDecl) (value : String) : Option Reading :=
  if (r.options.lookup o.long).isSome || (o.path && value.isEmpty) then none
  else some { r with options := r.options ++ [(o.long, value)] }

/-- Take an operand; all of them are paths, and there is one at most. -/
def Reading.operand (r : Reading) (value : String) : Option Reading :=
  if r.operands.isEmpty && !value.isEmpty then some { r with operands := [value] } else none

/-- What a word looks like. -/
inductive Word where
  | long (name : String) (value : Option String)
  | short (name : Char) (rest : List Char)
  /-- Two dashes: only operands follow. -/
  | operandsOnly
  | plain (text : String)
deriving DecidableEq, Repr, Inhabited

/-- See what a word looks like. -/
def Word.read (word : String) : Word :=
  match word.toList with
  | ['-', '-'] => .operandsOnly
  | '-' :: '-' :: cs =>
    match cs.span (· != '=') with
    | (name, _ :: value) => .long (String.ofList name) (some (String.ofList value))
    | (name, []) => .long (String.ofList name) none
  | '-' :: c :: cs => .short c cs
  | _ => .plain word

/-- Whether a word can be the value of an option that stands before it. -/
def Word.isValue : Word → Bool
  | .plain _ => true
  | _ => false

/-- Read operands only. -/
def readOperands (r : Reading) : List String → ReadResult
  | [] => .words r
  | word :: words =>
    match r.operand word with
    | some r => readOperands r words
    | none => .misuse

/-- Read words. `waiting` is an option whose value is the next word. -/
def readWords (options : List OptionDecl) (waiting : Option OptionDecl) (r : Reading) :
    List String → ReadResult
  | [] => if waiting.isSome then .misuse else .words r
  | word :: words =>
    let give (o : OptionDecl) (value : String) : ReadResult :=
      match r.give o value with
      | some r => readWords options none r words
      | none => .misuse
    match waiting, Word.read word with
    | some o, .plain value => give o value
    | some _, _ => .misuse
    | none, .operandsOnly => readOperands r words
    | none, .long name value =>
      match options.find? (·.long == name), value with
      | some o, some value => give o value
      | some o, none => readWords options (some o) r words
      | none, none => if name = "help" then .help else .misuse
      | none, some _ => .misuse
    | none, .short c rest =>
      match options.find? (·.short == some c), rest with
      | some o, [] => readWords options (some o) r words
      | some o, '=' :: value => give o (String.ofList value)
      | some o, value => give o (String.ofList value)
      | none, _ => if c = 'h' then .help else .misuse
    | none, .plain text =>
      match r.operand text with
      | some r => readWords options none r words
      | none => .misuse

/-- The file that kernels are written to. -/
def outputOption : OptionDecl := { long := "output", short := some 'o', path := true }

/-- The class to translate. -/
def classOption : OptionDecl := { long := "class", short := none, path := false }

/-- The request of a command with its words read. -/
def ReadResult.request (o : ReadResult) (f : Reading → Option Request) : Request :=
  match o with
  | .words r => (f r).getD .misuse
  | .help => .help
  | .misuse => .misuse

/-- The names of the commands. -/
def commandNames : List String := ["transpile", "check", "sync", "help"]

/-- What the words of a command line ask for. -/
def Request.read : List String → Request
  | [] => .misuse
  | word :: words =>
    match Word.read word with
    | .long "version" none => .version
    | .long "help" none => .help
    | .short 'V' _ => .version
    | .short 'h' _ => .help
    | .plain "transpile" =>
      (readWords [outputOption, classOption] none {} words).request fun r =>
        r.operands.head?.map fun input => .transpile input (r.options.lookup "output")
          (r.options.lookup "class")
    | .plain "check" => (readWords [] none {} words).request fun r => r.operands.head?.map .check
    | .plain "sync" => (readWords [] none {} words).request fun r => some (.sync r.operands.head?)
    | .plain "help" =>
      match words with
      | [] => .help
      | [word] => if commandNames.contains word then .help else .misuse
      | _ => .misuse
    | _ => .misuse

end ComputeKernel.Command
