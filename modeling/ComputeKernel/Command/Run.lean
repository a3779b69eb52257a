import ComputeKernel.Command.Arguments
import ComputeKernel.Project.Kernels
import ComputeKernel.Shader.Kernel
import ComputeKernel.Source.Loading

/-!
# Commands

What the program does for a request: `transpile` prints or writes the kernels of a syntax tree,
`check` tells whether it can be translated, and `sync` writes the kernels of a whole project and
removes those whose classes are gone. A command ends with an exit code and with texts for its output
and its messages.
-/

namespace ComputeKernel.Command

open Diagnostic
open FileAccess

/-- How a command ended. -/
structure Finish where
  code : UInt32 := 0
  output : String := ""
  messages : List String := []
deriving DecidableEq, Repr, Inhabited

/-- The command failed and says why. -/
def Finish.failed (messages : List String) : Finish := { code := 1, messages }

/-- The messages as lines. -/
def Finish.messageText (f : Finish) : String := String.join (f.messages.map (· ++ "\n"))

variable {m : Type → Type} [Monad m] [FileAccess m]

/-- The syntax tree in a file. -/
def loadTree (path : String) : m (Except Diagnostic SourceFile) := do
  match ← read path with
  | .error e => return .error (fileDiagnostic "read" path e)
  | .ok text => return (SourceFile.load? text).mapError fun r => (malformedTree r).inFile path

/-- The syntax tree that a command is given, or what is said instead. -/
def loadInput (path : String) : m (Except String SourceFile) := do
  if Path.extension? path = some "json" then
    return (← loadTree path).mapError render
  else return .error "error: input must be a .json syntax tree exported by the parser"

/-- The root of the project that a file lies in. Paths in diagnostics are seen from it. -/
def linkRoot (input : String) : m (Option String) := do
  let dir := (Path.parent? input).getD "."
  let dir := (← canonical? dir).getD dir
  return (← Project.find? dir).bind Path.parent?

/-- The number in front of a thing that there may be several of. -/
def counted (n : Nat) (thing : String) : String := toString n ++ " " ++ thing ++ "(s)"

/-- Put kernels into a file, or print them. -/
def emit (input : String) (output : Option String) (kernels : List (String × String)) :
    m Finish := do
  match output, kernels with
  | none, _ => return { output := String.join (kernels.map (·.2)) }
  | some path, [(cls, source)] =>
    match ← write path source with
    | .ok _ => return { messages := ["Transpiled " ++ cls ++ " -> " ++ path] }
    | .error e => return .failed ["error: cannot write '" ++ path ++ "': " ++ e.message]
  | some _, _ =>
    return .failed ["error: '" ++ input ++ "' declares " ++ toString kernels.length
      ++ " classes; pick one with --class"]

/-- Keep the classes of a name. -/
def pick (file : SourceFile) (cls : Option String) : SourceFile :=
  match cls with
  | some name => { file with classes := file.classes.filter (·.name.node == name) }
  | none => file

/-- Print or write the kernels of a syntax tree. -/
def transpile (input : String) (output cls : Option String) : m Finish := do
  match ← loadInput input with
  | .error text => return .failed [text]
  | .ok file =>
    let file := pick file cls
    match cls with
    | some name =>
      if file.classes.isEmpty then
        return .failed ["error: no class '" ++ name ++ "' in '" ++ input ++ "'"]
    | none => pure ()
    let t := Shader.translateFile file (← linkRoot input)
    if t.diagnostics.isEmpty then emit input output t.kernels
    else
      let errors := counted (t.diagnostics.filter (·.isError)).length "error"
      return .failed (t.diagnostics.map render
        ++ ["error: " ++ input ++ " could not be transpiled (" ++ errors ++ ")"])

/-- Tell whether a syntax tree can be translated. -/
def check (input : String) : m Finish := do
  match ← loadInput input with
  | .error text => return .failed [text]
  | .ok file =>
    let t := Shader.translateFile file (← linkRoot input)
    if t.diagnostics.isEmpty then
      return { messages := ["OK: " ++ input ++ " (" ++ counted t.kernels.length "kernel" ++ ")"] }
    else return .failed (t.diagnostics.map render)

/-! ## Projects -/

/-- How far a project is written. -/
structure Progress where
  /-- The names of the classes that were declared. -/
  live : List String := []
  written : Nat := 0
  failed : Nat := 0
  messages : List String := []
deriving DecidableEq, Repr, Inhabited

/-- Say something. -/
def Progress.tell (p : Progress) (text : String) : Progress :=
  { p with messages := p.messages ++ [text] }

/-- Count a failure and say why. -/
def Progress.fail (p : Progress) (texts : List String) : Progress :=
  { p with failed := p.failed + 1, messages := p.messages ++ texts }

/-- Note that a file declares a class. A name that was declared before is a failure, and no name is
none. -/
def declare (project : Project) (path : String) (p : Progress) (name : String) : Progress :=
  if name.isEmpty then p
  else if p.live.contains name then
    p.fail ["error: class '" ++ name ++ "' is declared more than once (" ++
      project.relative path ++ ")"]
  else { p with live := p.live ++ [name] }

/-- Write kernels, each on its own. -/
def writeKernels (project : Project) (p : Progress) : List (String × String) → m Progress
  | [] => return p
  | (cls, source) :: rest => do
    match ← project.writeKernel cls source with
    | .ok _ => writeKernels project { p with written := p.written + 1 } rest
    | .error d => writeKernels project (p.fail [d.render]) rest

/-- Translate one syntax tree of a project and write its kernels. -/
def syncFile (project : Project) (root path : String) (file : SourceFile) (p : Progress) :
    m Progress := do
  let p := (file.classes.map (·.name.node)).foldl (declare project path) p
  let t := Shader.translateFile file (some root)
  let p := if t.diagnostics.isEmpty then p else p.fail (t.diagnostics.map render)
  writeKernels project p t.kernels

/-- Translate syntax trees in order. The first that cannot be read ends it. -/
def syncFiles (project : Project) (root : String) (p : Progress) :
    List String → m (Progress × Option String)
  | [] => return (p, none)
  | path :: paths => do
    match ← loadInput path with
    | .error text => return (p, some text)
    | .ok file => syncFiles project root (← syncFile project root path file p) paths

/-- Remove the kernels of classes that are gone, and sum up. -/
def finishSync (project : Project) (p : Progress) : m Finish := do
  let p := match ← project.prune p.live with
    | .ok removed => removed.foldl (fun (p : Progress) path =>
        p.tell ("Removed stale " ++ project.relative path)) p
    | .error d => p.fail [d.render]
  let p := p.tell ("Synced '" ++ project.name ++ "': " ++ counted p.written "kernel"
    ++ " written to " ++ project.relative project.outputDir)
  if p.failed = 0 then return { messages := p.messages }
  else return .failed (p.messages ++ ["error: " ++ counted p.failed "problem" ++ " during sync"])

/-- Write the kernels of a project. -/
def syncProject (project : Project) : m Finish := do
  if ← isDirectory project.sourceDir then
    let root := (← canonical? project.rootDir).getD project.rootDir
    let files ← filesBelow project.sourceDir
    let trees := Path.sort (files.filter fun path => Path.extension? path = some "json")
    match ← syncFiles project root {} trees with
    | (p, none) => finishSync project p
    | (p, some text) => return .failed (p.messages ++ [text])
  else return .failed ["error: source directory '" ++ project.sourceDir ++ "' does not exist"]

/-- Write the kernels of the project around a directory. -/
def sync (dir : Option String) : m Finish := do
  let start := dir.getD "."
  match ← Project.find? start with
  | none =>
    return .failed ["error: no " ++ Project.fileName ++ " found in '" ++ start ++
      "' or its ancestors"]
  | some path =>
    match ← Project.load path with
    | .ok project => syncProject project
    | .error d => return .failed [d.render]

/-! ## Requests -/

/-- The name and version of the program. -/
def version : String := "rspu 0.1.0"

/-- How the program is used. -/
def usage : String :=
  "Usage: rspu transpile INPUT [-o OUTPUT] [--class CLASS]\n" ++
    "       rspu check INPUT\n       rspu sync [DIR]"

/-- Do what is asked for. -/
def run : Request → m Finish
  | .transpile input output cls => transpile input output cls
  | .check input => check input
  | .sync dir => sync dir
  | .version => return { output := version ++ "\n" }
  | .help => return { output := usage ++ "\n" }
  | .misuse => return { code := 2, messages := [usage] }

end ComputeKernel.Command
