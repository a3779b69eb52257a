import ComputeKernel.Files.Access
import ComputeKernel.Files.Path
import ComputeKernel.Project.Settings
import ComputeKernel.Report.Diagnostic

/-!
# Projects

A project is a directory with a project file. `find?` looks for the file in a directory and those
above it; `load` reads it. Each class has one kernel file in the output directory: `kernelFileName`
names it and `classOf?` is the way back.
-/

namespace ComputeKernel

/-- A project. -/
structure Project where
  name : String
  rootDir : String
  /-- The directory of the class syntax trees. -/
  sourceDir : String
  /-- The directory of the generated kernel files. -/
  outputDir : String
  /-- What the names of generated files start with. -/
  lead : String
  /-- What the names of generated files end with, after a point. -/
  extension : String
  /-- The number of threads for emulated dispatches; 0 for those that are shared. -/
  workers : Nat
deriving DecidableEq, Repr, Inhabited

/-- The diagnostic for a file operation that failed. -/
def fileDiagnostic (action path : String) (e : FileError) : Diagnostic :=
  .error ("cannot " ++ action ++ " '" ++ path ++ "': " ++ e.message)

namespace Project

/-- The name of the project file. -/
def fileName : String := "rspu.toml"

/-- The project with settings from a file at a path. -/
def ofSettings (path : String) (s : Settings) : Project :=
  let rootDir := (Path.parent? path).getD "."
  { name := s.name
    rootDir
    sourceDir := Path.join rootDir s.source
    outputDir := Path.join rootDir s.output
    lead := s.lead
    extension := s.extension
    workers := s.workers }

/-- The project that the text of a file at a path describes. -/
def ofText (path text : String) : Except Diagnostic Project :=
  match Settings.read text with
  | .error e => .error ((Diagnostic.error e.message (.atLine e.line.toUInt32)).inFile path)
  | .ok s =>
    if s.name.isEmpty then
      .error ((Diagnostic.error ("missing 'name' in " ++ fileName)).withHelp
        "add `name = \"...\"` under [project]")
    else .ok (ofSettings path s)

/-- `lead`, the class, a point and the extension. -/
def kernelFileName (p : Project) (cls : String) : String := p.lead ++ cls ++ "." ++ p.extension

/-- The class whose kernel file has a name. -/
def classOf? (p : Project) (name : String) : Option String := do
  let rest ← Text.dropStart? p.lead.toList name.toList
  let rest ← Text.dropEnd? p.extension.toList rest
  let cls ← Text.dropEnd? ['.'] rest
  if cls.isEmpty then none else some (String.ofList cls)

/-- A path as it is seen from the root of the project. -/
def relative (p : Project) (path : String) : String := (Path.relativeTo? p.rootDir path).getD path

variable {m : Type → Type} [Monad m] [FileAccess m]

/-- The project of a file. -/
def load (path : String) : m (Except Diagnostic Project) := do
  match ← FileAccess.read path with
  | .ok text => return ofText path text
  | .error e => return .error (fileDiagnostic "read" path e)

/-- Look for the project file in a directory and those above it. `fuel` is above the number of
components of the path. -/
def findFrom (fuel : Nat) (dir : String) : m (Option String) :=
  match fuel with
  | 0 => return none
  | fuel + 1 => do
    let candidate := Path.join dir fileName
    if ← FileAccess.has candidate then return some candidate
    match Path.parent? dir with
    | some above => findFrom fuel above
    | none => return none

/-- The project file of a directory: in it, or in the closest one above that has one. What lies
above is read off the text of the path. -/
def find? (dir : String) : m (Option String) := findFrom (dir.length + 1) dir

end Project

end ComputeKernel
