import ComputeKernel.Files.Access
import ComputeKernel.Files.Path
import ComputeKernel.Keyed
import ComputeKernel.Text.Utf8

/-!
# A file system in memory

A disk holds files and directories by their places, the lists of names from the root. There are no
links, so a place is found by walking the parts of a path from the root or from the working
directory (`walk`): every part but the last must be a directory, `.` and empty parts stay, and `..`
goes up, at the root nowhere. Names and paths have a largest size.
-/

namespace ComputeKernel

open ComputeKernel.Path

/-- What a file holds: a text, or bytes that are none. -/
inductive Contents where
  | text (text : String)
  | binary (bytes : Bytes)
deriving DecidableEq, Repr, Inhabited

/-- What can lie at a place. -/
inductive Node where
  | directory
  | file (contents : Contents)
deriving DecidableEq, Repr, Inhabited

/-- The names that lead to a place from the root. -/
abbrev Place := List String

/-- A disk with its working directory. -/
structure Disk where
  nodes : Keyed Place Node := []
  /-- The directory that relative paths start from. -/
  working : Place := []
deriving DecidableEq, Repr, Inhabited

/-- What bytes hold. -/
def Contents.ofBytes (bytes : Bytes) : Contents :=
  match Text.ofBytes? bytes with
  | some s => .text s
  | none => .binary bytes

/-- The contents as they are shown. -/
def Contents.shown : Contents → String
  | .text s => s
  | .binary bytes => Text.shown bytes

namespace Disk

variable (d : Disk)
variable (path : String) (place : Place)

/-- What lies at a place. The root is a directory. -/
def node? : Option Node :=
  if place = [] then some .directory else d.nodes.get? place

/-- Put something at a place. -/
def put (node : Node) : Disk := { d with nodes := d.nodes.put place node }

/-- A place in a directory that is there. -/
def enter (name : String) : Except FileError Place :=
  if name.utf8ByteSize ≤ maxNameSize then .ok (place ++ [name]) else .error .nameTooLong

/-- Where the parts of a path lead from a place. The place that is reached need not be there. -/
def walk (d : Disk) (place : Place) : List String → Except FileError Place
  | [] => .ok place
  | part :: parts =>
    match d.node? place with
    | none => .error .missing
    | some (.file _) => .error .notDirectory
    | some .directory =>
      if isIdle part then d.walk place parts
      else if part = ".." then d.walk place.dropLast parts
      else match enter place part with
        | .ok inner => d.walk inner parts
        | .error e => .error e

/-- Where a path starts. -/
def start : Place := if isAbsolute path then [] else d.working

/-- Refuse a text that is no path. -/
def checkPath : Except FileError Unit :=
  if hasZero path then .error .zeroByte
  else if path.isEmpty then .error .missing
  else if path.utf8ByteSize ≤ maxSize then .ok () else .error .nameTooLong

/-- What a path names. -/
def find : Except FileError (Place × Node) := do
  checkPath path
  let place ← d.walk (d.start path) (segments path)
  match d.node? place with
  | some node => return (place, node)
  | none => throw .missing

/-- The place where a path lets something new be made. -/
inductive Site where
  /-- A directory that is there by the form of the path: it ends in `.` or `..`, or is the root. -/
  | directory
  /-- A name in a directory. -/
  | name (directory : Place) (name : String)
  /-- A name in a directory, with separators after it. -/
  | directoryName (directory : Place) (name : String)
deriving DecidableEq, Repr, Inhabited

/-- The place in a directory that a path names. The directory must be there; whether the name can
stand in it is not asked. -/
def site : Except FileError Site := do
  checkPath path
  let parts := segments path
  let named := (parts.reverse.dropWhile (· == "")).reverse
  match named.getLast? with
  | none => return .directory
  | some last =>
    let place ← d.walk (d.start path) named.dropLast
    match d.node? place with
    | none => throw .missing
    | some (.file _) => throw .notDirectory
    | some .directory =>
      if last = "." || last = ".." then return .directory
      else if named.length = parts.length then return .name place last
      else return .directoryName place last

/-- The text of a file. -/
def read : Except FileError String := do
  match ← d.find path with
  | (_, .file (.text s)) => return s
  | (_, .file (.binary _)) => throw .notText
  | (_, .directory) => throw .isDirectory

/-- Make a file, or give it other contents. A path that names a directory by its form is refused as
one, even when its name is too long. -/
def write (contents : Contents) : Except FileError Disk := do
  match ← d.site path with
  | .name directory name =>
    let place ← enter directory name
    if d.node? place = some .directory then throw .isDirectory
    else return d.put place (.file contents)
  | _ => throw .isDirectory

/-- Make a directory in one that is there. -/
def makeDir : Except FileError Disk := do
  match ← d.site path with
  | .directory => throw .present
  | .name directory name | .directoryName directory name =>
    let place ← enter directory name
    if (d.node? place).isSome then throw .present
    else return d.put place .directory

/-- Whether a path names a directory. -/
def isDirectory : Bool :=
  match d.find path with
  | .ok (_, .directory) => true
  | _ => false

/-- Whether a path names anything. -/
def has : Bool := (d.find path).toBool

/-- A directory that is there is as good as one that is made. -/
def orPresent (made : Except FileError Disk) : Disk × Except FileError Unit :=
  match made with
  | .ok next => (next, .ok ())
  | .error e => if d.isDirectory path then (d, .ok ()) else (d, .error e)

/-- Make a directory, and those above it first when they are missing. `fuel` is above the number of
components of the path. -/
def makeDirsFrom (fuel : Nat) (path : String) (d : Disk) : Disk × Except FileError Unit :=
  match fuel with
  | 0 => (d, .error .missing)
  | fuel + 1 =>
    if path.isEmpty then (d, .ok ())
    else match d.makeDir path, parent? path with
      | .error .missing, some above =>
        match makeDirsFrom fuel above d with
        | (d, .ok _) => d.orPresent path (d.makeDir path)
        | (d, .error e) => (d, .error e)
      | made, _ => d.orPresent path made

/-- Make a directory together with those it lies in. -/
def makeDirs (d : Disk) : Disk × Except FileError Unit :=
  makeDirsFrom (path.length + 1) path d

/-- Remove a file. -/
def remove : Except FileError Disk := do
  match ← d.find path with
  | (place, .file _) => return { d with nodes := d.nodes.erase place }
  | (_, .directory) => throw .isDirectory

/-- All files and directories below a place: the names that lead to them, and what they are. -/
def below : List (Place × Node) :=
  d.nodes.filterMap fun (other, node) =>
    if place.isPrefixOf other && place.length < other.length then
      some (other.drop place.length, node)
    else none

/-- All files below a directory, by the names that lead there. -/
def filesBelow : List Place :=
  match d.find path with
  | .ok (place, .directory) => (d.below place).filterMap fun (names, node) =>
    match node with
    | .file _ => some names
    | .directory => none
  | _ => []

/-- The names of the files that lie directly in a directory. -/
def fileNames : List String :=
  (d.filesBelow path).filterMap fun names =>
    match names with
    | [name] => some name
    | _ => none

/-- The absolute path of a place. -/
def absolute : String := "/" ++ "/".intercalate place

/-- The absolute path of what a path names. -/
def canonical? : Option String :=
  match d.find path with
  | .ok (place, _) => some (absolute place)
  | .error _ => none

/-- A change of the disk that may be refused. -/
def change (f : Disk → Except FileError Disk) : StateM Disk (Except FileError Unit) := fun d =>
  match f d with
  | .ok next => (.ok (), next)
  | .error e => (.error e, d)

instance : FileAccess (StateM Disk) where
  read path := fun d => (d.read path, d)
  write path text := change fun d => d.write path (.text text)
  makeDirs path := fun d => let (next, r) := d.makeDirs path; (r, next)
  remove path := change fun d => d.remove path
  has path := fun d => (d.has path, d)
  isDirectory path := fun d => (d.isDirectory path, d)
  fileNames path := fun d => (d.fileNames path, d)
  filesBelow path := fun d => ((d.filesBelow path).map fun names => names.foldl join path, d)
  canonical? path := fun d => (d.canonical? path, d)

end Disk

end ComputeKernel
