import ComputeKernel.Project.Project

/-!
# Kernel files

The generated files of a project. `writeKernel` gives a class its file, and `prune` removes the
files of classes that are gone. Files with other names are left alone.
-/

namespace ComputeKernel.Project

open FileAccess

variable {m : Type → Type} [Monad m] [FileAccess m]
variable (p : Project)
variable (live : List String)

/-- Write the kernel of a class, and give the path of its file. A file that holds the text already
is left untouched. -/
def writeKernel (cls source : String) : m (Except Diagnostic String) := do
  match ← makeDirs p.outputDir with
  | .error e => return .error (fileDiagnostic "create" p.outputDir e)
  | .ok _ =>
    let path := Path.join p.outputDir (p.kernelFileName cls)
    match ← read path with
    | .ok text => if text = source then return .ok path
    | .error _ => pure ()
    match ← write path source with
    | .ok _ => return .ok path
    | .error e => return .error (fileDiagnostic "write" path e)

/-- Whether a file name is the kernel file of a class that is not among those that live. -/
def isStale (name : String) : Bool :=
  match p.classOf? name with
  | some cls => !live.contains cls
  | none => false

/-- The paths of kernel files whose classes are gone, in order. -/
def staleKernels : m (List String) := do
  let names ← fileNames p.outputDir
  return Path.sort ((names.filter (p.isStale live)).map (Path.join p.outputDir))

/-- Remove files, up to the first that cannot be removed. -/
def removeAll : List String → m (Except Diagnostic Unit)
  | [] => return .ok ()
  | path :: paths => do
    match ← remove path with
    | .ok _ => removeAll paths
    | .error e => return .error (fileDiagnostic "remove" path e)

/-- Remove the kernel files of classes that are gone. -/
def prune : m (Except Diagnostic (List String)) := do
  let stale ← p.staleKernels live
  return (← removeAll stale).map fun _ => stale

end ComputeKernel.Project
