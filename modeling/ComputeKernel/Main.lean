import ComputeKernel.Command.Run

/-!
# The command line

The program on the file system of the machine. Everything it decides is in `Command.run`.
-/

namespace ComputeKernel.Command

/-- What the system reports, in the words of the program. -/
def fileError : IO.Error → FileError
  | .noFileOrDirectory .. => .missing
  | .alreadyExists .. => .present
  | .inappropriateType _ code _ => if code = 20 then .notDirectory else .isDirectory
  | .userError _ => .notText
  | e@(.invalidArgument _ code _) => if code = 36 then .nameTooLong else .other (toString e)
  | e => .other (toString e)

/-- The result of an action on a path that may fail. -/
def attempt {α : Type} (path : String) (action : IO α) : IO (Except FileError α) := do
  if Path.hasZero path then return .error .zeroByte
  try return .ok (← action)
  catch e => return .error (fileError e)

/-- The value of an action on a path, or another one when it fails. -/
def orElse {α : Type} (path : String) (other : α) (action : IO α) : IO α := do
  return (← attempt path action).toOption.getD other

/-- The files below a directory, each path after that of the directory. -/
def listBelow (dir : String) : IO (List String) := orElse dir [] do
  let root ← IO.FS.realPath dir
  let mut found := []
  for path in ← root.walkDir do
    unless ← path.isDir do
      found := found ++ (Path.relativeTo? root.toString path.toString).toList.map (Path.join dir)
  return found

instance : FileAccess IO where
  read path := attempt path (IO.FS.readFile path)
  write path text := attempt path (IO.FS.writeFile path text)
  makeDirs path := attempt path (IO.FS.createDirAll path)
  remove path := attempt path (IO.FS.removeFile path)
  has path := orElse path false do
    let _ ← IO.FS.realPath path
    return true
  isDirectory path := orElse path false do (← IO.FS.realPath path).isDir
  fileNames path := orElse path [] do
    let mut names := []
    for entry in ← (← IO.FS.realPath path).readDir do
      if (← entry.path.metadata).type == .file then names := names ++ [entry.fileName]
    return names
  filesBelow := listBelow
  canonical? path := orElse path none do return some (← IO.FS.realPath path).toString

end ComputeKernel.Command

/-- The program. -/
def main (args : List String) : IO UInt32 := do
  let finish ← ComputeKernel.Command.run (ComputeKernel.Command.Request.read args)
  (← IO.getStdout).putStr finish.output
  (← IO.getStderr).putStr finish.messageText
  return finish.code
