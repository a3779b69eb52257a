/-!
# Access to files

What the program asks of a file system, for any monad that provides one. `Files.Disk` is a file
system in memory, and the command line uses the one of the machine it runs on. Paths are texts.
-/

namespace ComputeKernel

/-- Why an access fails. -/
inductive FileError where
  | missing
  | present
  | notDirectory
  | isDirectory
  | notText
  /-- The path has a character that no file name has. -/
  | zeroByte
  | nameTooLong
  /-- Anything else that the system reports. -/
  | other (message : String)
deriving DecidableEq, Repr, Inhabited

/-- The reason in words. -/
def FileError.message : FileError → String
  | .missing => "No such file or directory (os error 2)"
  | .present => "File exists (os error 17)"
  | .notDirectory => "Not a directory (os error 20)"
  | .isDirectory => "Is a directory (os error 21)"
  | .notText => "stream did not contain valid UTF-8"
  | .zeroByte => "file name contained an unexpected NUL byte"
  | .nameTooLong => "File name too long (os error 36)"
  | .other message => message

/-- What is asked of a file system. -/
class FileAccess (m : Type → Type) where
  /-- The text of a file. -/
  read : String → m (Except FileError String)
  /-- Make a file with a text, or give it another text. -/
  write : String → String → m (Except FileError Unit)
  /-- Make a directory together with those it lies in. It may be there already. -/
  makeDirs : String → m (Except FileError Unit)
  /-- Remove a file. -/
  remove : String → m (Except FileError Unit)
  /-- Whether there is something at a path. -/
  has : String → m Bool
  isDirectory : String → m Bool
  /-- The names of the files that lie directly in a directory; none when it cannot be read. -/
  fileNames : String → m (List String)
  /-- The paths of all files below a directory; none when it cannot be read. -/
  filesBelow : String → m (List String)
  /-- The absolute path of something that is there, without `.` and `..`. -/
  canonical? : String → m (Option String)

end ComputeKernel
