import ComputeKernel.Source.Span

/-!
# Diagnostics

What the program tells its user about a source file or a project: a severity, a message, the place
it is about, notes and a help text. `Diagnostic.link` is the `path:line` form that an editor can
jump to, and `Diagnostic.render` the plain text of the whole diagnostic.
-/

namespace ComputeKernel

/-- How much a diagnostic matters. -/
inductive Severity where
  | error
  | warning
deriving DecidableEq, Repr, Inhabited

/-- The word a severity is printed as. -/
def Severity.label : Severity → String
  | .error => "error"
  | .warning => "warning"

/-- What is told to the user. -/
structure Diagnostic where
  severity : Severity
  message : String
  span : Span := {}
  /-- The file it is about, as it is shown to users. -/
  path : Option String := none
  notes : List String := []
  help : Option String := none
deriving DecidableEq, Repr, Inhabited

namespace Diagnostic

variable (d : Diagnostic)

/-- An error. -/
def error (message : String) (span : Span := {}) : Diagnostic :=
  { severity := .error, message, span }

/-- A warning. -/
def warning (message : String) (span : Span := {}) : Diagnostic :=
  { severity := .warning, message, span }

/-- Say which file it is about. -/
def inFile (path : String) : Diagnostic := { d with path := some path }

/-- Add a note after the ones that are there. -/
def withNote (note : String) : Diagnostic := { d with notes := d.notes ++ [note] }

/-- Set the help text; an earlier one is replaced. -/
def withHelp (help : String) : Diagnostic := { d with help := some help }

/-- Whether it is an error. -/
def isError : Bool := d.severity == .error

/-- The place of a diagnostic as `path:line`, when its file is known. -/
def link : Option String :=
  d.path.map fun path => path ++ ":" ++ toString d.span.displayLine

/-- The plain text of a diagnostic: severity and message, then on lines of their own the link, the
notes and the help text. The last line is not ended. -/
def render : String :=
  d.severity.label ++ ": " ++ d.message
    ++ (d.link.map ("\n  --> " ++ ·)).getD ""
    ++ String.join (d.notes.map ("\n  = note: " ++ ·))
    ++ (d.help.map ("\n  = help: " ++ ·)).getD ""

end Diagnostic

end ComputeKernel
