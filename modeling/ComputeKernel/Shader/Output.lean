import ComputeKernel.Report.Diagnostic

/-!
# Output

Translating a node gives text and a list of problems, both in the order in which the node is
written. A node that cannot be translated gives a problem in place of its text, and its neighbours
are translated all the same. Outputs are put together by `++`, which keeps both orders.
-/

namespace ComputeKernel.Shader

/-- Why a node cannot be translated. -/
inductive Reason where
  /-- A node that has no counterpart in kernel text, by its two names. -/
  | unsupported (kind node : String)
  /-- A read-only view of a type that has none. -/
  | noReadOnly (type : String)
  | bareReturn
  | missingBody (method : String)
deriving DecidableEq, Repr, Inhabited

/-- What a message says a class does. -/
def Reason.message : Reason → String
  | .unsupported kind node => "uses " ++ kind ++ " (" ++ node ++ ") which isn't supported"
  | .noReadOnly type => "failed to convert " ++ type ++ " to read only"
  | .bareReturn => "returns without a value, which isn't supported"
  | .missingBody method => "declares " ++ method ++ " without a block body"

/-- A node that cannot be translated. -/
structure Problem where
  reason : Reason
  span : Span
deriving DecidableEq, Repr, Inhabited

/-- What is told about a problem of a class in a file; the link is repeated as a note. -/
def Problem.diagnostic (path className : String) (p : Problem) : Diagnostic :=
  let d := (Diagnostic.error ("Shader \"" ++ className ++ "\" " ++ p.reason.message ++ ".")
    p.span).inFile path
  match d.link with
  | some link => d.withNote link
  | none => d

/-- Text and problems. -/
structure Output where
  text : String := ""
  problems : List Problem := []
deriving DecidableEq, Repr, Inhabited

namespace Output

instance : Append Output where
  append a b := ⟨a.text ++ b.text, a.problems ++ b.problems⟩

@[simp] theorem text_append (a b : Output) : (a ++ b).text = a.text ++ b.text := rfl

@[simp] theorem problems_append (a b : Output) : (a ++ b).problems = a.problems ++ b.problems := rfl

/-- Fixed text. -/
def lit (text : String) : Output := { text }

@[simp] theorem text_lit (text : String) : (lit text).text = text := rfl

/-- A problem, and no text. -/
def problem (reason : Reason) (span : Span) : Output := { problems := [⟨reason, span⟩] }

@[simp] theorem text_problem (reason : Reason) (span : Span) :
    (problem reason span).text = "" := rfl

/-- Blanks in front of a line. -/
def blanks (indent : Nat) : Output := lit ("".pushn ' ' indent)

/-- Outputs in turn, with fixed text between them. -/
def separated (sep : String) : List Output → Output
  | [] => {}
  | [o] => o
  | o :: os => o ++ lit sep ++ separated sep os

/-- Outputs in turn. -/
def all (os : List Output) : Output := os.foldr (· ++ ·) {}

end Output

/-- Columns by which a nested line is moved to the right. -/
def indentStep : Nat := 4

end ComputeKernel.Shader
