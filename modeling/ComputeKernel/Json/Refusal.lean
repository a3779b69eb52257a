import ComputeKernel.Json.Document
import ComputeKernel.Text.Quoted

/-!
# Why a text is refused

A reader that expects data of a certain shape refuses a text for one `Cause`: the text is not JSON,
or it is and says something else than expected. `Cause.message` is the wording. A `Refusal` also has
the line.
-/

namespace ComputeKernel.Json

/-- What stands in a text, as far as a message tells it. -/
inductive Found where
  | null
  | bool (value : Bool)
  | number (value : Number)
  | string (text : String)
  | sequence
  | map
deriving DecidableEq, Repr, Inhabited

/-- What stands there, in words. -/
def Found.message : Found → String
  | .null => "null"
  | .bool b => "boolean `" ++ (if b then "true" else "false") ++ "`"
  | .number (.real bits) => "floating point `" ++ realText bits ++ "`"
  | .number n => "integer `" ++ n.text ++ "`"
  | .string s => "string " ++ Text.quoted s
  | .sequence => "sequence"
  | .map => "map"

/-- What a reader looks for. -/
inductive Wanted where
  | text
  | boolean
  | word
  | unit
  | sequence
  /-- A record, under the name that messages give it. -/
  | record (label : String)
  /-- A node that says by a tag which variant of a type it is. -/
  | tagged (type : String)
  /-- The tag of such a node. -/
  | variantName
  | variantIndex (count : Nat)
  /-- An operator: its name, or an object with its name for the only key. -/
  | nameOrMap
  | singleKey
  /-- A record of so many fields, when there are fewer. -/
  | recordOf (label : String) (count : Nat)
  /-- No more than so many items. -/
  | items (count : Nat)
deriving DecidableEq, Repr, Inhabited

/-- A number of elements in words. -/
def elements (count : Nat) : String :=
  toString count ++ (if count = 1 then " element" else " elements")

/-- What is looked for, in words. -/
def Wanted.message : Wanted → String
  | .text => "a string"
  | .boolean => "a boolean"
  | .word => "u32"
  | .unit => "unit"
  | .sequence => "a sequence"
  | .record label => label
  | .tagged type => "internally tagged enum " ++ type
  | .variantName => "variant identifier"
  | .variantIndex count => "variant index 0 <= i < " ++ toString count
  | .nameOrMap => "string or map"
  | .singleKey => "map with a single key"
  | .recordOf label count => label ++ " with " ++ elements count
  | .items count => elements count ++ " in sequence"

/-- Why a text is refused. -/
inductive Cause where
  /-- The text is not JSON, or its arrays and objects are nested too deeply. -/
  | notJson
  | wrongType (found : Found) (wanted : Wanted)
  | wrongValue (found : Found) (wanted : Wanted)
  | wrongLength (found : Nat) (wanted : Wanted)
  | unknownVariant (name : String) (known : List String)
  | missingField (name : String)
  | duplicateField (name : String)
deriving DecidableEq, Repr, Inhabited

/-- A name as messages show it. -/
def ticked (name : String) : String := "`" ++ name ++ "`"

/-- The cause in words. -/
def Cause.message : Cause → String
  | .notJson => "invalid JSON"
  | .wrongType found wanted => "invalid type: " ++ found.message ++ ", expected " ++ wanted.message
  | .wrongValue found wanted =>
    "invalid value: " ++ found.message ++ ", expected " ++ wanted.message
  | .wrongLength found wanted =>
    "invalid length " ++ toString found ++ ", expected " ++ wanted.message
  | .unknownVariant name known =>
    "unknown variant " ++ ticked name ++ ", expected one of " ++ ", ".intercalate (known.map ticked)
  | .missingField name => "missing field " ++ ticked name
  | .duplicateField name => "duplicate field " ++ ticked name

/-- A cause and the line it shows on. -/
structure Refusal where
  line : Nat
  cause : Cause
deriving DecidableEq, Repr, Inhabited

/-- What a value is, as far as a message tells it. -/
def Value.found : Value → Found
  | .null => .null
  | .bool b => .bool b
  | .number n => .number n
  | .string s => .string s
  | .array _ => .sequence
  | .object _ => .map

/-- What a document is, when something of another type is wanted. Where the text stops being JSON,
that is said instead. -/
def Document.mismatch (d : Document) (wanted : Wanted) : Refusal :=
  match d with
  | .null line => ⟨line, .wrongType .null wanted⟩
  | .bool line b => ⟨line, .wrongType (.bool b) wanted⟩
  | .number line n => ⟨line, .wrongType (.number n) wanted⟩
  | .string line s => ⟨line, .wrongType (.string s) wanted⟩
  | .array line _ _ => ⟨line, .wrongType .sequence wanted⟩
  | .object line _ _ => ⟨line, .wrongType .map wanted⟩
  | .flawed _ fault => ⟨fault, .notJson⟩
  | .broken _ fault _ => ⟨fault, .notJson⟩

end ComputeKernel.Json
