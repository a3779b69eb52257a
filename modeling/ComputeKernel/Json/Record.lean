import ComputeKernel.Json.Refusal

/-!
# Reading records

A `Record` says which fields a record has, in the order of their declaration, and how each one is
read. It is built field by field, and the two ways of reading use the same description:

* `Record.ofMembers?` and `Record.ofValues?` read a value that is already there as a whole;
* `Record.ofEntries?` and `Record.ofItems?` read a document from left to right, so that the first
  thing that is wrong is what is reported.

A record is written as an object, where its fields may stand in any order and unknown names are
passed over, or as an array of its fields in the order of their declaration, where only fields with
a default may be missing.
-/

namespace ComputeKernel.Json

/-- A description of a record `α` whose fields are read from `ν`, refusing with `ε`. -/
structure Record (ν ε α : Type) where
  /-- The fields that have been read so far. -/
  State : Type
  start : State
  /-- Names of the fields in the order of their declaration. -/
  names : List String
  isSet : State → String → Bool
  /-- Read the value of a declared field. -/
  put : State → String → ν → Except ε State
  /-- The finished record, or the first required field that is missing. -/
  finish : State → Except String α

namespace Record

variable {ν ε α β : Type}

/-- A record without fields. -/
def pure (a : α) : Record ν ε α where
  State := Unit
  start := ()
  names := []
  isSet _ _ := false
  put s _ _ := .ok s
  finish _ := .ok a

/-- A record of one field, required without a default. -/
def single (name : String) (default : Option α) (read : ν → Except ε α) : Record ν ε α where
  State := Option α
  start := none
  names := [name]
  isSet s _ := s.isSome
  put _ _ v := (read v).map some
  finish s := match s, default with
    | some a, _ => .ok a
    | none, some a => .ok a
    | none, none => .error name

/-- Give a record more fields, whose names are new. -/
def and (f : Record ν ε (α → β)) (r : Record ν ε α) : Record ν ε β where
  State := f.State × r.State
  start := (f.start, r.start)
  names := f.names ++ r.names
  isSet s name := if name ∈ f.names then f.isSet s.1 name else r.isSet s.2 name
  put s name v :=
    if name ∈ f.names then (f.put s.1 name v).map (·, s.2) else (r.put s.2 name v).map (s.1, ·)
  finish s := do return (← f.finish s.1) (← r.finish s.2)

/-- Add a field that has to be there. -/
def field (f : Record ν ε (α → β)) (name : String) (read : ν → Except ε α) : Record ν ε β :=
  f.and (single name none read)

/-- Add a field that may be left out. -/
def optional (f : Record ν ε (α → β)) (name : String) (default : α) (read : ν → Except ε α) :
    Record ν ε β :=
  f.and (single name (some default) read)

end Record

/-! ## Values -/

namespace Record

variable {α : Type}
variable (r : Record Value Cause α)

/-- Read the members of an object in turn. -/
def putMembers (r : Record Value Cause α) : r.State → List (String × Value) → Except Cause r.State
  | s, [] => .ok s
  | s, (name, v) :: ms =>
    if name ∈ r.names then
      if r.isSet s name then .error (.duplicateField name)
      else do putMembers r (← r.put s name v) ms
    else putMembers r s ms

/-- Read a record from the members of an object. -/
def ofMembers? (members : List (String × Value)) : Except Cause α := do
  (r.finish (← r.putMembers r.start members)).mapError .missingField

/-- Read items for the fields with these names in turn. -/
def putValues (r : Record Value Cause α) : r.State → List String → List Value → Except Cause r.State
  | s, name :: names, v :: vs => do putValues r (← r.put s name v) names vs
  | s, _, _ => .ok s

/-- Read a record from the items of an array. -/
def ofValues? (label : String) (items : List Value) : Except Cause α := do
  let s ← r.putValues r.start r.names items
  let a ← (r.finish s).mapError fun name =>
    .wrongLength (r.names.idxOf name) (.recordOf label r.names.length)
  if r.names.length < items.length then
    throw (.wrongLength items.length (.items r.names.length))
  return a

/-- Read a record from a value. -/
def ofValue? (label : String) : Value → Except Cause α
  | .array items => r.ofValues? label items
  | .object members => r.ofMembers? members
  | v => .error (.wrongType v.found (.record label))

end Record

namespace Value

variable {α : Type}

/-- A string. -/
def text? : Value → Except Cause String
  | .string s => .ok s
  | v => .error (.wrongType v.found .text)

/-- A truth value. -/
def bool? : Value → Except Cause Bool
  | .bool b => .ok b
  | v => .error (.wrongType v.found .boolean)

/-- A number as a word of 32 bits. -/
def wordOf (n : Number) : Except Cause UInt32 :=
  match n with
  | .natural k =>
    if k < UInt32.size then .ok k.toUInt32 else .error (.wrongValue (.number n) .word)
  | .negative _ => .error (.wrongValue (.number n) .word)
  | .real _ => .error (.wrongType (.number n) .word)

/-- A word of 32 bits. -/
def word? : Value → Except Cause UInt32
  | .number n => wordOf n
  | v => .error (.wrongType v.found .word)

/-- All items of an array. -/
def list? (read : Value → Except Cause α) : Value → Except Cause (List α)
  | .array items => items.mapM read
  | v => .error (.wrongType v.found .sequence)

/-- Something, or `null`. -/
def option? (read : Value → Except Cause α) : Value → Except Cause (Option α)
  | .null => .ok none
  | v => (read v).map some

end Value

/-! ## Tagged nodes -/

/-- What a tagged node holds beside its tag. -/
inductive Content where
  | items (items : List Value)
  | members (members : List (String × Value))
deriving Inhabited

/-- The key of an object that holds the tag. -/
def tagKey : String := "kind"

namespace Content

variable {α : Type}

/-- Read a record from a node's content. -/
def record? (r : Record Value Cause α) (label : String) : Content → Except Cause α
  | .items vs => r.ofValues? label vs
  | .members ms => r.ofMembers? ms

/-- A node without fields. In an object every member is passed over; an array has to be empty. -/
def unit? (a : α) : Content → Except Cause α
  | .items [] => .ok a
  | .items vs@(_ :: _) => .error (.wrongLength vs.length (.items 0))
  | .members _ => .ok a

end Content

/-- The variants of a type: their names in the order of declaration, and how each is read. -/
abbrev Variants (α : Type) := List (String × (Content → Except Cause α))

namespace Variants

variable {α : Type}
variable (vs : Variants α)

/-- The names of the variants. -/
def names (vs : Variants α) : List String := vs.map (·.1)

/-- How the variant of this name is read. -/
def find? (name : String) : Except Cause (Content → Except Cause α) :=
  match vs.lookup name with
  | some read => .ok read
  | none => .error (.unknownVariant name vs.names)

/-- How the variant with this tag is read. Inside another tagged node the position of a variant does
for its name. -/
def ofTag? (vs : Variants α) : Value → Except Cause (Content → Except Cause α)
  | .string name => vs.find? name
  | .number (.natural n) =>
    match vs[n]? with
    | some (_, read) => .ok read
    | none => .error (.wrongValue (.number (.natural n)) (.variantIndex vs.length))
  | v => .error (.wrongType v.found .variantName)

/-- Look for the tag among the members of an object: what the tag says, and the other members. -/
def splitMembers (vs : Variants α) :
    Option (Content → Except Cause α) → List (String × Value) →
      Except Cause ((Content → Except Cause α) × List (String × Value))
  | none, [] => .error (.missingField tagKey)
  | some read, [] => .ok (read, [])
  | read, (name, v) :: ms =>
    if name = tagKey then
      match read with
      | some _ => .error (.duplicateField tagKey)
      | none => do splitMembers vs (some (← vs.ofTag? v)) ms
    else do
      let (read, others) ← splitMembers vs read ms
      return (read, (name, v) :: others)

/-- Read a tagged node from a value. -/
def ofValue? (type : String) : Value → Except Cause α
  | .array [] => .error (.missingField tagKey)
  | .array (tag :: items) => do (← vs.ofTag? tag) (.items items)
  | .object members => do
    let (read, others) ← vs.splitMembers none members
    read (.members others)
  | v => .error (.wrongType v.found (.tagged type))

end Variants

/-! ## Operators -/

/-- The value of the operator with this name. -/
def operator? {α : Type} (table : List (String × α)) (name : String) : Except Cause α :=
  match table.lookup name with
  | some a => .ok a
  | none => .error (.unknownVariant name (table.map (·.1)))

/-- Read an operator from a value: its name, or an object that has the name for its only key and
nothing under it. -/
def operatorOfValue? {α : Type} (table : List (String × α)) : Value → Except Cause α
  | .string name => operator? table name
  | .object [(name, v)] => do
    let a ← operator? table name
    match v with
    | .null | .object [] => return a
    | v => throw (.wrongType v.found .unit)
  | .object _ => .error (.wrongValue .map .singleKey)
  | v => .error (.wrongType v.found .nameOrMap)

end ComputeKernel.Json
