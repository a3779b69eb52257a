import ComputeKernel.Json.Record

/-!
# Reading documents from left to right

The readers here look at a document in the order in which it is written, and refuse it at the first
thing that is wrong, with the line of that thing. Three rules are theirs alone:

* At most `nestingLimit` arrays and objects may lie inside one another. The argument `room` counts
  how many more may be entered.
* What stands under an unknown name is only passed over (`Document.skim`): neither the limit nor a
  missing value counts there.
* A tagged node is read as a whole before it is understood (`Document.value?`), so that its form is
  looked at before its content. Only its own tag is understood on the way. What is wrong with the
  content shows on the line of what follows the node.
-/

namespace ComputeKernel.Json

open Document

/-- How many arrays and objects may lie inside one another. -/
def nestingLimit : Nat := 127

/-- A document and the line of what follows it. -/
abbrev Placed := Item Document

/-- What a string says. -/
def Quotation.text? : Quotation → Except Refusal String
  | .text _ s => .ok s
  | .flawed _ fault => .error ⟨fault, .notJson⟩
  | .broken _ fault _ => .error ⟨fault, .notJson⟩

/-- Pass over a string. -/
def Quotation.skim : Quotation → Except Refusal Unit
  | .text _ _ | .flawed _ _ => .ok ()
  | .broken _ _ fault => .error ⟨fault, .notJson⟩

mutual

/-- The value of a document that is JSON and not nested too deeply. -/
def Document.value? (room : Nat) : Document → Except Refusal Value
  | .null _ => .ok .null
  | .bool _ b => .ok (.bool b)
  | .number _ n => .ok (.number n)
  | .string _ s => .ok (.string s)
  | .array line items _ =>
    match room with
    | 0 => .error ⟨line, .notJson⟩
    | room + 1 => do return .array (← values? room items)
  | .object line members _ =>
    match room with
    | 0 => .error ⟨line, .notJson⟩
    | room + 1 => do return .object (← members? room members)
  | .flawed _ fault => .error ⟨fault, .notJson⟩
  | .broken _ fault _ => .error ⟨fault, .notJson⟩

/-- The values of the items of an array. -/
def Document.values? (room : Nat) : List (Item Document) → Except Refusal (List Value)
  | [] => .ok []
  | ⟨d, _⟩ :: items => do
    let v ← value? room d
    return v :: (← values? room items)

/-- The members of an object. -/
def Document.members? (room : Nat) : List (Entry Document) → Except Refusal (List (String × Value))
  | [] => .ok []
  | ⟨key, _, d, _⟩ :: members => do
    let name ← key.text?
    let v ← value? room d
    return (name, v) :: (← members? room members)

end

mutual

/-- Pass over a document, unless the text stops being JSON there. -/
def Document.skim : Document → Except Refusal Unit
  | .array _ items _ => skimItems items
  | .object _ members _ => skimMembers members
  | .broken _ _ fault => .error ⟨fault, .notJson⟩
  | _ => .ok ()

/-- Pass over the items of an array. -/
def Document.skimItems : List (Item Document) → Except Refusal Unit
  | [] => .ok ()
  | ⟨d, _⟩ :: items => do
    skim d
    skimItems items

/-- Pass over the members of an object. -/
def Document.skimMembers : List (Entry Document) → Except Refusal Unit
  | [] => .ok ()
  | ⟨key, _, d, _⟩ :: members => do
    key.skim
    skim d
    skimMembers members

end

/-! ## Records -/

namespace Record

variable {α : Type}

/-- Read the members of an object in turn. A repeated name shows on the line of what follows it. -/
def putEntries (r : Record Placed Refusal α) :
    r.State → List (Entry Document) → Except Refusal r.State
  | s, [] => .ok s
  | s, e :: es => do
    let name ← e.key.text?
    if name ∈ r.names then
      if r.isSet s name then throw ⟨e.colon, .duplicateField name⟩
      putEntries r (← r.put s name ⟨e.value, e.next⟩) es
    else
      e.value.skim
      putEntries r s es

/-- Read the items of an array for the fields with these names in turn; the items that are left are
given back. -/
def putItems (r : Record Placed Refusal α) :
    r.State → List String → List Placed → Except Refusal (r.State × List Placed)
  | s, name :: names, i :: is => do putItems r (← r.put s name i) names is
  | s, _, is => .ok (s, is)

/-- Read a record from a document. -/
def ofDocument? (r : Record Placed Refusal α) (label : String) (room : Nat) :
    Document → Except Refusal α
  | .array line items close => do
    if room = 0 then throw ⟨line, .notJson⟩
    let (s, surplus) ← r.putItems r.start r.names items
    let a ← (r.finish s).mapError fun name =>
      ⟨close, .wrongLength (r.names.idxOf name) (.recordOf label r.names.length)⟩
    match surplus with
    | [] => return a
    | i :: _ => throw ⟨i.value.line, .notJson⟩
  | .object line members close => do
    if room = 0 then throw ⟨line, .notJson⟩
    let s ← r.putEntries r.start members
    (r.finish s).mapError fun name => ⟨close, .missingField name⟩
  | d => .error (d.mismatch (.record label))

end Record

namespace Document

variable {α : Type}

/-- A string. -/
def text? : Document → Except Refusal String
  | .string _ s => .ok s
  | d => .error (d.mismatch .text)

/-- A word of 32 bits. -/
def word? : Document → Except Refusal UInt32
  | .number line n => (Value.wordOf n).mapError (⟨line, ·⟩)
  | d => .error (d.mismatch .word)

/-- All items of an array. -/
def list? (read : Document → Except Refusal α) (room : Nat) : Document → Except Refusal (List α)
  | .array line items _ =>
    if room = 0 then .error ⟨line, .notJson⟩ else items.mapM (read ·.value)
  | d => .error (d.mismatch .sequence)

/-- Something, or `null`. -/
def option? (read : Document → Except Refusal α) : Document → Except Refusal (Option α)
  | .null _ => .ok none
  | d => (read d).map some

end Document

/-! ## Tagged nodes -/

namespace Variants

variable {α : Type}

/-- How the variant with this tag is read. -/
def ofTagDocument? (vs : Variants α) : Document → Except Refusal (Content → Except Cause α)
  | .string line name => (vs.find? name).mapError (⟨line, ·⟩)
  | d => .error (d.mismatch .variantName)

/-- Look for the tag among the members of an object: what the tag says, and the other members. -/
def splitEntries (vs : Variants α) (room close : Nat) :
    Option (Content → Except Cause α) → List (Entry Document) →
      Except Refusal ((Content → Except Cause α) × List (String × Value))
  | none, [] => .error ⟨close, .missingField tagKey⟩
  | some read, [] => .ok (read, [])
  | read, e :: es => do
    let name ← e.key.text?
    if name = tagKey then
      match read with
      | some _ => throw ⟨e.colon, .duplicateField tagKey⟩
      | none => splitEntries vs room close (some (← vs.ofTagDocument? e.value)) es
    else
      let v ← e.value.value? room
      let (read, others) ← splitEntries vs room close read es
      return (read, (name, v) :: others)

/-- Read a tagged node as a whole: its tag, and its content. -/
def openDocument? (vs : Variants α) (type : String) (room : Nat) :
    Document → Except Refusal ((Content → Except Cause α) × Content)
  | .array line items close => do
    if room = 0 then throw ⟨line, .notJson⟩
    match items with
    | [] => throw ⟨close, .missingField tagKey⟩
    | tag :: items =>
      let read ← vs.ofTagDocument? tag.value
      return (read, .items (← values? (room - 1) items))
  | .object line members close => do
    if room = 0 then throw ⟨line, .notJson⟩
    let (read, others) ← vs.splitEntries (room - 1) close none members
    return (read, .members others)
  | d => .error (d.mismatch (.tagged type))

/-- Read a tagged node. -/
def ofPlaced? (vs : Variants α) (type : String) (room : Nat) (d : Placed) : Except Refusal α := do
  let (read, content) ← vs.openDocument? type room d.value
  (read content).mapError (⟨d.next, ·⟩)

end Variants

/-! ## Operators -/

/-- Read an operator from a document that holds nothing else. -/
def operatorOfDocument? {α : Type} (table : List (String × α)) : Document → Except Refusal α
  | .string line name => (operator? table name).mapError (⟨line, ·⟩)
  | .object line [] _ => .error ⟨line, .notJson⟩
  | .object _ (e :: es) close => do
    let name ← e.key.text?
    let a ← (operator? table name).mapError (⟨e.key.line, ·⟩)
    match e.value with
    | .null _ => pure ()
    | d => throw (d.mismatch .unit)
    match es with
    | [] => return a
    | _ :: _ => throw ⟨close, .notJson⟩
  | d => .error ⟨d.line, .notJson⟩

/-! ## Texts -/

/-- Read a text that holds one document and nothing after it. What is wrong with the document comes
first. -/
def parse {α : Type} (read : Placed → Except Refusal α) (text : String) : Except Refusal α := do
  let (document, cursor) := Json.read text
  let after := cursor.map fun c => skipBlank c.rest c.line
  let a ← read ⟨document, (after.map (·.line)).getD document.line⟩
  match after with
  | some ⟨[], _⟩ => return a
  | some ⟨_ :: _, line⟩ => throw ⟨line, .notJson⟩
  | none => throw ⟨document.line, .notJson⟩

end ComputeKernel.Json
