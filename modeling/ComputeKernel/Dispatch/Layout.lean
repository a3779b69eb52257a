import ComputeKernel.Resource.Memory
import ComputeKernel.Run.Action
import ComputeKernel.Text.Quoted

/-!
# Kernel layouts

A kernel class declares entry points and resource slots. `Layout.of?` accepts the declarations when
no entry point and no slot is named twice and no thread-group extent is empty, and otherwise tells
the first mistake: a repeated entry point before a repeated slot before an empty extent. In a layout
the ordinal of an entry point is its place in the declarations.

A kernel of type `K` is a value of the class: a slot says how a resource is put into one of its
fields, and the body of an entry point works on the kernel and on host memory (`Scene`).
-/

namespace ComputeKernel

/-- What a kernel body works on. -/
structure Scene (K : Type) where
  kernel : K
  memory : Memory

/-- A declared entry point: its thread-group extent and what it does for the id of one thread. -/
structure EntryDecl (K : Type) where
  name : String
  extent : Uint3
  body : Uint3 → Action (Scene K) Unit

/-- An entry point of a layout. -/
structure EntryPoint (K : Type) extends EntryDecl K where
  ordinal : Nat

/-- A field of a kernel, with how a resource is put into it. -/
inductive Field (K : Type) where
  | buffer (element : Element) (set : BufferRef → K → K)
  | texture (set : TextureRef → K → K)

/-- A slot for a resource. -/
structure Slot (K : Type) where
  name : String
  field : Field K

/-- The entry points and slots of a kernel class. -/
structure Layout (K : Type) where
  entries : List (EntryPoint K)
  slots : List (Slot K)

variable {K : Type}

namespace Slot

variable (s : Slot K)

/-- What the slot accepts. -/
def capability : Capability :=
  match s.field with
  | .buffer element _ => .buffer element
  | .texture _ => .texture

/-- The kernel with a buffer of the given element type in the slot's field, when the slot accepts
it. -/
def bindBuffer? (element : Element) (r : BufferRef) (kernel : K) : Option K :=
  match s.field with
  | .buffer accepted set => if accepted = element then some (set r kernel) else none
  | .texture _ => none

/-- The kernel with a texture in the slot's field, when the slot accepts it. -/
def bindTexture? (r : TextureRef) (kernel : K) : Option K :=
  match s.field with
  | .texture set => some (set r kernel)
  | .buffer .. => none

end Slot

/-- The entry point as it is shown. -/
def EntryPoint.text (e : EntryPoint K) : String :=
  "EntryPoint \x7b name: " ++ Text.quoted e.name ++ ", numthreads: "
    ++ Element.uint3.valueText [e.extent.x, e.extent.y, e.extent.z]
    ++ ", ordinal: " ++ toString e.ordinal ++ " \x7d"

/-- The first name that stands in the list for a second time, or is one of those already seen. -/
def firstRepeated (seen : List String) : List String → Option String
  | [] => none
  | name :: names => if name ∈ seen then some name else firstRepeated (name :: seen) names

namespace Layout

variable (l : Layout K)
variable (name : String)

/-- Entry points with their places in the declarations as ordinals. -/
def numbered (entries : List (EntryDecl K)) : List (EntryPoint K) :=
  entries.mapIdx fun i e => { e with ordinal := i }

/-- The layout of declarations, or the first mistake in them. -/
def of? (entries : List (EntryDecl K)) (slots : List (Slot K)) : Except DispatchError (Layout K) :=
  match firstRepeated [] (entries.map (·.name)), firstRepeated [] (slots.map (·.name)),
      entries.find? (·.extent.isEmpty) with
  | some name, _, _ => .error (.duplicateEntry name)
  | none, some name, _ => .error (.duplicateSlot name)
  | none, none, some e => .error (.zeroExtent e.name e.extent)
  | none, none, none => .ok { entries := numbered entries, slots }

/-- The ordinal of an entry point. -/
def find? : Option Nat := l.entries.findIdx? (·.name == name)

/-- The entry point with an ordinal. -/
def entry (ordinal : Nat) : Except DispatchError (EntryPoint K) :=
  match l.entries[ordinal]? with
  | some e => .ok e
  | none => .error (.unknownEntry ordinal l.entries.length)

/-- The entry points are those of the list. -/
theorem entry_eq_ok_iff {l : Layout K} {ordinal : Nat} {e : EntryPoint K} :
    l.entry ordinal = .ok e ↔ l.entries[ordinal]? = some e := by
  cases h : l.entries[ordinal]? <;> simp [entry, h]

/-- The slot of a name. -/
def slot? : Option (Slot K) := l.slots.find? (·.name == name)

/-- A slot that is found is one of the layout. -/
theorem mem_of_slot? {l : Layout K} {name : String} {s : Slot K} (h : l.slot? name = some s) :
    s ∈ l.slots ∧ s.name = name := by
  rw [slot?] at h
  exact ⟨List.mem_of_find?_eq_some h, by simpa using List.find?_some h⟩

/-- What a slot accepts. -/
def capability? : Option Capability := (l.slot? name).map Slot.capability

end Layout

end ComputeKernel
