import ComputeKernel.Transfer.Buffer
import ComputeKernel.Transfer.Texture

/-!
# Resource tables

What is bound to the slots of one entry point. Buffers and textures have names of their own, in
order.
-/

namespace ComputeKernel

/-- What is bound to slots. -/
structure Table where
  buffers : Keyed String BufferBinding := []
  textures : Keyed String TextureRef := []
deriving DecidableEq, Repr, Inhabited

namespace Table

variable (t : Table)

/-- Whether nothing is bound. -/
def isEmpty : Bool := t.buffers.isEmpty && t.textures.isEmpty

/-- Bind a buffer to a slot. A device copy that the slot has already stays with it, but is
behind. -/
def bindBuffer (slot : String) (r : BufferRef) : Table :=
  let binding := match t.buffers.get? slot with
    | some b => b.rebind r
    | none => { buffer := r }
  { t with buffers := t.buffers.put slot binding }

/-- Bind a texture to a slot, in place of any other. -/
def bindTexture (slot : String) (r : TextureRef) : Table :=
  { t with textures := t.textures.put slot r }

/-- All device copies are behind. -/
def markDirty : Table :=
  { t with buffers := t.buffers.map fun (slot, b) => (slot, b.markDirty) }

/-- An action on each bound buffer, in order of the slots. -/
def onBuffers (f : String → Action (BufferBinding × Machine) Unit) :
    Action (Table × Machine) Unit :=
  fun (t, m) =>
    let o := Action.onValues f t.buffers m
    { result := o.result, state := ({ t with buffers := o.state.1 }, o.state.2),
      events := o.events }

/-- An action on the machine around a table. -/
def onMachine {α : Type} (a : Action Machine α) : Action (Table × Machine) α :=
  .zoom (·.2) (fun m s => (s.1, m)) a

/-- An action for each bound texture, in order of the slots. -/
def onTextures (f : String → TextureRef → Action Machine Unit) : Action (Table × Machine) Unit := do
  let (t, _) ← Action.get
  onMachine (Action.forEach t.textures fun (slot, r) => f slot r)

/-- Make the device copies of all bound buffers current and bind them for an entry point. -/
def presentBuffers (entry : Nat) : Action (Table × Machine) Unit :=
  onBuffers fun slot => do
    let h ← BufferBinding.toDevice
    BufferBinding.onDevice (Device.bindBuffer entry slot h)

/-- Make the surfaces of all bound textures current and bind them for an entry point. The device
counts as the newer side from then on. -/
def presentTextures (entry : Nat) : Action (Table × Machine) Unit :=
  onTextures fun slot r => do
    let h ← Machine.onTexture r Texture.toDevice
    Machine.onDevice (Device.bindTexture entry slot h)
    Machine.onTexture r (Texture.change Texture.hintDevice)

/-- Release the device copies and surfaces of everything bound. -/
def release : Action (Table × Machine) Unit := do
  onBuffers fun _ => BufferBinding.release
  onTextures fun _ r => Machine.onTexture r Texture.release

end Table

end ComputeKernel
