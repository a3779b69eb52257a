import ComputeKernel.Proofs.Dispatch.Fields
import ComputeKernel.Sample.Workbench

/-!
# The workbench finds resources in its fields

A field of the workbench holds a buffer or a texture, by its capability. Binding to a slot puts a
resource into the field of the slot (`Workbench.exposes`), and the bodies leave the fields as they
are and touch what is in them (`Workbench.Body.run_confined`).
-/

namespace ComputeKernel.Workbench

open ComputeKernel.Action WorkbenchField
open HasMemory

/-- What a field holds. -/
def held (k : Workbench) (f : WorkbenchField) : Option Resource :=
  match f.capability with
  | .buffer _ => (k.buffers f).map .buffer
  | .texture => (k.textures f).map .texture

/-- The fields of the workbench, with a field for each slot. -/
def view (field : String → WorkbenchField) : FieldView Workbench WorkbenchField :=
  { held, slot := field }

/-- Binding to a slot of the workbench puts the resource into its field. -/
theorem exposes {l : Layout Workbench} {field : String → WorkbenchField}
    (hl : ∀ s ∈ l.slots, s = (field s.name).slot s.name) : l.Exposes (view field) where
  buffer s hs element r k k' hk := by
    rw [hl s hs] at hk
    simp only [Slot.bindBuffer?, WorkbenchField.slot] at hk
    cases hcapability : (field s.name).capability with
    | buffer accepted =>
      simp only [hcapability] at hk
      split at hk
      next =>
        cases hk
        refine ⟨by simp [view, held, hcapability, setBuffer], fun f (hf : f ≠ field s.name) => ?_⟩
        simp [view, held, setBuffer, hf]
      next => cases hk
    | texture =>
      simp only [hcapability] at hk
      cases hk
  texture s hs r k k' hk := by
    rw [hl s hs] at hk
    simp only [Slot.bindTexture?, WorkbenchField.slot] at hk
    cases hcapability : (field s.name).capability with
    | buffer accepted =>
      simp only [hcapability] at hk
      cases hk
    | texture =>
      simp only [hcapability] at hk
      cases hk
      refine ⟨by simp [view, held, hcapability, setTexture], fun f (hf : f ≠ field s.name) => ?_⟩
      simp [view, held, setTexture, hf]

namespace Body

variable {α β : Type} {R : Resource → Prop}
variable {f : WorkbenchField}

/-- An action that leaves the fields as they are, and touches what is in them. -/
def Discreet (R : Resource → Prop) (a : Action (Scene Workbench) α) : Prop :=
  ∀ s, (∀ f x, held s.kernel f = some x → R x) →
    held (a s).state.kernel = held s.kernel ∧ Touches R a s

/-- One action after another. -/
theorem Discreet.bind {a : Action (Scene Workbench) α} {f : α → Action (Scene Workbench) β}
    (ha : Discreet R a) (hf : ∀ x, Discreet R (f x)) : Discreet R (a >>= f) := by
  intro s hs
  obtain ⟨hheld, htouches⟩ := ha s hs
  have hnext := fun x => hf x (a s).state (hheld.symm ▸ hs)
  refine ⟨?_, htouches.bind fun x _ => (hnext x).2⟩
  cases hr : (a s).result with
  | error e => rw [state_bind_of_error hr, hheld]
  | ok x => rw [state_bind_of_ok hr, (hnext x).1, hheld]

/-- A value touches nothing. -/
theorem discreet_pure (x : α) : Discreet R (pure x) :=
  fun _ _ => ⟨rfl, touches_of_aside rfl fun _ => rfl⟩

/-- The buffer in a field can be read. -/
theorem buffer_agrees {s : Scene Workbench} (hs : ∀ f x, held s.kernel f = some x → R x)
    {element : Element} (hf : f.capability = .buffer element) {m : Memory}
    (hm : s.memory.Agrees R m) :
    buffer f { s with memory := m } = buffer f s := by
  rw [buffer, buffer]
  cases hr : s.kernel.buffers f with
  | none => rfl
  | some r =>
    have hR : R (.buffer r) := hs f _ (by simp [held, hf, hr])
    exact hm.buffer hR

/-- The texture in a field can be read. -/
theorem texture_agrees {s : Scene Workbench} (hs : ∀ f x, held s.kernel f = some x → R x)
    (hf : f.capability = .texture) {m : Memory} (hm : s.memory.Agrees R m) :
    texture f { s with memory := m } = texture f s := by
  rw [texture, texture]
  cases hr : s.kernel.textures f with
  | none => rfl
  | some r =>
    have hR : R (.texture r) := hs f _ (by simp [held, hf, hr])
    exact hm.texture hR

section buffers

variable {f : WorkbenchField} {element : Element} (hf : f.capability = .buffer element)
include hf

/-- Setting an element. -/
theorem discreet_setElement (i : Nat) (value : List UInt32) :
    Discreet R (setElement f i value) := by
  refine Discreet.bind (fun s hs => ⟨rfl, touches_examine fun m hm => ?_⟩) fun _ s hs => ?_
  · exact congrArg (fun b => Except.mapError Failure.fault (b.checkIndex i))
      (buffer_agrees hs hf hm)
  · cases hr : s.kernel.buffers f with
    | none =>
      refine ⟨by simp [Action.modify, changeBuffer, hr], touches_of_aside ?_ fun m => ?_⟩
      · simp [Action.modify, changeBuffer, hr]
      · simp [Action.modify, changeBuffer, hr, withMemory]
    | some r =>
      have hR : R (.buffer r) := hs f _ (by simp [held, hf, hr])
      refine ⟨by simp [Action.modify, changeBuffer, hr], ?_, fun m hm => ?_⟩
      · simp only [Action.modify, changeBuffer, hr]
        exact s.memory.agrees_modifyBuffer hR _
      · refine ⟨m.modifyBuffer r (·.put i value), ?_, ?_⟩
        · simp only [Action.modify, changeBuffer, hr]
          exact hm.modifyBuffer r _
        · simp [Action.modify, changeBuffer, hr, withMemory]

/-- Reading a word. -/
theorem discreet_wordAt (i : Nat) : Discreet R (gets (wordAt f i)) :=
  fun _ hs => ⟨rfl, touches_gets fun _ hm => congrArg (fun b => (b.elementAt i).headD 0)
    (buffer_agrees hs hf hm)⟩

/-- What is done if there is an element. -/
theorem discreet_guarded (i : Nat) {a : Action (Scene Workbench) Unit} (ha : Discreet R a) :
    Discreet R (guarded f i a) := by
  refine Discreet.bind (fun s hs => ⟨rfl, touches_gets fun m hm => ?_⟩) fun length => ?_
  · exact congrArg Buffer.length (buffer_agrees hs hf hm)
  · by_cases h : i < length
    · rw [if_pos h]
      exact ha
    · rw [if_neg h]
      exact discreet_pure ()

end buffers

/-- Setting a texel. -/
theorem discreet_setTexel (hf : f.capability = .texture) (uv : Uint2) (value : Float4) :
    Discreet R (setTexel f uv value) := by
  refine Discreet.bind (fun s hs => ⟨rfl, touches_examine fun m hm => ?_⟩) fun _ s hs => ?_
  · exact congrArg (fun t => Except.mapError Failure.fault (t.checkTexel uv))
      (texture_agrees hs hf hm)
  · cases hr : s.kernel.textures f with
    | none =>
      refine ⟨by simp [Action.modify, changeTexture, hr], touches_of_aside ?_ fun m => ?_⟩
      · simp [Action.modify, changeTexture, hr]
      · simp [Action.modify, changeTexture, hr, withMemory]
    | some r =>
      have hR : R (.texture r) := hs f _ (by simp [held, hf, hr])
      refine ⟨by simp [Action.modify, changeTexture, hr], ?_, fun m hm => ?_⟩
      · simp only [Action.modify, changeTexture, hr]
        exact s.memory.agrees_modifyTexture hR _
      · refine ⟨m.modifyTexture r (·.put uv value), ?_, ?_⟩
        · simp only [Action.modify, changeTexture, hr]
          exact hm.modifyTexture r _
        · simp [Action.modify, changeTexture, hr, withMemory]

/-- Setting a texel from another. -/
theorem discreet_withTexel {f g : WorkbenchField} (hf : f.capability = .texture)
    (hg : g.capability = .texture) (uv : Uint2) (value : Float4 → Float4) :
    Discreet R (withTexel f uv fun p => setTexel g uv (value p)) := by
  refine Discreet.bind (fun s hs => ⟨rfl, touches_gets fun m hm => ?_⟩) fun p? => ?_
  · exact congrArg (fun t : Texture => (t.get uv).toOption) (texture_agrees hs hf hm)
  · cases p? with
    | none => exact discreet_pure ()
    | some p => exact discreet_setTexel hg uv (value p)

/-- What depends on the kernel alone can be read. -/
theorem discreet_place (id : Uint3) : Discreet R (place id) :=
  fun _ _ => ⟨rfl, touches_examine fun _ _ => rfl⟩

/-- Mixing an id into a buffer. -/
theorem discreet_mixId (id : Uint3) : Discreet R (mixId id) := by
  refine Discreet.bind (fun s hs => ⟨rfl, touches_gets fun m hm => rfl⟩) fun size => ?_
  cases size.isEmpty with
  | true => exact discreet_pure ()
  | false =>
    exact discreet_guarded rfl _ ((discreet_wordAt rfl _).bind fun w => discreet_setElement rfl _ _)

/-- **What a body touches** is in the fields. -/
theorem discreet_run (body : Body) (id : Uint3) : Discreet R (body.run id) := by
  cases body with
  | fill | brighten | blend => exact discreet_withTexel rfl rfl _ _
  | nop => exact discreet_pure ()
  | double => exact discreet_setElement rfl _ _
  | doubleGuarded => exact discreet_guarded rfl _ (discreet_setElement rfl _ _)
  | copy =>
    exact discreet_guarded rfl _ (discreet_guarded rfl _ ((discreet_wordAt rfl _).bind fun w =>
      discreet_setElement rfl _ _))
  | ids =>
    exact (discreet_place id).bind fun place => discreet_guarded rfl _ (discreet_setElement rfl _ _)
  | count =>
    exact (discreet_place id).bind fun place s _ => ⟨rfl, touches_of_aside rfl fun _ => rfl⟩
  | trace => exact discreet_mixId id
  | fault =>
    by_cases h : id = ⟨3, 0, 0⟩
    · rw [run, if_pos h]
      exact fun s _ => ⟨rfl, touches_of_aside rfl fun _ => rfl⟩
    · rw [run, if_neg h]
      exact discreet_pure ()

/-- **The bodies of the workbench are confined to its fields.** -/
theorem run_confined (field : String → WorkbenchField) (body : Body) {point : EntryPoint Workbench}
    (hbody : point.body = body.run) : point.Confined (view field) where
  fields id s := by
    rw [hbody]
    exact (discreet_run (R := fun _ => True) body id s fun _ _ _ => trivial).1
  touches id s := by
    rw [hbody]
    exact (discreet_run body id s fun f x hx => ⟨f, hx⟩).2

end Body

end ComputeKernel.Workbench
