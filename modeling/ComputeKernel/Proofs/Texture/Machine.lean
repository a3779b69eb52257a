import ComputeKernel.Dispatch.Table
import ComputeKernel.Proofs.Texture.Transfer

/-!
# One texture among those of a machine

A machine has many textures and one device, and transfers of all of them meet there. `Settled` says
of one texture of the machine that it is coherent with the device, and of the others that their
surfaces come from the same device and are not its own. So a transfer of another texture, or a use
of the device that touches no surface, leaves the texture as it is (`Settled.other`,
`Settled.spared`), and a transfer of the texture itself keeps it apart from the others
(`Settled.own`). `Machine.Holds` is the invariant that runs through all of this: the texture stands
for a given image, and has a property that only its own transfers can change.
-/

namespace ComputeKernel

open ComputeKernel.Action
open Texture

namespace Memory

variable (m : Memory)

/-- A texture that was set is there. -/
theorem texture_setTexture_self {m : Memory} {r : TextureRef} (h : r.index < m.textures.size)
    (t : Texture) :
    (m.setTexture r t).texture r = t := by
  rw [texture_setTexture, if_pos ⟨rfl, h⟩]

/-- The others stay. -/
theorem texture_setTexture_of_ne {r r' : TextureRef} (h : r' ≠ r) (t : Texture) :
    (m.setTexture r t).texture r' = m.texture r' := by
  rw [texture_setTexture, if_neg fun h' => h h'.1]

/-- Setting a texture to what it is changes nothing. -/
theorem setTexture_self (r : TextureRef) : m.setTexture r (m.texture r) = m := by
  have htextures : m.textures.setIfInBounds r.index (m.texture r) = m.textures := by
    apply Array.ext_getElem?
    intro i
    rw [Array.getElem?_setIfInBounds]
    by_cases hi : r.index = i
    · subst hi
      by_cases hlt : r.index < m.textures.size
      · simp [texture, hlt]
      · simp [hlt]
    · rw [if_neg hi]
  rw [setTexture, htextures]

/-- A texture that is not there reads as an empty one. -/
theorem texture_of_le {m : Memory} {r : TextureRef} (h : m.textures.size ≤ r.index) :
    m.texture r = default := by
  rw [texture, Array.getElem?_eq_none h, Option.getD_none]

/-- Equal textures are read alike. -/
theorem texture_congr {m m' : Memory} (h : m'.textures = m.textures) (r : TextureRef) :
    m'.texture r = m.texture r := by
  rw [texture, texture, h]

/-- Changing a texture sets what the change makes of it. -/
theorem modifyTexture_eq (r : TextureRef) (f : Texture → Texture) :
    m.modifyTexture r f = m.setTexture r (f (m.texture r)) := by
  have htextures : m.textures.modify r.index f =
      m.textures.setIfInBounds r.index (f (m.texture r)) := by
    apply Array.ext_getElem?
    intro i
    rw [Array.getElem?_modify, Array.getElem?_setIfInBounds]
    by_cases hi : r.index = i
    · subst hi
      by_cases hlt : r.index < m.textures.size
      · simp [texture, hlt]
      · simp [hlt]
    · rw [if_neg hi, if_neg hi]
  rw [modifyTexture, setTexture, htextures]

end Memory

/-- One texture is coherent with the device, and shares no surface. -/
structure Settled (r : TextureRef) (size : Uint2) (image : Array Float4) (m : Memory)
    (d : HostDevice) :
    Prop where
  present : r.index < m.textures.size
  width : (m.texture r).width = size.x
  height : (m.texture r).height = size.y
  coherent : (m.texture r).Coherent d image
  /-- All surfaces come from the device. -/
  issued : ∀ r' h, (m.texture r').surface = some h → h.id ≤ d.issued
  /-- No other texture has the surface of this one. -/
  apart : ∀ r' h, r' ≠ r → (m.texture r').surface = some h → (m.texture r).surface ≠ some h

namespace Settled

variable {r : TextureRef} {size : Uint2} {image image' : Array Float4} {m : Memory}
    {d d' : HostDevice}

/-- After a transfer of the texture itself. -/
theorem own (hs : Settled r size image m d) {t : Texture} (hf : (m.texture r).Frame d t d')
    (hc : t.Coherent d' image') : Settled r size image' (m.setTexture r t) d' := by
  have hself := Memory.texture_setTexture_self hs.present t
  refine ⟨by simpa [Memory.setTexture] using hs.present, ?_, ?_, ?_, fun r' h hh => ?_,
    fun r' h hne hh => ?_⟩
  · rw [hself, hf.width, hs.width]
  · rw [hself, hf.height, hs.height]
  · rw [hself]
    exact hc
  · by_cases hr : r' = r
    · subst hr
      rw [hself] at hh
      rcases hf.surface h hh with hold | ⟨-, hle⟩
      · exact (hs.issued r' h hold).trans hf.issued
      · exact hle
    · rw [m.texture_setTexture_of_ne hr] at hh
      exact (hs.issued r' h hh).trans hf.issued
  · rw [m.texture_setTexture_of_ne hne] at hh
    rw [hself]
    exact hf.surface_ne (hs.issued r' h hh) (hs.apart r' h hne hh)

/-- The texture is coherent with a device that has kept its surface. -/
theorem coherent_of_kept (hs : Settled r size image m d)
    (hkept : ∀ h, (m.texture r).surface = some h → d'.surfaces.get? h.id = d.surfaces.get? h.id) :
    (m.texture r).Coherent d' image where
  size_image := hs.coherent.size_image
  host := hs.coherent.host
  device h hh := by
    rw [hkept h hh]
    exact hs.coherent.device h hh
  behind := hs.coherent.behind

/-- After a transfer of another texture. -/
theorem other (hs : Settled r size image m d) {r' : TextureRef} (hr : r' ≠ r) {t : Texture}
    (hf : (m.texture r').Frame d t d') : Settled r size image (m.setTexture r' t) d' := by
  have hself : (m.setTexture r' t).texture r = m.texture r :=
    m.texture_setTexture_of_ne (Ne.symm hr) t
  have hkept : ∀ h, (m.texture r).surface = some h → d'.surfaces.get? h.id =
      d.surfaces.get? h.id := by
    intro h hh
    exact hf.others h.id (hs.issued r h hh) fun heq => hs.apart r' h hr heq hh
  refine ⟨by simpa [Memory.setTexture] using hs.present, by rw [hself, hs.width],
    by rw [hself, hs.height],
    by rw [hself]; exact hs.coherent_of_kept hkept, fun r'' h hh => ?_, fun r'' h hne hh => ?_⟩
  · rw [Memory.texture_setTexture] at hh
    split at hh
    · rcases hf.surface h hh with hold | ⟨-, hle⟩
      · exact (hs.issued r' h hold).trans hf.issued
      · exact hle
    · exact (hs.issued r'' h hh).trans hf.issued
  · rw [hself]
    rw [Memory.texture_setTexture] at hh
    split at hh
    · rcases hf.surface h hh with hold | ⟨hlt, -⟩
      · exact hs.apart r' h hr hold
      · -- A surface that was just made is not one that the texture had.
        exact fun heq => absurd hlt (Nat.not_lt.2 (hs.issued r h heq))
    · exact hs.apart r'' h hne hh

/-- Being settled is about textures, not about buffers. -/
theorem congr {m' : Memory} (h : m'.textures = m.textures) (hs : Settled r size image m d) :
    Settled r size image m' d := by
  have heq := Memory.texture_congr h
  refine ⟨h ▸ hs.present, by rw [heq, hs.width], by rw [heq, hs.height], ?_, fun r' => ?_,
    fun r' => ?_⟩
  · rw [heq]
    exact hs.coherent
  · rw [heq]
    exact hs.issued r'
  · rw [heq, heq]
    exact hs.apart r'

/-- After a use of the device that touches no surface. -/
theorem spared (hs : Settled r size image m d) (hissued : d.issued ≤ d'.issued)
    (hsurfaces : d'.surfaces = d.surfaces) : Settled r size image m d' where
  present := hs.present
  width := hs.width
  height := hs.height
  coherent := hs.coherent_of_kept fun _ _ => by rw [hsurfaces]
  issued r' h hh := (hs.issued r' h hh).trans hissued
  apart := hs.apart

end Settled

/-! ## The device -/

/-- A use of the device that touches no surface. -/
def Device.Spares {α : Type} (a : Action Device α) : Prop :=
  ∀ d : HostDevice, ∃ d', (a (.host d)).state = .host d' ∧ d.issued ≤ d'.issued ∧
    d'.surfaces = d.surfaces

namespace HostDevice

variable (d : HostDevice)
variable (entry : Nat)

/-- The device has changed in what is bound, counted and recorded at most. -/
structure Quiet (d d' : HostDevice) : Prop where
  issued : d'.issued = d.issued
  buffers : d'.buffers = d.buffers
  surfaces : d'.surfaces = d.surfaces
  entries : d'.entries = d.entries ∧ d'.bound.length = d.bound.length

/-- Nothing has changed. -/
theorem Quiet.refl : Quiet d d := ⟨rfl, rfl, rfl, rfl, rfl⟩

/-- Binding is quiet. -/
theorem quiet_setBindings (b : HostBindings) : Quiet d (d.setBindings entry b) :=
  ⟨rfl, rfl, rfl, rfl, List.length_set⟩

/-- A buffer that is there is bound, or the device refuses. -/
theorem bindBuffer_cases (slot : String) (h : BufferHandle) :
    (entry < d.entries.length ∧ d.buffers.has h.id = true ∧
    Device.bindBuffer entry slot h (.host d) =
      { result := .ok (), state := .host (d.setBindings entry
        { d.bindings entry with buffers := (d.bindings entry).buffers.put slot h }) }) ∨
    ∃ e, Device.bindBuffer entry slot h (.host d) = { result := .error e, state := .host d } := by
  simp only [Device.bindBuffer, bindBuffer]
  by_cases hentry : entry < d.entries.length
  · by_cases hhas : d.buffers.has h.id = true
    · exact .inl ⟨hentry, hhas, by simp only [if_pos hentry, if_pos hhas]; rfl⟩
    · exact .inr ⟨_, by simp only [if_pos hentry, if_neg hhas]; rfl⟩
  · exact .inr ⟨_, by simp only [if_neg hentry]; rfl⟩

/-- A surface that is there is bound, or the device refuses. -/
theorem bindTexture_cases (slot : String) (h : SurfaceHandle) :
    Device.bindTexture entry slot h (.host d) =
      { result := .ok (), state := .host (d.setBindings entry
        { d.bindings entry with textures := (d.bindings entry).textures.put slot h }) } ∨
    ∃ e, Device.bindTexture entry slot h (.host d) = { result := .error e, state := .host d } := by
  simp only [Device.bindTexture, bindTexture]
  by_cases hentry : entry < d.entries.length
  · by_cases hhas : d.surfaces.has h.id = true
    · exact .inl (by simp only [if_pos hentry, if_pos hhas]; rfl)
    · exact .inr ⟨_, by simp only [if_pos hentry, if_neg hhas]; rfl⟩
  · exact .inr ⟨_, by simp only [if_neg hentry]; rfl⟩

/-- A dispatch is recorded and counted, or the device refuses. -/
theorem dispatch_cases (groups : Uint3) :
    Device.dispatch entry groups (.host d) =
      { result := .ok (), state := .host { d with
        log := d.log ++ [{ entry, groups, bindings := d.bindings entry }]
        stats.dispatches := d.stats.dispatches + 1 } } ∨
    ∃ e, Device.dispatch entry groups (.host d) = { result := .error e, state := .host d } := by
  simp only [Device.dispatch, dispatch]
  by_cases hentry : entry < d.entries.length
  · exact .inl (by simp only [if_pos hentry]; rfl)
  · exact .inr ⟨_, by simp only [if_neg hentry]; rfl⟩

end HostDevice

namespace Device

variable (entry : Nat)

/-- A use of the device that only binds, counts and records. -/
def IsQuiet {α : Type} (a : Action Device α) : Prop :=
  ∀ d : HostDevice, ∃ d', (a (.host d)).state = .host d' ∧ d.Quiet d'

/-- What is quiet touches no surface. -/
theorem IsQuiet.spares {α : Type} {a : Action Device α} (ha : IsQuiet a) : Spares a := by
  intro d
  obtain ⟨d', hstate, hquiet⟩ := ha d
  exact ⟨d', hstate, hquiet.issued.ge, hquiet.surfaces⟩

/-- Binding a buffer is quiet. -/
theorem isQuiet_bindBuffer (slot : String) (h : BufferHandle) :
    IsQuiet (bindBuffer entry slot h) := by
  intro d
  rcases d.bindBuffer_cases entry slot h with ⟨-, -, heq⟩ | ⟨e, heq⟩
  · exact ⟨_, congrArg Outcome.state heq, d.quiet_setBindings entry _⟩
  · exact ⟨d, congrArg Outcome.state heq, .refl d⟩

/-- So is binding a surface. -/
theorem isQuiet_bindTexture (slot : String) (h : SurfaceHandle) :
    IsQuiet (bindTexture entry slot h) := by
  intro d
  rcases d.bindTexture_cases entry slot h with heq | ⟨e, heq⟩
  · exact ⟨_, congrArg Outcome.state heq, d.quiet_setBindings entry _⟩
  · exact ⟨d, congrArg Outcome.state heq, .refl d⟩

/-- So is a dispatch. -/
theorem isQuiet_dispatch (groups : Uint3) : IsQuiet (dispatch entry groups) := by
  intro d
  rcases d.dispatch_cases entry groups with heq | ⟨e, heq⟩
  · exact ⟨_, congrArg Outcome.state heq, rfl, rfl, rfl, rfl, rfl⟩
  · exact ⟨d, congrArg Outcome.state heq, .refl d⟩

end Device

/-! ## The machine -/

namespace Machine

/-- The texture stands for an image, and has a property of its own. -/
def Holds (r : TextureRef) (size : Uint2) (image : Array Float4) (P : Texture → Prop)
    (m : Machine) : Prop :=
  ∃ d, m.device = .host d ∧ Settled r size image m.memory d ∧ P (m.memory.texture r)

variable {r : TextureRef} {size : Uint2} {image image' : Array Float4}
    {P Q : Texture → Prop} {α : Type}

/-- Less may be said of it. -/
theorem Holds.mono {m : Machine} (h : m.Holds r size image P) (hPQ : ∀ t, P t → Q t) :
    m.Holds r size image Q := by
  obtain ⟨d, hd, hs, hP⟩ := h
  exact ⟨d, hd, hs, hPQ _ hP⟩

/-- A use of the device that touches no surface keeps the texture. -/
theorem keeps_onDevice {a : Action Device α} (ha : Device.Spares a) :
    Keeps (Holds r size image P) (onDevice a) := by
  rintro ⟨memory, _⟩ ⟨d, rfl, hs, hP⟩
  obtain ⟨d', hstate, hissued, hsurfaces⟩ := ha d
  exact ⟨d', hstate, hs.spared hissued hsurfaces, hP⟩

/-- Transfers of other textures keep the texture. -/
theorem keeps_onTexture_of_ne {r' : TextureRef} (hr : r' ≠ r) {a : Action (Texture × Device) α}
    (ha : ∀ t d, Keeps (Framed t d) a) :
    Keeps (Holds r size image P) (onTexture r' a) := by
  rintro ⟨memory, _⟩ ⟨d, rfl, hs, hP⟩
  obtain ⟨d', hstate, hf⟩ := ha _ d _ (framed_self (memory.texture r') d)
  refine ⟨d', hstate, hs.other hr hf, ?_⟩
  show P ((memory.setTexture r' _).texture r)
  rw [memory.texture_setTexture_of_ne (Ne.symm hr)]
  exact hP

/-- A transfer of the texture itself does what it does for the texture alone. -/
theorem meets_onTexture {a : Action (Texture × Device) α} {R : α → Texture → Prop} {m : Machine}
    (hm : m.Holds r size image P) (hframe : ∀ t d, Keeps (Framed t d) a)
    (ha : ∀ t d, t.Coherent d image → t.width = size.x → t.height = size.y → P t →
      (a (t, .host d)).Meets (fun x s => Texture.Shows image' s ∧ R x s.1) fun _ => False) :
    (onTexture r a m).Meets (fun x m => m.Holds r size image' (R x)) fun _ => False := by
  obtain ⟨memory, _⟩ := m
  obtain ⟨d, rfl, hs, hP⟩ := hm
  refine meets_zoom ?_
  refine ((ha _ d hs.coherent hs.width hs.height hP).and_state
    (hframe _ d _ (framed_self _ d))).mono ?_ fun _ h => h.1
  rintro x ⟨t, _⟩ ⟨⟨⟨d', rfl, hc⟩, hR⟩, ⟨d'', heq, hf⟩⟩
  obtain rfl := Device.host.inj heq
  refine ⟨d', rfl, hs.own hf hc, ?_⟩
  show R x ((memory.setTexture r t).texture r)
  rw [Memory.texture_setTexture_self hs.present]
  exact hR

/-- A transfer leaves the image that it leaves for the texture alone. -/
theorem holds_onTexture {a : Action (Texture × Device) α} {m : Machine}
    (hm : m.Holds r size image P) (hframe : ∀ t d, Keeps (Framed t d) a)
    (ha : ∀ t d, t.Coherent d image → t.width = size.x → t.height = size.y →
      (a (t, .host d)).Meets (fun _ s => Texture.Shows image' s) fun _ => False) :
    (onTexture r a m).state.Holds r size image' fun _ => True := by
  refine Outcome.Meets.state ((meets_onTexture (R := fun _ _ => True) hm hframe ?_).mono_broken
    fun _ h => h.elim)
  exact fun t d hc hw hh _ => (ha t d hc hw hh).mono (fun _ _ h => ⟨h, trivial⟩) fun _ h => h

/-- A change of the texture itself, without the device. -/
theorem meets_change {f : Texture → Texture} {m : Machine} (hm : m.Holds r size image P)
    (hkept : ∀ t, (f t).width = t.width ∧ (f t).height = t.height ∧ (f t).surface = t.surface)
    (hf : ∀ t d, t.Coherent d image → P t → (f t).Coherent d image' ∧ Q (f t)) :
    (onTexture r (change f) m).Meets (fun _ m => m.Holds r size image' Q) fun _ => False := by
  refine meets_onTexture (R := fun _ => Q) hm (fun _ _ => keeps_change hkept) ?_
  intro t d hc _ _ hP
  obtain ⟨hc', hQ⟩ := hf t d hc hP
  exact ⟨⟨d, rfl, hc'⟩, hQ⟩

end Machine

end ComputeKernel
