import ComputeKernel.Proofs.Dispatch.Step
import ComputeKernel.Proofs.Texture.Surface

/-!
# The textures of one device

Some of the textures in memory belong to a device: they are used with no other. `Memory.Sound` says
that each of them is sized for the device, and that no two of them have the same surface. A use of
one of them leaves the surfaces of the others as they are, so it keeps all of them sound
(`Sound.exchange`); and so does whatever else happens to memory, as long as textures keep their
surfaces (`Sound.steady`), or to the device, as long as it keeps what it has (`Sound.grow`).
-/

namespace ComputeKernel

variable {ours : TextureRef → Prop}

namespace Memory

/-- What may happen to textures without the device: they keep their surfaces, and with a surface
their size. -/
structure Steady (ours : TextureRef → Prop) (m m' : Memory) : Prop where
  surface : ∀ r, ours r → (m'.texture r).surface = (m.texture r).surface
  size : ∀ r, ours r → (m.texture r).surface ≠ none →
    (m'.texture r).width = (m.texture r).width ∧ (m'.texture r).height = (m.texture r).height
  image : ∀ r, ours r → (m.texture r).image.size =
    (m.texture r).width.toNat * (m.texture r).height.toNat →
    (m'.texture r).image.size = (m'.texture r).width.toNat * (m'.texture r).height.toNat

namespace Steady

/-- Nothing may happen. -/
theorem refl (m : Memory) : Steady ours m m :=
  ⟨fun _ _ => rfl, fun _ _ _ => ⟨rfl, rfl⟩, fun _ _ h => h⟩

/-- Two steps make one. -/
theorem trans {m m' m'' : Memory} (h : Steady ours m m') (h' : Steady ours m' m'') :
    Steady ours m m'' where
  surface r hr := (h'.surface r hr).trans (h.surface r hr)
  size r hr hs := by
    obtain ⟨hwidth, hheight⟩ := h.size r hr hs
    obtain ⟨hwidth', hheight'⟩ := h'.size r hr (h.surface r hr ▸ hs)
    exact ⟨hwidth'.trans hwidth, hheight'.trans hheight⟩
  image r hr himage := h'.image r hr (h.image r hr himage)

/-- Buffers may be written. -/
theorem of_textures {m m' : Memory} (h : m'.textures = m.textures) : Steady ours m m' := by
  have heq := texture_congr h
  exact ⟨fun r _ => by
    rw [heq], fun r _ _ => by
    rw [heq]; exact ⟨rfl, rfl⟩, fun r _ himage => by rw [heq]; exact himage⟩

/-- A texture may be written. -/
theorem modifyTexture (m : Memory) (r : TextureRef) {f : Texture → Texture}
    (hf : ∀ t, (f t).width = t.width ∧ (f t).height = t.height ∧ (f t).surface = t.surface)
    (himage : ∀ t, t.image.size = t.width.toNat * t.height.toNat →
      (f t).image.size = t.width.toNat * t.height.toNat) : Steady ours m (m.modifyTexture r f) := by
  have hcases : ∀ r', (m.modifyTexture r f).texture r' = m.texture r' ∨
      (m.modifyTexture r f).texture r' = f (m.texture r') := by
    intro r'
    rw [modifyTexture_eq, texture_setTexture]
    split
    next h => exact .inr (by rw [h.1])
    next => exact .inl rfl
  refine ⟨fun r' _ => ?_, fun r' _ _ => ?_, fun r' _ hsize => ?_⟩
  · rcases hcases r' with heq | heq
    · rw [heq]
    · rw [heq, (hf _).2.2]
  · rcases hcases r' with heq | heq
    · rw [heq]
      exact ⟨rfl, rfl⟩
    · rw [heq]
      exact ⟨(hf _).1, (hf _).2.1⟩
  · rcases hcases r' with heq | heq
    · rw [heq, hsize]
    · rw [heq, (hf _).1, (hf _).2.1, himage _ hsize]

end Steady

/-- The textures of a device are sized, and no two of them share a surface. -/
structure Sound (ours : TextureRef → Prop) (m : Memory) (d : HostDevice) : Prop where
  sized : ∀ r, ours r → (m.texture r).Sized d
  issued : ∀ r h, ours r → (m.texture r).surface = some h → h.id ≤ d.issued
  apart : ∀ r r' h, ours r → ours r' → (m.texture r).surface = some h → (m.texture r').surface =
    some h → r = r'

namespace Sound

variable {m m' : Memory} {d d' : HostDevice}

/-- Textures may be written on the host. -/
theorem steady (hs : m.Sound ours d) (hm : m.Steady ours m') : m'.Sound ours d where
  sized r hr := by
    have hsized := hs.sized r hr
    refine ⟨hm.image r hr hsized.image, fun h hh => ?_⟩
    rw [hm.surface r hr] at hh
    obtain ⟨hwidth, hheight⟩ := hm.size r hr (by rw [hh]; exact Option.some_ne_none h)
    rw [hwidth, hheight]
    exact hsized.surface h hh
  issued r h hr hh := hs.issued r h hr (hm.surface r hr ▸ hh)
  apart r r' h hr hr' hh hh' :=
    hs.apart r r' h hr hr' (hm.surface r hr ▸ hh) (hm.surface r' hr' ▸ hh')

/-- The device may make things, and overwrite surfaces by as many texels. -/
theorem grow (hs : m.Sound ours d) (hissued : d.issued ≤ d'.issued)
    (hsurfaces : ∀ k s, d.surfaces.get? k = some s → ∃ s', d'.surfaces.get? k = some s' ∧
      s'.pixels.size = s.pixels.size) : m.Sound ours d' where
  sized r hr := by
    refine ⟨(hs.sized r hr).image, fun h hh => ?_⟩
    obtain ⟨s, hget, hsize⟩ := (hs.sized r hr).surface h hh
    obtain ⟨s', hget', hsize'⟩ := hsurfaces h.id s hget
    exact ⟨s', hget', hsize'.trans hsize⟩
  issued r h hr hh := (hs.issued r h hr hh).trans hissued
  apart := hs.apart

/-- A use of the device that touches no surface. -/
theorem spared (hs : m.Sound ours d) (hissued : d.issued ≤ d'.issued)
    (hsurfaces : d'.surfaces = d.surfaces) :
    m.Sound ours d' :=
  hs.grow hissued fun k s hget => ⟨s, by rw [hsurfaces, hget], rfl⟩

/-- **A use of one texture keeps all of them sound.** -/
theorem exchange (hs : m.Sound ours d) {r : TextureRef} (hr : ours r) {t : Texture}
    (hx : (m.texture r).Exchange d t d') (ht : t.Sized d') : (m.setTexture r t).Sound ours d' := by
  have hframe := hx.frame
  -- A texture is the one that was used, or has another surface.
  have hcases : ∀ r', ours r' → r' = r ∧ (m.setTexture r t).texture r' = t ∨
      (m.setTexture r t).texture r' = m.texture r' ∧
        ∀ h, (m.texture r').surface = some h → (m.texture r).surface ≠ some h := by
    intro r' hr'
    rw [texture_setTexture]
    split
    next hsame => exact .inl ⟨hsame.1, rfl⟩
    next hother =>
      refine .inr ⟨rfl, fun h hh hh' => ?_⟩
      obtain rfl := hs.apart r' r h hr' hr hh hh'
      have hle : m.textures.size ≤ r'.index := Nat.le_of_not_lt fun hlt => hother ⟨rfl, hlt⟩
      rw [texture_of_le hle] at hh
      cases hh
  refine ⟨fun r' hr' => ?_, fun r' h hr' hh => ?_, fun r₁ r₂ h hr₁ hr₂ hh₁ hh₂ => ?_⟩
  · rcases hcases r' hr' with ⟨-, heq⟩ | ⟨heq, hne⟩
    · rw [heq]
      exact ht
    · rw [heq]
      exact (hs.sized r' hr').congr rfl rfl rfl rfl fun h hh =>
        hframe.others h.id (hs.issued r' h hr' hh) (hne h hh)
  · rcases hcases r' hr' with ⟨-, heq⟩ | ⟨heq, -⟩
    · rw [heq] at hh
      rcases hframe.surface h hh with hold | ⟨-, hle⟩
      · exact (hs.issued r h hr hold).trans hframe.issued
      · exact hle
    · rw [heq] at hh
      exact (hs.issued r' h hr' hh).trans hframe.issued
  · rcases hcases r₁ hr₁ with ⟨rfl, heq₁⟩ | ⟨heq₁, hne₁⟩
    · rcases hcases r₂ hr₂ with ⟨rfl, -⟩ | ⟨heq₂, hne₂⟩
      · rfl
      · rw [heq₂] at hh₂
        rw [heq₁] at hh₁
        exact absurd hh₁ (hframe.surface_ne (hs.issued r₂ h hr₂ hh₂) (hne₂ h hh₂))
    · rw [heq₁] at hh₁
      rcases hcases r₂ hr₂ with ⟨rfl, heq₂⟩ | ⟨heq₂, -⟩
      · rw [heq₂] at hh₂
        exact absurd hh₂ (hframe.surface_ne (hs.issued r₁ h hr₁ hh₁) (hne₁ h hh₁))
      · rw [heq₂] at hh₂
        exact hs.apart r₁ r₂ h hr₁ hr₂ hh₁ hh₂

end Sound

end Memory

/-! ## Machines -/

namespace Machine

/-- The textures are sound, and the device has certain entry points. -/
def Sound (ours : TextureRef → Prop) (names : List String) (m : Machine) : Prop :=
  ∃ d, m.device = .host d ∧ d.entries = names ∧ m.memory.Sound ours d

variable {names : List String} {r : TextureRef} {α : Type}

/-- A tidy use of a texture keeps the textures sound. -/
theorem keeps_sound_onTexture (hr : ours r) {a : Action (Texture × Device) α}
    (ha : Texture.Tidy a) :
    Action.Keeps (Sound ours names) (onTexture r a) := by
  rintro ⟨m, device⟩ ⟨d, rfl, hnames, hs⟩
  obtain ⟨u, d', hstate, hexchange, hsized⟩ := ha _ d (hs.sized r hr)
  simp only [onTexture, Action.zoom, hstate]
  exact ⟨d', rfl, hexchange.entries.1.trans hnames, hs.exchange hr hexchange hsized⟩

/-- A use that only binds, counts and records keeps textures sound. -/
theorem keeps_sound_quiet {a : Action Device α} (ha : Device.IsQuiet a) :
    Action.Keeps (Sound ours names) (onDevice a) := by
  rintro ⟨m, device⟩ ⟨d, rfl, hnames, hs⟩
  obtain ⟨d', hstate, hquiet⟩ := ha d
  simp only [onDevice, Action.zoom, hstate]
  exact ⟨d', rfl, hquiet.entries.1.trans hnames, hs.spared hquiet.issued.ge hquiet.surfaces⟩

/-- A transfer of a buffer keeps the textures sound. -/
theorem Sound.transfer {m m' : Memory} {d d' : HostDevice} {b b' : BufferBinding}
    (hm : (mk m (.host d)).Sound ours names) (ht : b.Transfer m d b' m' d') :
    (mk m' (.host d')).Sound ours names := by
  obtain ⟨_, heq, hnames, hs⟩ := hm
  cases heq
  refine ⟨d', rfl, ht.entries.1.trans hnames, ?_⟩
  exact (hs.steady (.of_textures ht.textures)).spared ht.moves.issued_le ht.surfaces

/-- What transfers a buffer keeps the textures sound. -/
theorem keeps_sound_transfer {a : Action (BufferBinding × Machine) α}
    (ha : ∀ b m d, BufferBinding.Transferred b m d (a (b, ⟨m, .host d⟩)).state) :
    Action.Keeps (fun s : BufferBinding × Machine => s.2.Sound ours names) a := by
  rintro ⟨b, ⟨m, device⟩⟩ hs
  obtain ⟨d, rfl, -⟩ := id hs
  obtain ⟨b', m', d', hstate, htransfer⟩ := ha b m d
  rw [hstate]
  exact hs.transfer htransfer

end Machine

end ComputeKernel
