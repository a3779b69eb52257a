import ComputeKernel.Proofs.Texture.Machine

/-!
# The surface of a texture

What a transfer to the device does, case by case. A texture without a surface is given a new one
that holds its texels (`toDevice_of_none`). A surface that is not behind is taken as it is, whatever
device is asked (`toDevice_of_current`). One that is behind is looked up by its number on the device
that is asked, and overwritten if there is one of the right size (`toDevice_of_stale`), or else
refused (`toDevice_of_refused`). A transfer to the host has the like cases.

A texture is `Sized` for a device when its image has the size of the texture, and so has its
surface, which is there. Then no transfer is refused, in either direction, and the texture stays
sized (`toDevice_sized`, `toHost_sized`).
-/

namespace ComputeKernel

open HostDevice
open ComputeKernel.Action

/-- The device after an image was copied to one of its surfaces. -/
def HostDevice.withImage (d : HostDevice) (h : SurfaceHandle) (s : HostSurface)
    (pixels : Array Float4) : HostDevice :=
  { d with surfaces := d.surfaces.put h.id { s with pixels }, stats.blits := d.stats.blits + 1 }

/-- Only this surface has changed. -/
theorem HostDevice.get?_withImage (d : HostDevice) (h : SurfaceHandle) (s : HostSurface)
    (pixels : Array Float4) (k : Nat) : (d.withImage h s pixels).surfaces.get? k =
      if k = h.id then some { s with pixels } else d.surfaces.get? k :=
  Keyed.get?_put_nat _ _ _ _

namespace Texture

variable {t : Texture} {h : SurfaceHandle} {d : HostDevice}
variable {s : HostSurface}

/-- The texture once its texels are on a surface. -/
def shown (t : Texture) (h : SurfaceHandle) : Texture :=
  { t with surface := some h, image := t.pixels, deviceStale := false }

/-! ## Transfers to the device -/

/-- A surface that is not behind is taken as it is. -/
theorem toDevice_of_current (hs : t.surface = some h) (hstale : t.deviceStale = false)
    (device : Device) :
    toDevice (t, device) = { result := .ok h, state := (t, device) } := by
  rw [toDevice, bind_of_ok (ensureSurface_of_some hs), get_bind]
  simp only [hstale]
  rfl

/-- The texels go to a surface of their size that is behind. -/
theorem toDevice_of_stale (hs : t.surface = some h) (hstale : t.deviceStale = true)
    (hget : d.surfaces.get? h.id = some s) (hsize : s.pixels.size = t.pixels.size) :
    toDevice (t, .host d) =
      { result := .ok h, state := (t.shown h, .host (d.withImage h s t.pixels))
        events := [.textureBlitted t.width t.height] } := by
  have hblit : Device.blit h t.snapshot (.host d) =
      { result := .ok (), state := .host (d.withImage h s t.pixels) } := by
    simp only [snapshot_eq, Device.blit, blit_eq_ok t.pixels hget hsize]
    rfl
  rw [toDevice, bind_of_ok (ensureSurface_of_some hs), get_bind]
  simp only [hstale, if_true, bind_eq, change, Action.modify, report, onDevice, zoom, hblit]
  simp only [shown, snapshot_eq, hs]
  rfl

/-- A surface that is behind, and is not there or has another size, is refused. -/
theorem toDevice_of_refused (hs : t.surface = some h) (hstale : t.deviceStale = true)
    (hrefused : ∀ s, d.surfaces.get? h.id = some s → s.pixels.size ≠ t.pixels.size) :
    ∃ e, toDevice (t, .host d) =
      { result := .error e, state := ({ t with image := t.pixels }, .host d)
        events := [.textureBlitted t.width t.height] } := by
  obtain ⟨e, hblit⟩ : ∃ e, Device.blit h t.snapshot (.host d) =
      { result := .error e, state := .host d } := by
    rw [snapshot_eq]
    cases hget : d.surfaces.get? h.id with
    | none => exact ⟨_, by simp only [Device.blit, blit, hget]; rfl⟩
    | some s => exact ⟨_, by simp only [Device.blit, blit, hget, if_neg (hrefused s hget)]; rfl⟩
  refine ⟨e, ?_⟩
  rw [toDevice, bind_of_ok (ensureSurface_of_some hs), get_bind]
  simp only [hstale, if_true, bind_eq, change, Action.modify, report, onDevice, zoom, hblit]
  simp only [snapshot_eq]
  rfl

/-- A texture without a surface is given a new one that holds its texels. -/
theorem toDevice_of_none (hs : t.surface = none) (d : HostDevice) :
    ∃ d', toDevice (t, .host d) =
      { result := .ok ⟨d.issued + 1⟩, state := (t.shown ⟨d.issued + 1⟩, .host d')
        events := [.textureBlitted t.width t.height] } ∧
      d'.issued = d.issued + 1 ∧ ∀ k, d'.surfaces.get? k =
        if k = d.issued + 1 then some ⟨t.width, t.height, t.format, t.pixels⟩
        else d.surfaces.get? k := by
  -- The surface is made first, and from then on it is one that is behind.
  let u : Texture := { t with surface := some ⟨d.issued + 1⟩, deviceStale := true }
  let d₁ := d.withSurface t.width t.height t.format
  have hmade : toDevice (t, .host d) = toDevice (u, .host d₁) := by
    rw [toDevice, bind_of_ok (ensureSurface_of_none d hs), bind_of_ok (ensureSurface_of_some rfl)]
  have hget : ∀ k, d₁.surfaces.get? k = if k = d.issued + 1 then
      some ⟨t.width, t.height, t.format, Array.replicate (t.width.toNat * t.height.toNat) .zero⟩
      else d.surfaces.get? k := fun k => Keyed.get?_put_nat _ _ _ _
  have hstale := toDevice_of_stale (t := u) (h := ⟨d.issued + 1⟩) rfl rfl
    ((hget _).trans (if_pos rfl))
    (Array.size_replicate.trans t.size_pixels.symm)
  refine ⟨_, hmade.trans hstale, rfl, fun k => ?_⟩
  rw [get?_withImage, hget]
  split
  next => rfl
  next => rfl

/-! ## Transfers to the host -/

/-- A host that is not behind is left as it is. -/
theorem toHost_of_current (hstale : t.hostStale = false) (device : Device) :
    toHost (t, device) = { result := .ok (), state := (t, device) } := by
  rw [toHost, get_bind]
  simp only [hstale]
  rfl

/-- A host that is behind no surface is as current as can be. -/
theorem toHost_of_none (hs : t.surface = none) (hstale : t.hostStale = true) (device : Device) :
    toHost (t, device) =
      { result := .ok (), state := ({ t with hostStale := false }, device) } := by
  rw [toHost, get_bind]
  simp only [hstale, if_true, hs]
  simp only [← hs]
  rfl

/-- The texture after its surface was read back. -/
def received (t : Texture) (pixels : Array Float4) : Texture :=
  { ({ t with image := pixels } : Texture).store pixels.toList with hostStale := false }

/-- A host that is behind receives the texels of the surface. -/
theorem toHost_of_stale (hs : t.surface = some h) (hstale : t.hostStale = true)
    (hget : d.surfaces.get? h.id = some s) (hsize : s.pixels.size = t.image.size) :
    toHost (t, .host d) =
      { result := .ok ()
        state := (t.received s.pixels, .host { d with stats.readBacks := d.stats.readBacks + 1 })
        events := [.textureReadBack t.width t.height] } := by
  have hread : Device.readBack h t.image (.host d) =
      { result := .ok s.pixels,
          state := .host { d with stats.readBacks := d.stats.readBacks + 1 } } := by
    simp only [Device.readBack, readBack, hget, if_pos hsize]
    rfl
  rw [toHost, get_bind]
  simp only [hstale, if_true, hs, bind_eq, change, Action.modify, report, onDevice, zoom, hread]
  simp only [received, hs]
  rfl

/-! ## Sizes -/

/-- The image of a texture has its size, and so has its surface. -/
structure Sized (t : Texture) (d : HostDevice) : Prop where
  image : t.image.size = t.width.toNat * t.height.toNat
  surface : ∀ h, t.surface = some h → ∃ s, d.surfaces.get? h.id = some s ∧
    s.pixels.size = t.width.toNat * t.height.toNat

/-- It matters which surface the texture has, and what is there. -/
theorem Sized.congr (ht : t.Sized d) {t' : Texture} {d' : HostDevice}
    (himage : t'.image.size = t.image.size) (hwidth : t'.width = t.width)
    (hheight : t'.height = t.height) (hsurface : t'.surface = t.surface)
    (hd : ∀ h, t.surface = some h → d'.surfaces.get? h.id = d.surfaces.get? h.id) :
    t'.Sized d' where
  image := by rw [himage, hwidth, hheight, ht.image]
  surface h hh := by
    rw [hwidth, hheight, hd h (hsurface ▸ hh)]
    exact ht.surface h (hsurface ▸ hh)

/-- The texture is sized once its texels are on a surface. -/
theorem sized_shown (hget : d.surfaces.get? h.id = some s) (hpixels : s.pixels = t.pixels) :
    (t.shown h).Sized d where
  image := t.size_pixels
  surface h' hh' := by
    cases hh'
    exact ⟨s, hget, hpixels ▸ t.size_pixels⟩

/-- **A sized texture is presented**, and stays sized. -/
theorem toDevice_sized (ht : t.Sized d) :
    (toDevice (t, .host d)).Meets
      (fun h s => ∃ u d', s = (u, .host d') ∧ u.Sized d' ∧ u.surface = some h) fun _ => False := by
  rcases Option.eq_none_or_eq_some t.surface with hs | ⟨h, hs⟩
  · obtain ⟨d', heq, -, hget⟩ := toDevice_of_none hs d
    rw [heq]
    exact ⟨_, d', rfl, sized_shown ((hget _).trans (if_pos rfl)) rfl, rfl⟩
  · cases hstale : t.deviceStale with
    | false =>
      rw [toDevice_of_current hs hstale]
      exact ⟨t, d, rfl, ht, hs⟩
    | true =>
      obtain ⟨s, hget, hsize⟩ := ht.surface h hs
      rw [toDevice_of_stale hs hstale hget (hsize.trans t.size_pixels.symm)]
      refine ⟨_, _, rfl, sized_shown ((d.get?_withImage h s _ _).trans (if_pos rfl)) rfl, rfl⟩

/-- **A sized texture is read back**, and stays sized. -/
theorem toHost_sized (ht : t.Sized d) :
    (toHost (t, .host d)).Meets (fun _ s => ∃ u d', s = (u, .host d') ∧
    u.Sized d') fun _ => False := by
  cases hstale : t.hostStale with
  | false =>
    rw [toHost_of_current hstale]
    exact ⟨t, d, rfl, ht⟩
  | true =>
    rcases Option.eq_none_or_eq_some t.surface with hs | ⟨h, hs⟩
    · rw [toHost_of_none hs hstale]
      exact ⟨_, d, rfl, ht.congr rfl rfl rfl rfl fun _ _ => rfl⟩
    · obtain ⟨s, hget, hsize⟩ := ht.surface h hs
      rw [toHost_of_stale hs hstale hget (hsize.trans ht.image.symm)]
      exact ⟨_, _, rfl, ht.congr (hsize.trans ht.image.symm) rfl rfl rfl fun _ _ => rfl⟩

/-- A use of a texture that keeps it sized, however it ends. -/
def Tidy {α : Type} (a : Action (Texture × Device) α) : Prop :=
  ∀ t d, t.Sized d → ∃ u d', (a (t, .host d)).state = (u, .host d') ∧ t.Exchange d u d' ∧ u.Sized d'

/-- A transfer to the device is tidy. -/
theorem tidy_toDevice : Tidy toDevice := by
  intro t d ht
  obtain ⟨u, d', hstate, hexchange⟩ := exchanged_toDevice t d
  obtain ⟨h, -, u', d'', hstate', hsized, -⟩ := (toDevice_sized ht).succeeds
  cases hstate.symm.trans hstate'
  exact ⟨u, d', hstate, hexchange, hsized⟩

/-- So is a transfer to the host. -/
theorem tidy_toHost : Tidy toHost := by
  intro t d ht
  obtain ⟨u, d', hstate, hexchange⟩ := exchanged_toHost t d
  obtain ⟨_, -, u', d'', hstate', hsized⟩ := (toHost_sized ht).succeeds
  cases hstate.symm.trans hstate'
  exact ⟨u, d', hstate, hexchange, hsized⟩

/-- So is a release. -/
theorem tidy_release : Tidy release := by
  intro t d ht
  obtain ⟨d', heq, hexchange⟩ := release_eq t d
  refine ⟨_, d', congrArg Outcome.state heq, hexchange, ?_⟩
  rw [released]
  split
  next => exact ⟨ht.image, fun h hh => by simp at hh⟩
  next hs => exact ⟨ht.image, fun h hh => absurd (hh ▸ rfl) hs⟩

/-- A change of the texture alone, that keeps what the sizes are about. -/
theorem tidy_change {f : Texture → Texture}
    (hf : ∀ u, (f u).width = u.width ∧ (f u).height = u.height ∧ (f u).surface = u.surface)
    (himage : ∀ u, u.image.size = u.width.toNat * u.height.toNat →
      (f u).image.size = u.width.toNat * u.height.toNat) : Tidy (change f) := by
  intro t d ht
  obtain ⟨hwidth, hheight, hsurface⟩ := hf t
  refine ⟨f t, d, rfl, .of_texture (hf t) rfl, ht.congr ?_ hwidth hheight hsurface fun _ _ => rfl⟩
  rw [himage t ht.image, ht.image]

end Texture

end ComputeKernel
