import ComputeKernel.Proofs.Texture.Sound
import ComputeKernel.Proofs.Dispatch.SingleCopy

/-!
# Several devices

Dispatchers with devices of their own may use the same textures. A `Cluster` is the memory and the
devices, and it remembers which device has made the surface of each texture (`maker`). A texture
keeps the number of its surface but not its device. So a texture that is presented to another device
is taken to be there: its number is handed out if it is not behind, and looked up among the surfaces
of the wrong device if it is (`stray_surface`).

Whatever is done, a texture whose surface a device has made has it there, with its size, and two
textures never share one (`Cluster.Housed`). While no texels are copied to a device that the texture
does not suit, surfaces also have the texels that the host has, unless one of the sides is behind
(`Cluster.Synced`). So presenting a texture gives a surface of its own on the device exactly if it
suits the device (`shared_surface`).
-/

namespace ComputeKernel

open HostDevice
open ComputeKernel.Action Machine Memory

variable {ι : Type} {α : Type}

/-! ## One texture -/

/-- The device has a surface of the texture's size and format. -/
def HostDevice.Carries (d : HostDevice) (h : SurfaceHandle) (t : Texture) : Prop :=
  ∃ pixels : Array Float4, pixels.size = t.pixels.size ∧
    d.surfaces.get? h.id = some ⟨t.width, t.height, t.format, pixels⟩

/-- The surface has the texels of the texture, if it is there. -/
def HostDevice.Displays (d : HostDevice) (h : SurfaceHandle) (t : Texture) : Prop :=
  ∀ s, d.surfaces.get? h.id = some s → s.pixels = t.pixels

/-- A surface that is carried and displayed. -/
theorem HostDevice.Carries.get?_eq {d : HostDevice} {h : SurfaceHandle} {t : Texture}
    (hc : d.Carries h t) (hd : d.Displays h t) :
    d.surfaces.get? h.id = some ⟨t.width, t.height, t.format, t.pixels⟩ := by
  obtain ⟨pixels, -, hget⟩ := hc
  rw [hget, ← hd _ hget]

namespace Texture

/-- How a texture with its surface may change with a device. -/
structure Advance (t : Texture) (d : HostDevice) (t' : Texture) (d' : HostDevice) :
    Prop extends Frame t d t' d' where
  format : t'.format = t.format
  kept : ∀ h, t.surface = some h → t'.surface = some h
  /-- A surface that was made is one for the texture. -/
  made : ∀ h, t.surface = none → t'.surface = some h → d'.Carries h t'
  /-- Surfaces may be overwritten, by texels of the same number. -/
  stays : ∀ k ≤ d.issued, ∀ s, d.surfaces.get? k = some s → ∃ pixels : Array Float4,
    pixels.size = s.pixels.size ∧ d'.surfaces.get? k = some { s with pixels }
  /-- If no side is behind then the texels have just been copied, or nothing has changed. -/
  synced : t'.hostStale = false → t'.deviceStale = false →
    (∀ h, t'.surface = some h → d'.Displays h t') ∨
    d'.surfaces = d.surfaces ∧ t'.pixels = t.pixels ∧ t'.surface = t.surface ∧ t.hostStale = false ∧
      t.deviceStale = false
  /-- A surface that is not behind is not written to. -/
  idle : ∀ h, t.surface = some h → t.deviceStale = false → d'.surfaces = d.surfaces ∧
    (t'.hostStale = false → t'.deviceStale = false → t'.pixels = t.pixels ∧ t.hostStale = false)

/-- The texture keeps its size. -/
theorem Advance.size_pixels {t t' : Texture} {d d' : HostDevice} (x : t.Advance d t' d') :
    t'.pixels.size = t.pixels.size := by
  rw [t'.size_pixels, t.size_pixels, x.width, x.height]

/-- The texture alone may change, with one side behind. -/
theorem Advance.of_texture {t t' : Texture} {d : HostDevice}
    (h : t'.width = t.width ∧ t'.height = t.height ∧ t'.surface = t.surface)
    (hformat : t'.format = t.format) (hstale : t'.hostStale = true ∨ t'.deviceStale = true) :
    t.Advance d t' d where
  toFrame := .of_texture h
  format := hformat
  kept _ hh := h.2.2.trans hh
  made _ hnone hh := by simp [← h.2.2, hh] at hnone
  stays _ _ s hget := ⟨s.pixels, rfl, hget⟩
  synced hhost hdevice := by simp [hhost, hdevice] at hstale
  idle _ _ _ := ⟨rfl, fun hhost hdevice => by simp [hhost, hdevice] at hstale⟩

/-- Presenting a texture to any device advances it. -/
theorem toDevice_advance (t : Texture) (d : HostDevice) :
    ∃ t' d', (toDevice (t, .host d)).state = (t', .host d') ∧ t.Advance d t' d' ∧
    t'.pixels = t.pixels ∧
      (t.deviceStale = false → t'.deviceStale = false) := by
  obtain ⟨u, e, hstate, hexchange⟩ := exchanged_toDevice t d
  have hframe := hexchange.frame
  refine ⟨u, e, hstate, ?_⟩
  rcases Option.eq_none_or_eq_some t.surface with hs | ⟨h, hs⟩
  · obtain ⟨d', heq, hissued, hget⟩ := toDevice_of_none hs d
    obtain ⟨rfl, rfl⟩ : u = t.shown ⟨d.issued + 1⟩ ∧ e = d' := by
      rw [heq] at hstate
      cases hstate
      exact ⟨rfl, rfl⟩
    have hnew : e.surfaces.get? (d.issued + 1) = some ⟨t.width, t.height, t.format, t.pixels⟩ :=
      (hget _).trans (if_pos rfl)
    refine ⟨⟨hframe, rfl, fun h hh => ?_, fun h _ hh => ?_, fun k hk s hold => ?_,
      fun _ _ => .inl fun h hh s hsome => ?_, fun h hh => ?_⟩, rfl, fun _ => rfl⟩
    · simp [hs] at hh
    · cases hh
      exact ⟨t.pixels, rfl, hnew⟩
    · exact ⟨s.pixels, rfl, by rw [hget, if_neg (by omega), hold]⟩
    · cases hh
      cases hnew.symm.trans hsome
      rfl
    · simp [hs] at hh
  · cases hstale : t.deviceStale with
    | false =>
      rw [toDevice_of_current hs hstale] at hstate
      cases hstate
      exact ⟨⟨hframe, rfl, fun _ hh => hh, fun _ hnone hh => by simp [hnone] at hh,
        fun _ _ s hold => ⟨s.pixels, rfl, hold⟩, fun hhost hdevice =>
          .inr ⟨rfl, rfl, rfl, hhost, hdevice⟩,
        fun _ _ _ => ⟨rfl, fun hhost _ => ⟨rfl, hhost⟩⟩⟩, rfl, fun _ => hstale⟩
    | true =>
      by_cases hfound : ∃ s, d.surfaces.get? h.id = some s ∧ s.pixels.size = t.pixels.size
      · obtain ⟨s, hget, hsize⟩ := hfound
        rw [toDevice_of_stale hs hstale hget hsize] at hstate
        cases hstate
        refine ⟨⟨hframe, rfl, fun _ hh => hs.symm.trans hh, fun _ hnone _ => by simp [hs] at hnone,
          fun k _ s' hold => ?_, fun _ _ => .inl fun h' hh s' hsome => ?_, fun _ _ h => by
            simp [hstale] at h⟩,
          rfl, fun _ => rfl⟩
        · rw [get?_withImage]
          split
          next heq =>
            subst heq
            cases hget.symm.trans hold
            exact ⟨t.pixels, hsize.symm, rfl⟩
          next => exact ⟨s'.pixels, rfl, hold⟩
        · cases hh
          rw [get?_withImage, if_pos rfl] at hsome
          cases hsome
          rfl
      · obtain ⟨_, heq⟩ := toDevice_of_refused hs hstale (d := d) fun s hget hsize =>
          hfound ⟨s, hget, hsize⟩
        rw [heq] at hstate
        cases hstate
        exact ⟨.of_texture ⟨rfl, rfl, rfl⟩ rfl (.inr hstale), rfl, fun h => by simp at h⟩

end Texture

/-! ## Memory and devices -/

/-- Textures keep their surfaces, which do not fall behind. -/
structure Memory.Lasting (m m' : Memory) : Prop where
  size : m'.textures.size = m.textures.size
  surface : ∀ r h, (m.texture r).surface = some h → (m'.texture r).surface = some h
  current : ∀ r, (m.texture r).deviceStale = false → (m'.texture r).deviceStale = false

/-- And so for two steps. -/
theorem Memory.Lasting.trans {m m' m'' : Memory} (h : m.Lasting m') (h' : m'.Lasting m'') :
    m.Lasting m'' where
  size := h'.size.trans h.size
  surface r k hk := h'.surface r k (h.surface r k hk)
  current r hr := h'.current r (h.current r hr)

/-- A memory and devices that share nothing but the memory. -/
structure Cluster (ι : Type) where
  memory : Memory
  device : ι → HostDevice
  /-- The device that has made the surface of a texture. -/
  maker : TextureRef → Option ι := fun _ => none

namespace Cluster

variable {t : Texture}

/-- The memory with one of the devices. -/
def side (c : Cluster ι) (i : ι) : Machine := ⟨c.memory, .host (c.device i)⟩

/-- No other device has made the surface of the texture. -/
def Suits (c : Cluster ι) (i : ι) (r : TextureRef) : Prop := c.maker r = none ∨ c.maker r = some i

/-- Nothing is copied to a device that it does not suit. -/
def Admits (c : Cluster ι) (i : ι) (r : TextureRef) : Prop :=
  c.Suits i r ∨ (c.memory.texture r).deviceStale = false

/-- There is a device that a texture suits. -/
theorem exists_suits [Nonempty ι] (c : Cluster ι) (r : TextureRef) : ∃ i, c.Suits i r := by
  cases hmaker : c.maker r with
  | none => exact ⟨Classical.arbitrary ι, .inl hmaker⟩
  | some i => exact ⟨i, .inr hmaker⟩

variable [DecidableEq ι]

/-- The cluster after a device was used. -/
def put (c : Cluster ι) (i : ι) (m : Memory) (d : HostDevice) : Cluster ι where
  memory := m
  device := Function.update c.device i d
  maker r := if (c.memory.texture r).surface = none ∧ (m.texture r).surface ≠ none then
    some i else c.maker r

/-- The cluster after a machine has worked. -/
def after (c : Cluster ι) (i : ι) (m : Machine) : Cluster ι :=
  match m.device with
  | .host d => c.put i m.memory d
  | _ => c

variable {c : Cluster ι} {i : ι} {m m' : Memory} {d d' : HostDevice} {r : TextureRef}

/-- The device that was used. -/
theorem device_put_self : (c.put i m d).device i = d := Function.update_self ..

/-- The other devices. -/
theorem device_put_of_ne {j : ι} (h : j ≠ i) : (c.put i m d).device j = c.device j :=
  Function.update_of_ne h ..

/-- The surface of a texture that had one is not new. -/
theorem maker_put_of_some {h : SurfaceHandle} (hs : (c.memory.texture r).surface = some h) :
    (c.put i m d).maker r = c.maker r := if_neg fun hnone => by simp [hs] at hnone

/-- A surface that stays has its maker. -/
theorem maker_put_of_same (hs : (m.texture r).surface = (c.memory.texture r).surface) :
    (c.put i m d).maker r = c.maker r := if_neg fun hnone => hnone.2 (hs.trans hnone.1)

/-- A surface that is new was made now. -/
theorem maker_put_of_made {h : SurfaceHandle} (hnone : (c.memory.texture r).surface = none)
    (hs : (m.texture r).surface = some h) : (c.put i m d).maker r = some i :=
  if_pos ⟨hnone, by simp [hs]⟩

/-- A texture that suits the device still does after its use. -/
theorem Suits.put (h : c.Suits i r) : (c.put i m d).Suits i r := by
  unfold Suits Cluster.put
  dsimp only
  split
  next => exact .inr rfl
  next => exact h

/-- A device that was not used may be put back. -/
theorem put_device (c : Cluster ι) (i : ι)
    (h : ∀ r, (m.texture r).surface = (c.memory.texture r).surface) :
    c.put i m (c.device i) = { c with memory := m } := by
  have hmaker : (c.put i m (c.device i)).maker = c.maker := funext fun r => maker_put_of_same (h r)
  have hdevice : (c.put i m (c.device i)).device = c.device := Function.update_eq_self ..
  show mk m _ _ = mk m _ _
  exact congr (congrArg (mk m) hdevice) hmaker

/-- Two uses of a device are one. -/
theorem put_put (h₀ : c.memory.Lasting m) (h : m.Lasting m') :
    (c.put i m d).put i m' d' = c.put i m' d' := by
  have hmaker : ((c.put i m d).put i m' d').maker = (c.put i m' d').maker := by
    funext r
    cases hs : (m.texture r).surface with
    | some k =>
      rw [maker_put_of_some (c := c.put i m d) hs]
      simp [put, hs, h.surface r k hs]
    | none =>
      have hnone : (c.memory.texture r).surface = none := by
        cases hold : (c.memory.texture r).surface with
        | none => rfl
        | some k => cases hs.symm.trans (h₀.surface r k hold)
      simp [put, hs, hnone]
  have hdevice : ((c.put i m d).put i m' d').device = (c.put i m' d').device :=
    Function.update_idem ..
  show mk m' _ _ = mk m' _ _
  exact congr (congrArg (mk m') hdevice) hmaker

/-! ## What stays true -/

/-- A surface is on the device that made it, for one texture. -/
structure Housed (c : Cluster ι) : Prop where
  made : ∀ r, c.maker r = none ↔ (c.memory.texture r).surface = none
  issued : ∀ r j h, c.maker r = some j → (c.memory.texture r).surface = some h →
    h.id ≤ (c.device j).issued
  carries : ∀ r j h, c.maker r = some j → (c.memory.texture r).surface = some h →
    (c.device j).Carries h (c.memory.texture r)
  apart : ∀ r r' j h, c.maker r = some j → c.maker r' = some j →
    (c.memory.texture r).surface = some h → (c.memory.texture r').surface = some h → r = r'

/-- Where no side is behind, the texels are the same. -/
def Synced (c : Cluster ι) : Prop :=
  ∀ r j h, c.maker r = some j → (c.memory.texture r).surface = some h →
    (c.memory.texture r).hostStale = false →
    (c.memory.texture r).deviceStale = false → (c.device j).Displays h (c.memory.texture r)

/-- Surfaces are housed, and have the texels of the host while textures are copied where they
suit. -/
def Sound (proper : Prop) (c : Cluster ι) : Prop := c.Housed ∧ (proper → c.Synced)

/-- What was there is there after one texture advanced: its surface was made now, or is old. -/
theorem put_cases (x : (c.memory.texture r).Advance (c.device i) t d) (r' : TextureRef) :
    let c' := c.put i (c.memory.setTexture r t) d
    (r' = r ∧ c'.memory.texture r' = t ∧ c'.maker r' = some i ∧
      (c.memory.texture r).surface = none) ∨
      (c'.maker r' = c.maker r' ∧ (c'.memory.texture r').surface = (c.memory.texture r').surface ∧
        (r' = r ∧ c'.memory.texture r' = t ∨
          c'.memory.texture r' = c.memory.texture r' ∧
              (r' = r → (c.memory.texture r').surface = none))) := by
  dsimp only
  by_cases hown : r' = r ∧ r.index < c.memory.textures.size
  · obtain ⟨rfl, hlt⟩ := hown
    have ht : (c.memory.setTexture r' t).texture r' = t := texture_setTexture_self hlt t
    cases hold : (c.memory.texture r').surface with
    | some h =>
      exact .inr ⟨maker_put_of_some hold, (congrArg Texture.surface ht).trans (x.kept h hold),
        .inl ⟨rfl, ht⟩⟩
    | none =>
      cases hnew : t.surface with
      | some h =>
        exact .inl ⟨rfl, ht, maker_put_of_made hold ((congrArg Texture.surface ht).trans hnew), rfl⟩
      | none =>
        have hsame := (congrArg Texture.surface ht).trans hnew
        exact .inr ⟨maker_put_of_same (hsame.trans hold.symm), hsame, .inl ⟨rfl, ht⟩⟩
  · have ht : (c.memory.setTexture r t).texture r' = c.memory.texture r' := by
      rw [texture_setTexture, if_neg hown]
    refine .inr ⟨maker_put_of_same (congrArg Texture.surface ht), congrArg Texture.surface ht,
      .inr ⟨ht, ?_⟩⟩
    -- A texture that is not there has no surface.
    rintro rfl
    rw [texture_of_le (Nat.le_of_not_lt fun hlt => hown ⟨rfl, hlt⟩)]
    rfl

omit [DecidableEq ι] in
/-- Textures last while one advances. -/
theorem lasting_setTexture (x : (c.memory.texture r).Advance (c.device i) t d)
    (hcurrent : (c.memory.texture r).deviceStale = false → t.deviceStale = false) :
    c.memory.Lasting (c.memory.setTexture r t) where
  size := Array.size_setIfInBounds
  surface r' h hh := by
    rw [texture_setTexture]
    split
    next hown => exact x.kept h (hown.1 ▸ hh)
    next => exact hh
  current r' hr' := by
    rw [texture_setTexture]
    split
    next hown => exact hcurrent (hown.1 ▸ hr')
    next => exact hr'

/-- **Surfaces stay housed** while a texture is presented. -/
theorem Housed.advance (hc : c.Housed) (x : (c.memory.texture r).Advance (c.device i) t d) :
    (c.put i (c.memory.setTexture r t) d).Housed where
  made r' := by
    rcases put_cases x r' with ⟨rfl, ht, hmaker, hnone⟩ | ⟨hmaker, hsurface, -⟩
    · rw [hmaker]
      refine ⟨fun h => by simp at h, fun hs => ?_⟩
      have hsame : (c.put i (c.memory.setTexture r' t) d).maker r' = c.maker r' :=
        maker_put_of_same (hs.trans hnone.symm)
      rw [hsame, (hc.made r').2 hnone] at hmaker
      cases hmaker
    · rw [hmaker, hsurface]
      exact hc.made r'
  issued r' j h hj hh := by
    rcases put_cases x r' with ⟨rfl, ht, hmaker, hnone⟩ | ⟨hmaker, hsurface, -⟩
    · cases hmaker.symm.trans hj
      rw [ht] at hh
      rw [device_put_self]
      rcases x.surface h hh with hold | ⟨-, hle⟩
      · simp [hnone] at hold
      · exact hle
    · have hold := hc.issued r' j h (hmaker ▸ hj) (hsurface ▸ hh)
      by_cases hji : j = i
      · subst hji
        rw [device_put_self]
        exact hold.trans x.issued
      · rw [device_put_of_ne hji]
        exact hold
  carries r' j h hj hh := by
    rcases put_cases x r' with ⟨rfl, ht, hmaker, hnone⟩ | ⟨hmaker, hsurface, hcases⟩
    · cases hmaker.symm.trans hj
      rw [ht] at hh ⊢
      rw [device_put_self]
      exact x.made h hnone hh
    · rw [hmaker] at hj
      rw [hsurface] at hh
      obtain ⟨pixels, hsize, hget⟩ := hc.carries r' j h hj hh
      -- The texture has its size and format, and the surface may have been overwritten.
      have hframe : ∀ e : HostDevice, e.Carries h (c.memory.texture r') →
          e.Carries h ((c.put i (c.memory.setTexture r t) d).memory.texture r') := by
        rintro e ⟨pixels, hsize, hget⟩
        rcases hcases with ⟨rfl, ht⟩ | ⟨ht, -⟩
        · rw [ht]
          exact ⟨pixels, hsize.trans x.size_pixels.symm, by rw [hget, x.width, x.height, x.format]⟩
        · rw [ht]
          exact ⟨pixels, hsize, hget⟩
      refine hframe _ ?_
      by_cases hji : j = i
      · subst hji
        obtain ⟨pixels', hsize', hget'⟩ := x.stays h.id (hc.issued r' j h hj hh) _ hget
        rw [device_put_self]
        exact ⟨pixels', hsize'.trans hsize, hget'⟩
      · rw [device_put_of_ne hji]
        exact ⟨pixels, hsize, hget⟩
  apart r₁ r₂ j h hj₁ hj₂ hh₁ hh₂ := by
    -- A surface that was made now is not one that was there.
    have hfresh : ∀ r', c.maker r' = some i → (c.memory.texture r').surface = some h →
        (c.memory.texture r).surface = none → t.surface ≠ some h := fun r' hj hh hnone =>
      x.surface_ne (hc.issued r' i h hj hh) (by simp [hnone])
    rcases put_cases x r₁ with ⟨rfl, ht₁, hmaker₁, hnone⟩ | ⟨hmaker₁, hsurface₁, -⟩
    · rcases put_cases x r₂ with ⟨rfl, -, -, -⟩ | ⟨hmaker₂, hsurface₂, -⟩
      · rfl
      · cases hmaker₁.symm.trans hj₁
        exact absurd (ht₁ ▸ hh₁) (hfresh r₂ (hmaker₂ ▸ hj₂) (hsurface₂ ▸ hh₂) hnone)
    · rcases put_cases x r₂ with ⟨rfl, ht₂, hmaker₂, hnone⟩ | ⟨hmaker₂, hsurface₂, -⟩
      · cases hmaker₂.symm.trans hj₂
        exact absurd (ht₂ ▸ hh₂) (hfresh r₁ (hmaker₁ ▸ hj₁) (hsurface₁ ▸ hh₁) hnone)
      · exact hc.apart r₁ r₂ j h (hmaker₁ ▸ hj₁) (hmaker₂ ▸ hj₂) (hsurface₁ ▸ hh₁) (hsurface₂ ▸ hh₂)

/-- **Surfaces keep the texels of the host** while a texture is presented to a device that admits
it. -/
theorem Synced.advance (hs : c.Synced) (hc : c.Housed) (hr : c.Admits i r)
    (x : (c.memory.texture r).Advance (c.device i) t d) :
    (c.put i (c.memory.setTexture r t) d).Synced := by
  intro r' j h hj hh hhost hdevice
  rcases put_cases x r' with ⟨rfl, ht, hmaker, hnone⟩ | ⟨hmaker, hsurface, hcases⟩
  · cases hmaker.symm.trans hj
    rw [ht] at hh hhost hdevice ⊢
    rw [device_put_self]
    rcases x.synced hhost hdevice with hshown | ⟨-, -, hsame, -⟩
    · exact hshown h hh
    · simp [hsame, hnone] at hh
  · rw [hmaker] at hj
    rw [hsurface] at hh
    have hdisplays : ∀ e : HostDevice, e.surfaces = (c.device j).surfaces → ∀ u : Texture,
        u.pixels = (c.memory.texture r').pixels → (c.device j).Displays h (c.memory.texture r') →
            e.Displays h u := by
      intro e he u hu hold
      unfold Displays at hold ⊢
      rw [he, hu]
      exact hold
    rcases hcases with ⟨rfl, ht⟩ | ⟨ht, hother⟩
    · rw [ht] at hhost hdevice ⊢
      by_cases hji : j = i
      · subst hji
        rw [device_put_self]
        rcases x.synced hhost hdevice with hshown | ⟨hsurfaces, hpixels, -, hhost', hdevice'⟩
        · exact hshown h (x.kept h hh)
        · exact hdisplays _ hsurfaces _ hpixels (hs r' j h hj hh hhost' hdevice')
      · -- Its surface is on another device, so it was admitted because it is not behind.
        have hcurrent : (c.memory.texture r').deviceStale = false := by
          refine hr.resolve_left fun hsuits => ?_
          rcases hsuits with hnone | hsome
          · simp [hj] at hnone
          · exact hji (Option.some.inj (hj.symm.trans hsome))
        obtain ⟨-, hidle⟩ := x.idle h hh hcurrent
        obtain ⟨hpixels, hhost'⟩ := hidle hhost hdevice
        rw [device_put_of_ne hji]
        exact hdisplays _ rfl _ hpixels (hs r' j h hj hh hhost' hcurrent)
    · rw [ht] at hhost hdevice ⊢
      have hold := hs r' j h hj hh hhost hdevice
      by_cases hji : j = i
      · subst hji
        rw [device_put_self]
        by_cases hsame : (c.memory.texture r).surface = some h
        · -- The texture that was presented has the number of this surface, but from another device.
          have hcurrent : (c.memory.texture r).deviceStale = false := by
            refine hr.resolve_left fun hsuits => ?_
            have hmade : c.maker r = some j :=
              hsuits.resolve_left fun hnone => by simp [(hc.made r).1 hnone] at hsame
            simp [hother (hc.apart r' r j h hj hmade hh hsame)] at hh
          exact hdisplays _ (x.idle h hsame hcurrent).1 _ rfl hold
        · unfold Displays
          rw [x.others h.id (hc.issued r' j h hj hh) hsame]
          exact hold
      · rw [device_put_of_ne hji]
        exact hold

/-- A use of a device that touches no surface and no texture. -/
theorem Sound.aside {proper : Prop} (hc : (c.put i m d).Sound proper)
    (htextures : m'.textures = m.textures) (hissued : d.issued ≤ d'.issued)
    (hsurfaces : d'.surfaces = d.surfaces) : (c.put i m' d').Sound proper := by
  obtain ⟨hc, hs⟩ := hc
  have htexture := texture_congr htextures
  have hmaker : ∀ r, (c.put i m' d').maker r = (c.put i m d).maker r :=
    fun r => by simp only [put, htexture]
  have hdevice : ∀ j, ((c.put i m d).device j).issued ≤ ((c.put i m' d').device j).issued ∧
      ((c.put i m' d').device j).surfaces = ((c.put i m d).device j).surfaces := by
    intro j
    by_cases hji : j = i
    · subst hji
      rw [device_put_self, device_put_self]
      exact ⟨hissued, hsurfaces⟩
    · rw [device_put_of_ne hji, device_put_of_ne hji]
      exact ⟨le_rfl, rfl⟩
  have hmemory : ∀ r, (c.put i m' d').memory.texture r = (c.put i m d).memory.texture r := htexture
  refine ⟨⟨fun r => ?_, fun r j h => ?_, fun r j h => ?_, fun r r' j h => ?_⟩,
    fun hproper r j h => ?_⟩
  · rw [hmaker, hmemory]
    exact hc.made r
  · rw [hmaker, hmemory]
    exact fun hj hh => (hc.issued r j h hj hh).trans (hdevice j).1
  · rw [hmaker, hmemory]
    unfold HostDevice.Carries
    rw [(hdevice j).2]
    exact hc.carries r j h
  · rw [hmaker, hmaker, hmemory, hmemory]
    exact hc.apart r r' j h
  · rw [hmaker, hmemory]
    unfold Displays
    rw [(hdevice j).2]
    exact hs hproper r j h

/-! ## One device at work -/

/-- A machine that may be put back on its side of the cluster. -/
def Tended (c : Cluster ι) (i : ι) (proper : Prop) (m : Machine) : Prop :=
  ∃ d, m.device = .host d ∧ c.memory.Lasting m.memory ∧ (c.put i m.memory d).Sound proper

variable {proper : Prop}

/-- Each side is tended at the start. -/
theorem Sound.tended (hc : c.Sound proper) (i : ι) : c.Tended i proper (c.side i) :=
  ⟨c.device i, rfl, ⟨rfl, fun _ _ h => h, fun _ h => h⟩, (c.put_device i fun _ => rfl).symm ▸ hc⟩

/-- And so is what it leaves. -/
theorem Tended.after {m : Machine} (h : c.Tended i proper m) : (c.after i m).Sound proper := by
  obtain ⟨memory, device⟩ := m
  obtain ⟨d, rfl, -, hc⟩ := h
  exact hc

/-- It has as many textures. -/
theorem Tended.size {m : Machine} (h : c.Tended i proper m) :
    (c.after i m).memory.textures.size = c.memory.textures.size := by
  obtain ⟨memory, device⟩ := m
  obtain ⟨d, rfl, hlasting, -⟩ := h
  exact hlasting.size

/-- A device that admits a texture still does after its use. -/
theorem Admits.put (h : c.Admits i r) (hlasting : c.memory.Lasting m) : (c.put i m d).Admits i r :=
  h.imp Suits.put (hlasting.current r)

/-- A use of one texture, admitted if texels matter. -/
theorem keeps_tended_onTexture (hr : proper → c.Admits i r) {a : Action (Texture × Device) α}
    (ha : ∀ t d, ∃ t' d', (a (t, .host d)).state = (t', .host d') ∧ t.Advance d t' d' ∧
      (t.deviceStale = false → t'.deviceStale = false)) :
    Keeps (c.Tended i proper) (onTexture r a) := by
  rintro ⟨m, device⟩ ⟨d, rfl, hlasting, hc, hs⟩
  obtain ⟨t, d', hstate, hadvance, hcurrent⟩ := ha (m.texture r) d
  have hx : ((c.put i m d).memory.texture r).Advance ((c.put i m d).device i) t d' := by
    rw [device_put_self]
    exact hadvance
  have hnext : m.Lasting (m.setTexture r t) := lasting_setTexture hx hcurrent
  have heq : (c.put i m d).put i (m.setTexture r t) d' = c.put i (m.setTexture r t) d' :=
    put_put hlasting hnext
  simp only [onTexture, zoom, hstate]
  refine ⟨d', rfl, hlasting.trans hnext, heq ▸ hc.advance hx, fun hproper => ?_⟩
  exact heq ▸ (hs hproper).advance hc ((hr hproper).put hlasting) hx

/-- A use of the device that touches no surface. -/
theorem keeps_tended_onDevice {a : Action Device α} (ha : Device.Spares a) :
    Keeps (c.Tended i proper) (onDevice a) := by
  rintro ⟨m, device⟩ ⟨d, rfl, hlasting, hc⟩
  obtain ⟨d', hstate, hissued, hsurfaces⟩ := ha d
  simp only [onDevice, zoom, hstate]
  exact ⟨d', rfl, hlasting, hc.aside rfl hissued hsurfaces⟩

/-- Presenting a buffer is tended. -/
theorem keeps_tended_present (entry : Nat) (slot : String) :
    Keeps (fun s : BufferBinding × Machine => c.Tended i proper s.2)
      (BufferBinding.present entry slot) := by
  refine Keeps.bind ?_ fun h s hs =>
    keeps_tended_onDevice (Device.isQuiet_bindBuffer entry slot h).spares s.2 hs
  rintro ⟨b, m, device⟩ ⟨d, rfl, hlasting, hc⟩
  obtain ⟨b', m', d', hstate, htransfer⟩ := BufferBinding.transferred_toDevice b m d
  rw [hstate]
  have hsame : m.Lasting m' := by
    refine ⟨congrArg Array.size htransfer.textures, fun r h hh => ?_, fun r hr => ?_⟩
    · rw [texture_congr htransfer.textures, hh]
    · rw [texture_congr htransfer.textures, hr]
  exact ⟨d', rfl, hlasting.trans hsame, hc.aside htransfer.textures htransfer.moves.issued_le
    htransfer.surfaces⟩

/-- Sending a texture is tended. -/
theorem keeps_tended_toDevice (hr : proper → c.Admits i r) :
    Keeps (c.Tended i proper) (onTexture r Texture.toDevice) := by
  refine keeps_tended_onTexture hr fun t d => ?_
  obtain ⟨t', d', hstate, hadvance, -, hcurrent⟩ := t.toDevice_advance d
  exact ⟨t', d', hstate, hadvance, hcurrent⟩

/-- Presenting a texture is tended. -/
theorem keeps_tended_presentTexture (entry : Nat) (slot : String) (hr : proper → c.Admits i r) :
    Keeps (c.Tended i proper) (Table.presentTexture entry slot r) := by
  refine (keeps_tended_toDevice hr).bind fun h =>
    (keeps_tended_onDevice (Device.isQuiet_bindTexture entry slot h).spares).bind fun _ => ?_
  refine keeps_tended_onTexture hr fun t d => ⟨t.hintDevice, d, rfl, ?_, fun _ => rfl⟩
  exact .of_texture ⟨rfl, rfl, rfl⟩ rfl (.inl rfl)

end Cluster

/-- A dispatch keeps what presenting and queueing keep. -/
theorem Bench.dispatchHardware_keeps {K : Type} {I : Machine → Prop} {entry : Nat} {groups : Uint3}
    {s : Bench K} {device : Device} (hdevice : s.device = some device)
    (hbuffer : ∀ slot, Keeps (fun s : BufferBinding × Machine => I s.2)
      (BufferBinding.present entry slot)) (htexture : ∀ p ∈ (s.dispatcher.table entry).textures,
      Keeps I (Table.presentTexture entry p.1 p.2))
    (hdispatch : Keeps I (onDevice (Device.dispatch entry groups))) (hI : I ⟨s.memory, device⟩) :
    I (dispatchHardware entry groups s).state.machine := by
  have hstart : I s.machine := by
    show I ⟨s.memory, s.device.getD default⟩
    rw [hdevice]
    exact hI
  -- The table stays as it was until the dispatch is noted down.
  let J : Table × Machine → Prop :=
    fun t => t.1.textures = (s.dispatcher.table entry).textures ∧ I t.2
  have hpresent : ∀ e, Keeps J (Table.submit entry groups e) := by
    refine fun e =>
        Keeps.bind (fun t ht => ⟨ht.1, Table.keeps_presentBuffers hbuffer t ht.2⟩) fun _ =>
      Keeps.bind ?_ fun _ => (keeps_report e).bind fun _ t ht => ⟨ht.1, hdispatch t.2 ht.2⟩
    rintro ⟨t, m⟩ ⟨ht, hm⟩
    exact ⟨ht, Keeps.forEach (fun p hp => htexture p (ht ▸ hp)) m hm⟩
  refine Outcome.Meets.state (I := fun t : Bench K => I t.machine) ?_
  refine meets_dispatchHardware hdevice hstart fun point _ _ => ?_
  exact ((hpresent _).meets ⟨rfl, hI⟩).mono (fun _ _ h => h.2) fun _ h => h.2

/-! ## Interleavings -/

/-- A use of a texture by the host or with one of the devices. A dispatch is given with its
dispatcher. -/
inductive ClusterOp (ι : Type) : Type 1 where
  | write (r : TextureRef) (uv : Uint2) (value : Float4)
  | present (i : ι) (r : TextureRef)
  | hardware (i : ι) {K : Type} (dispatcher : Dispatcher K) (entry : Nat) (groups : Uint3)

namespace ClusterOp

variable [DecidableEq ι]
variable {c : Cluster ι}

/-- The cluster after a use. -/
def run : ClusterOp ι → Cluster ι → Cluster ι
  | .write r uv value, c =>
    match (c.memory.texture r).set uv value with
    | .ok t => { c with memory := c.memory.setTexture r t }
    | .error _ => c
  | .present i r, c => c.after i (onTexture r Texture.toDevice (c.side i)).state
  | .hardware i dispatcher entry groups, c =>
    c.after i (Bench.dispatchHardware entry groups (dispatcher.on (c.side i))).state.machine

/-- The cluster after uses. -/
def runAll (ops : List (ClusterOp ι)) (c : Cluster ι) : Cluster ι :=
  ops.foldl (fun c op => op.run c) c

/-- The textures suit the device, or are not behind. -/
def Proper : ClusterOp ι → Cluster ι → Prop
  | .write .., _ => True
  | .present i r, c => c.Admits i r
  | .hardware i dispatcher entry _, c => ∀ p ∈ (dispatcher.table entry).textures, c.Admits i p.2

/-- Each use is proper where it is made. -/
def ProperAll : List (ClusterOp ι) → Cluster ι → Prop
  | [], _ => True
  | op :: ops, c => op.Proper c ∧ ProperAll ops (op.run c)

variable {proper : Prop}

/-- A host that writes a texel leaves the devices alone. -/
theorem run_write_sound [Nonempty ι] (hc : c.Sound proper) {r : TextureRef} {uv : Uint2}
    {value : Float4} {t : Texture} (ht : (c.memory.texture r).set uv value = .ok t) :
    ({ c with memory := c.memory.setTexture r t } : Cluster ι).Sound proper := by
  obtain ⟨i, hr⟩ := c.exists_suits r
  obtain rfl : (c.memory.texture r).put uv value = t := by
    unfold Texture.set Texture.checkTexel at ht
    split at ht
    next => exact Except.ok.inj ht
    next => cases ht
  have hx : (c.memory.texture r).Advance (c.device i) ((c.memory.texture r).put uv value)
    (c.device i) :=
    .of_texture ⟨rfl, rfl, rfl⟩ rfl (.inr rfl)
  have hsurface : ∀ r',
    ((c.memory.setTexture r ((c.memory.texture r).put uv value)).texture r').surface =
      (c.memory.texture r').surface := by
    intro r'
    rw [texture_setTexture]
    split
    next hown => rw [hown.1]; rfl
    next => rfl
  rw [← c.put_device i hsurface]
  exact ⟨hc.1.advance hx, fun hproper => (hc.2 hproper).advance hc.1 (.inl hr) hx⟩

/-- **A use keeps surfaces**, and their texels if it is proper. -/
theorem run_sound [Nonempty ι] (op : ClusterOp ι) (hc : c.Sound proper)
    (hop : proper → op.Proper c) :
    (op.run c).Sound proper ∧ (op.run c).memory.textures.size = c.memory.textures.size := by
  cases op with
  | write r uv value =>
    simp only [run]
    split
    next t ht => exact ⟨run_write_sound hc ht, Array.size_setIfInBounds⟩
    next => exact ⟨hc, rfl⟩
  | present i r =>
    have htended := Cluster.keeps_tended_toDevice hop _ (hc.tended i)
    exact ⟨htended.after, htended.size⟩
  | hardware i dispatcher entry groups =>
    have htended : c.Tended i proper
        (Bench.dispatchHardware entry groups (dispatcher.on (c.side i))).state.machine := by
      refine Bench.dispatchHardware_keeps rfl (fun slot => Cluster.keeps_tended_present entry slot)
        (fun p hp => ?_)
        (Cluster.keeps_tended_onDevice (Device.isQuiet_dispatch entry groups).spares) (hc.tended i)
      exact Cluster.keeps_tended_presentTexture entry p.1 fun hproper => hop hproper p hp
    exact ⟨htended.after, htended.size⟩

/-- **So does an interleaving.** -/
theorem runAll_sound [Nonempty ι] (ops : List (ClusterOp ι)) :
    ∀ {c : Cluster ι}, c.Sound proper → (proper → ProperAll ops c) →
      (runAll ops c).Sound proper ∧ (runAll ops c).memory.textures.size =
        c.memory.textures.size := by
  induction ops with
  | nil => exact fun hc _ => ⟨hc, rfl⟩
  | cons op ops ih =>
    intro c hc hops
    obtain ⟨hrun, hsize⟩ := op.run_sound hc fun hproper => (hops hproper).1
    obtain ⟨hrest, hsize'⟩ := ih hrun fun hproper => (hops hproper).2
    exact ⟨hrest, hsize'.trans hsize⟩

/-- The texture after it was presented, which is put back. -/
theorem texture_run_present {i : ι} {r : TextureRef} (hr : r.index < c.memory.textures.size)
    {t : Texture} {d : HostDevice}
    (hstate : (Texture.toDevice (c.memory.texture r, .host (c.device i))).state = (t, .host d)) :
    ((present i r).run c).memory.texture r = t ∧ ((present i r).run c).device i = d := by
  have hrun : (present i r).run c = c.put i (c.memory.setTexture r t) d := by
    simp only [run, onTexture, Cluster.side, zoom, hstate]
    rfl
  rw [hrun]
  exact ⟨texture_setTexture_self hr t, Cluster.device_put_self⟩

end ClusterOp

/-- No texture has a surface yet. -/
def Cluster.New (c : Cluster ι) : Prop :=
  ∀ r, c.maker r = none ∧ (c.memory.texture r).surface = none

/-- Such a cluster is sound. -/
theorem Cluster.New.sound {c : Cluster ι} (hc : c.New) {proper : Prop} : c.Sound proper := by
  have hnone : ∀ {r j}, c.maker r ≠ some j := fun {r _} hj => by simp [(hc r).1] at hj
  exact ⟨⟨fun r => by simp [hc r], fun _ _ _ hj => absurd hj hnone, fun _ _ _ hj => absurd hj hnone,
    fun _ _ _ _ hj => absurd hj hnone⟩, fun _ _ _ _ hj => absurd hj hnone⟩

/-- A texture that suits a device is presented to it. -/
theorem Cluster.Housed.present_succeeds {c : Cluster ι} (hc : c.Housed) {i : ι} {r : TextureRef}
    (hr : c.Suits i r) :
    ∃ h, (Texture.toDevice (c.memory.texture r, .host (c.device i))).result = .ok h := by
  rcases Option.eq_none_or_eq_some (c.memory.texture r).surface with hs | ⟨h, hs⟩
  · obtain ⟨d, heq, -⟩ := Texture.toDevice_of_none hs (c.device i)
    exact ⟨_, congrArg Outcome.result heq⟩
  · have hmaker : c.maker r = some i :=
      hr.resolve_left fun hnone => by simp [(hc.made r).1 hnone] at hs
    obtain ⟨pixels, hsize, hget⟩ := hc.carries r i h hmaker hs
    cases hstale : (c.memory.texture r).deviceStale with
    | false => exact ⟨h, congrArg Outcome.result (Texture.toDevice_of_current hs hstale _)⟩
    | true => exact ⟨h, congrArg Outcome.result (Texture.toDevice_of_stale hs hstale hget hsize)⟩

/-- A texture that was presented has a current surface. -/
theorem Texture.toDevice_ok {t t' : Texture} {d d' : HostDevice} {h : SurfaceHandle}
    (hstate : (toDevice (t, .host d)).state = (t', .host d'))
    (hok : (toDevice (t, .host d)).result = .ok h) :
    t'.surface = some h ∧ t'.deviceStale = false ∧ t'.hostStale = t.hostStale := by
  obtain ⟨u, e, heq, -, hs, hhost, hdevice⟩ := (toDevice_spec t d).of_ok hok
  cases hstate.symm.trans heq
  exact ⟨hs, hdevice, hhost⟩

/-- **A texture has its surface on one device.** After any interleaving of uses of textures with
several devices, a texture that is presented to a device and accepted has a surface there that was
made for it exactly if no other device has made its surface before. Then it is always accepted. And
if no texture that was behind has been presented to a device other than the maker of its surface,
and the host is not behind, then the surface has the texels of the host. -/
theorem shared_surface [DecidableEq ι] {c₀ : Cluster ι} (hnew : c₀.New)
    (ops : List (ClusterOp ι)) (i : ι) {r : TextureRef} (hr : r.index < c₀.memory.textures.size) :
    let c := ClusterOp.runAll ops c₀
    let t := c.memory.texture r
    let o := onTexture r Texture.toDevice (c.side i)
    let c' := (ClusterOp.present i r).run c
    (∀ h, o.result = .ok h → (c'.maker r = some i ∧ (c'.device i).Carries h t ↔ c.Suits i r)) ∧
      (c.Suits i r → ∃ h, o.result = .ok h ∧ (c'.memory.texture r).surface = some h) ∧
      (c.Suits i r → ClusterOp.ProperAll ops c₀ → t.hostStale = false → ∀ h, o.result = .ok h →
        (c'.device i).surfaces.get? h.id = some ⟨t.width, t.height, t.format, t.pixels⟩) := by
  intro c t o c'
  have : Nonempty ι := ⟨i⟩
  obtain ⟨hc, hsize⟩ : c.Sound (ClusterOp.ProperAll ops c₀ ∧ c.Suits i r) ∧ _ :=
    ClusterOp.runAll_sound ops hnew.sound fun hproper => hproper.1
  obtain ⟨⟨hc', hs'⟩, -⟩ := (ClusterOp.present i r).run_sound hc fun hproper => .inl hproper.2
  obtain ⟨t', d', hstate, hadvance, hpixels, -⟩ := t.toDevice_advance (c.device i)
  obtain ⟨htexture, hdevice⟩ := ClusterOp.texture_run_present (hsize ▸ hr) hstate
  have hsurface : ∀ h, o.result = .ok h → (c'.memory.texture r).surface = some h := by
    intro h hok
    rw [htexture]
    exact (Texture.toDevice_ok hstate hok).1
  -- What was made for the texture has its size.
  have hown : ∀ h, o.result = .ok h → c'.maker r = some i → (c'.device i).Carries h t := by
    intro h hok hmaker
    obtain ⟨pixels, hsize, hget⟩ := hc'.carries r i h hmaker (hsurface h hok)
    rw [htexture] at hsize hget
    exact ⟨pixels, hsize.trans hadvance.size_pixels, by rw [hget, hadvance.width, hadvance.height,
      hadvance.format]⟩
  have hmaker : ∀ h, o.result = .ok h → c.Suits i r → c'.maker r = some i := by
    intro h hok hsuits
    have hsuits' : c'.Suits i r := by
      show (c.after i _).Suits i r
      simp only [onTexture, Cluster.side, zoom, t, hstate]
      exact hsuits.put
    exact hsuits'.resolve_left fun hnone =>
      Option.some_ne_none h ((hsurface h hok).symm.trans ((hc'.made r).1 hnone))
  refine ⟨fun h hok => ⟨fun hcarried => ?_, fun hsuits => ?_⟩, fun hsuits => ?_,
    fun hsuits hops hhost h hok => ?_⟩
  · -- A surface that another device has made keeps its maker.
    by_contra hother
    have hmade : t.surface ≠ none := fun hnone => hother (.inl ((hc.1.made r).2 hnone))
    obtain ⟨k, hk⟩ := Option.ne_none_iff_exists'.1 hmade
    have hsame : c'.maker r = c.maker r := by
      show (c.after i _).maker r = _
      simp only [onTexture, Cluster.side, zoom, hstate, t]
      exact Cluster.maker_put_of_some hk
    exact hother (.inr (hsame.symm.trans hcarried.1))
  · exact ⟨hmaker h hok hsuits, hown h hok (hmaker h hok hsuits)⟩
  · obtain ⟨h, hok⟩ := hc.1.present_succeeds hsuits
    exact ⟨h, hok, hsurface h hok⟩
  · obtain ⟨-, hcurrent, hflag⟩ := Texture.toDevice_ok hstate hok
    have hdisplays := hs' ⟨hops, hsuits⟩ r i h (hmaker h hok hsuits) (hsurface h hok)
      (by rw [htexture, hflag]; exact hhost) (by rw [htexture]; exact hcurrent)
    refine (hown h hok (hmaker h hok hsuits)).get?_eq fun s hget => ?_
    rw [hdisplays s hget, htexture, hpixels]

/-! ## Two devices -/

namespace Gallery

/-- Two textures of two by two texels, and two devices. -/
def rooms : Cluster Bool where
  memory := { textures := #[Easel.canvas, Easel.canvas] }
  device _ := .ofEntries ["Fill"]

/-- It is new. -/
theorem rooms_new : rooms.New := by
  rintro ⟨_ | _ | k⟩
  · exact ⟨rfl, rfl⟩
  · exact ⟨rfl, rfl⟩
  · refine ⟨rfl, ?_⟩
    rw [texture_of_le (by simp [rooms])]
    rfl

/-- Each device is given a texture, the host writes to the first, and the second is shown to the
other device too. -/
def ops : List (ClusterOp Bool) :=
  [.present true ⟨0⟩, .present false ⟨1⟩, .present true ⟨1⟩, .write ⟨0⟩ ⟨1, 0⟩ ⟨7, 7, 7, 7⟩]

/-- What the uses leave. -/
def visits : Cluster Bool := ClusterOp.runAll ops rooms

end Gallery

/-- The first texture is shown on the device that has made its surface, with the texel that was
written. The second one has no surface there, although it is accepted. -/
theorem gallery_shown :
    Gallery.rooms.New ∧
      (∃ h, (onTexture ⟨0⟩ Texture.toDevice (Gallery.visits.side true)).result = .ok h ∧
        (((ClusterOp.present true ⟨0⟩).run Gallery.visits).device true).surfaces.get? h.id =
          some ⟨2, 2, .rgba32Float, #[.zero, ⟨7, 7, 7, 7⟩, .zero, .zero]⟩) ∧
      (onTexture ⟨1⟩ Texture.toDevice (Gallery.visits.side true)).result = .ok ⟨1⟩ ∧
      ((ClusterOp.present true ⟨1⟩).run Gallery.visits).maker ⟨1⟩ ≠ some true := by
  have hsuits : Gallery.visits.Suits true ⟨0⟩ := .inr rfl
  obtain ⟨-, haccepted, hshown⟩ := shared_surface Gallery.rooms_new
    Gallery.ops true (r := ⟨0⟩) (by decide)
  obtain ⟨h, hok, -⟩ := haccepted hsuits
  have hpixels : (Gallery.visits.memory.texture ⟨0⟩).pixels =
      #[.zero, ⟨7, 7, 7, 7⟩, .zero, .zero] := by
    decide +kernel
  refine ⟨Gallery.rooms_new, ⟨h, hok, (hshown hsuits ?_ rfl h hok).trans ?_⟩, rfl,
    by decide +kernel⟩
  · exact ⟨.inl (.inl rfl), .inl (.inl rfl), .inr rfl, trivial, trivial⟩
  · exact congrArg (fun pixels => some (HostSurface.mk 2 2 .rgba32Float pixels)) hpixels

/-- A texture that was presented to one device and is presented to another is accepted there, and
given a number that no surface has. -/
theorem stray_surface :
    let c := ClusterOp.runAll [.present true ⟨0⟩] Gallery.rooms
    let o := onTexture ⟨0⟩ Texture.toDevice (c.side false)
    Gallery.rooms.New ∧ (c.memory.texture ⟨0⟩).hostStale = false ∧ o.result = .ok ⟨1⟩ ∧
      (((ClusterOp.present false ⟨0⟩).run c).device false).surfaces.has 1 = false :=
  ⟨Gallery.rooms_new, rfl, rfl, rfl⟩

end ComputeKernel
