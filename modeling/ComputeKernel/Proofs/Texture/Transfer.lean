import ComputeKernel.Proofs.Texture.Exchange

/-!
# Transfers between a texture and the device in host memory

Two facts about every transfer. `Frame` says what it may touch: a texture keeps its size, its
surface is the one it had or a new one, and every other surface of the device stays as it is.
`Coherent` says what the two flags mean: there is one image, and a side that is not behind holds it.
When the host is behind, the device is not, and there is a surface to read from. A texture that is
coherent never fails to be transferred (`toDevice_coherent`, `toHost_coherent`).
-/

namespace ComputeKernel

open ComputeKernel.Action

namespace Texture

variable {h : SurfaceHandle} {t' : Texture} {uv : Uint2}

/-! ## What a transfer may touch -/

/-- How a texture and its device may change together. -/
structure Frame (t : Texture) (d : HostDevice) (t' : Texture) (d' : HostDevice) : Prop where
  width : t'.width = t.width
  height : t'.height = t.height
  issued : d.issued ≤ d'.issued
  /-- A surface that was not there is new. -/
  surface : ∀ h, t'.surface = some h → t.surface = some h ∨ d.issued < h.id ∧ h.id ≤ d'.issued
  /-- Surfaces of others stay as they are. -/
  others : ∀ k ≤ d.issued, t.surface ≠ some ⟨k⟩ → d'.surfaces.get? k = d.surfaces.get? k

namespace Frame

variable {t t' t'' : Texture} {d d' d'' : HostDevice}

/-- Nothing may happen. -/
theorem refl (t : Texture) (d : HostDevice) : Frame t d t d :=
  ⟨rfl, rfl, le_rfl, fun _ h => .inl h, fun _ _ _ => rfl⟩

/-- A surface of another is still one of another. -/
theorem surface_ne (f : Frame t d t' d') {k : Nat} (hk : k ≤ d.issued)
    (hne : t.surface ≠ some ⟨k⟩) :
    t'.surface ≠ some ⟨k⟩ := by
  intro heq
  rcases f.surface _ heq with h | ⟨h, -⟩
  · exact hne h
  · exact absurd h (Nat.not_lt.2 hk)

/-- Two steps make one. -/
theorem trans (f : Frame t d t' d') (g : Frame t' d' t'' d'') : Frame t d t'' d'' where
  width := g.width.trans f.width
  height := g.height.trans f.height
  issued := f.issued.trans g.issued
  surface h hh := by
    rcases g.surface h hh with h' | ⟨hlt, hle⟩
    · rcases f.surface h h' with h'' | ⟨hlt, hle⟩
      · exact .inl h''
      · exact .inr ⟨hlt, hle.trans g.issued⟩
    · exact .inr ⟨f.issued.trans_lt hlt, hle⟩
  others k hk hne :=
    (g.others k (hk.trans f.issued) (f.surface_ne hk hne)).trans (f.others k hk hne)

/-- The texture alone may change as long as it keeps its size and its surface. -/
theorem of_texture (h : t'.width = t.width ∧ t'.height = t.height ∧ t'.surface = t.surface) :
    Frame t d t' d :=
  ⟨h.1, h.2.1, le_rfl, fun _ hh => .inl (h.2.2 ▸ hh), fun _ _ _ => rfl⟩

end Frame

/-- A texture and a device that a frame allows. -/
def Framed (t : Texture) (d : HostDevice) (s : Texture × Device) : Prop :=
  ∃ d', s.2 = .host d' ∧ Frame t d s.1 d'

/-- Nothing has happened. -/
theorem framed_self (t : Texture) (d : HostDevice) : Framed t d (t, .host d) := ⟨d, rfl, .refl t d⟩

variable {t : Texture} {d : HostDevice}

/-- An exchange stays in the frame. -/
theorem Exchange.frame {d' : HostDevice} (x : Exchange t d t' d') : Frame t d t' d' where
  width := x.width
  height := x.height
  issued := x.moves.issued_le
  surface h hh := by
    rcases x.moves.own_or_new (show t'.own = some (h.id, ()) by rw [own, hh]; rfl) with hold | hnew
    · obtain ⟨⟨k⟩, hs, heq⟩ := Option.map_eq_some_iff.1 hold
      cases heq
      exact .inl hs
    · exact .inr hnew
  others k hk hne := by
    refine (x.moves.others hk fun _ heq => ?_).1
    obtain ⟨⟨k'⟩, hs, hpair⟩ := Option.map_eq_some_iff.1 heq
    cases hpair
    exact hne hs

/-- What makes exchanges only stays in the frame. -/
theorem keeps_framed {α : Type} {a : Action (Texture × Device) α}
    (ha : ∀ t d, Exchanged t d (a (t, .host d)).state) : Keeps (Framed t d) a := by
  rintro ⟨u, _⟩ ⟨d', rfl, hf⟩
  obtain ⟨u', d'', heq, hexchange⟩ := ha u d'
  rw [heq]
  exact ⟨d'', rfl, hf.trans hexchange.frame⟩

/-- A change of the texture stays in the frame when it keeps size and surface. -/
theorem keeps_change {f : Texture → Texture}
    (hf : ∀ u, (f u).width = u.width ∧ (f u).height = u.height ∧ (f u).surface = u.surface) :
    Keeps (Framed t d) (change f) :=
  keeps_framed (exchanged_change hf)

/-- A transfer to the device does. -/
theorem keeps_toDevice : Keeps (Framed t d) toDevice := keeps_framed exchanged_toDevice

/-- A transfer to the host does. -/
theorem keeps_toHost : Keeps (Framed t d) toHost := keeps_framed exchanged_toHost

/-! ## What the flags mean -/

/-- There is one image, and a side that is not behind holds it. -/
structure Coherent (t : Texture) (d : HostDevice) (image : Array Float4) : Prop where
  /-- The exchanged image has the size of the texture, so that it can be read back into. -/
  size_image : t.image.size = t.width.toNat * t.height.toNat
  host : t.hostStale = false → t.pixels = image
  device : ∀ h, t.surface = some h → ∃ s, d.surfaces.get? h.id = some s ∧ s.width = t.width ∧
    s.height = t.height ∧ s.pixels.size = t.width.toNat * t.height.toNat ∧
    (t.deviceStale = false → s.pixels = image)
  /-- The host is behind only while the device holds the image. -/
  behind : t.hostStale = true → t.deviceStale = false ∧ ∃ h, t.surface = some h

/-- A texture that is coherent with its device. -/
def Shows (image : Array Float4) (s : Texture × Device) : Prop :=
  ∃ d, s.2 = .host d ∧ s.1.Coherent d image

variable {image : Array Float4}

/-- The host is current while the device is behind. -/
theorem Coherent.hostStale_eq_false (hc : t.Coherent d image) (h : t.deviceStale = true) :
    t.hostStale = false := by
  cases hstale : t.hostStale with
  | false => rfl
  | true => exact absurd ((hc.behind hstale).1.symm.trans h) Bool.false_ne_true

/-- Making a surface keeps the texture coherent, and never fails. -/
theorem ensureSurface_coherent (hc : t.Coherent d image) :
    (ensureSurface (t, .host d)).Meets (fun h s => Shows image s ∧ s.1.surface = some h)
      fun _ => False := by
  cases hs : t.surface with
  | some h =>
    rw [ensureSurface_of_some hs]
    exact ⟨⟨d, rfl, hc⟩, hs⟩
  | none =>
    rw [ensureSurface_of_none d hs]
    refine ⟨⟨_, rfl, hc.size_image, hc.host, fun h hh => ?_, fun hstale => ?_⟩, rfl⟩
    · obtain rfl := Option.some.inj hh
      refine ⟨_, Keyed.get?_put_self _ _ _, rfl, rfl, Array.size_replicate, ?_⟩
      exact fun hfalse => absurd hfalse.symm Bool.false_ne_true
    · obtain ⟨-, h, hh⟩ := hc.behind hstale
      exact absurd (hs.symm.trans hh) (Option.some_ne_none h).symm

/-- Copying the host's texels to the surface makes the device current. -/
theorem Coherent.blit (hc : t.Coherent d image) (hs : t.surface = some h)
    (hstale : t.deviceStale = true) :
    ∃ d', Device.blit h t.snapshot (.host d) = { result := .ok (), state := .host d' } ∧
      ({ t with image := t.snapshot, deviceStale := false } : Texture).Coherent d' image := by
  obtain ⟨s, hget, hw, hh, hsize, -⟩ := hc.device h hs
  have hpixels : t.pixels = image := hc.host (hc.hostStale_eq_false hstale)
  have hblit := HostDevice.blit_eq_ok t.snapshot hget (by rw [hsize, snapshot_eq, t.size_pixels])
  refine ⟨_, by simp only [Device.blit, hblit]; rfl, ?_, hc.host, fun h' hh' => ?_,
    fun _ => ⟨rfl, h, hs⟩⟩
  · rw [snapshot_eq, t.size_pixels]
  · obtain rfl : h = h' := Option.some.inj (hs.symm.trans hh')
    refine ⟨_, Keyed.get?_put_self _ _ _, hw, hh, ?_, fun _ => ?_⟩
    · rw [snapshot_eq, t.size_pixels]
    · rw [snapshot_eq, hpixels]

/-- Making the surface current never fails, and it holds the image then. -/
theorem toDevice_coherent (hc : t.Coherent d image) :
    (toDevice (t, .host d)).Meets
      (fun h s => Shows image s ∧ s.1.surface = some h ∧ s.1.deviceStale = false)
        fun _ => False := by
  refine meets_bind (ensureSurface_coherent hc) ?_
  rintro h ⟨u, _⟩ ⟨⟨d', rfl, hu⟩, hs⟩
  rw [get_bind]
  cases hstale : u.deviceStale with
  | false => 
    simp only [hstale]
    exact ⟨⟨d', rfl, hu⟩, hs, hstale⟩
  | true =>
    obtain ⟨d'', hblit, hu'⟩ := hu.blit hs hstale
    simp only [hstale, if_true, bind_eq, change, Action.modify, report, onDevice, zoom,
      hblit]
    exact ⟨⟨d'', rfl, hu'⟩, hs, rfl⟩

/-- Reading the surface back gives the image. -/
theorem Coherent.readBack (hc : t.Coherent d image) (hstale : t.hostStale = true) :
    ∃ h d', t.surface = some h ∧
      Device.readBack h t.image (.host d) = { result := .ok image, state := .host d' } ∧
      ({ ({ t with image } : Texture).store image.toList with
        hostStale := false } : Texture).Coherent d' image := by
  obtain ⟨hcurrent, h, hs⟩ := hc.behind hstale
  obtain ⟨s, hget, hw, hh, hsize, himage⟩ := hc.device h hs
  have himage : s.pixels = image := himage hcurrent
  rw [himage] at hsize
  refine ⟨h, { d with stats.readBacks := d.stats.readBacks + 1 }, hs, ?_, hsize, fun _ => ?_,
    fun h' hh' => ?_, ?_⟩
  · simp only [Device.readBack, HostDevice.readBack, hget, himage, hsize, hc.size_image, if_true]
    rfl
  · exact store_pixels (t := { t with image }) hsize
  · obtain rfl : h = h' := Option.some.inj (hs.symm.trans hh')
    exact ⟨s, hget, hw, hh, himage ▸ hsize, fun _ => himage⟩
  · exact fun hfalse => absurd hfalse Bool.false_ne_true

/-- Making the host current never fails, and it holds the image then. -/
theorem toHost_coherent (hc : t.Coherent d image) :
    (toHost (t, .host d)).Meets (fun _ s => Shows image s ∧ s.1.hostStale = false)
      fun _ => False := by
  unfold toHost
  rw [get_bind]
  cases hstale : t.hostStale with
  | false =>
    simp only [hstale]
    exact ⟨⟨d, rfl, hc⟩, hstale⟩
  | true =>
    obtain ⟨h, d', hs, hread, ht⟩ := hc.readBack hstale
    simp only [hstale, if_true, hs]
    simp only [bind_eq, change, Action.modify, report, onDevice, zoom, hread]
    exact ⟨⟨d', rfl, ht⟩, rfl⟩

/-- What the host alone has changed is coherent with the host newer. -/
theorem Coherent.of_host {image' : Array Float4} (hc : t.Coherent d image)
    (hkept : t'.width = t.width ∧ t'.height = t.height ∧ t'.surface = t.surface)
    (hsize : t'.image.size = t.width.toNat * t.height.toNat) (hhost : t'.hostStale = false)
    (hdevice : t'.deviceStale = true) (hpixels : t'.pixels = image') : t'.Coherent d image' := by
  obtain ⟨hw, hh, hs⟩ := hkept
  refine ⟨by rw [hw, hh, hsize], fun _ => hpixels, fun h hh' => ?_, fun htrue => ?_⟩
  · obtain ⟨s, hget, hsw, hsh, hssize, -⟩ := hc.device h (hs ▸ hh')
    refine ⟨s, hget, hsw.trans hw.symm, hsh.trans hh.symm, by rw [hw, hh, hssize], fun hfalse => ?_⟩
    exact absurd (hfalse.symm.trans hdevice) Bool.false_ne_true
  · exact absurd (hhost.symm.trans htrue) Bool.false_ne_true

/-- Writing a texel on the host changes the image there. -/
theorem Coherent.put (hc : t.Coherent d image) (hstale : t.hostStale = false) (uv : Uint2)
    (value : Float4) :
    (t.put uv value).Coherent d (image.setIfInBounds (t.position uv) value) :=
  hc.of_host ⟨rfl, rfl, rfl⟩ hc.size_image rfl rfl (by rw [pixels_put, hc.host hstale])

/-- The host may be made the newer side while it is current. -/
theorem Coherent.hintHost (hc : t.Coherent d image) (hstale : t.hostStale = false) :
    t.hintHost.Coherent d image :=
  hc.of_host ⟨rfl, rfl, rfl⟩ hc.size_image rfl rfl (hc.host hstale)

/-- Committing the host's texels loses nothing while the host is current. -/
theorem Coherent.applyHostChanges (hc : t.Coherent d image) (hstale : t.hostStale = false) :
    t.applyHostChanges.Coherent d image := by
  refine hc.of_host ⟨rfl, rfl, rfl⟩ ?_ hstale rfl (hc.host hstale)
  show t.snapshot.size = _
  rw [snapshot_eq, t.size_pixels]

/-- The device may be made the newer side while it is current. -/
theorem Coherent.hintDevice (hc : t.Coherent d image) (hs : t.surface = some h)
    (hstale : t.deviceStale = false) : t.hintDevice.Coherent d image where
  size_image := hc.size_image
  host hfalse := absurd hfalse.symm Bool.false_ne_true
  device h' hh' := by
    obtain ⟨s, hget, hw, hh, hsize, himage⟩ := hc.device h' hh'
    exact ⟨s, hget, hw, hh, hsize, fun _ => himage hstale⟩
  behind _ := ⟨rfl, h, hs⟩

/-! ## Texels -/

/-- What follows a transfer to the host starts from a current texture. -/
theorem toHost_current (hc : t.Coherent d image) :
    (toHost (t, .host d)).Meets (fun _ s => ∃ d', s.2 = .host d' ∧ Frame t d s.1 d' ∧
      s.1.Coherent d' image ∧ s.1.hostStale = false) fun _ => False := by
  refine ((toHost_coherent hc).and_state (keeps_toHost _ (framed_self t d))).mono ?_ fun _ h => h.1
  rintro _ ⟨u, _⟩ ⟨⟨⟨d', rfl, hu⟩, hstale⟩, ⟨d'', heq, hf⟩⟩
  obtain rfl := Device.host.inj heq
  exact ⟨d', rfl, hf, hu, hstale⟩

/-- Textures of one size have the same texels, at the same places. -/
theorem Frame.contains_eq {d' : HostDevice} (f : Frame t d t' d') (uv : Uint2) :
    t'.contains uv = t.contains uv ∧ t'.position uv = t.position uv := by
  rw [contains, contains, position, position, f.width, f.height]
  exact ⟨rfl, rfl⟩

/-- A texel is read from the image, and reading never fails. -/
theorem readPixel_coherent (hc : t.Coherent d image) (huv : t.contains uv = true) :
    (readPixel uv (t, .host d)).Meets
      (fun value s => value = image[t.position uv]?.getD .zero ∧ Shows image s) fun _ => False := by
  refine meets_bind (toHost_current hc) ?_
  rintro _ ⟨u, _⟩ ⟨d', rfl, hf, hu, hstale⟩
  obtain ⟨hcontains, hposition⟩ := hf.contains_eq uv
  have hget : u.get uv = .ok (image[t.position uv]?.getD .zero) := by
    rw [get_of_contains (hcontains.trans huv), texel_eq, hposition, hu.host hstale]
  simp only [step, hget]
  exact ⟨rfl, d', rfl, hu⟩

/-- A texel is written to the image, and writing never fails. -/
theorem writePixel_coherent (hc : t.Coherent d image) (huv : t.contains uv = true)
    (value : Float4) :
    (writePixel uv value (t, .host d)).Meets
      (fun _ s => Shows (image.setIfInBounds (t.position uv) value) s) fun _ => False := by
  refine meets_bind (toHost_current hc) ?_
  rintro _ ⟨u, _⟩ ⟨d', rfl, hf, hu, hstale⟩
  obtain ⟨hcontains, hposition⟩ := hf.contains_eq uv
  simp only [step, set_of_contains (hcontains.trans huv)]
  exact ⟨d', rfl, hposition ▸ hu.put hstale uv value⟩

/-- Reading a texel stays in the frame. -/
theorem keeps_readPixel (uv : Uint2) : Keeps (Framed t d) (readPixel uv) := by
  refine keeps_toHost.bind fun _ => ?_
  rintro ⟨u, device⟩ hs
  simp only [step]
  cases u.get uv with
  | ok value => exact hs
  | error e => exact hs

/-- Writing a texel stays in the frame. -/
theorem keeps_writePixel (uv : Uint2) (value : Float4) :
    Keeps (Framed t d) (writePixel uv value) := by
  refine keeps_toHost.bind fun _ => ?_
  rintro ⟨u, device⟩ hs
  simp only [step, set]
  cases u.checkTexel uv with
  | ok _ => exact keeps_change (f := fun u => u.put uv value) (fun _ => ⟨rfl, rfl, rfl⟩) _ hs
  | error e => exact hs

/-! ## Writes of a kernel on the device -/

/-- A kernel's write goes to the place that the host has for the texel. -/
theorem writePixel_of_contains {s : HostSurface} (hget : d.surfaces.get? h.id = some s)
    (hwidth : s.width = t.width) (hheight : s.height = t.height) (huv : t.contains uv = true)
    (hfits : t.width.toNat * t.height.toNat ≤ 2 ^ 32) (value : Float4) :
    d.writePixel h uv.x uv.y value = .ok (true, { d with
      surfaces := d.surfaces.put h.id
        { s with pixels := s.pixels.setIfInBounds (t.position uv) value } }) := by
  obtain ⟨hx, hy⟩ := contains_iff.1 huv
  have hplace : uv.y.toNat * s.width.toNat + uv.x.toNat = t.position uv := by rw [hwidth, position]
  rw [HostDevice.writePixel_eq, hget]
  dsimp only
  rw [hplace, if_pos, if_pos ((position_lt huv).trans_le hfits)]
  exact ⟨UInt32.lt_iff_toNat_lt.2 (hwidth ▸ hx), UInt32.lt_iff_toNat_lt.2 (hheight ▸ hy)⟩

/-- A kernel's write to the surface changes the image there. -/
theorem Coherent.writeSurface (hc : t.Coherent d image) (hs : t.surface = some h)
    (hstale : t.hostStale = true) (huv : t.contains uv = true)
    (hfits : t.width.toNat * t.height.toNat ≤ 2 ^ 32) (value : Float4) :
    ∃ d', d.writePixel h uv.x uv.y value = .ok (true, d') ∧ Frame t d t d' ∧
      t.Coherent d' (image.setIfInBounds (t.position uv) value) := by
  obtain ⟨s, hget, hw, hh, hsize, himage⟩ := hc.device h hs
  refine ⟨_, writePixel_of_contains hget hw hh huv hfits value,
    ⟨rfl, rfl, le_rfl, fun _ hh => .inl hh, fun k _ hne => ?_⟩, hc.size_image,
    fun hfalse => absurd (hfalse.symm.trans hstale) Bool.false_ne_true, fun h' hh' => ?_,
    fun _ => ⟨(hc.behind hstale).1, h, hs⟩⟩
  · have hk : k ≠ h.id := fun hk => hne (hk ▸ hs)
    exact (Keyed.get?_put_nat _ _ _ _).trans (if_neg hk)
  · obtain rfl : h = h' := Option.some.inj (hs.symm.trans hh')
    refine ⟨_, Keyed.get?_put_self _ _ _, hw, hh, ?_, fun hcurrent => ?_⟩
    · rw [Array.size_setIfInBounds, hsize]
    · rw [himage hcurrent]

end Texture

end ComputeKernel
