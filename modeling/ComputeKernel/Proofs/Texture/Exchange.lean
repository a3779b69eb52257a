import ComputeKernel.Transfer.Texture
import ComputeKernel.Proofs.Device.Account
import ComputeKernel.Proofs.Run.Spec
import ComputeKernel.Proofs.Texture.Texels

/-!
# What a texture does on the device in host memory

A texture uses the device through its surface alone. `Texture.Exchange` says all that it may do on
the way: it keeps its size, on the device it moves within its own account, and buffers are not
touched at all. Transfers of either direction and the release of the surface are of this kind,
whether they succeed or fail.

The specifications of the transfers (`toDevice_spec`, `toHost_spec`, `release_eq`) also say what
becomes of the two flags. A transfer that fails has left both of them as they were: it can only fail
at a surface that was there before.
-/

namespace ComputeKernel

open ComputeKernel.Action

/-! ## Surfaces of the device -/

namespace HostDevice

variable (d : HostDevice)
variable (h : SurfaceHandle)

/-- The device after it has made a surface of zeros. -/
def withSurface (width height : UInt32) (format : TexelFormat) : HostDevice :=
  { d with
    issued := d.issued + 1
    surfaces := d.surfaces.put (d.issued + 1)
      { width, height, format, pixels := Array.replicate (width.toNat * height.toNat) .zero }
    stats.surfacesCreated := d.stats.surfacesCreated + 1 }

/-- A surface is made if it fits. If not, a number is used up. -/
theorem createSurface_eq_ite (width height : UInt32) (format : TexelFormat) :
    createSurface width height format d =
      if width.toNat * height.toNat * Float4.size ≤ Size.maxBlock then
        { result := .ok ⟨d.issued + 1⟩, state := d.withSurface width height format }
      else { result := .error (.fault .capacity), state := { d with issued := d.issued + 1 } } := by
  split_ifs with hfits
  · simp only [createSurface, Size.checkBlock, if_pos hfits]
    rfl
  · simp only [createSurface, Size.checkBlock, if_neg hfits]
    rfl

/-- A surface that fits is made. -/
theorem createSurface_eq {width height : UInt32} (format : TexelFormat)
    (hfits : width.toNat * height.toNat * Float4.size ≤ Size.maxBlock) :
    Device.createSurface width height format (.host d)
      = { result := .ok ⟨d.issued + 1⟩, state := .host (d.withSurface width height format) } := by
  rw [Device.createSurface, Device.onHost, createSurface_eq_ite, if_pos hfits]

/-- What a kernel's write to a texel comes to, by its place. -/
theorem writePixel_eq (x y : UInt32) (value : Float4) :
    d.writePixel h x y value =
      match d.surfaces.get? h.id with
      | some s =>
        if x < s.width ∧ y < s.height then
          if y.toNat * s.width.toNat + x.toNat < 2 ^ 32 then
            .ok (true, { d with
              surfaces := d.surfaces.put h.id
                { s with
                  pixels := s.pixels.setIfInBounds (y.toNat * s.width.toNat + x.toNat) value } })
          else .error (if y.toNat * s.width.toNat < 2 ^ 32 then .addition else .multiplication)
        else .ok (false, d)
      | none => .ok (false, d) := by
  unfold writePixel
  cases d.surfaces.get? h.id with
  | none => rfl
  | some s =>
    dsimp only
    split_ifs with hin hplace hrow
    · obtain ⟨hproduct, erow⟩ := Word.product?_eq_ok (a := y) (b := s.width) (by omega)
      obtain ⟨hsum, esum⟩ := Word.sum?_eq_ok (a := y * s.width) (b := x) (erow ▸ hplace)
      simp only [bind, Except.bind, hproduct, hsum, esum, erow]
      rfl
    · obtain ⟨hproduct, erow⟩ := Word.product?_eq_ok hrow
      have hsum : Word.sum? (y * s.width) x = .error .addition := if_neg (erow ▸ hplace)
      simp only [bind, Except.bind, hproduct, hsum]
    · have hproduct : Word.product? y s.width = .error .multiplication := if_neg hrow
      rw [hproduct]
      rfl
    · rfl

/-- Copying an image to a surface, as one step of the device. -/
theorem blit_eq_ok {d : HostDevice} {h : SurfaceHandle} {s : HostSurface} (pixels : Array Float4)
    (hs : d.surfaces.get? h.id = some s) (hsize : s.pixels.size = pixels.size) :
    d.blit h pixels = .ok { d with
      surfaces := d.surfaces.put h.id { s with pixels }, stats.blits := d.stats.blits + 1 } := by
  rw [blit, hs]
  exact if_pos hsize

/-- An image is copied to a surface of its size, or refused. -/
theorem blit_cases (pixels : Array Float4) :
    (∃ s, d.surfaces.get? h.id = some s ∧ Device.blit h pixels (.host d) =
      { result := .ok (), state := .host { d with
        surfaces := d.surfaces.put h.id { s with pixels }, stats.blits := d.stats.blits + 1 } }) ∨
    (∀ s, d.surfaces.get? h.id = some s → s.pixels.size ≠ pixels.size) ∧
      ∃ e, Device.blit h pixels (.host d) = { result := .error e, state := .host d } := by
  simp only [Device.blit, blit]
  cases d.surfaces.get? h.id with
  | none => exact .inr ⟨fun _ hs => (nomatch hs), _, rfl⟩
  | some s =>
    by_cases hsize : s.pixels.size = pixels.size
    · exact .inl ⟨s, rfl, by simp only [if_pos hsize]; rfl⟩
    · exact .inr ⟨fun _ hs => Option.some.inj hs ▸ hsize, _, by simp only [if_neg hsize]; rfl⟩

/-- Reading a surface back is counted, or refused. -/
theorem readBack_cases (out : Array Float4) :
    (∃ image, Device.readBack h out (.host d) =
      { result := .ok image, state := .host { d with stats.readBacks := d.stats.readBacks + 1 } }) ∨
    ∃ e, Device.readBack h out (.host d) = { result := .error e, state := .host d } := by
  simp only [Device.readBack, readBack]
  cases d.surfaces.get? h.id with
  | none => exact .inr ⟨_, rfl⟩
  | some s =>
    by_cases hsize : s.pixels.size = out.size
    · exact .inl ⟨s.pixels, by simp only [if_pos hsize]; rfl⟩
    · exact .inr ⟨_, by simp only [if_neg hsize]; rfl⟩

/-- What is bound for an entry point after a surface was released. -/
theorem bindings_releaseSurface (entry : Nat) :
    (d.releaseSurface h).bindings entry =
      { d.bindings entry with
        textures := (d.bindings entry).textures.filter fun p => p.2 ≠ h } := by
  simp only [bindings, releaseSurface, List.getElem?_map]
  cases d.bound[entry]? with
  | none => rfl
  | some b => rfl

end HostDevice

namespace Texture

/-! ## What an exchange may touch -/

/-- What a texture holds on the device: the number of its surface. -/
def own (t : Texture) : Option (Nat × Unit) := t.surface.map fun h => (h.id, ())

/-- How a texture and its device may change together. -/
structure Exchange (t : Texture) (d : HostDevice) (t' : Texture) (d' : HostDevice) : Prop where
  width : t'.width = t.width
  height : t'.height = t.height
  buffers : d'.buffers = d.buffers
  entries : d'.entries = d.entries ∧ d'.bound.length = d.bound.length
  bound : ∀ entry, (d'.bindings entry).buffers = (d.bindings entry).buffers
  /-- The texture deals with its own surface only. -/
  moves : Account.Moves (fun _ => ()) ⟨d.issued, d.surfaces, t.own⟩ ⟨d'.issued, d'.surfaces, t'.own⟩

namespace Exchange

variable {t t' t'' : Texture} {d d' d'' : HostDevice}

/-- Nothing may happen. -/
theorem refl (t : Texture) (d : HostDevice) : Exchange t d t d :=
  ⟨rfl, rfl, rfl, ⟨rfl, rfl⟩, fun _ => rfl, .refl⟩

/-- Two steps make one. -/
theorem trans (x : Exchange t d t' d') (y : Exchange t' d' t'' d'') : Exchange t d t'' d'' where
  width := y.width.trans x.width
  height := y.height.trans x.height
  buffers := y.buffers.trans x.buffers
  entries := ⟨y.entries.1.trans x.entries.1, y.entries.2.trans x.entries.2⟩
  bound entry := (y.bound entry).trans (x.bound entry)
  moves := x.moves.trans y.moves

/-- The texture may change while it keeps its size and its surface. -/
theorem of_texture (h : t'.width = t.width ∧ t'.height = t.height ∧ t'.surface = t.surface)
    (hdevice : d' = { d with stats := d'.stats }) : Exchange t d t' d' := by
  rw [hdevice]
  refine ⟨h.1, h.2.1, rfl, ⟨rfl, rfl⟩, fun _ => rfl, ?_⟩
  rw [own, own, h.2.2]

/-- The surface may be made when there is none. -/
theorem make (hs : t.surface = none) :
    Exchange t d { t with surface := some ⟨d.issued + 1⟩, deviceStale := true }
      (d.withSurface t.width t.height t.format) where
  width := rfl
  height := rfl
  buffers := rfl
  entries := ⟨rfl, rfl⟩
  bound _ := rfl
  moves := by
    rw [own, hs]
    exact .single (.make _ rfl)

/-- The surface may be overwritten. -/
theorem write {h : SurfaceHandle} {s : HostSurface} {pixels : Array Float4}
    (hs : t.surface = some h) (hget : d.surfaces.get? h.id = some s) :
    Exchange t d t { d with
      surfaces := d.surfaces.put h.id { s with pixels }, stats.blits := d.stats.blits + 1 } where
  width := rfl
  height := rfl
  buffers := rfl
  entries := ⟨rfl, rfl⟩
  bound _ := rfl
  moves := by
    rw [own, hs]
    exact .single (.write rfl hget rfl)

/-- The surface may be released. -/
theorem drop {h : SurfaceHandle} (hs : t.surface = some h) :
    Exchange t d { t with surface := none, deviceStale := true } (d.releaseSurface h) where
  width := rfl
  height := rfl
  buffers := rfl
  entries := ⟨rfl, List.length_map _⟩
  bound entry := by rw [HostDevice.bindings_releaseSurface]
  moves := by
    rw [own, hs]
    exact .single (.drop rfl)

end Exchange

variable {t : Texture} {d : HostDevice}

/-! ## The transfers -/

/-- A surface that is there is taken. -/
theorem ensureSurface_of_some {device : Device} {h : SurfaceHandle} (hs : t.surface = some h) :
    ensureSurface (t, device) = { result := .ok h, state := (t, device) } := by
  simp only [ensureSurface, bind_eq, Action.get, hs]
  rfl

/-- Where there is no surface, one of zeros is made, which is behind. -/
theorem ensureSurface_of_none (d : HostDevice) (hs : t.surface = none) :
    ensureSurface (t, .host d) =
      { result := .ok ⟨d.issued + 1⟩
        state := ({ t with surface := some ⟨d.issued + 1⟩, deviceStale := true },
          .host (d.withSurface t.width t.height t.format)) } := by
  simp only [ensureSurface, bind_eq, Action.get, hs, onDevice, zoom,
    HostDevice.createSurface_eq d t.format t.fits]
  rfl

/-- The texture has a surface afterwards. A new one is behind, and has room. -/
theorem ensureSurface_spec (t : Texture) (d : HostDevice) :
    (ensureSurface (t, .host d)).Meets
      (fun h s => ∃ u d', s = (u, .host d') ∧ Exchange t d u d' ∧ u.surface = some h ∧
      u.hostStale = t.hostStale ∧
        (u = t ∧ d' = d ∨ u.deviceStale = true ∧ ∃ s, d'.surfaces.get? h.id = some s ∧
          s.pixels.size = u.width.toNat * u.height.toNat))
      fun _ => False := by
  cases hs : t.surface with
  | some h =>
    rw [ensureSurface_of_some hs]
    exact ⟨t, d, rfl, .refl t d, hs, rfl, .inl ⟨rfl, rfl⟩⟩
  | none =>
    rw [ensureSurface_of_none d hs]
    refine ⟨_, _, rfl, Exchange.make hs, rfl, rfl, .inr ⟨rfl,
      { width := t.width, height := t.height, format := t.format
        pixels := Array.replicate (t.width.toNat * t.height.toNat) .zero }, ?_, ?_⟩⟩
    · exact Keyed.get?_put_self _ _ _
    · exact Array.size_replicate

/-- Copying an image to the surface, as the last part of a transfer. -/
theorem blit_spec {h : SurfaceHandle} (hs : t.surface = some h) (pixels : Array Float4) :
    (onDevice (Device.blit h pixels) (t, .host d)).Meets
      (fun _ s => ∃ d', s = (t, .host d') ∧ Exchange t d t d')
      fun s => s = (t, .host d) ∧ ∀ s, d.surfaces.get? h.id = some s → s.pixels.size ≠
        pixels.size := by
  rcases d.blit_cases h pixels with ⟨s, hget, hblit⟩ | ⟨hsize, e, hblit⟩
  · simp only [onDevice, zoom, hblit]
    exact ⟨_, rfl, Exchange.write hs hget⟩
  · simp only [onDevice, zoom, hblit]
    exact ⟨rfl, hsize⟩

/-- **What a transfer to the device does.** If it succeeds the device is not behind. If it fails
both flags are as they were. -/
theorem toDevice_spec (t : Texture) (d : HostDevice) :
    (toDevice (t, .host d)).Meets
      (fun h s => ∃ u d', s = (u, .host d') ∧ Exchange t d u d' ∧ u.surface = some h ∧
        u.hostStale = t.hostStale ∧ u.deviceStale = false)
      (fun s => ∃ u d', s = (u, .host d') ∧ Exchange t d u d' ∧ u.hostStale = t.hostStale ∧
        u.deviceStale = t.deviceStale) := by
  refine meets_bind ((ensureSurface_spec t d).mono_broken fun _ h => h.elim) ?_
  rintro h _ ⟨u, d', rfl, hexchange, hs, hhost, hcases⟩
  rw [get_bind]
  cases hstale : u.deviceStale with
  | false =>
    simp only [hstale]
    exact ⟨u, d', rfl, hexchange, hs, hhost, hstale⟩
  | true =>
    simp only [hstale, if_true]
    have himage : Exchange t d { u with image := u.snapshot } d' :=
      hexchange.trans (.of_texture ⟨rfl, rfl, rfl⟩ rfl)
    refine meets_bind (M := fun _ s => (({ u with image := u.snapshot } : Texture),
      Device.host d') = s) rfl ?_
    rintro _ _ rfl
    refine meets_bind (M := fun _ s => (({ u with image := u.snapshot } : Texture),
      Device.host d') = s) rfl ?_
    rintro _ _ rfl
    refine meets_bind ((blit_spec (t := { u with image := u.snapshot })
      hs u.snapshot).mono_broken ?_) ?_
    · rintro _ ⟨rfl, hrefused⟩
      rcases hcases with ⟨rfl, -⟩ | ⟨-, surface, hget, hsize⟩
      · exact ⟨_, d', rfl, himage, rfl, rfl⟩
      · -- A surface that was just made has room for the texels.
        exact absurd (by rw [hsize, snapshot_eq, u.size_pixels]) (hrefused surface hget)
    · rintro _ _ ⟨d'', rfl, hblit⟩
      exact ⟨_, d'', rfl, (himage.trans hblit).trans (.of_texture ⟨rfl, rfl, rfl⟩ rfl),
        hs, hhost, rfl⟩

/-- **What a transfer to the host does.** If it succeeds the host is not behind. If it fails nothing
has changed. -/
theorem toHost_spec (t : Texture) (d : HostDevice) :
    (toHost (t, .host d)).Meets
      (fun _ s => ∃ u d', s = (u, .host d') ∧ Exchange t d u d' ∧ u.surface = t.surface ∧
      u.hostStale = false ∧
        u.deviceStale = t.deviceStale)
      (fun s => s = (t, .host d)) := by
  unfold toHost
  rw [get_bind]
  cases hstale : t.hostStale with
  | false =>
    simp only [hstale]
    exact ⟨t, d, rfl, .refl t d, rfl, hstale, rfl⟩
  | true =>
    rcases Option.eq_none_or_eq_some t.surface with hs | ⟨h, hs⟩
    · simp only [hstale, if_true, hs]
      exact ⟨_, d, rfl, .of_texture ⟨rfl, rfl, rfl⟩ rfl, hs, rfl, rfl⟩
    · rcases d.readBack_cases h t.image with ⟨image, hread⟩ | ⟨e, hread⟩
      · simp only [hstale, if_true, hs, bind_eq, change, Action.modify, report, onDevice, zoom,
          hread]
        exact ⟨_, _, rfl, .of_texture ⟨rfl, rfl, hs.symm⟩ rfl, rfl, rfl, rfl⟩
      · simp only [hstale, if_true, hs, bind_eq, report, onDevice, zoom, hread]
        rfl

/-- The texture after its surface was released. -/
def released (t : Texture) : Texture :=
  if t.surface.isSome then { t with surface := none, deviceStale := true } else t

/-- The release of the surface never fails. -/
theorem release_eq (t : Texture) (d : HostDevice) :
    ∃ d', release (t, .host d) = { result := .ok (), state := (t.released, .host d') } ∧
      Exchange t d t.released d' := by
  rw [release, get_bind]
  rcases Option.eq_none_or_eq_some t.surface with hs | ⟨h, hs⟩
  · have hreleased : t.released = t := by simp [released, hs]
    rw [hreleased]
    exact ⟨d, by simp only [hs]; rfl, .refl t d⟩
  · have hreleased : t.released = { t with surface := none, deviceStale := true } := by
      simp [released, hs]
    rw [hreleased]
    exact ⟨d.releaseSurface h, by simp only [hs]; rfl, Exchange.drop hs⟩

/-! ## Transfers are exchanges -/

/-- A texture and a device that an exchange may lead to. -/
def Exchanged (t : Texture) (d : HostDevice) (s : Texture × Device) : Prop :=
  ∃ t' d', s = (t', .host d') ∧ Exchange t d t' d'

/-- A change of the texture alone. -/
theorem exchanged_change {f : Texture → Texture}
    (hf : ∀ u, (f u).width = u.width ∧ (f u).height = u.height ∧ (f u).surface = u.surface)
    (t : Texture) (d : HostDevice) : Exchanged t d (change f (t, .host d)).state :=
  ⟨f t, d, rfl, .of_texture (hf t) rfl⟩

/-- A transfer to the device. -/
theorem exchanged_toDevice (t : Texture) (d : HostDevice) :
    Exchanged t d (toDevice (t, .host d)).state := by
  refine ((toDevice_spec t d).mono ?_ ?_).state
  · rintro h _ ⟨u, d', rfl, hexchange, -⟩
    exact ⟨u, d', rfl, hexchange⟩
  · rintro _ ⟨u, d', rfl, hexchange, -⟩
    exact ⟨u, d', rfl, hexchange⟩

/-- A transfer to the host. -/
theorem exchanged_toHost (t : Texture) (d : HostDevice) :
    Exchanged t d (toHost (t, .host d)).state := by
  refine ((toHost_spec t d).mono ?_ ?_).state
  · rintro _ _ ⟨u, d', rfl, hexchange, -⟩
    exact ⟨u, d', rfl, hexchange⟩
  · rintro _ rfl
    exact ⟨t, d, rfl, .refl t d⟩

/-- The release of the surface. -/
theorem exchanged_release (t : Texture) (d : HostDevice) :
    Exchanged t d (release (t, .host d)).state := by
  obtain ⟨d', heq, hexchange⟩ := release_eq t d
  rw [heq]
  exact ⟨t.released, d', rfl, hexchange⟩

end Texture

end ComputeKernel
