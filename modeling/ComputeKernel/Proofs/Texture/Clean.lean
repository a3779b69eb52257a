import ComputeKernel.Proofs.Texture.Surface

/-!
# Clean flags mean equal copies

A texture has its texels three times: on the host, in the image that was last committed or
exchanged, and on its surface. The three are written by different operations, and so are the two
flags. `Texture.Matched` ties them together: whenever there is a surface and neither side is marked
as behind, all three hold the same texels.

Only the two transfers clear a flag, and a transfer that clears one makes all three copies the same,
also where the other flag stays set (`matched_toDevice`, `matched_toHost`). Everything else sets a
flag, or takes the surface away. `TextureStep.act_matched` is the step and `clean_copies_equal` the
run.
-/

namespace ComputeKernel

open ComputeKernel.Action
open Outcome

/-! ## Writes of a kernel on the device -/

namespace HostDevice

variable (d : HostDevice)

/-- A texel that a kernel writes, and the surface it lies on. -/
structure SurfaceWrite where
  surface : SurfaceHandle
  place : Uint2
  value : Float4

/-- The device after a kernel wrote a texel. Outside of surfaces it is lost. -/
def store (w : SurfaceWrite) : HostDevice :=
  match d.writePixel w.surface w.place.x w.place.y w.value with
  | .ok (_, next) => next
  | .error _ => d

/-- Surfaces of both devices have the same sizes. -/
def SameSurfaces (d d' : HostDevice) : Prop :=
  ∀ k s, d.surfaces.get? k = some s → ∃ s', d'.surfaces.get? k = some s' ∧
    s'.width = s.width ∧ s'.height = s.height ∧ s'.pixels.size = s.pixels.size

/-- Sizes are the same as before. -/
theorem SameSurfaces.refl : SameSurfaces d d := fun _ s hs => ⟨s, hs, rfl, rfl, rfl⟩

/-- Two steps make one. -/
theorem SameSurfaces.trans {d d' d'' : HostDevice} (h : SameSurfaces d d')
    (h' : SameSurfaces d' d'') :
    SameSurfaces d d'' := by
  intro k s hs
  obtain ⟨s', hs', hwidth, hheight, hsize⟩ := h k s hs
  obtain ⟨s'', hs'', hwidth', hheight', hsize'⟩ := h' k s' hs'
  exact ⟨s'', hs'', hwidth'.trans hwidth, hheight'.trans hheight, hsize'.trans hsize⟩

/-- A write changes texels and no sizes. -/
theorem sameSurfaces_store (w : SurfaceWrite) : SameSurfaces d (d.store w) := by
  rw [store, writePixel_eq]
  cases hget : d.surfaces.get? w.surface.id with
  | none => exact .refl d
  | some target =>
    dsimp only
    split_ifs
    · intro k s hs
      by_cases hk : k = w.surface.id
      · subst hk
        obtain rfl : target = s := Option.some.inj (hget.symm.trans hs)
        exact ⟨_, Keyed.get?_put_self _ _ _, rfl, rfl, Array.size_setIfInBounds⟩
      · exact ⟨s, ((Keyed.get?_put_nat _ _ _ _).trans (if_neg hk)).trans hs, rfl, rfl, rfl⟩
    · exact .refl d
    · exact .refl d
    · exact .refl d

/-- A kernel that writes many texels changes no sizes. -/
theorem sameSurfaces_foldl (writes : List SurfaceWrite) :
    SameSurfaces d (writes.foldl store d) :=
  List.foldlRecOn writes store (SameSurfaces.refl d) fun d' h w _ =>
    h.trans (d'.sameSurfaces_store w)

end HostDevice

/-! ## The invariant -/

namespace Texture

variable {t : Texture} {d : HostDevice}
variable (uv : Uint2)

/-- The texture and its surface have one size, and while neither side is behind, the surface, the
image and the host hold the same texels. -/
structure Matched (t : Texture) (d : HostDevice) : Prop where
  image : t.image.size = t.width.toNat * t.height.toNat
  surface : ∀ h, t.surface = some h → ∃ s, d.surfaces.get? h.id = some s ∧ s.width = t.width ∧
    s.height = t.height ∧ s.pixels.size = t.width.toNat * t.height.toNat ∧
    (t.hostStale = false → t.deviceStale = false → s.pixels = t.pixels ∧ t.image = t.pixels)

/-- A texture that no device has used is matched. -/
theorem matched_zeros {width height : UInt32} {format : TexelFormat}
    (ht : zeros? width height format = .ok t) (d : HostDevice) : t.Matched d := by
  simp only [zeros?] at ht
  split at ht
  next =>
    split at ht
    next =>
      obtain rfl := Except.ok.inj ht
      exact ⟨Array.size_replicate, fun h hh => by cases hh⟩
    next => cases ht
  next => cases ht

/-- What sets a flag, or finds it set, may change the texels of any copy. -/
theorem Matched.of_stale (hm : t.Matched d) {t' : Texture} {d' : HostDevice}
    (hd : d.SameSurfaces d') (hkept : t'.width = t.width ∧ t'.height = t.height ∧
    t'.surface = t.surface) (himage : t'.image.size = t.width.toNat * t.height.toNat)
    (hstale : t'.hostStale = true ∨ t'.deviceStale = true) : t'.Matched d' := by
  obtain ⟨hwidth, hheight, hsurface⟩ := hkept
  refine ⟨by rw [hwidth, hheight, himage], fun h hh => ?_⟩
  obtain ⟨s, hget, hw, hh', hsize, -⟩ := hm.surface h (hsurface ▸ hh)
  obtain ⟨s', hget', hw', hh'', hsize'⟩ := hd h.id s hget
  refine ⟨s', hget', by rw [hw', hw, hwidth], by rw [hh'', hh', hheight],
    by rw [hsize', hsize, hwidth, hheight], ?_⟩
  intro hhost hdevice
  rcases hstale with hstale | hstale
  · exact absurd (hhost.symm.trans hstale) Bool.false_ne_true
  · exact absurd (hdevice.symm.trans hstale) Bool.false_ne_true

/-! ## Transfers -/

/-- A texture whose texels are on its surface is matched. -/
theorem matched_shown {h : SurfaceHandle} {s : HostSurface} (hget : d.surfaces.get? h.id = some s)
    (hwidth : s.width = t.width) (hheight : s.height = t.height) (hpixels : s.pixels = t.pixels) :
    (t.shown h).Matched d where
  image := t.size_pixels
  surface h' hh' := by
    obtain rfl : h = h' := Option.some.inj hh'
    exact ⟨s, hget, hwidth, hheight, hpixels ▸ t.size_pixels, fun _ _ => ⟨hpixels, rfl⟩⟩

/-- A transfer to the device succeeds and keeps the texture matched. -/
theorem matched_toDevice (hm : t.Matched d) :
    ∃ u d', (toDevice (t, .host d)).state = (u, .host d') ∧ u.Matched d' := by
  rcases Option.eq_none_or_eq_some t.surface with hs | ⟨h, hs⟩
  · obtain ⟨d', heq, -, hget⟩ := toDevice_of_none hs d
    exact ⟨_, d', congrArg state heq, matched_shown ((hget _).trans (if_pos rfl)) rfl rfl rfl⟩
  · cases hstale : t.deviceStale with
    | false => exact ⟨t, d, congrArg state (toDevice_of_current hs hstale _), hm⟩
    | true =>
      obtain ⟨s, hget, hwidth, hheight, hsize, -⟩ := hm.surface h hs
      have heq := toDevice_of_stale hs hstale hget (hsize.trans t.size_pixels.symm)
      have hget' : (d.withImage h s t.pixels).surfaces.get? h.id =
        some { s with pixels := t.pixels } :=
        (d.get?_withImage h s _ _).trans (if_pos rfl)
      exact ⟨_, _, congrArg state heq, matched_shown hget' hwidth hheight rfl⟩

/-- A transfer to the host succeeds and keeps the texture matched. -/
theorem matched_toHost (hm : t.Matched d) :
    ∃ u d', (toHost (t, .host d)).state = (u, .host d') ∧ u.Matched d' := by
  cases hstale : t.hostStale with
  | false => exact ⟨t, d, congrArg state (toHost_of_current hstale _), hm⟩
  | true =>
    rcases Option.eq_none_or_eq_some t.surface with hs | ⟨h, hs⟩
    · refine ⟨_, d, congrArg state (toHost_of_none hs hstale _), hm.image, fun h hh => ?_⟩
      exact absurd (hs.symm.trans hh) (Option.some_ne_none h).symm
    · obtain ⟨s, hget, hwidth, hheight, hsize, -⟩ := hm.surface h hs
      have hpixels : (t.received s.pixels).pixels = s.pixels :=
        store_pixels (t := { t with image := s.pixels }) hsize
      have heq := toHost_of_stale hs hstale hget (hsize.trans hm.image.symm)
      refine ⟨_, _, congrArg state heq, hsize, fun h' hh' => ?_⟩
      obtain rfl : h = h' := Option.some.inj (hs.symm.trans hh')
      exact ⟨s, hget, hwidth, hheight, hsize, fun _ _ => ⟨hpixels.symm, hpixels.symm⟩⟩

/-- A texture without a surface is matched. -/
theorem matched_release (hm : t.Matched d) :
    ∃ u d', (release (t, .host d)).state = (u, .host d') ∧ u.Matched d' := by
  obtain ⟨d', heq, -⟩ := release_eq t d
  refine ⟨t.released, d', congrArg state heq, ?_⟩
  rw [released]
  split
  next => exact ⟨hm.image, fun h hh => by simp at hh⟩
  next hs => exact ⟨hm.image, fun h hh => absurd (hh ▸ rfl) hs⟩

/-- A texture beside its device in host memory is matched. -/
def MatchedState (s : Texture × Device) : Prop := ∃ d, s.2 = .host d ∧ s.1.Matched d

/-- An action that leaves every matched texture matched. -/
theorem keeps_matched_of {α : Type} {a : Action (Texture × Device) α}
    (ha : ∀ {t : Texture} {d : HostDevice}, t.Matched d →
      ∃ u d', (a (t, .host d)).state = (u, .host d') ∧ u.Matched d') : Keeps MatchedState a := by
  rintro ⟨t, _⟩ ⟨d, rfl, hm⟩
  obtain ⟨u, d', heq, hu⟩ := ha hm
  rw [heq]
  exact ⟨d', rfl, hu⟩

/-- A change of the texture that leaves a flag set. -/
theorem keeps_matched_change {f : Texture → Texture}
    (hkept : ∀ u, (f u).width = u.width ∧ (f u).height = u.height ∧ (f u).surface = u.surface)
    (himage : ∀ u, u.image.size = u.width.toNat * u.height.toNat →
      (f u).image.size = u.width.toNat * u.height.toNat)
    (hstale : ∀ u, (f u).hostStale = true ∨ (f u).deviceStale = true) :
    Keeps MatchedState (change f) :=
  keeps_matched_of fun {t d} hm =>
    ⟨f t, d, rfl, hm.of_stale (.refl d) (hkept t) (himage t hm.image) (hstale t)⟩

/-- Writing a texel on the host, if the texture has it. -/
def write (value : Float4) : Action (Texture × Device) Unit :=
  Action.step fun (t, d) => ((t.set uv value).map fun t => ((), t, d)).mapError .fault

/-- Writing a texel keeps it matched. -/
theorem keeps_matched_write (value : Float4) : Keeps MatchedState (write uv value) := by
  refine keeps_matched_of fun {t d} hm => ?_
  simp only [write, Action.step, Texture.set, checkTexel]
  split_ifs
  · exact ⟨t.put uv value, d, rfl, hm.of_stale (.refl d) ⟨rfl, rfl, rfl⟩ hm.image (.inr rfl)⟩
  · exact ⟨t, d, rfl, hm⟩

/-- So does reading one. -/
theorem keeps_matched_readPixel : Keeps MatchedState (readPixel uv) := by
  refine (keeps_matched_of matched_toHost).bind fun _ => ?_
  rintro ⟨t, device⟩ hs
  simp only [Action.step]
  cases t.get uv with
  | ok value => exact hs
  | error e => exact hs

end Texture

/-! ## Steps and runs -/

/-- What may be done with a texture. A kernel writes any texels of any surfaces, and that the device
has changed is told at once. -/
inductive TextureStep where
  | set (uv : Uint2) (value : Float4)
  | writePixel (uv : Uint2) (value : Float4)
  | readPixel (uv : Uint2)
  | hintHost
  | hintDevice
  /-- The texels of the host are committed to the image. -/
  | applyHostChanges
  | toDevice
  | toHost
  | release
  | kernel (writes : List HostDevice.SurfaceWrite)

namespace TextureStep

/-- What a kernel writes on a device in host memory. -/
def storeAll (writes : List HostDevice.SurfaceWrite) : Device → Device
  | .host d => .host (writes.foldl HostDevice.store d)
  | .gpu d => .gpu d

/-- The action of a step, with what it reads left out. -/
def act : TextureStep → Action (Texture × Device) Unit
  | .set uv value => Texture.write uv value
  | .writePixel uv value => Texture.writePixel uv value
  | .readPixel uv => Texture.readPixel uv >>= fun _ => pure ()
  | .hintHost => Texture.change Texture.hintHost
  | .hintDevice => Texture.change Texture.hintDevice
  | .applyHostChanges => Texture.change Texture.applyHostChanges
  | .toDevice => Texture.toDevice >>= fun _ => pure ()
  | .toHost => Texture.toHost
  | .release => Texture.release
  | .kernel writes => Action.modify fun s => (s.1.hintDevice, storeAll writes s.2)

/-- A texture and its device after steps, some of which may have failed. -/
def runAll (steps : List TextureStep) (s : Texture × Device) : Texture × Device :=
  steps.foldl (fun s step => (step.act s).state) s

open Texture in
/-- **The step.** Whatever is done, the texture stays matched. -/
theorem act_matched (step : TextureStep) : Keeps MatchedState step.act := by
  cases step with
  | set uv value => exact keeps_matched_write uv value
  | writePixel uv value =>
    exact (keeps_matched_of matched_toHost).bind fun _ => keeps_matched_write uv value
  | readPixel uv => exact (keeps_matched_readPixel uv).bind fun _ => keeps_pure _
  | hintHost =>
    exact keeps_matched_change (fun _ => ⟨rfl, rfl, rfl⟩) (fun _ h => h) fun _ => .inr rfl
  | hintDevice =>
    exact keeps_matched_change (fun _ => ⟨rfl, rfl, rfl⟩) (fun _ h => h) fun _ => .inl rfl
  | applyHostChanges =>
    refine keeps_matched_change (fun _ => ⟨rfl, rfl, rfl⟩) (fun u _ => ?_) fun _ => .inr rfl
    show u.snapshot.size = _
    rw [snapshot_eq, u.size_pixels]
  | toDevice => exact (keeps_matched_of matched_toDevice).bind fun _ => keeps_pure _
  | toHost => exact keeps_matched_of matched_toHost
  | release => exact keeps_matched_of matched_release
  | kernel writes =>
    refine keeps_matched_of fun {t d} hm => ⟨t.hintDevice, writes.foldl HostDevice.store d, rfl, ?_⟩
    exact hm.of_stale (d.sameSurfaces_foldl writes) ⟨rfl, rfl, rfl⟩ hm.image (.inl rfl)

end TextureStep

/-- **Clean flags mean equal copies.** Whatever was done with a texture and one device in host
memory, in any order and whether it succeeded or not: when the texture has a surface and neither
flag is set, the surface is there, has the size of the texture, and holds the same texels as the
image and the host, bit for bit. -/
theorem clean_copies_equal {width height : UInt32} {format : TexelFormat} {t : Texture}
    (ht : Texture.zeros? width height format = .ok t) (d : HostDevice) (steps : List TextureStep) :
    ∃ u d', TextureStep.runAll steps (t, .host d) = (u, .host d') ∧
      ∀ h, u.surface = some h → u.hostStale = false → u.deviceStale = false →
        ∃ s, d'.surfaces.get? h.id = some s ∧ s.width = u.width ∧ s.height = u.height ∧
          s.pixels = u.pixels ∧ u.image = u.pixels := by
  have hrun : Texture.MatchedState (TextureStep.runAll steps (t, .host d)) :=
    List.foldlRecOn steps _ ⟨d, rfl, Texture.matched_zeros ht d⟩ fun s hs step _ =>
      step.act_matched s hs
  rcases hstate : TextureStep.runAll steps (t, .host d) with ⟨u, device⟩
  rw [hstate] at hrun
  obtain ⟨d', rfl, hm⟩ := hrun
  refine ⟨u, d', rfl, fun h hs hhost hdevice => ?_⟩
  obtain ⟨s, hget, hwidth, hheight, -, hequal⟩ := hm.surface h hs
  exact ⟨s, hget, hwidth, hheight, hequal hhost hdevice⟩

namespace Slate

/-- A row of two texels. -/
def texture : Texture where
  width := 2
  height := 1
  format := .rgba32Float
  words := Array.replicate 8 0
  image := Array.replicate 2 .zero
  size_words := by decide
  fits := by decide

/-- The host writes a texel and a kernel the other. The host commits what it has, so that both flags
are set; the transfers clear them. -/
def steps : List TextureStep :=
  [.set ⟨1, 0⟩ ⟨7, 7, 7, 7⟩, .toDevice, .kernel [⟨⟨1⟩, ⟨0, 0⟩, ⟨0x3f800000, 1, 0, 0⟩⟩],
    .applyHostChanges, .toHost, .toDevice]

/-- The texture and the device at the end. -/
def result : Texture × Device := TextureStep.runAll steps (texture, .host (.ofEntries ["Fill"]))

end Slate

/-- All three copies are the same. -/
theorem slate_copies_equal :
    Texture.zeros? 2 1 .rgba32Float = .ok Slate.texture ∧ Slate.result.1.surface = some ⟨1⟩ ∧
      ∃ d s, Slate.result.2 = .host d ∧ d.surfaces.get? 1 = some s ∧
        s.pixels = #[⟨0x3f800000, 1, 0, 0⟩, ⟨7, 7, 7, 7⟩] ∧ Slate.result.1.image = s.pixels := by
  have hzeros : Texture.zeros? 2 1 .rgba32Float = .ok Slate.texture := by decide
  have hclean : Slate.result.1.surface = some ⟨1⟩ ∧ Slate.result.1.hostStale = false ∧
      Slate.result.1.deviceStale = false ∧
      Slate.result.1.pixels = #[⟨0x3f800000, 1, 0, 0⟩, ⟨7, 7, 7, 7⟩] := by decide +kernel
  obtain ⟨hsurface, hhost, hdevice, hpixels⟩ := hclean
  obtain ⟨u, d, hstate, hcopies⟩ := clean_copies_equal hzeros (.ofEntries ["Fill"]) Slate.steps
  rw [Slate.result, hstate] at hsurface hhost hdevice hpixels ⊢
  obtain ⟨s, hget, -, -, hequal, himage⟩ := hcopies ⟨1⟩ hsurface hhost hdevice
  exact ⟨hzeros, hsurface, d, s, rfl, hget, hequal.trans hpixels, himage.trans hequal.symm⟩

end ComputeKernel
