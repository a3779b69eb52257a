import ComputeKernel.Proofs.Device.Books
import ComputeKernel.Proofs.Texture.Clean

/-!
# The place of a texel on both sides

The host and the device reckon the place of a texel each for itself. The host has four words for
each texel, from `(y * width + x) * 4` on; it reads them row by row when it sends them, and stores
the words of what it receives one after the other. The device finds a texel that a kernel writes by
its place in 32 bits. As long as all places are words, the two mean the same texel: a write of the
host that is then sent to the surface leaves the same texels there as a write of a kernel to the
surface that was sent before it, and what a kernel writes is read back to the texel of the host.
`texel_addressing` says so of every texture that can be reached. Writes to larger surfaces fail
where the place is no word (`texel_writes_iff`).
-/

namespace ComputeKernel

open Texture

namespace Texture

variable {t : Texture} {d : HostDevice} {uv : Uint2}

/-- What the host reads is told by the size and the texels. -/
theorem get_congr {t' : Texture} (hwidth : t'.width = t.width) (hheight : t'.height = t.height)
    (hpixels : t'.pixels = t.pixels) (uv : Uint2) : t'.get uv = t.get uv := by
  rw [get, get, checkTexel, checkTexel, contains, contains, texel_eq, texel_eq, position, position,
    hwidth, hheight, hpixels]

/-- The host reads what the snapshot has at the place of the texel. -/
theorem getElem?_snapshot (h : t.contains uv = true) :
    t.snapshot[uv.y.toNat * t.width.toNat + uv.x.toNat]? = some (t.texel uv) := by
  have hlt : t.position uv < t.pixels.size := t.size_pixels ▸ position_lt h
  rw [snapshot_eq, ← position, texel_eq, Array.getElem?_eq_getElem hlt, Option.getD_some]

/-- What the host reads is made up of the four words of the texel. -/
theorem components_texel (h : t.contains uv = true) :
    (t.texel uv).components = t.texelWords uv := by
  have hlength : (t.texelWords uv).length = 4 :=
    length_chunk (chunk_le t.size_words (position_lt h))
  obtain ⟨x, y, z, w, hwords⟩ := List.length_eq_four.1 hlength
  rw [texel, hwords]
  rfl

/-- A write changes the four words of its texel and no others. -/
theorem getElem?_words_put (h : t.contains uv = true) (value : Float4) (k : Nat) :
    (t.put uv value).words[k]? =
      if t.base uv ≤ k ∧ k < t.base uv + 4 then value.components[k - t.base uv]?
      else t.words[k]? := by
  have hroom : t.base uv + 4 ≤ t.words.size := chunk_le t.size_words (position_lt h)
  rw [words_put, ← base_eq, getElem?_overwrite]
  refine if_congr ⟨fun hk => ⟨hk.1, hk.2.1⟩, fun hk => ⟨hk.1, hk.2, ?_⟩⟩ rfl rfl
  exact Nat.lt_of_lt_of_le hk.2 hroom

/-- A matched texture is sent to the surface it has, or to a new one. -/
theorem toDevice_of_matched (hm : t.Matched d) (hstale : t.deviceStale = true) :
    ∃ h d' s, toDevice (t, .host d) =
        { result := .ok h, state := (t.shown h, .host d')
          events := [.textureBlitted t.width t.height] } ∧
      h = t.surface.getD ⟨d.issued + 1⟩ ∧ d'.surfaces.get? h.id = some s ∧ s.width = t.width ∧
      s.height = t.height ∧ s.pixels = t.pixels := by
  rcases Option.eq_none_or_eq_some t.surface with hs | ⟨h, hs⟩
  · obtain ⟨d', heq, -, hget⟩ := toDevice_of_none hs d
    exact ⟨_, d', _, heq, by rw [hs]; rfl, (hget _).trans (if_pos rfl), rfl, rfl, rfl⟩
  · obtain ⟨s, hget, hwidth, hheight, hsize, -⟩ := hm.surface h hs
    exact ⟨h, _, _, toDevice_of_stale hs hstale hget (hsize.trans t.size_pixels.symm),
      by rw [hs]; rfl, (d.get?_withImage h s _ _).trans (if_pos rfl), hwidth, hheight, rfl⟩

/-- What a surface of the right size holds is read back to the host. -/
theorem toHost_of_shown {h : SurfaceHandle} {s : HostSurface} (hget : d.surfaces.get? h.id = some s)
    (hsize : s.pixels.size = t.pixels.size) :
    ∃ u d', toHost ((t.shown h).hintDevice, .host d) =
        { result := .ok (), state := (u, .host d')
          events := [.textureReadBack t.width t.height] } ∧
      u.width = t.width ∧ u.height = t.height ∧ u.pixels = s.pixels :=
  ⟨_, _, toHost_of_stale (t := (t.shown h).hintDevice) rfl rfl hget hsize, rfl, rfl,
    store_pixels (t := { (t.shown h).hintDevice with image := s.pixels })
    (hsize.trans t.size_pixels)⟩

end Texture

namespace Texture

variable {width height : UInt32}

/-- A texture whose places are words can be made. -/
theorem zeros_eq_ok (format : TexelFormat) (hsize : width.toNat * height.toNat ≤ 2 ^ 32) :
    ∃ t, zeros? width height format = .ok t ∧ t.width = width ∧ t.height = height := by
  have hwords : width.toNat * height.toNat * 4 < UInt64.size := by
    have : (2 : Nat) ^ 32 * 4 < UInt64.size := by decide
    omega
  have hbytes : width.toNat * height.toNat * Float4.size ≤ Size.maxBlock :=
    (Nat.mul_le_mul_right _ hsize).trans (by decide)
  rw [zeros?, if_pos hwords, dif_pos hbytes]
  exact ⟨_, rfl, rfl, rfl⟩

end Texture

namespace TextureStep

open Texture in
/-- Nothing that is done with a texture changes its size. -/
theorem act_size (step : TextureStep) (t : Texture) (d : HostDevice) :
    (step.act (t, .host d)).state.1.width = t.width ∧ (step.act (t, .host d)).state.1.height =
      t.height := by
  have hself := framed_self t d
  have hsize {s : Texture × Device} (h : Framed t d s) : s.1.width = t.width ∧
      s.1.height = t.height := by
    obtain ⟨_, -, hframe⟩ := h
    exact ⟨hframe.width, hframe.height⟩
  cases step with
  | set uv value =>
    simp only [act, write, Action.step, Texture.set, checkTexel]
    split_ifs
    · exact ⟨rfl, rfl⟩
    · exact ⟨rfl, rfl⟩
  | writePixel uv value => exact hsize (keeps_writePixel uv value _ hself)
  | readPixel uv => exact hsize (((keeps_readPixel uv).bind fun _ => Action.keeps_pure _) _ hself)
  | hintHost | hintDevice | applyHostChanges | kernel => exact ⟨rfl, rfl⟩
  | toDevice => exact hsize ((keeps_toDevice.bind fun _ => Action.keeps_pure _) _ hself)
  | toHost => exact hsize (keeps_toHost _ hself)
  | release => exact hsize (keeps_framed exchanged_release _ hself)

/-- Whatever was done, a texture keeps its size and is matched. -/
theorem exists_of_runAll {width height : UInt32} {format : TexelFormat} {t : Texture}
    (hzeros : Texture.zeros? width height format = .ok t) (hwidth : t.width = width)
    (hheight : t.height = height) (d : HostDevice) (steps : List TextureStep) :
    ∃ u d', runAll steps (t, .host d) = (u, .host d') ∧ u.width = width ∧ u.height = height ∧
    u.Matched d' := by
  refine List.foldlRecOn (motive := fun s => ∃ u d', s = (u, Device.host d') ∧
    u.width = width ∧ u.height = height ∧ u.Matched d')
    steps _ ⟨t, d, rfl, hwidth, hheight, matched_zeros hzeros d⟩ ?_
  rintro _ ⟨u, d', rfl, hw, hh, hm⟩ step -
  obtain ⟨hw', hh'⟩ := step.act_size u d'
  obtain ⟨d'', heq, hm'⟩ := step.act_matched (u, .host d') ⟨d', rfl, hm⟩
  exact ⟨_, d'', Prod.ext rfl heq, hw'.trans hw, hh'.trans hh, hm'⟩

end TextureStep

/-- **Both sides mean the same texel.** A texture of at most 2 ^ 32 texels can be made, and whatever
was then done with it and a device in host memory, it has its size, with four words for each texel.
A write of the host to a texel changes the four words from `(y * width + x) * 4` on and no others,
and what is read there and nowhere else. What is read at `(x, y)` are these four words, and stands
in the snapshot at `y * width + x`. An image of its size that is stored is the snapshot afterwards,
its words one after the other. When the texture is sent to the device, its surface holds the
snapshot. When the host writes a texel first, the same surface holds what it would hold if a kernel
had written that texel on the device, and differs from the snapshot at this one place. And what a
kernel has written there is read back to the texel of the host, and to no other. -/
theorem texel_addressing {width height : UInt32} (format : TexelFormat)
    (hsize : width.toNat * height.toNat ≤ 2 ^ 32) :
    ∃ t₀, Texture.zeros? width height format = .ok t₀ ∧
    ∀ (d₀ : HostDevice) (steps : List TextureStep),
    ∃ t d, TextureStep.runAll steps (t₀, .host d₀) = (t, .host d) ∧ t.width = width ∧
    t.height = height ∧ t.words.size = width.toNat * height.toNat * 4 ∧
    (∀ uv v, uv.x < width → uv.y < height →
      let base := (uv.y.toNat * width.toNat + uv.x.toNat) * 4
      ∃ t', t.set uv v = .ok t' ∧ (∀ uv', t'.get uv' = if uv' = uv then .ok v else t.get uv') ∧
        ∀ k, t'.words[k]? =
          if base ≤ k ∧ k < base + 4 then v.components[k - base]? else t.words[k]?) ∧
    t.snapshot.size = width.toNat * height.toNat ∧
    (∀ uv, uv.x < width → uv.y < height →
      let place := uv.y.toNat * width.toNat + uv.x.toNat
      ∃ value, t.get uv = .ok value ∧
        value.components = (t.words.extract (place * 4) (place * 4 + 4)).toList ∧
        t.snapshot[place]? = some value) ∧
    (∀ image : Array Float4, image.size = width.toNat * height.toNat →
      (t.store image.toList).words.toList = image.toList.flatMap Float4.components ∧
        (t.store image.toList).snapshot = image) ∧
    ∃ h shown d₁ s₁, (Texture.toDevice (t.hintHost, .host d)).result = .ok h ∧
      (Texture.toDevice (t.hintHost, .host d)).state = (shown, .host d₁) ∧
      d₁.surfaces.get? h.id = some s₁ ∧ s₁.pixels = t.snapshot ∧
      ∀ uv v, uv.x < width → uv.y < height → ∃ t' shown' d₂ s₂ d₃ s₃ back d₄,
        t.set uv v = .ok t' ∧ (Texture.toDevice (t', .host d)).result = .ok h ∧
        (Texture.toDevice (t', .host d)).state = (shown', .host d₂) ∧
        d₂.surfaces.get? h.id = some s₂ ∧
        d₁.writePixel h uv.x uv.y v = .ok (true, d₃) ∧ d₃.surfaces.get? h.id = some s₃ ∧
        s₂.pixels = s₃.pixels ∧
        (∀ i, s₂.pixels[i]? = if i = uv.y.toNat * width.toNat + uv.x.toNat then
          some v else s₁.pixels[i]?) ∧
        (Texture.toHost (shown.hintDevice, .host d₃)).result = .ok () ∧
        (Texture.toHost (shown.hintDevice, .host d₃)).state = (back, .host d₄) ∧
        ∀ uv', back.get uv' = if uv' = uv then .ok v else t.get uv' := by
  obtain ⟨t₀, hzeros, hwidth₀, hheight₀⟩ := zeros_eq_ok format hsize
  refine ⟨t₀, hzeros, fun d₀ steps => ?_⟩
  obtain ⟨t, d, hrun, rfl, rfl, hm⟩ := TextureStep.exists_of_runAll hzeros hwidth₀ hheight₀ d₀ steps
  have hcontains {uv : Uint2} (hx : uv.x < t.width) (hy : uv.y < t.height) : t.contains uv = true :=
    contains_iff.2 ⟨UInt32.lt_iff_toNat_lt.1 hx, UInt32.lt_iff_toNat_lt.1 hy⟩
  refine ⟨t, d, hrun, rfl, rfl, t.size_words,
    fun uv v hx hy => ⟨_, set_of_contains (hcontains hx hy) v,
      get_put (hcontains hx hy) v, getElem?_words_put (hcontains hx hy) v⟩,
    by rw [t.snapshot_eq, t.size_pixels],
    fun uv hx hy => ⟨_, get_of_contains (hcontains hx hy),
      components_texel (hcontains hx hy), getElem?_snapshot (hcontains hx hy)⟩,
    fun image himage => ⟨congrArg Array.toList (store_words himage), ?_⟩, ?_⟩
  · rw [snapshot_eq, store_pixels himage]
  obtain ⟨h, d₁, s₁, hshow, hh, hget₁, hwidth₁, hheight₁, hpixels₁⟩ :=
    toDevice_of_matched (t := t.hintHost)
    (hm.of_stale (.refl d) ⟨rfl, rfl, rfl⟩ hm.image (.inr rfl)) rfl
  have hpixels₁ : s₁.pixels = t.pixels := hpixels₁
  refine ⟨h, t.hintHost.shown h, d₁, s₁, by rw [hshow], by rw [hshow], hget₁,
    hpixels₁.trans t.snapshot_eq.symm, ?_⟩
  intro uv v hx hy
  have huv := hcontains hx hy
  -- The host writes the texel and sends it.
  obtain ⟨h', d₂, s₂, hshow', hh', hget₂, -, -, hpixels₂⟩ := toDevice_of_matched (t := t.put uv v)
    (hm.of_stale (.refl d) ⟨rfl, rfl, rfl⟩ hm.image (.inr rfl)) rfl
  obtain rfl : h' = h := hh'.trans hh.symm
  have hpixels₂ : s₂.pixels = t.pixels.setIfInBounds (t.position uv) v :=
    hpixels₂.trans (t.pixels_put uv v)
  -- A kernel writes the texel, and it is read back.
  obtain ⟨d₃, hwrite, hget₃⟩ : ∃ d₃, d₁.writePixel h' uv.x uv.y v = .ok (true, d₃) ∧
      d₃.surfaces.get? h'.id =
        some { s₁ with pixels := s₁.pixels.setIfInBounds (t.position uv) v } :=
    ⟨_, writePixel_of_contains hget₁ hwidth₁ hheight₁ huv hsize v, Keyed.get?_put_self _ _ _⟩
  have hpixels₃ : s₁.pixels.setIfInBounds (t.position uv) v = s₂.pixels := by
    rw [hpixels₂, hpixels₁]
  obtain ⟨back, d₄, hback, hwidth, hheight, hpixels⟩ := toHost_of_shown (t := t.hintHost) hget₃
    (by rw [Array.size_setIfInBounds, hpixels₁]; rfl)
  refine ⟨t.put uv v, _, d₂, s₂, d₃, _, back, d₄, set_of_contains huv v, by rw [hshow'],
    by rw [hshow'], hget₂, hwrite, hget₃, hpixels₃.symm, ?_, by rw [hback], by rw [hback], ?_⟩
  · intro i
    have hlt : t.position uv < t.pixels.size := t.size_pixels ▸ position_lt huv
    rw [hpixels₂, hpixels₁, ← Texture.position, Array.getElem?_setIfInBounds, if_pos hlt]
    exact if_congr eq_comm rfl rfl
  · intro uv'
    rw [← get_put huv v]
    have hback : back.pixels = (t.put uv v).pixels := by
      rw [hpixels, hpixels₃, hpixels₂, t.pixels_put]
    exact get_congr (t := t.put uv v) hwidth hheight hback uv'

/-- Of two columns and three rows, the last texel lies at the last of the six places and has the
last four of the words, whatever was done before. -/
theorem column_addressing :
    (2 : UInt32).toNat * (3 : UInt32).toNat ≤ 2 ^ 32 ∧
    ∃ t₀, Texture.zeros? 2 3 .rgba8Unorm = .ok t₀ ∧
      ∀ (d₀ : HostDevice) (steps : List TextureStep), ∃ t d,
      TextureStep.runAll steps (t₀, .host d₀) = (t, .host d) ∧
        ∃ value, t.get ⟨1, 2⟩ = .ok value ∧ value.components = (t.words.extract 20 24).toList ∧
          t.snapshot[5]? = some value := by
  have hsize : (2 : UInt32).toNat * (3 : UInt32).toNat ≤ 2 ^ 32 := by decide
  obtain ⟨t₀, hzeros, hall⟩ := texel_addressing .rgba8Unorm hsize
  refine ⟨hsize, t₀, hzeros, fun d₀ steps => ?_⟩
  obtain ⟨t, d, hrun, -, -, -, -, -, hsnapshot, -⟩ := hall d₀ steps
  exact ⟨t, d, hrun, hsnapshot ⟨1, 2⟩ (by decide) (by decide)⟩

/-- What a kernel's write to a texel of a live surface comes to. -/
theorem HostDevice.writePixel_of_live {d : HostDevice} {h : SurfaceHandle} {s : HostSurface}
    (hs : d.surfaces.get? h.id = some s) {x y : UInt32} (hx : x < s.width) (hy : y < s.height)
    (value : Float4) :
    d.writePixel h x y value =
      if y.toNat * s.width.toNat + x.toNat < 2 ^ 32 then
        .ok (true, { d with
          surfaces := d.surfaces.put h.id
            { s with pixels := s.pixels.setIfInBounds (y.toNat * s.width.toNat + x.toNat) value } })
      else .error (if y.toNat * s.width.toNat < 2 ^ 32 then .addition else .multiplication) := by
  rw [writePixel_eq, hs]
  exact if_pos ⟨hx, hy⟩

/-- **Writes of kernels to texels.** On every device that host calls lead to, a surface is made
exactly if its texels fit in a block of memory. A write to a texel of a live surface changes that
texel and nothing else if its place is a word, and is a fault of 32-bit arithmetic otherwise. So no
write fails exactly if the surface has at most `2 ^ 32` texels. -/
theorem texel_writes_iff (entries : List String) (calls : List HostCall) (value : Float4) :
    let d := HostCall.runAll calls (.ofEntries entries)
    (∀ width height format, (∃ h, (HostDevice.createSurface width height format d).result = .ok h) ↔
      width.toNat * height.toNat * Float4.size ≤ Size.maxBlock) ∧
    ∀ (h : SurfaceHandle) (s : HostSurface), d.surfaces.get? h.id = some s →
      (∀ x y, x < s.width → y < s.height →
        let place := y.toNat * s.width.toNat + x.toNat
        if place < 2 ^ 32 then
          ∃ pixels, d.writePixel h x y value =
              .ok (true, { d with surfaces := d.surfaces.put h.id { s with pixels } }) ∧
            place < s.pixels.size ∧ ∀ i, pixels[i]? = if i = place then some value else s.pixels[i]?
        else ∃ fault ∈ [Fault.addition, .multiplication], d.writePixel h x y value = .error fault) ∧
      ((∀ x y, x < s.width → y < s.height → ∃ d', d.writePixel h x y value = .ok (true, d')) ↔
        s.width.toNat * s.height.toNat ≤ 2 ^ 32) := by
  intro d
  refine ⟨fun width height format => ?_, fun h s hs => ?_⟩
  · rw [HostDevice.createSurface_eq_ite]
    split_ifs with hfits
    · exact iff_of_true ⟨_, rfl⟩ hfits
    · exact iff_of_false (fun ⟨_, h⟩ => nomatch h) hfits
  have hfull : s.Full := (HostCall.booked_runAll calls (.ofEntries entries)).full _ s hs
  have hlt {x y : UInt32} (hx : x < s.width) (hy : y < s.height) :
      y.toNat * s.width.toNat + x.toNat < s.pixels.size := by
    rw [hfull, Nat.mul_comm s.width.toNat]
    exact digits_lt (UInt32.lt_iff_toNat_lt.1 hy) (UInt32.lt_iff_toNat_lt.1 hx)
  have hwrite {x y : UInt32} (hx : x < s.width) (hy : y < s.height) :=
    HostDevice.writePixel_of_live hs hx hy value
  refine ⟨fun x y hx hy => ?_, fun hall => ?_, fun hsize x y hx hy => ?_⟩
  · intro place
    split_ifs with hplace
    · refine ⟨_, (hwrite hx hy).trans (if_pos hplace), hlt hx hy, fun i => ?_⟩
      rw [Array.getElem?_setIfInBounds, if_pos (hlt hx hy)]
      exact if_congr eq_comm rfl rfl
    · refine ⟨_, ?_, (hwrite hx hy).trans (if_neg hplace)⟩
      split_ifs
      · exact .head _
      · exact .tail _ (.head _)
  · -- The first place that is no word is that of a texel.
    by_contra hlarge
    have hpos : 0 < s.width.toNat := Nat.pos_of_ne_zero fun hzero => hlarge (by simp [hzero])
    have hrow : 2 ^ 32 / s.width.toNat < s.height.toNat :=
      Nat.div_lt_of_lt_mul (Nat.not_le.1 hlarge)
    have ex := toNat_toUInt32_of_lt (Nat.mod_lt (2 ^ 32) hpos)
    have ey := toNat_toUInt32_of_lt hrow
    have hx := UInt32.lt_iff_toNat_lt.2 (ex.symm ▸ Nat.mod_lt (2 ^ 32) hpos)
    have hy := UInt32.lt_iff_toNat_lt.2 (ey.symm ▸ hrow)
    obtain ⟨d', hok⟩ := hall _ _ hx hy
    rw [hwrite hx hy, ex, ey, Nat.div_add_mod', if_neg (Nat.lt_irrefl _)] at hok
    cases hok
  · exact ⟨_, (hwrite hx hy).trans
      (if_pos (Nat.lt_of_lt_of_le (hlt hx hy) (Nat.le_trans (Nat.le_of_eq hfull) hsize)))⟩

/-- No write to a surface of two columns and three rows fails. -/
theorem column_writes :
    ∃ s, (HostCall.runAll [.createSurface 2 3 .rgba8Unorm] (.ofEntries [])).surfaces.get? 1 =
      some s ∧ s.width.toNat * s.height.toNat = 6 ∧ ∀ x y value, x < s.width → y < s.height →
        ∃ d', (HostCall.runAll [.createSurface 2 3 .rgba8Unorm] (.ofEntries [])).writePixel
          ⟨1⟩ x y value =
          .ok (true, d') :=
  ⟨_, rfl, rfl, fun x y value hx hy => ((texel_writes_iff [] _ value).2 ⟨1⟩ _ rfl).2.2
    (by decide) x y hx hy⟩

/-- Of a surface with a texel more than there are words, the last cannot be written. The largest
surface cannot be made. -/
theorem last_texel_not_written :
    HostCall.answers [.createSurface 641 6700417 .rgba32Float,
        .writePixel ⟨1⟩ 640 6700416 .zero] (.ofEntries []) =
      [.ok (.surface ⟨1⟩), .error (.fault .addition)] ∧
    HostCall.answers [.createSurface 4294967295 4294967295 .rgba32Float,
        .writePixel ⟨1⟩ 4294967294 4294967294 .zero] (.ofEntries []) =
      [.error (.fault .capacity), .ok (.written false)] :=
  ⟨rfl, rfl⟩

end ComputeKernel
