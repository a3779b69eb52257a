import Mathlib.Order.Bounds.Basic
import ComputeKernel.Proofs.Device.Rows
import ComputeKernel.Proofs.Keyed

/-!
# Reading a surface back

A surface is read back in three units: texels, the bytes of a row of texels, and rows that are
filled up to a multiple of the row alignment. Decoding takes one texel after the other
(`decode_eq_map`), so a texel is known by its place among the bytes (`TexelFormat.texelAt`), whether
it is looked for in its row or in the whole surface (`texelAt_row`). Rows go to the destination as
long as they lie inside it as a whole (`getElem?_placeRows`). So it is known what a surface of any
contents becomes in a destination of any size (`getElem?_readBack`), and that nothing of the texels
in the format of four floats is lost in device memory (`readBack_of_encoded`).
-/

namespace ComputeKernel

open List
open TexelFormat

/-! ## Texels by their places -/

namespace TexelFormat

variable {f : TexelFormat} {bytes : Bytes}

/-- The texel that bytes stand for. A component is four bytes, the lowest first, or one byte that
counts 255ths. -/
def decodeTexel (f : TexelFormat) (bytes : Bytes) : Float4 :=
  let component (k : Nat) : UInt32 :=
    match f with
    | .rgba32Float =>
      Word.join (bytes.getD (4 * k) 0) (bytes.getD (4 * k + 1) 0) (bytes.getD (4 * k + 2) 0)
        (bytes.getD (4 * k + 3) 0)
    | .rgba8Unorm => expand (bytes.getD k 0)
  ⟨component 0, component 1, component 2, component 3⟩

/-- The texel at a place of bytes that hold texels. -/
def texelAt (f : TexelFormat) (bytes : Bytes) (i : Nat) : Float4 :=
  f.decodeTexel ((bytes.drop (i * f.texelSize)).take f.texelSize)

/-- The first bytes are decoded to the first texel. -/
theorem decode_append {texel : Bytes} (h : texel.length = f.texelSize) (rest : Bytes) :
    f.decode (texel ++ rest) = f.decodeTexel texel :: f.decode rest := by
  cases f with
  | rgba32Float =>
    match texel, h with
    | [_, _, _, _, _, _, _, _, _, _, _, _, _, _, _, _], _ => rfl
  | rgba8Unorm =>
    match texel, h with
    | [_, _, _, _], _ => rfl

/-- Bytes are decoded to the texels at their places. -/
theorem decode_eq_map {n : Nat} (h : bytes.length = n * f.texelSize) :
    f.decode bytes = (range n).map (f.texelAt bytes) := by
  induction n generalizing bytes with
  | zero =>
    rw [Nat.zero_mul, length_eq_zero_iff] at h
    subst h
    cases f <;> rfl
  | succ n ih =>
    rw [Nat.succ_mul] at h
    have hfirst : (bytes.take f.texelSize).length = f.texelSize := by
      rw [length_take]
      omega
    have hrest : (bytes.drop f.texelSize).length = n * f.texelSize := by
      rw [length_drop]
      omega
    have hplaces : (range n).map (f.texelAt (bytes.drop f.texelSize)) =
        (range n).map (f.texelAt bytes ∘ Nat.succ) := by
      refine map_congr_left fun i _ => ?_
      rw [Function.comp_apply, texelAt, texelAt, drop_drop, Nat.succ_mul, Nat.add_comm]
    rw [← take_append_drop f.texelSize bytes, decode_append hfirst, take_append_drop,
      ih hrest, hplaces, range_succ_eq_map, map_cons, map_map, texelAt, Nat.zero_mul, drop_zero]

/-- A texel that lies inside the first bytes is found there. -/
theorem texelAt_take {i n : Nat} (h : (i + 1) * f.texelSize ≤ n) :
    f.texelAt (bytes.take n) i = f.texelAt bytes i := by
  rw [Nat.succ_mul] at h
  rw [texelAt, texelAt, drop_take, take_take, Nat.min_eq_left (by omega)]

/-- Bytes after a texel do not matter. -/
theorem texelAt_append {i : Nat} (h : (i + 1) * f.texelSize ≤ bytes.length) (filling : Bytes) :
    f.texelAt (bytes ++ filling) i = f.texelAt bytes i := by
  rw [← texelAt_take h, take_left]

/-- Texels after the first ones are found from there. -/
theorem texelAt_drop (f : TexelFormat) (bytes : Bytes) (n i : Nat) :
    f.texelAt (bytes.drop (n * f.texelSize)) i = f.texelAt bytes (n + i) := by
  rw [texelAt, texelAt, drop_drop, Nat.add_mul]

/-- A texel is found in its row as it is in the whole. -/
theorem texelAt_row {width x : Nat} (hx : x < width) (y : Nat) :
    f.texelAt ((bytes.drop (y * (width * f.texelSize))).take (width * f.texelSize)) x =
      f.texelAt bytes (y * width + x) := by
  rw [texelAt_take (Nat.mul_le_mul_right _ hx), ← Nat.mul_assoc, texelAt_drop]

/-- The format of four floats keeps every texel, bit for bit. -/
theorem decodeTexel_encodeTexel_float (p : Float4) :
    rgba32Float.decodeTexel (rgba32Float.encodeTexel p) = p :=
  (Float4.mk.injEq ..).mpr ⟨Word.join_split p.x, Word.join_split p.y, Word.join_split p.z,
    Word.join_split p.w⟩

/-- Encoded texels of four floats are found at their places. -/
theorem texelAt_encode_float {pixels : List Float4} {i : Nat} (hi : i < pixels.length) :
    rgba32Float.texelAt (rgba32Float.encode pixels) i = pixels[i] := by
  have hlength := rgba32Float.length_encodeTexel pixels[i]
  rw [texelAt, drop_encode _ hi.le, drop_eq_getElem_cons hi, encode, flatMap_cons,
    ← hlength, take_left, decodeTexel_encodeTexel_float]

/-- The aligned row is the least multiple with room. -/
theorem isLeast_alignedRow (f : TexelFormat) (width : UInt32) :
    IsLeast {m | 256 ∣ m ∧ width.toNat * f.bytesPerTexel.toNat ≤ m} (f.alignedRow width) := by
  refine ⟨⟨Nat.dvd_mul_left _ _, f.le_alignedRow width⟩, ?_⟩
  rintro m ⟨⟨k, rfl⟩, hroom⟩
  have hroom : width.toNat * f.texelSize ≤ 256 * k := hroom
  have halign : rowAlignment.toNat = 256 := rfl
  rw [alignedRow, halign]
  omega

end TexelFormat

/-- Bytes of its size take the place of a block. -/
theorem MemoryBlock.bytes_overwriteStart {b : MemoryBlock} {bytes : Bytes}
    (h : bytes.length = b.size) :
    (b.overwriteStart bytes).bytes = bytes := by
  show bytes.take b.size ++ b.bytes.drop bytes.length = bytes
  rw [← h, take_length, h, ← b.length_bytes, drop_length, append_nil]

/-! ## Rows by their places -/

namespace GpuDevice

/-- The destination keeps its size. -/
theorem length_decodeInto (f : TexelFormat) (bytes : Bytes) (destination : List Float4) :
    (f.decodeInto bytes destination).length = destination.length := by
  rw [decodeInto, length_append, length_drop, length_take]
  omega

/-- The destination keeps its size. -/
theorem length_placeRows (f : TexelFormat) (width row : Nat) (lines : List Bytes)
    (out : List Float4) :
    (placeRows f width row lines out).length = out.length := by
  induction lines generalizing out with
  | nil => rfl
  | cons line lines ih =>
    rw [placeRows]
    split
    · rw [length_append, ih, length_decodeInto, ← length_append, take_append_drop]
    · rfl

/-- **Rows in their places.** A texel of the destination is the one of the rows that lies there, if
there is room for the whole row. All others stay. -/
theorem getElem?_placeRows {f : TexelFormat} {width : Nat} (hwidth : 0 < width) {lines : List Bytes}
    (hlines : ∀ line ∈ lines, width * f.texelSize ≤ line.length) (out : List Float4) (i : Nat) :
    (placeRows f width (width * f.texelSize) lines out)[i]? =
      match lines[i / width]? with
      | some line =>
        if (i / width + 1) * width ≤ out.length then some (f.texelAt line (i % width)) else out[i]?
      | none => out[i]? := by
  induction lines generalizing out i with
  | nil => rfl
  | cons line lines ih =>
    obtain ⟨hline, hrest⟩ := forall_mem_cons.1 hlines
    have hlength : (line.take (width * f.texelSize)).length = width * f.texelSize := by
      rw [length_take]
      omega
    rw [placeRows, length_take]
    by_cases hroom : width ≤ out.length
    · have hhere : (out.take width).length = width := by
        rw [length_take]
        omega
      have hdecoded : f.decodeInto (line.take (width * f.texelSize)) (out.take width) =
          (range width).map (f.texelAt (line.take (width * f.texelSize))) := by
        rw [← decode_eq_map hlength]
        refine decodeInto_of_length ?_
        rw [decode_eq_map hlength, length_map, length_range, hhere]
      rw [if_pos (Nat.min_eq_left hroom), hdecoded]
      rcases Nat.lt_or_ge i width with hi | hi
      · -- The texel lies in the first row.
        have hrow : (i / width + 1) * width ≤ out.length := by
          rw [Nat.div_eq_of_lt hi]
          omega
        rw [getElem?_append_left (by simpa using hi), getElem?_map, getElem?_range hi,
          Option.map_some,
          texelAt_take (Nat.mul_le_mul_right _ hi), Nat.div_eq_of_lt hi, getElem?_cons_zero]
        rw [Nat.div_eq_of_lt hi] at hrow
        simp only [if_pos hrow, Nat.mod_eq_of_lt hi]
      · -- It lies in a later row, or in none.
        have hsize : ((range width).map (f.texelAt (line.take (width * f.texelSize)))).length =
          width := by simp
        rw [getElem?_append_right (hsize.le.trans hi), hsize, ih hrest,
          Nat.div_eq_sub_div hwidth hi, getElem?_cons_succ, Nat.mod_eq_sub_mod hi, length_drop,
          getElem?_drop, Nat.add_sub_cancel' hi]
        have hshift : ((i - width) / width + 1) * width ≤ out.length - width ↔
            ((i - width) / width + 1 + 1) * width ≤ out.length := by
          rw [Nat.succ_mul ((i - width) / width + 1)]
          omega
        simp only [hshift]
    · have hnone : ¬ (i / width + 1) * width ≤ out.length := by
        rw [Nat.succ_mul]
        omega
      rw [if_neg (by omega)]
      split
      · rw [if_neg hnone]
      · rfl

/-! ## Surfaces -/

variable {d : GpuDevice} {h : SurfaceHandle} {s : GpuSurface}

/-- The padding of the rows is gone when they are placed. -/
theorem readBack_eq (hget : d.surfaces.get? h.id = some s)
    (hsize : s.data.size = s.width.toNat * s.height.toNat * s.format.texelSize)
    (hrow : s.format.alignedRow s.width < 2 ^ 32) (out : Array Float4) :
    d.readBack h out = .ok (placeRows s.format s.width.toNat (s.width.toNat * s.format.texelSize)
      ((rows (s.width.toNat * s.format.texelSize) s.height.toNat s.data.bytes).map
        (· ++ replicate (s.format.alignedRow s.width - s.width.toNat * s.format.texelSize) 0))
      out.toList).toArray := by
  obtain ⟨padded, hpadded, hvalue⟩ := paddedRow?_eq_ok hrow
  have hle := s.format.le_alignedRow s.width
  obtain ⟨hproduct, hbytes⟩ := Word.product?_eq_ok (hle.trans_lt hrow)
  have hle' : s.width.toNat * s.format.texelSize ≤ padded.toNat := hvalue ▸ hle
  have hrows := rows_staged hle' (by rw [hsize, Nat.mul_comm s.width.toNat, Nat.mul_assoc])
  simp only [readBack, hget, hproduct, hpadded, Except.mapError]
  show Except.ok (placeRows s.format s.width.toNat (s.width * s.format.bytesPerTexel).toNat
    (rows padded.toNat s.height.toNat (staged s _ padded.toNat)) out.toList).toArray = _
  rw [hbytes, hrows, hvalue]

/-- **What is read back.** Each texel of the destination is that of the surface, if there is room
for its row. All others stay. -/
theorem getElem?_readBack (hget : d.surfaces.get? h.id = some s) (hwidth : 0 < s.width.toNat)
    (hsize : s.data.size = s.width.toNat * s.height.toNat * s.format.texelSize)
    (hrow : s.format.alignedRow s.width < 2 ^ 32) (out : Array Float4) :
    ∃ out', d.readBack h out = .ok out' ∧ out'.size = out.size ∧ ∀ i, out'[i]? =
      if i / s.width.toNat < s.height.toNat ∧ (i / s.width.toNat + 1) * s.width.toNat ≤
        out.size then
        some (s.format.texelAt s.data.bytes i)
      else out[i]? := by
  refine ⟨_, readBack_eq hget hsize hrow out, ?_, fun i => ?_⟩
  · rw [size_toArray, length_placeRows, Array.length_toList]
  · have hbytes : s.data.bytes.length = s.height.toNat * (s.width.toNat * s.format.texelSize) := by
      rw [s.data.length_bytes, hsize, Nat.mul_comm s.width.toNat, Nat.mul_assoc]
    have hlines := length_of_mem_rows hbytes
    have hkept : out.toList[i]? = out[i]? := Array.getElem?_toList
    rw [getElem?_toArray, getElem?_placeRows hwidth, hkept, Array.length_toList, getElem?_map]
    · by_cases hy : i / s.width.toNat < s.height.toNat
      · have hmem :=
          mem_of_getElem? (getElem?_rows (s.width.toNat * s.format.texelSize) s.data.bytes hy)
        have hx := Nat.mod_lt i hwidth
        rw [getElem?_rows _ _ hy, Option.map_some]
        simp only [hy, true_and]
        rw [texelAt_append ((Nat.mul_le_mul_right _ hx).trans (hlines _ hmem).ge),
          texelAt_row hx, Nat.div_add_mod']
      · rw [getElem?_eq_none (by rw [length_rows]; omega), if_neg fun h => hy h.1]
        rfl
    · intro line hline
      obtain ⟨bare, hbare, rfl⟩ := mem_map.1 hline
      rw [length_append, hlines bare hbare]
      omega

/-- **Nothing is lost in device memory.** A surface of four floats is read back as it was
encoded. -/
theorem readBack_of_encoded {pixels out : Array Float4}
    (hget : d.surfaces.get? h.id = some s) (hformat : s.format = .rgba32Float)
    (hdata : s.data.bytes = TexelFormat.rgba32Float.encode pixels.toList)
    (hpixels : pixels.size = s.width.toNat * s.height.toNat) (hout : out.size = pixels.size)
    (hrow : TexelFormat.rgba32Float.alignedRow s.width < 2 ^ 32) :
    d.readBack h out = .ok pixels := by
  have hsize : s.data.size = s.width.toNat * s.height.toNat * s.format.texelSize := by
    rw [← s.data.length_bytes, hdata, length_encode, Array.length_toList, hpixels, hformat]
  rcases Nat.eq_zero_or_pos s.width.toNat with hzero | hwidth
  · -- There are no texels.
    have hnone : pixels = #[] :=
      Array.eq_empty_of_size_eq_zero (by rw [hpixels, hzero, Nat.zero_mul])
    rw [readBack_eq hget hsize (hformat ▸ hrow), hnone]
    refine congrArg Except.ok (Array.eq_empty_of_size_eq_zero ?_)
    rw [size_toArray, length_placeRows, Array.length_toList, hout, hnone]
    rfl
  · obtain ⟨out', hread, hsize', htexels⟩ :=
      getElem?_readBack hget hwidth hsize (hformat ▸ hrow) out
    refine hread.trans (congrArg Except.ok (Array.ext_getElem? fun i => ?_))
    rcases Nat.lt_or_ge i pixels.size with hi | hi
    · have hy : i / s.width.toNat < s.height.toNat := Nat.div_lt_of_lt_mul (hpixels ▸ hi)
      have hroom : (i / s.width.toNat + 1) * s.width.toNat ≤ out.size := by
        rw [hout, hpixels, Nat.mul_comm s.width.toNat]
        exact Nat.mul_le_mul_right _ hy
      rw [htexels, if_pos ⟨hy, hroom⟩, hformat, hdata, texelAt_encode_float (by simpa using hi),
        Array.getElem_toList, Array.getElem?_eq_getElem hi]
    · rw [Array.getElem?_eq_none (by omega), Array.getElem?_eq_none hi]

/-- Texels of four floats are read back from a surface. -/
theorem readBack_of_blit {pixels out : Array Float4} (hget : d.surfaces.get? h.id = some s)
    (hformat : s.format = .rgba32Float)
    (hsize : s.data.size = s.width.toNat * s.height.toNat * TexelFormat.rgba32Float.texelSize)
    (hpixels : pixels.size = s.width.toNat * s.height.toNat) (hout : out.size = pixels.size)
    (hrow : TexelFormat.rgba32Float.alignedRow s.width < 2 ^ 32) :
    ∃ d', d.blit h pixels = .ok d' ∧ d'.readBack h out = .ok pixels := by
  have hlength : (TexelFormat.rgba32Float.encode pixels.toList).length = s.data.size := by
    rw [length_encode, Array.length_toList, hpixels, hsize]
  refine ⟨_, by simp only [blit, hget, hformat]; rfl, ?_⟩
  refine readBack_of_encoded (Keyed.get?_put_self _ _ _) rfl ?_ hpixels hout hrow
  exact MemoryBlock.bytes_overwriteStart hlength

end GpuDevice

/-- **Padded read-back.** Let the least multiple of 256 bytes that has room for a row of texels be a
word. Then it is the size of a padded row. Whatever bytes a surface has, and whatever number of
texels it is read back into: the texel at `y * width + x` becomes the surface's texel `(x, y)` for
each row `y` that lies inside the destination as a whole, and all other texels stay as they were.
Texels of four floats that were copied to the surface are read back bit for bit. -/
theorem padded_read_back {f : TexelFormat} {width height : UInt32} {padded : Nat}
    (hwidth : 1 ≤ width.toNat)
    (hpadded : IsLeast {m | 256 ∣ m ∧ width.toNat * f.bytesPerTexel.toNat ≤ m} padded)
    (hfits : padded < 2 ^ 32) :
    (∃ row, f.paddedRow? width = .ok row ∧ row.toNat = padded) ∧
    ∀ (d : GpuDevice) (h : SurfaceHandle) (data : MemoryBlock),
      data.size = width.toNat * height.toNat * f.bytesPerTexel.toNat →
      d.surfaces.get? h.id = some ⟨width, height, f, data⟩ →
      (∀ out : Array Float4, ∃ out', d.readBack h out = .ok out' ∧ out'.size = out.size ∧
        (∀ x y, x < width.toNat → y < height.toNat → (y + 1) * width.toNat ≤ out.size →
          out'[y * width.toNat + x]? = some (f.texelAt data.bytes (y * width.toNat + x))) ∧
        ∀ i, (∀ x y, x < width.toNat → y < height.toNat → (y + 1) * width.toNat ≤ out.size →
          i ≠ y * width.toNat + x) → out'[i]? = out[i]?) ∧
      (f = .rgba32Float → ∀ pixels out : Array Float4, pixels.size = width.toNat * height.toNat →
        out.size = width.toNat * height.toNat →
        ∃ d', d.blit h pixels = .ok d' ∧ d'.readBack h out = .ok pixels) := by
  obtain rfl := hpadded.unique (f.isLeast_alignedRow width)
  refine ⟨paddedRow?_eq_ok hfits, fun d h data hsize hget => ⟨fun out => ?_, ?_⟩⟩
  · obtain ⟨out', hread, hsize', htexels⟩ := GpuDevice.getElem?_readBack hget hwidth hsize hfits out
    refine ⟨out', hread, hsize', fun x y hx hy hroom => ?_, fun i hother => ?_⟩
    · have hdiv : (y * width.toNat + x) / width.toNat = y := by
        rw [Nat.mul_comm, Nat.mul_add_div hwidth, Nat.div_eq_of_lt hx, Nat.add_zero]
      rw [htexels, hdiv, if_pos ⟨hy, hroom⟩]
    · rw [htexels, if_neg]
      rintro ⟨hy, hroom⟩
      exact hother (i % width.toNat) (i / width.toNat) (Nat.mod_lt i hwidth) hy hroom
        (Nat.div_add_mod' i _).symm
  · rintro rfl pixels out hpixels hout
    exact GpuDevice.readBack_of_blit hget rfl hsize hpixels (hout.trans hpixels.symm) hfits

namespace Strip

/-- Two rows of three texels of four bytes. -/
def data : MemoryBlock := .written ((range 24).map Nat.toUInt8)

/-- A device whose one surface has them. -/
def device : GpuDevice :=
  { module := ⟨[]⟩, entries := [], places := [], surfaces := [(1, ⟨3, 2, .rgba8Unorm, data⟩)] }

end Strip

/-- A row of 12 bytes is padded to 256, and a destination of five texels receives the first row
only. -/
theorem strip_read_back :
    IsLeast {m | 256 ∣ m ∧ 3 * 4 ≤ m} 256 ∧ (∃ row, TexelFormat.rgba8Unorm.paddedRow? 3 = .ok row ∧
    row.toNat = 256) ∧
      ∃ out', Strip.device.readBack ⟨1⟩ (Array.replicate 5 ⟨7, 7, 7, 7⟩) = .ok out' ∧
      out'.size = 5 ∧
        out'[2]? = some (TexelFormat.rgba8Unorm.texelAt Strip.data.bytes 2) ∧
        out'[3]? = some ⟨7, 7, 7, 7⟩ := by
  have hleast : IsLeast {m | 256 ∣ m ∧ 3 * 4 ≤ m} 256 := by
    refine ⟨⟨by decide, by decide⟩, ?_⟩
    rintro m ⟨hm, hroom⟩
    exact Nat.le_of_dvd (by omega) hm
  obtain ⟨hpadded, hsurfaces⟩ :=
    @padded_read_back .rgba8Unorm 3 2 256 (by decide) hleast (by decide)
  obtain ⟨hread, -⟩ := hsurfaces Strip.device ⟨1⟩ Strip.data (by decide) (by decide)
  obtain ⟨out', heq, hsize, hrow, hkept⟩ := hread (Array.replicate 5 ⟨7, 7, 7, 7⟩)
  refine ⟨hleast, hpadded, out', heq, hsize, hrow 2 0 (by decide) (by decide) (by decide),
    (hkept 3 ?_).trans rfl⟩
  intro x y hx hy hroom heq
  have hx : x < 3 := hx
  have hroom : (y + 1) * 3 ≤ 5 := hroom
  have heq : 3 = y * 3 + x := heq
  omega

end ComputeKernel
