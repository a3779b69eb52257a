import ComputeKernel.Resource.Texture
import ComputeKernel.Proofs.Data.Chunk
import ComputeKernel.Proofs.Data.Digit
import Mathlib.Data.List.Basic

/-!
# The texels of a texture

The host has four words for each texel, row by row: the texel at `(x, y)` has the place `y * width +
x`, which is that of no other (`position_inj`), and the chunk of four words from four times its
place on (`base_eq`). So a write to a texel is seen there and nowhere else (`get_put`). Reading the
texels in the order of the rows gives what the words stand for (`snapshot_eq`), and storing an image
of the right size replaces all words by those of its texels, one after the other (`store_words`,
`store_pixels`).
-/

namespace ComputeKernel

open List
open Float4

/-- Rows of equal length, one after the other, make up one list. -/
theorem flatMap_range_rows {α : Type} (rows width : Nat) (f : Nat → α) :
    ((range rows).flatMap fun y => (range width).map fun x => f (y * width + x))
      = (range (rows * width)).map f := by
  induction rows with
  | zero => simp
  | succ rows ih =>
    rw [range_succ, flatMap_append, ih, Nat.succ_mul, range_add, map_append]
    simp

/-! ## Words of texels -/

/-- Texels are stored like their words, one after the other. -/
theorem storeTexels_eq (words : Array UInt32) (c : Nat) (ps : List Float4) :
    storeTexels words c ps = overwrite words (c * 4) (ps.flatMap components) := by
  induction ps generalizing words c with
  | nil => rw [storeTexels, flatMap_nil, overwrite]
  | cons p ps ih =>
    rw [storeTexels, ih, flatMap_cons, overwrite_append, Nat.succ_mul]
    rfl

/-- The words of texels are four for each. -/
theorem length_flatMap_components (ps : List Float4) :
    (ps.flatMap components).length = ps.length * 4 := by
  induction ps with
  | nil => rfl
  | cons p ps ih =>
    rw [flatMap_cons, length_append, ih, length_cons, Nat.succ_mul, Nat.add_comm]
    rfl

/-- The chunk of a texel among the words of texels. -/
theorem chunk_components (ps : List Float4) (i : Nat) :
    chunk (ps.flatMap components).toArray 4 i = (ps[i]?).elim [] components := by
  rw [chunk_eq]
  induction i generalizing ps with
  | zero =>
    cases ps with
    | nil => rfl
    | cons p ps => rfl
  | succ i ih =>
    cases ps with
    | nil => simp
    | cons p ps =>
      rw [Nat.succ_mul, getElem?_cons_succ, ← ih ps]
      rfl

namespace Texture

variable {t : Texture} {uv : Uint2}

/-- The place of a texel in its row-by-row order. -/
def position (t : Texture) (uv : Uint2) : Nat := uv.y.toNat * t.width.toNat + uv.x.toNat

/-- A texel has the chunk of its place. -/
theorem base_eq (t : Texture) (uv : Uint2) : t.base uv = t.position uv * 4 := rfl

/-- A write stores the words of the value in the chunk of the texel. -/
theorem words_put (t : Texture) (uv : Uint2) (value : Float4) :
    (t.put uv value).words = overwrite t.words (t.position uv * 4) value.components := rfl

/-- The texels that the words on the host stand for, row by row. -/
def pixels (t : Texture) : Array Float4 :=
  ((range (t.width.toNat * t.height.toNat)).map fun i => ofComponents (chunk t.words 4 i)).toArray

/-- There are as many texels as the size says. -/
theorem size_pixels (t : Texture) : t.pixels.size = t.width.toNat * t.height.toNat := by
  simp [pixels]

/-- The texel at a place is read from the words of its chunk. -/
theorem getElem?_pixels (t : Texture) (i : Nat) : t.pixels[i]? =
    if i < t.width.toNat * t.height.toNat then some (.ofComponents (chunk t.words 4 i))
    else none := by
  by_cases hi : i < t.width.toNat * t.height.toNat
  · simp [pixels, hi]
  · simp [pixels, hi]

/-- The texel that is read is the one at its place. -/
theorem texel_eq (t : Texture) (uv : Uint2) : t.texel uv = t.pixels[t.position uv]?.getD .zero := by
  rw [getElem?_pixels]
  split
  next => rfl
  next hout =>
    have hempty : t.texelWords uv = [] := chunk_of_le (i := t.position uv) (n := 4) (by
      rw [t.size_words]
      exact Nat.mul_le_mul_right 4 (Nat.le_of_not_lt hout))
    rw [texel, hempty]
    rfl

/-- Storing the words of a texel changes the texel at its place. -/
theorem pixels_put (t : Texture) (uv : Uint2) (value : Float4) :
    (t.put uv value).pixels = t.pixels.setIfInBounds (t.position uv) value := by
  refine Array.ext_getElem? fun i => ?_
  have hwidth : (t.put uv value).width = t.width := rfl
  have hheight : (t.put uv value).height = t.height := rfl
  rw [getElem?_pixels, hwidth, hheight, words_put, Array.getElem?_setIfInBounds, getElem?_pixels,
    size_pixels]
  by_cases hi : i < t.width.toNat * t.height.toNat
  · rw [if_pos hi]
    by_cases heq : t.position uv = i
    · rw [if_pos heq, heq, if_pos hi, chunk_overwrite (chunk_le t.size_words hi) rfl, if_pos rfl]
      rfl
    · rw [if_neg heq, if_pos hi, chunk_overwrite_of_ne t.words heq (Nat.le_refl 4)]
  · rw [if_neg hi, if_neg hi]
    split
    next heq => rw [heq, if_neg hi]
    next => rfl

/-- Words of zero are texels of zero. -/
theorem pixels_of_zero (h : t.words = Array.replicate (t.width.toNat * t.height.toNat * 4) 0) :
    t.pixels = Array.replicate (t.width.toNat * t.height.toNat) .zero := by
  refine Array.ext_getElem? fun i => ?_
  rw [getElem?_pixels, Array.getElem?_replicate]
  split
  next hi =>
    have hroom := chunk_le t.size_words hi
    rw [h, Array.size_replicate] at hroom
    have hchunk : chunk t.words 4 i = replicate 4 0 := by
      rw [h, chunk_eq, Array.toList_replicate, drop_replicate, take_replicate,
        Nat.min_eq_left (by omega)]
    rw [hchunk]
    rfl
  next => rfl

/-- Whether the texture has a texel, in numbers. -/
theorem contains_iff :
    t.contains uv = true ↔ uv.x.toNat < t.width.toNat ∧ uv.y.toNat < t.height.toNat := by
  simp only [contains, Bool.and_eq_true, decide_eq_true_eq, UInt32.lt_iff_toNat_lt]

/-- A texel that the texture has stands inside the array. -/
theorem position_lt (h : t.contains uv = true) :
    t.position uv < t.width.toNat * t.height.toNat := by
  obtain ⟨hx, hy⟩ := contains_iff.1 h
  rw [Nat.mul_comm]
  exact digits_lt hy hx

/-- Different texels stand at different places. -/
theorem position_inj {uv' : Uint2} (h : t.contains uv = true) (h' : t.contains uv' = true)
    (heq : t.position uv = t.position uv') : uv = uv' := by
  obtain ⟨hy, hx⟩ := digits_inj (contains_iff.1 h).1 (contains_iff.1 h').1 heq
  cases uv
  cases uv'
  exact congr (congrArg Uint2.mk (UInt32.toNat_inj.1 hx)) (UInt32.toNat_inj.1 hy)

/-- A texel that is there is read. -/
theorem get_of_contains (h : t.contains uv = true) : t.get uv = .ok (t.texel uv) := by
  rw [get, checkTexel, if_pos h]
  rfl

/-- A texel that is there is written. -/
theorem set_of_contains (h : t.contains uv = true) (value : Float4) :
    t.set uv value = .ok (t.put uv value) := by
  rw [set, checkTexel, if_pos h]
  rfl

/-- A write to a texel is seen there and nowhere else. -/
theorem get_put (h : t.contains uv = true) (value : Float4) (uv' : Uint2) :
    (t.put uv value).get uv' = if uv' = uv then .ok value else t.get uv' := by
  have hcheck : (t.put uv value).checkTexel uv' = t.checkTexel uv' := rfl
  have htexel : (t.put uv value).texel uv' =
      ((t.pixels.setIfInBounds (t.position uv) value)[t.position uv']?).getD .zero := by
    rw [texel_eq, pixels_put]
    rfl
  split
  next heq =>
    subst heq
    rw [get, hcheck, checkTexel, if_pos h, htexel, Array.getElem?_setIfInBounds_self_of_lt]
    · rfl
    · rw [t.size_pixels]
      exact position_lt h
  next hne =>
    rw [get, get, hcheck, checkTexel]
    split
    next h' =>
      rw [htexel, Array.getElem?_setIfInBounds_ne fun heq => hne (position_inj h' h heq.symm),
        ← texel_eq]
    next => rfl

/-- Reading all texels row by row gives the array they lie in. -/
theorem snapshot_eq (t : Texture) : t.snapshot = t.pixels := by
  have hrow : ∀ y ∈ range t.height.toNat,
      ((range t.width.toNat).map fun x => t.texel ⟨x.toUInt32, y.toUInt32⟩)
        = (range t.width.toNat).map fun x => t.pixels[y * t.width.toNat + x]?.getD .zero := by
    intro y hy
    refine map_congr_left fun x hx => ?_
    rw [texel_eq, position, toNat_toUInt32_of_lt (mem_range.1 hx),
      toNat_toUInt32_of_lt (mem_range.1 hy)]
  rw [snapshot, flatMap_congr hrow, flatMap_range_rows _ _ fun i => t.pixels[i]?.getD .zero,
    Nat.mul_comm, ← t.size_pixels]
  apply Array.ext
  · simp
  · intro i hi hi'
    simp [hi']

/-- An image of the right size that is stored is all the words. -/
theorem store_words {image : Array Float4} (h : image.size = t.width.toNat * t.height.toNat) :
    (t.store image.toList).words = (image.toList.flatMap components).toArray := by
  show storeTexels t.words 0 image.toList = _
  rw [storeTexels_eq, Nat.zero_mul, overwrite_eq]
  rw [length_flatMap_components, Array.length_toList, h, t.size_words]

/-- An image of the right size that is stored is all the texels. -/
theorem store_pixels {image : Array Float4} (h : image.size = t.width.toNat * t.height.toNat) :
    (t.store image.toList).pixels = image := by
  refine Array.ext_getElem? fun i => ?_
  have hwidth : (t.store image.toList).width = t.width := rfl
  have hheight : (t.store image.toList).height = t.height := rfl
  rw [getElem?_pixels, hwidth, hheight, store_words h, chunk_components, Array.getElem?_toList, ← h]
  split
  next hi =>
    rw [Array.getElem?_eq_getElem hi]
    rfl
  next hi => rw [Array.getElem?_eq_none (Nat.le_of_not_lt hi)]

end Texture

end ComputeKernel
