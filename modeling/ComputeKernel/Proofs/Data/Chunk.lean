import Mathlib.Data.List.Basic
import Mathlib.Algebra.Group.Nat.Defs
import ComputeKernel.Data.Word

/-!
# Chunks of words

Elements of buffers and texels of textures lie in memory as chunks of words of one length, one
after the other. Chunks do not overlap (`chunks_apart`), so that words which are stored in a chunk
are seen there and nowhere else (`chunk_overwrite`), and words may be stored in different chunks in
either order (`overwrite_comm`).
-/

namespace ComputeKernel

open List

variable {words : Array UInt32} {n i j : Nat} {v : List UInt32}
variable (target : Array UInt32)

/-! ## Storing words -/

/-- What stands at a place after words were stored. -/
theorem getElem?_overwrite (position : Nat) (ws : List UInt32) (i : Nat) :
    (overwrite target position ws)[i]? =
      if position ≤ i ∧ i < position + ws.length ∧ i < target.size then ws[i - position]?
      else target[i]? := by
  induction ws generalizing target position with
  | nil =>
    rw [overwrite, if_neg]
    simp only [length_nil]
    omega
  | cons w ws ih =>
    rw [overwrite, ih, Array.size_setIfInBounds, Array.getElem?_setIfInBounds, length_cons]
    by_cases hi : position = i
    · -- The first word stands here, and the others after it.
      subst hi
      rw [if_neg (by omega), if_pos rfl, Nat.sub_self]
      by_cases hlt : position < target.size
      · rw [if_pos hlt, if_pos (by omega)]
        rfl
      · rw [if_neg hlt, if_neg (by omega), Array.getElem?_eq_none (Nat.le_of_not_lt hlt)]
    · rw [if_neg hi]
      by_cases hin : position + 1 ≤ i ∧ i < position + 1 + ws.length ∧ i < target.size
      · rw [if_pos hin, if_pos (by omega), show i - position = i - (position + 1) + 1 by omega,
          getElem?_cons_succ]
      · rw [if_neg hin, if_neg (by omega)]

/-- Storing as many words as there are replaces all of them. -/
theorem overwrite_eq {target : Array UInt32} {ws : List UInt32} (h : ws.length = target.size) :
    overwrite target 0 ws = ws.toArray := by
  refine Array.ext_getElem? fun i => ?_
  rw [getElem?_overwrite]
  by_cases hi : i < target.size
  · rw [if_pos (by omega), Nat.sub_zero, getElem?_toArray]
  · rw [if_neg (by omega), Array.getElem?_eq_none (Nat.le_of_not_lt hi), getElem?_toArray,
      getElem?_eq_none (by omega)]

/-- Words are stored after those before them. -/
theorem overwrite_append (position : Nat) (ws vs : List UInt32) :
    overwrite target position (ws ++ vs) =
      overwrite (overwrite target position ws) (position + ws.length) vs := by
  induction ws generalizing target position with
  | nil => rw [overwrite, nil_append, length_nil, Nat.add_zero]
  | cons w ws ih =>
    rw [cons_append, overwrite, overwrite, ih, length_cons, Nat.add_right_comm,
      Nat.add_assoc]

/-- A word outside may be stored before or after. -/
theorem overwrite_set_comm {p q : Nat} (w : UInt32) (ws : List UInt32)
    (h : p < q ∨ q + ws.length ≤ p) :
    overwrite (target.setIfInBounds p w) q ws = (overwrite target q ws).setIfInBounds p w := by
  induction ws generalizing target q with
  | nil => rw [overwrite, overwrite]
  | cons v ws ih =>
    rw [length_cons] at h
    rw [overwrite, overwrite, Array.setIfInBounds_comm w v (by omega), ih _ (by omega)]

/-- Words may be stored in either order at places apart. -/
theorem overwrite_comm {p q : Nat} (ws vs : List UInt32)
    (h : p + ws.length ≤ q ∨ q + vs.length ≤ p) :
    overwrite (overwrite target p ws) q vs = overwrite (overwrite target q vs) p ws := by
  induction ws generalizing target p with
  | nil => rw [overwrite, overwrite]
  | cons w ws ih =>
    rw [length_cons] at h
    rw [overwrite, overwrite, ih _ (by omega), overwrite_set_comm _ _ _ (by omega)]

/-! ## Chunks -/

/-- The words of a chunk, if all chunks have one length. -/
def chunk (words : Array UInt32) (length i : Nat) : List UInt32 :=
  (words.extract (i * length) (i * length + length)).toList

/-- A chunk lies apart from any other. -/
theorem chunks_apart (n : Nat) (hne : i ≠ j) : i * n + n ≤ j * n ∨ j * n + n ≤ i * n := by
  rw [← Nat.succ_mul, ← Nat.succ_mul]
  rcases Nat.lt_or_gt_of_ne hne with h | h
  · exact .inl (Nat.mul_le_mul_right n h)
  · exact .inr (Nat.mul_le_mul_right n h)

/-- A chunk that is there lies among the words. -/
theorem chunk_le {count : Nat} (hsize : words.size = count * n) (hi : i < count) :
    i * n + n ≤ words.size := by
  rw [hsize, ← Nat.succ_mul]
  exact Nat.mul_le_mul_right n hi

/-- A chunk as a part of the list of words. -/
theorem chunk_eq (words : Array UInt32) (n i : Nat) :
    chunk words n i = (words.toList.drop (i * n)).take n := by
  rw [chunk, Array.toList_extract, extract_eq_take_drop, Nat.add_sub_cancel_left]

/-- The words of a chunk are those from its place on. -/
theorem getElem?_chunk (words : Array UInt32) (i : Nat) {k : Nat} (hk : k < n) :
    (chunk words n i)[k]? = words[i * n + k]? := by
  rw [chunk_eq, getElem?_take_of_lt hk, getElem?_drop, Array.getElem?_toList]

/-- A chunk that lies among the words is full. -/
theorem length_chunk (h : i * n + n ≤ words.size) : (chunk words n i).length = n := by
  rw [chunk_eq, length_take, length_drop, Array.length_toList]
  omega

/-- A chunk past the end is empty. -/
theorem chunk_of_le (h : words.size ≤ i * n) : chunk words n i = [] := by
  rw [chunk_eq, drop_eq_nil_of_le (by rwa [Array.length_toList]), take_nil]

/-- Another chunk keeps its words. -/
theorem chunk_overwrite_of_ne (words : Array UInt32) (hne : i ≠ j) (hv : v.length ≤ n) :
    chunk (overwrite words (i * n) v) n j = chunk words n j := by
  refine congrArg Array.toList (Array.ext_getElem? fun k => ?_)
  have hapart := chunks_apart n hne
  simp only [Array.getElem?_extract, size_overwrite, getElem?_overwrite]
  split
  · rw [if_neg (by omega)]
  · rfl

/-- **What is stored in a chunk** is seen there and nowhere else. -/
theorem chunk_overwrite (hi : i * n + n ≤ words.size) (hv : v.length = n) (j : Nat) :
    chunk (overwrite words (i * n) v) n j = if j = i then v else chunk words n j := by
  split
  next h =>
    subst h
    refine ext_getElem? fun k => ?_
    have hlength : (chunk (overwrite words (j * n) v) n j).length = n :=
      length_chunk (by rwa [size_overwrite])
    by_cases hk : k < n
    · rw [getElem?_chunk _ j hk, getElem?_overwrite, if_pos (by omega), Nat.add_sub_cancel_left]
    · rw [getElem?_eq_none (by omega), getElem?_eq_none (by omega)]
  next h => exact chunk_overwrite_of_ne words (Ne.symm h) (Nat.le_of_eq hv)

end ComputeKernel
