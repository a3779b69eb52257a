import Mathlib.Algebra.Group.Nat.Defs
import ComputeKernel.Proofs.Buffer.Bytes

/-!
# The elements of a buffer

The words of a buffer are seen in two more ways, as elements and as bytes. Element `i` is the words
from `i * words` on (`getElem?_elementAt`), so its bytes are those from `i * stride` on, each word
with its lowest digit first (`getElem?_bytes`). Elements are chunks of words, so that a write to one
is seen there and nowhere else (`elementAt_put`), and writing all of them makes up the buffer
(`elements_of_ofElements?`).
-/

namespace ComputeKernel

open List

namespace Word

/-! ## Digits -/

/-- A word stands in the bytes by its digits, the lowest first. -/
theorem getElem?_toBytes (words : List UInt32) (k : Nat) {j : Nat} (hj : j < 4) :
    ((toBytes words)[k * 4 + j]?).map UInt8.toNat = (words[k]?).map fun w =>
      w.toNat / 256 ^ j % 256 := by
  induction k generalizing words with
  | zero =>
    cases words with
    | nil => rfl
    | cons w words =>
      have hsplit : (toBytes (w :: words))[0 * 4 + j]? = (split w)[j]? := by
        rw [Nat.zero_mul, Nat.zero_add, toBytes, flatMap_cons, getElem?_append_left hj]
      rw [hsplit, ← getElem?_map, toNat_split]
      obtain rfl | rfl | rfl | rfl : j = 0 ∨ j = 1 ∨ j = 2 ∨ j = 3 := by omega
      all_goals simp
  | succ k ih =>
    cases words with
    | nil => rfl
    | cons w words =>
      have hrest : (toBytes (w :: words))[(k + 1) * 4 + j]? = (toBytes words)[k * 4 + j]? := by
        rw [show (k + 1) * 4 + j = k * 4 + j + 4 by omega]
        rfl
      rw [hrest, ih words, getElem?_cons_succ]

end Word

namespace Buffer

variable {b : Buffer} {i j : Nat} {v : List UInt32}

/-! ## One element -/

/-- The words of an element are those from its place on. -/
theorem getElem?_elementAt (b : Buffer) (i : Nat) {k : Nat} (hk : k < b.element.words) :
    (b.elementAt i)[k]? = b.words[i * b.element.words + k]? :=
  getElem?_chunk b.words i hk

/-- An element has as many words as its type says. -/
theorem length_elementAt (hi : i < b.length) : (b.elementAt i).length = b.element.words :=
  length_chunk (chunk_le b.size_words hi)

/-- Another element keeps its words. -/
theorem elementAt_put_of_ne (b : Buffer) (hne : i ≠ j) (v : List UInt32) :
    (b.put i v).elementAt j = b.elementAt j :=
  chunk_overwrite_of_ne b.words hne (length_take_le _ _)

/-- What a write does to each element. -/
theorem elementAt_put (hi : i < b.length) (hv : v.length = b.element.words) (j : Nat) :
    (b.put i v).elementAt j = if j = i then v else b.elementAt j := by
  show chunk (overwrite b.words _ (v.take b.element.words)) b.element.words j = _
  rw [take_of_length_le (Nat.le_of_eq hv)]
  exact chunk_overwrite (chunk_le b.size_words hi) hv j

/-- Reading an element that is there. -/
theorem get_of_lt (hi : i < b.length) : b.get i = .ok (b.elementAt i) := by
  rw [get, checkIndex, if_pos hi]
  rfl

/-- A write to an element is what is read later. -/
theorem get_of_set (hi : i < b.length) (hv : v.length = b.element.words) :
    ∃ b', b.set i v = .ok b' ∧ b'.element = b.element ∧ b'.length = b.length ∧
      ∀ j, b'.get j = if j = i then .ok v else b.get j := by
  refine ⟨b.put i v, by rw [set, checkIndex, if_pos hi]; rfl, rfl, rfl, fun j => ?_⟩
  have hcheck : (b.put i v).checkIndex j = b.checkIndex j := rfl
  rw [get, get, elementAt_put hi hv, hcheck]
  split
  next h => rw [h, checkIndex, if_pos hi]; rfl
  next => rfl

/-! ## All elements -/

/-- Giving elements other words keeps the shape of the buffer. -/
theorem putAll_shape (b : Buffer) (i : Nat) (values : List (List UInt32)) :
    (b.putAll i values).element = b.element ∧ (b.putAll i values).length = b.length := by
  induction values generalizing b i with
  | nil => exact ⟨rfl, rfl⟩
  | cons v values ih => exact ih (b.put i v) (i + 1)

/-- Elements have their words, and the others keep theirs. -/
theorem elementAt_putAll {values : List (List UInt32)}
    (hvalues : ∀ v ∈ values, v.length = b.element.words)
    (hroom : i + values.length ≤ b.length) (j : Nat) :
    (b.putAll i values).elementAt j = if i ≤ j then (values[j - i]?).getD (b.elementAt j)
    else b.elementAt j := by
  induction values generalizing b i with
  | nil => simp [putAll]
  | cons v values ih =>
    obtain ⟨hv, hrest⟩ := forall_mem_cons.1 hvalues
    rw [length_cons] at hroom
    -- The first value goes to its place, and all others go to places after it.
    rw [putAll, ih (b := b.put i v) hrest (by show i + 1 + values.length ≤ b.length; omega),
      elementAt_put (by omega) hv]
    rcases Nat.lt_trichotomy j i with hlt | rfl | hgt
    · rw [if_neg (by omega), if_neg (by omega), if_neg (by omega)]
    · rw [if_neg (by omega), if_pos rfl, if_pos (Nat.le_refl j), Nat.sub_self, getElem?_cons_zero,
        Option.getD_some]
    · rw [if_pos (by omega), if_neg (by omega), if_pos (by omega), show j - i =
        j - (i + 1) + 1 by omega, getElem?_cons_succ]

/-- A buffer of elements that fits has these elements. -/
theorem elements_of_ofElements? {e : Element} {values : List (List UInt32)}
    (hvalues : ∀ v ∈ values, v.length = e.words) :
    match ofElements? e values with
    | .ok b => b.element = e ∧ b.length = values.length ∧ b.elements = values
    | .error _ => Size.maxShared < values.length * e.stride := by
  unfold ofElements? zeros?
  -- Words that do not fit in 64 bits take more bytes than a shared array can have.
  have hbytes : values.length * e.stride = values.length * e.words * 4 := by
    rw [Element.stride, Nat.mul_comm 4, Nat.mul_assoc]
  by_cases hfits : values.length * e.stride ≤ Size.maxShared
  · have hwords : values.length * e.words < UInt64.size := by
      have hshared : Size.maxShared < UInt64.size := by decide
      omega
    rw [if_pos hwords, dif_pos hfits]
    obtain ⟨helement, hlength⟩ :=
      putAll_shape ⟨e, values.length, Array.replicate (values.length * e.words) 0,
        Array.size_replicate, hfits⟩ 0 values
    refine ⟨helement, hlength, ?_⟩
    rw [elements, hlength]
    refine ext_getElem (by simp) fun k hk hk' => ?_
    rw [getElem_map, getElem_range, elementAt_putAll hvalues (by simp), if_pos (Nat.zero_le k),
      Nat.sub_zero, getElem?_eq_getElem hk', Option.getD_some]
  · split
    next b hb =>
      split at hb
      next => cases hb
      next => cases hb
    next => omega

/-! ## Bytes and elements -/

/-- Overwriting a buffer by its own bytes changes nothing. -/
theorem writeBytes_bytes_of_shape {b b' : Buffer} (helement : b'.element = b.element)
    (hlength : b'.length = b.length) :
    b'.writeBytes b.bytes = .ok b := by
  have hbytes : b.bytes.length = b'.length * b'.stride := by rw [length_bytes, hlength, stride,
    stride, helement]
  obtain ⟨b'', hwrite, helement', -, hsame⟩ := bytes_of_writeBytes hbytes
  rw [hwrite, eq_of_bytes (helement'.trans helement) hsame]

/-- Each word stands in the bytes by its digits. -/
theorem getElem?_bytes (b : Buffer) (i : Nat) {k : Nat} (hk : k < b.element.words) {l : Nat}
    (hl : l < 4) :
    (b.bytes[i * b.stride + 4 * k + l]?).map UInt8.toNat =
      ((b.elementAt i)[k]?).map fun w => w.toNat / 256 ^ l % 256 := by
  have hplace : i * b.stride + 4 * k + l = (i * b.element.words + k) * 4 + l := by
    rw [stride, Element.stride, Nat.add_mul, Nat.mul_comm 4 b.element.words, ← Nat.mul_assoc,
      Nat.mul_comm 4 k]
  rw [hplace, bytes, Word.getElem?_toBytes _ _ hl, getElem?_elementAt b i hk, Array.getElem?_toList]

end Buffer

end ComputeKernel
