import ComputeKernel.Device.Gpu
import ComputeKernel.Proofs.Buffer.Bytes
import ComputeKernel.Proofs.Data.Digit

/-!
# Surfaces in the bytes of their format

A graphics device keeps texels as bytes, and copies them out in rows that are filled up to a
multiple of the row alignment. Texels take the same number of bytes each, so a row of texels is a
row of bytes (`drop_encode`), and cutting the padded copy at the padded size gives the rows back,
each with its filling (`rows_staged`).
-/

namespace ComputeKernel

open List

/-! ## Encoded texels -/

namespace TexelFormat

variable (f : TexelFormat)

/-- The number of bytes of a texel. -/
abbrev texelSize : Nat := f.bytesPerTexel.toNat

/-- A texel takes as many bytes. -/
theorem length_encodeTexel (p : Float4) : (f.encodeTexel p).length = f.texelSize := by
  cases f with
  | rgba32Float => rfl
  | rgba8Unorm => rfl

/-- Texels take their number times that. -/
theorem length_encode (pixels : List Float4) :
    (f.encode pixels).length = pixels.length * f.texelSize := by
  induction pixels with
  | nil => simp [encode]
  | cons p pixels ih =>
    rw [encode, flatMap_cons, length_append, length_encodeTexel, ← encode, ih, length_cons,
      Nat.succ_mul, Nat.add_comm]

/-- Texels are encoded one after the other. -/
theorem encode_append (pixels pixels' : List Float4) :
    f.encode (pixels ++ pixels') = f.encode pixels ++ f.encode pixels' := flatMap_append

/-- The texels after the first take the bytes after. -/
theorem drop_encode {pixels : List Float4} {n : Nat} (h : n ≤ pixels.length) :
    (f.encode pixels).drop (n * f.texelSize) = f.encode (pixels.drop n) := by
  have hlength : (f.encode (pixels.take n)).length = n * f.texelSize := by
    rw [length_encode, length_take, Nat.min_eq_left h]
  conv_lhs => rw [← take_append_drop n pixels, encode_append, ← hlength, drop_left]

/-- Texels of zeros are bytes of zeros. -/
theorem encode_replicate_zero (n : Nat) :
    rgba32Float.encode (replicate n .zero) = replicate (n * rgba32Float.texelSize) 0 := by
  induction n with
  | zero => rfl
  | succ n ih =>
    rw [replicate_succ, encode, flatMap_cons, ← encode, ih, Nat.succ_mul, Nat.add_comm,
      replicate_add]
    rfl

/-- Decoded texels that fill the destination take its place. -/
theorem decodeInto_of_length {f : TexelFormat} {bytes : Bytes} {destination : List Float4}
    (h : (f.decode bytes).length = destination.length) :
    f.decodeInto bytes destination = f.decode bytes := by
  rw [decodeInto, ← h, take_length, h, drop_length, append_nil]

/-- The least multiple of the alignment with room for a row. -/
def alignedRow (width : UInt32) : Nat :=
  (width.toNat * f.texelSize + (rowAlignment.toNat - 1)) / rowAlignment.toNat * rowAlignment.toNat

/-- A row has room in the aligned row. -/
theorem le_alignedRow (width : UInt32) : width.toNat * f.texelSize ≤ f.alignedRow width := by
  have halign : rowAlignment.toNat = 256 := rfl
  rw [alignedRow, halign]
  omega

/-- A padded row that fits in a word is found. -/
theorem paddedRow?_eq_ok {f : TexelFormat} {width : UInt32} (h : f.alignedRow width < 2 ^ 32) :
    ∃ padded, f.paddedRow? width = .ok padded ∧ padded.toNat = f.alignedRow width := by
  have hrow : width.toNat * f.bytesPerTexel.toNat < 2 ^ 32 := (f.le_alignedRow width).trans_lt h
  obtain ⟨hproduct, hvalue⟩ := Word.product?_eq_ok hrow
  have halign : rowAlignment.toNat = 256 := rfl
  -- The number of alignments is a word, because the padded row is.
  have hcount : ((width * f.bytesPerTexel).toNat + rowAlignment.toNat - 1) / rowAlignment.toNat <
      2 ^ 32 := by
    rw [hvalue, halign]
    omega
  have hword : (((width * f.bytesPerTexel).toNat + rowAlignment.toNat - 1) /
    rowAlignment.toNat).toUInt32.toNat
      = ((width * f.bytesPerTexel).toNat + rowAlignment.toNat - 1) / rowAlignment.toNat := by
    rw [UInt32.toNat_ofNat', Nat.mod_eq_of_lt hcount]
  have hpadded : (((width * f.bytesPerTexel).toNat + rowAlignment.toNat - 1) /
    rowAlignment.toNat).toUInt32.toNat
      * rowAlignment.toNat = f.alignedRow width := by
    rw [hword, hvalue, alignedRow]
    rfl
  obtain ⟨hproduct', hvalue'⟩ := Word.product?_eq_ok (hpadded.trans_lt h)
  refine ⟨_, ?_, hvalue'.trans hpadded⟩
  rw [paddedRow?, hproduct]
  exact hproduct'

end TexelFormat

/-! ## Rows -/

namespace GpuDevice

/-- Pieces of one size are cut out as they were. -/
theorem rows_flatten {size : Nat} {lines : List Bytes} (h : ∀ line ∈ lines, line.length = size) :
    rows size lines.length lines.flatten = lines := by
  induction lines with
  | nil => rfl
  | cons line lines ih =>
    obtain ⟨hline, hlines⟩ := forall_mem_cons.1 h
    rw [length_cons, rows, flatten_cons, ← hline, take_left, drop_left, hline, ih hlines]

/-- Each row starts where those before it end. -/
theorem rows_eq_map (size n : Nat) (bytes : Bytes) :
    rows size n bytes = (range n).map fun y => (bytes.drop (y * size)).take size := by
  induction n generalizing bytes with
  | zero => rfl
  | succ n ih =>
    rw [rows, ih, range_succ_eq_map, map_cons, map_map, Nat.zero_mul, drop_zero]
    simp [Function.comp_def, Nat.succ_mul, Nat.add_comm]

/-- There are as many rows as asked for. -/
theorem length_rows (size n : Nat) (bytes : Bytes) : (rows size n bytes).length = n := by
  rw [rows_eq_map, length_map, length_range]

/-- The row at a place. -/
theorem getElem?_rows (size : Nat) {n : Nat} (bytes : Bytes) {y : Nat} (hy : y < n) :
    (rows size n bytes)[y]? = some ((bytes.drop (y * size)).take size) := by
  rw [rows_eq_map, getElem?_map, getElem?_range hy, Option.map_some]

/-- Bytes that fill all rows fill each of them. -/
theorem length_of_mem_rows {size n : Nat} {bytes : Bytes} (h : bytes.length = n * size) :
    ∀ line ∈ rows size n bytes, line.length = size := by
  intro line hline
  rw [rows_eq_map] at hline
  obtain ⟨y, hy, rfl⟩ := mem_map.1 hline
  have hroom := Nat.mul_le_mul_right size (mem_range.1 hy)
  rw [Nat.succ_mul] at hroom
  rw [length_take, length_drop, h]
  omega

/-- The rows of the padded copy, filled up. -/
theorem rows_staged {s : GpuSurface} {row padded : Nat} (hrow : row ≤ padded)
    (hsize : s.data.size = s.height.toNat * row) :
    rows padded s.height.toNat (staged s row padded) =
      (rows row s.height.toNat s.data.bytes).map (· ++ replicate (padded - row) 0) := by
  have hlength : ∀ line ∈ (rows row s.height.toNat s.data.bytes).map
    (· ++ replicate (padded - row) 0),
      line.length = padded := by
    intro line hline
    obtain ⟨bare, hbare, rfl⟩ := mem_map.1 hline
    rw [length_append, length_of_mem_rows (s.data.length_bytes.trans hsize) bare hbare,
      length_replicate]
    omega
  have hcut := rows_flatten hlength
  rw [length_map, length_rows] at hcut
  rw [staged, flatMap_def]
  exact hcut

end GpuDevice

end ComputeKernel
