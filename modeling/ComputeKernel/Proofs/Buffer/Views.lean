import ComputeKernel.Proofs.Buffer.Elements
import ComputeKernel.Proofs.Device.Agreement

/-!
# A buffer and its bytes

A device sees a buffer as bytes only: those that are sent to a device of either kind come back as
they are (`Device.relay_result`), also when there are none. Since a buffer is its bytes, once the
type of its elements is known, this copies a buffer exactly (`buffer_views_faithful`).
-/

namespace ComputeKernel

open Buffer

namespace Device

/-- Send bytes to a new buffer, and read them back. -/
def relay (count stride : Nat) (bytes : Bytes) : Action Device Bytes := do
  let h ← createBuffer count stride
  upload h bytes
  download h (count * stride)

variable {count stride : Nat} {bytes : Bytes}

/-- The device in host memory keeps the bytes. -/
theorem relay_result_host (d : HostDevice) (hfits : count * stride ≤ Size.maxBlock)
    (hlength : bytes.length = count * stride) :
    (relay count stride bytes (.host d)).result = .ok bytes := by
  let made := d.withBuffer (count * stride)
  have hnew : made.buffers.get? (d.issued + 1) = some (.blank (count * stride)) :=
    Keyed.get?_put_self _ _ _
  have hroom : (MemoryBlock.blank (count * stride)).size = bytes.length := hlength.symm
  have hfull : (MemoryBlock.written bytes).size = count * stride := hlength
  obtain ⟨d', hupload, hwritten⟩ : ∃ d', upload ⟨d.issued + 1⟩ bytes (.host made) =
      { result := .ok (), state := .host d' } ∧ d'.buffers.get? (d.issued + 1) =
          some (.written bytes) := by
    refine ⟨{ made with
      buffers := made.buffers.put (d.issued + 1) (.written bytes),
        stats.uploads := made.stats.uploads + 1 },
      ?_, Keyed.get?_put_self _ _ _⟩
    simp only [upload, HostDevice.upload, hnew, if_pos hroom]
    rfl
  rw [relay, Action.bind_of_ok (d.createBuffer_eq hfits), Action.bind_of_ok hupload]
  simp only [download, HostDevice.download, hwritten, if_pos hfull]
  rfl

/-- The graphics device keeps the bytes, maybe before others. -/
theorem relay_result_gpu (g : GpuDevice) (hfits : count * stride ≤ Size.maxBlock)
    (hlength : bytes.length = count * stride) :
    (relay count stride bytes (.gpu g)).result = .ok bytes := by
  let blank := MemoryBlock.blank (max (count * stride) GpuDevice.minBufferSize)
  have hstart : bytes <+: (blank.overwriteStart bytes).bytes := by
    have hle : bytes.length ≤ blank.size := hlength ▸ Nat.le_max_left _ _
    show bytes <+: bytes.take blank.size ++ _
    rw [List.take_of_length_le hle]
    exact List.prefix_append _ _
  have hread :
      ((MemoryBlock.blank (count * stride)).overwriteStart (blank.overwriteStart bytes).bytes).bytes
          = bytes := by
    have hle := hstart.length_le
    show (blank.overwriteStart bytes).bytes.take (count * stride) ++
      (List.replicate (count * stride) 0).drop _ = bytes
    rw [List.drop_eq_nil_of_le (by rw [List.length_replicate]; omega), List.append_nil, ← hlength,
      ← List.prefix_iff_eq_take.1 hstart]
  obtain ⟨g', hmade, hnew⟩ : ∃ g', createBuffer count stride (.gpu g) =
      { result := .ok ⟨g.issued + 1⟩, state := .gpu g' } ∧ g'.buffers.get? (g.issued + 1) =
        some blank :=
    ⟨_, g.createBuffer_eq hfits, Keyed.get?_put_self _ _ _⟩
  obtain ⟨g'', hupload, hwritten⟩ : ∃ g'', upload ⟨g.issued + 1⟩ bytes (.gpu g') =
      { result := .ok (), state := .gpu g'' } ∧
      g''.buffers.get? (g.issued + 1) = some (blank.overwriteStart bytes) := by
    refine ⟨{ g' with buffers := g'.buffers.put (g.issued + 1) (blank.overwriteStart bytes) }, ?_,
      Keyed.get?_put_self _ _ _⟩
    simp only [upload, GpuDevice.upload, hnew]
    rfl
  rw [relay, Action.bind_of_ok hmade, Action.bind_of_ok hupload]
  simp only [download, GpuDevice.download, hwritten, hread]
  split
  next hzero =>
    rw [List.eq_nil_of_length_eq_zero (hlength.trans hzero)]
    rfl
  next => rfl

/-- Bytes that are sent come back as they are. -/
theorem relay_result (device : Device) (hfits : count * stride ≤ Size.maxBlock)
    (hlength : bytes.length = count * stride) :
    (relay count stride bytes device).result = .ok bytes := by
  cases device with
  | host d => exact relay_result_host d hfits hlength
  | gpu g => exact relay_result_gpu g hfits hlength

end Device

/-- **A buffer is an array of its elements, with a faithful view of its bytes.** A buffer of given
elements has these elements, and is refused only if it does not fit in memory. A write to an element
is seen there and nowhere else. The bytes from `i * stride` on are the words of element `i`, each by
its digits to base 256 with the lowest first. A buffer that is overwritten by its own bytes is not
changed, and one that is overwritten by others has these. So the bytes that come back from a device
make any buffer of the same type and length a copy of the one that sent them. -/
theorem buffer_views_faithful (e : Element) :
    (∀ values : List (List UInt32), (∀ v ∈ values, v.length = e.words) →
      match ofElements? e values with
      | .ok b => b.element = e ∧ b.length = values.length ∧ b.elements = values
      | .error _ => Size.maxShared < values.length * e.stride) ∧
    ∀ b : Buffer, b.element = e →
      (∀ i < b.length, ∀ v : List UInt32, v.length = e.words →
        ∃ b', b.set i v = .ok b' ∧ b'.element = e ∧ b'.length = b.length ∧
          ∀ j, b'.get j = if j = i then .ok v else b.get j) ∧
      b.bytes.length = b.length * e.stride ∧
      (∀ i < b.length, ∃ v, b.get i = .ok v ∧ v.length = e.words ∧
        ∀ k < e.words, ∀ l < 4, (b.bytes[i * e.stride + 4 * k + l]?).map UInt8.toNat =
          (v[k]?).map fun w => w.toNat / 256 ^ l % 256) ∧
      b.writeBytes b.bytes = .ok b ∧
      (∀ bytes : Bytes, bytes.length = b.length * e.stride →
        ∃ b', b.writeBytes bytes = .ok b' ∧ b'.element = e ∧ b'.length = b.length ∧
        b'.bytes = bytes) ∧
      ∀ b' : Buffer, b'.element = e → b'.length = b.length → ∀ device : Device,
        ∃ bytes, (Device.relay b.length e.stride b.bytes device).result = .ok bytes ∧
            b'.writeBytes bytes = .ok b := by
  refine ⟨fun values hvalues => elements_of_ofElements? hvalues, ?_⟩
  rintro b rfl
  refine ⟨fun i hi v hv => get_of_set hi hv, b.length_bytes, fun i hi => ?_,
    writeBytes_bytes_of_shape rfl rfl, fun bytes hbytes => bytes_of_writeBytes hbytes, ?_⟩
  · refine ⟨b.elementAt i, get_of_lt hi, length_elementAt hi, fun k hk l hl => ?_⟩
    exact b.getElem?_bytes i hk hl
  · intro b' helement hlength device
    exact ⟨b.bytes, device.relay_result b.fits_block b.length_bytes,
      writeBytes_bytes_of_shape helement hlength⟩

namespace Triples

/-- Two elements of three words each. -/
def buffer : Buffer where
  element := .uint3
  length := 2
  words := #[1, 2, 3, 0x04030201, 5, 6]
  size_words := rfl
  fits := by decide

end Triples

/-- The buffer of two elements is written, sent and restored. -/
theorem triples_views_faithful :
    ofElements? .uint3 [[1, 2, 3], [0x04030201, 5, 6]] = .ok Triples.buffer ∧
      Triples.buffer.elements = [[1, 2, 3], [0x04030201, 5, 6]] ∧
      ∃ b', Triples.buffer.set 0 [7, 8, 9] = .ok b' ∧ b'.get 0 = .ok [7, 8, 9] ∧
        b'.get 1 = Triples.buffer.get 1 ∧
        ∃ bytes, (Device.relay 2 12 Triples.buffer.bytes (.host {})).result = .ok bytes ∧
          b'.writeBytes bytes = .ok Triples.buffer := by
  have hmade : ofElements? .uint3 [[1, 2, 3], [0x04030201, 5, 6]] = .ok Triples.buffer := by
    decide +kernel
  obtain ⟨hvalues, hviews⟩ := buffer_views_faithful .uint3
  have helements := hvalues [[1, 2, 3], [0x04030201, 5, 6]] (by decide)
  rw [hmade] at helements
  obtain ⟨hset, -, -, -, -, hcopy⟩ := hviews Triples.buffer rfl
  obtain ⟨b', hb', helement, hlength, hget⟩ := hset 0 (by decide) [7, 8, 9] rfl
  exact ⟨hmade, helements.2.2, b', hb', (hget 0).trans (if_pos rfl),
    (hget 1).trans (if_neg (by decide)), hcopy b' helement hlength (.host {})⟩

end ComputeKernel
