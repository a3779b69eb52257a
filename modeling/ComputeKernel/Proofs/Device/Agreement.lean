import Mathlib.Data.List.Forall2
import Mathlib.Data.List.Induction
import ComputeKernel.Proofs.Device.ReadBack
import ComputeKernel.Proofs.Dispatch.Reupload

/-!
# The two devices agree

The device in host memory keeps texels and checks the size of all that it is given. The graphics
device keeps bytes, makes no buffer smaller than a word, checks no sizes, copies surfaces out in
padded rows, and binds to numbered places. As long as it is used as it should be
(`DeviceCall.Proper`), nothing of this can be seen: every call has the same answer from both, or is
refused by both.

`Mirrors` relates the two. The bytes of a buffer are the first of its block on the graphics device;
a surface is kept there as its encoded texels; and what is bound at the place of a slot is what the
other device has for that slot. One lemma for each operation says that it keeps the relation and has
the same answer; `Mirrors.run_paired` is the step and `devices_agree` the run.
-/

namespace ComputeKernel

open GpuDevice
open MemoryBlock Keyed Size
variable (b : HostBindings)
variable (slot : String)

/-! ## Stores that hold alike things -/

namespace Keyed

variable {α β : Type}

/-- Under a number both stores hold something, or neither. -/
def Alike (R : α → β → Prop) (m : Keyed Nat α) (m' : Keyed Nat β) : Prop :=
  ∀ k, Option.Rel R (m.get? k) (m'.get? k)

namespace Alike

variable {R : α → β → Prop} {m : Keyed Nat α} {m' : Keyed Nat β}

/-- Both may be given something. -/
theorem put (h : Alike R m m') (k : Nat) {a : α} {b : β} (hab : R a b) :
    Alike R (m.put k a) (m'.put k b) := by
  intro k'
  rw [get?_put_nat, get?_put_nat]
  split
  next => exact .some hab
  next => exact h k'

/-- Both may lose something. -/
theorem erase (h : Alike R m m') (k : Nat) : Alike R (m.erase k) (m'.erase k) := by
  intro k'
  rw [get?_erase, get?_erase]
  split
  next => exact .none
  next => exact h k'

/-- What both hold under a number. -/
theorem cases (h : Alike R m m') (k : Nat) :
    (m.get? k = none ∧ m'.get? k = none) ∨
      ∃ a b, m.get? k = some a ∧ m'.get? k = some b ∧ R a b := by
  have hk := h k
  generalize m.get? k = o at hk ⊢
  generalize m'.get? k = o' at hk ⊢
  cases hk with
  | none => exact .inl ⟨rfl, rfl⟩
  | some hab => exact .inr ⟨_, _, rfl, rfl, hab⟩

/-- They hold things under the same numbers. -/
theorem has_eq (h : Alike R m m') (k : Nat) : m'.has k = m.has k := by
  rcases h.cases k with ⟨hm, hm'⟩ | ⟨a, b, hm, hm', -⟩
  · rw [has, has, hm, hm']
    rfl
  · rw [has, has, hm, hm']
    rfl

end Alike

/-- The list that pairs make one after the other. -/
def ofPairs (pairs : List (String × α)) : Keyed String α :=
  pairs.foldl (fun m p => put m p.1 p.2) []

/-- For each key that has pairs, one of them is found. -/
theorem get?_ofPairs (pairs : List (String × α)) (k : String) :
    (∃ a, get? (ofPairs pairs) k = some a ∧ (k, a) ∈ pairs) ∨
      get? (ofPairs pairs) k = none ∧ k ∉ pairs.map Prod.fst := by
  induction pairs using List.reverseRecOn with
  | nil => exact .inr ⟨rfl, List.not_mem_nil⟩
  | append_singleton pairs p ih =>
    rw [ofPairs, List.foldl_append, List.foldl_cons, List.foldl_nil, ← ofPairs, get?_put_string]
    by_cases hk : k = p.1
    · exact .inl ⟨p.2, if_pos hk, hk ▸ List.mem_append_right _ (.head _)⟩
    · rw [if_neg hk]
      rcases ih with ⟨a, hget, hmem⟩ | ⟨hget, hmem⟩
      · exact .inl ⟨a, hget, List.mem_append_left _ hmem⟩
      · refine .inr ⟨hget, fun h => ?_⟩
        rw [List.map_append, List.mem_append, List.map_singleton, List.mem_singleton] at h
        exact h.elim hmem hk

end Keyed

/-! ## Calls -/

/-- A call of a device. -/
inductive DeviceCall where
  | findEntry (name : String)
  | createBuffer (count stride : Nat)
  | upload (handle : BufferHandle) (bytes : Bytes)
  | download (handle : BufferHandle) (size : Nat)
  | releaseBuffer (handle : BufferHandle)
  | createSurface (width height : UInt32) (format : TexelFormat)
  | blit (handle : SurfaceHandle) (pixels : Array Float4)
  /-- The texels are read into the place of others. -/
  | readBack (handle : SurfaceHandle) (out : Array Float4)
  | releaseSurface (handle : SurfaceHandle)
  | bindBuffer (entry : Nat) (slot : String) (handle : BufferHandle)
  | bindTexture (entry : Nat) (slot : String) (handle : SurfaceHandle)

/-- What a device answers. -/
inductive DeviceAnswer where
  | entry (ordinal : Option Nat)
  | buffer (handle : BufferHandle)
  | surface (handle : SurfaceHandle)
  | bytes (bytes : Bytes)
  | texels (texels : Array Float4)
  | done
deriving DecidableEq

/-- The same answer from both, or a refusal by both. -/
inductive SameAnswer {α : Type} : Except Failure α → Except Failure α → Prop
  | ok (a : α) : SameAnswer (.ok a) (.ok a)
  | refused {e e' : DeviceError} : e.operation = e'.operation →
      SameAnswer (.error (.device e)) (.error (.device e'))

namespace DeviceCall

/-- What a device does for a call. -/
def run : DeviceCall → Action Device DeviceAnswer
  | .findEntry name => .gets fun d => .entry (d.findEntry? name)
  | .createBuffer count stride => DeviceAnswer.buffer <$> Device.createBuffer count stride
  | .upload h bytes => (fun _ => DeviceAnswer.done) <$> Device.upload h bytes
  | .download h size => DeviceAnswer.bytes <$> Device.download h size
  | .releaseBuffer h => (fun _ => DeviceAnswer.done) <$> Device.releaseBuffer h
  | .createSurface width height format =>
    DeviceAnswer.surface <$> Device.createSurface width height format
  | .blit h pixels => (fun _ => DeviceAnswer.done) <$> Device.blit h pixels
  | .readBack h out => DeviceAnswer.texels <$> Device.readBack h out
  | .releaseSurface h => (fun _ => DeviceAnswer.done) <$> Device.releaseSurface h
  | .bindBuffer entry slot h => (fun _ => DeviceAnswer.done) <$> Device.bindBuffer entry slot h
  | .bindTexture entry slot h => (fun _ => DeviceAnswer.done) <$> Device.bindTexture entry slot h

/-- The device after calls, some of which it may have refused. -/
def runAll (calls : List DeviceCall) (d : Device) : Device :=
  calls.foldl (fun d c => (c.run d).state) d

/-- The answers to calls that are made one after the other. -/
def answers : List DeviceCall → Device → List (Except Failure DeviceAnswer)
  | [], _ => []
  | c :: calls, d => (c.run d).result :: answers calls (c.run d).state

/-- A call as it should be made. Surfaces have texels of four floats, and a size there is room for.
What is sent to something that is there, or read from it, has its size. Slots have places. -/
def Proper (slots : List String) (d : HostDevice) : DeviceCall → Prop
  | .findEntry _ | .releaseBuffer _ | .releaseSurface _ => True
  | .createBuffer count stride => count * stride < UInt64.size → count * stride ≤ maxBlock
  | .upload h bytes => ∀ block ∈ d.buffers.get? h.id, bytes.length = block.size
  | .download h size =>
    (∀ block ∈ d.buffers.get? h.id, size = block.size) ∧ (size = 0 → d.buffers.has h.id = true)
  | .createSurface width height format =>
    format = .rgba32Float ∧ width ≠ 0 ∧ height ≠ 0 ∧
      width.toNat * height.toNat * Float4.size ≤ maxBlock ∧
      TexelFormat.rgba32Float.alignedRow width < 2 ^ 32
  | .blit h pixels => ∀ s ∈ d.surfaces.get? h.id, pixels.size = s.pixels.size
  | .readBack h out => ∀ s ∈ d.surfaces.get? h.id, out.size = s.pixels.size
  | .bindBuffer _ slot _ | .bindTexture _ slot _ => slot ∈ slots

/-- Calls that are made as they should be, one after the other. -/
def ProperAll (slots : List String) : List DeviceCall → Device → Prop
  | [], _ => True
  | c :: calls, .host d => c.Proper slots d ∧ ProperAll slots calls (c.run (.host d)).state
  | _ :: _, .gpu _ => False

instance (slots : List String) (d : HostDevice) (c : DeviceCall) : Decidable (c.Proper slots d) :=
  match c with
  | .findEntry _ | .releaseBuffer _ | .releaseSurface _ => inferInstanceAs (Decidable True)
  | .createBuffer _ _ | .upload _ _ | .download _ _ | .createSurface _ _ _ | .blit _ _ |
    .readBack _ _
  | .bindBuffer _ _ _ | .bindTexture _ _ _ => by dsimp only [Proper]; infer_instance

instance decidableProperAll (slots : List String) : (calls : List DeviceCall) → (d : Device) →
    Decidable (ProperAll slots calls d)
  | [], _ => .isTrue trivial
  | c :: calls, .host d =>
    have := decidableProperAll slots calls (c.run (.host d)).state
    inferInstanceAs (Decidable (c.Proper slots d ∧ ProperAll slots calls (c.run (.host d)).state))
  | _ :: _, .gpu _ => .isFalse id

end DeviceCall

/-! ## What is bound -/

/-- A resource that is bound for a slot. -/
def HostBindings.Holds : GpuResource → Prop
  | .buffer h => b.buffers.get? slot = some h
  | .surface h => b.textures.get? slot = some h

/-- What is bound once a resource was bound for a slot. -/
def HostBindings.bind : GpuResource → HostBindings
  | .buffer h => { b with buffers := b.buffers.put slot h }
  | .surface h => { b with textures := b.textures.put slot h }

/-- What was bound last is bound. -/
theorem HostBindings.holds_bind_self (r : GpuResource) :
    (b.bind slot r).Holds slot r := by
  cases r with
  | buffer h => exact (get?_put_string _ _ _ _).trans (if_pos rfl)
  | surface h => exact (get?_put_string _ _ _ _).trans (if_pos rfl)

/-- What is bound for the other slots stays. -/
theorem HostBindings.Holds.bind {b : HostBindings} {slot slot' : String} {r' : GpuResource}
    (h : b.Holds slot' r') (hne : slot' ≠ slot) (r : GpuResource) :
    (b.bind slot r).Holds slot' r' := by
  cases r with
  | buffer handle =>
    cases r' with
    | buffer handle' => exact ((get?_put_string _ _ _ _).trans (if_neg hne)).trans h
    | surface handle' => exact h
  | surface handle =>
    cases r' with
    | buffer handle' => exact h
    | surface handle' => exact ((get?_put_string _ _ _ _).trans (if_neg hne)).trans h

namespace GpuDevice

variable (g : GpuDevice)

/-- Binding at a place changes it, for one entry point. -/
theorem bindings_bind (entry place : Nat) (r : GpuResource) (entry' : Nat) :
    (g.bind entry place r).bindings entry' =
      if entry' = entry ∧ entry < g.bound.length then (g.bindings entry).put place r
      else g.bindings entry' := by
  simp only [bindings, bind, List.getElem?_set]
  by_cases he : entry' = entry
  · subst he
    by_cases hlt : entry' < g.bound.length
    · simp [hlt]
    · simp [hlt]
  · simp [he, Ne.symm he]

/-- A buffer that fits is made, with room for a word at least. -/
theorem createBuffer_eq {count stride : Nat} (hfits : count * stride ≤ maxBlock) :
    Device.createBuffer count stride (.gpu g) =
      { result := .ok ⟨g.issued + 1⟩
        state := .gpu { g with
          issued := g.issued + 1
          buffers := g.buffers.put (g.issued + 1)
            (.blank (max (count * stride) minBufferSize)) } } := by
  have hword : count * stride < UInt64.size := hfits.trans_lt (by decide)
  have hcheck : checkBlock (max (count * stride) minBufferSize) = .ok () :=
    if_pos (Nat.max_le.2 ⟨hfits, by decide⟩)
  simp only [Device.createBuffer, createBuffer, if_pos hword, hcheck]
  rfl

/-- A surface that has texels and fits is made. -/
theorem createSurface_eq {width height : UInt32} (hwidth : width ≠ 0) (hheight : height ≠ 0)
    (hfits : width.toNat * height.toNat * Float4.size ≤ maxBlock) :
    Device.createSurface width height .rgba32Float (.gpu g) =
      { result := .ok ⟨g.issued + 1⟩
        state := .gpu { g with
          issued := g.issued + 1
          surfaces := g.surfaces.put (g.issued + 1) ⟨width, height, .rgba32Float,
            .blank (width.toNat * height.toNat * Float4.size)⟩ } } := by
  have hproduct : product? (width.toNat * height.toNat)
    TexelFormat.rgba32Float.bytesPerTexel.toNat =
      .ok (width.toNat * height.toNat * Float4.size) := if_pos (hfits.trans_lt (by decide))
  have hcheck : checkBlock (width.toNat * height.toNat * Float4.size) = .ok () := if_pos hfits
  simp only [Device.createSurface, createSurface, if_neg (not_or.2 ⟨hwidth, hheight⟩), hproduct,
    Except.mapError]
  show Device.gpuStep g (((checkBlock _).mapError Failure.fault) >>= _) = _
  rw [hcheck]
  rfl

/-- What is bound, without one resource. -/
theorem bindings_filter {keep : Nat × GpuResource → Bool} {g' : GpuDevice}
    (h : g'.bound = g.bound.map fun b => b.filter keep) (entry : Nat) :
    g'.bindings entry = (g.bindings entry).filter keep := by
  simp only [bindings, h, List.getElem?_map]
  cases g.bound[entry]? with
  | none => rfl
  | some b => rfl

end GpuDevice

/-! ## The relation -/

/-- The graphics surface that stands for one in host memory. -/
structure HostSurface.StandsAs (s : HostSurface) (s' : GpuSurface) : Prop where
  format : s'.format = .rgba32Float
  size : s.pixels.size = s'.width.toNat * s'.height.toNat
  data : s'.data.bytes = TexelFormat.rgba32Float.encode s.pixels.toList
  row : TexelFormat.rgba32Float.alignedRow s'.width < 2 ^ 32

/-- The devices cannot be told apart by proper calls. -/
structure Mirrors (table : Keyed String Nat) (d : HostDevice) (g : GpuDevice) : Prop where
  places : g.places = table
  entries : g.entries = d.entries
  issued : g.issued = d.issued
  buffers : Alike (fun b b' => b.bytes <+: b'.bytes) d.buffers g.buffers
  surfaces : Alike HostSurface.StandsAs d.surfaces g.surfaces
  hostTables : d.bound.length = d.entries.length
  gpuTables : g.bound.length = d.entries.length
  ordered : ∀ entry, Ordered (g.bindings entry)
  bound : ∀ entry slot place r, table.get? slot = some place →
    (g.bindings entry).get? place = some r → (d.bindings entry).Holds slot r

/-- The answers are the same, and the devices still mirrors. -/
def Paired (table : Keyed String Nat) {α : Type} (o o' : Outcome Device α) : Prop :=
  SameAnswer o.result o'.result ∧ ∃ d g, o.state = .host d ∧ o'.state = .gpu g ∧ Mirrors table d g

variable {table : Keyed String Nat} {d : HostDevice} {g : GpuDevice}

/-- An answer may be read in another way. -/
theorem Paired.map {α β : Type} {a : Action Device α} {s s' : Device}
    (h : Paired table (a s) (a s')) (f : α → β) :
    Paired table ((f <$> a) s) ((f <$> a) s') := by
  obtain ⟨hanswer, hstate⟩ := h
  show Paired table ((a >>= fun x => pure (f x)) s) ((a >>= fun x => pure (f x)) s')
  rw [Action.bind_eq, Action.bind_eq]
  generalize a s = o at hanswer hstate ⊢
  generalize a s' = o' at hanswer hstate ⊢
  obtain ⟨result, state, events⟩ := o
  obtain ⟨result', state', events'⟩ := o'
  cases hanswer with
  | ok x => exact ⟨.ok (f x), hstate⟩
  | refused hoperation => exact ⟨.refused hoperation, hstate⟩

namespace Mirrors

variable {place : Nat} {slot : String}

/-! ## Buffers -/

/-- A refusal changes nothing. -/
theorem refused (hm : Mirrors table d g) {α : Type} {e e' : DeviceError}
    (h : e.operation = e'.operation) :
    Paired table ({ result := .error (.device e), state := .host d } : Outcome Device α)
      { result := .error (.device e'), state := .gpu g } := ⟨.refused h, d, g, rfl, rfl, hm⟩

/-- Making a buffer is paired. -/
theorem paired_createBuffer (hm : Mirrors table d g) {count stride : Nat}
    (hfits : count * stride < UInt64.size → count * stride ≤ maxBlock) :
    Paired table (Device.createBuffer count stride (.host d))
      (Device.createBuffer count stride (.gpu g)) := by
  by_cases hsize : count * stride < UInt64.size
  · -- The shorter block of zeros is the start of the longer one.
    have hblank : (blank (count * stride)).bytes <+:
        (blank (max (count * stride) GpuDevice.minBufferSize)).bytes := by
      simp only [MemoryBlock.bytes]
      rw [List.prefix_replicate_iff, List.length_replicate]
      exact ⟨Nat.le_max_left _ _, rfl⟩
    rw [d.createBuffer_eq (hfits hsize), g.createBuffer_eq (hfits hsize), hm.issued]
    exact ⟨.ok _, _, _, rfl, rfl,
      { hm with issued := rfl, buffers := hm.buffers.put (d.issued + 1) hblank }⟩
  · simp only [Device.createBuffer, HostDevice.createBuffer, GpuDevice.createBuffer, if_neg hsize]
    exact hm.refused rfl

/-- Sending to a buffer is paired. -/
theorem paired_upload (hm : Mirrors table d g) {h : BufferHandle} {bytes : Bytes}
    (hsize : ∀ block ∈ d.buffers.get? h.id, bytes.length = block.size) :
    Paired table (Device.upload h bytes (.host d)) (Device.upload h bytes (.gpu g)) := by
  simp only [Device.upload, HostDevice.upload, GpuDevice.upload]
  rcases hm.buffers.cases h.id with ⟨hd, hg⟩ | ⟨block, block', hd, hg, hstart⟩
  · rw [hd, hg]
    exact hm.refused rfl
  · have hlength := hsize block hd
    have hle : bytes.length ≤ block'.size := by
      have := hstart.length_le
      rw [length_bytes, length_bytes] at this
      omega
    have hwritten : (written bytes).bytes <+: (block'.overwriteStart bytes).bytes := by
      simp only [MemoryBlock.bytes, overwriteStart, List.take_of_length_le hle]
      exact List.prefix_append _ _
    rw [hd, hg]
    simp only [if_pos hlength.symm]
    exact ⟨.ok (), _, _, rfl, rfl, { hm with buffers := hm.buffers.put h.id hwritten }⟩

/-- Reading a buffer is paired. -/
theorem paired_download (hm : Mirrors table d g) {h : BufferHandle} {size : Nat}
    (hsize : ∀ block ∈ d.buffers.get? h.id, size = block.size)
    (hempty : size = 0 → d.buffers.has h.id = true) :
    Paired table (Device.download h size (.host d)) (Device.download h size (.gpu g)) := by
  simp only [Device.download, HostDevice.download, GpuDevice.download]
  rcases hm.buffers.cases h.id with ⟨hd, hg⟩ | ⟨block, block', hd, hg, hstart⟩
  · have hne : size ≠ 0 := by
      intro hzero
      have := hempty hzero
      rw [Keyed.has, hd] at this
      cases this
    rw [hd, hg, if_neg hne]
    exact hm.refused rfl
  · have hlength := hsize block hd
    have hle : size ≤ block'.bytes.length := by
      have := hstart.length_le
      rw [length_bytes] at this
      omega
    have hbytes : ((blank size).overwriteStart block'.bytes).bytes = block.bytes := by
      have htake := List.prefix_iff_eq_take.1 hstart
      rw [length_bytes, ← hlength] at htake
      show block'.bytes.take size ++ (List.replicate size 0).drop block'.bytes.length = _
      rw [List.drop_eq_nil_of_le (by rwa [List.length_replicate]), List.append_nil, ← htake]
    have hgpu : (if size = 0 then .ok [] else
        .ok ((blank size).overwriteStart block'.bytes).bytes : Except DeviceError Bytes) =
            .ok block.bytes := by
      split
      next hzero =>
        rw [List.eq_nil_of_length_eq_zero (block.length_bytes.trans (hlength.symm.trans hzero))]
      next => rw [hbytes]
    rw [hd, hg]
    simp only [if_pos hlength.symm, hgpu]
    exact ⟨.ok _, _, g, rfl, rfl, { hm with }⟩

/-- What is left bound there is bound in host memory. -/
theorem unbind (hm : Mirrors table d g) {keep : Nat × GpuResource → Bool} (d' : HostDevice)
    (g' : GpuDevice) (hg : g'.bound = g.bound.map fun b => b.filter keep)
    (hd : ∀ entry slot place r, keep (place, r) = true → (d.bindings entry).Holds slot r →
      (d'.bindings entry).Holds slot r) :
    (∀ entry, Ordered (g'.bindings entry)) ∧ ∀ entry slot place r, table.get? slot = some place →
      (g'.bindings entry).get? place = some r → (d'.bindings entry).Holds slot r := by
  have hordered : ∀ entry, Ordered ((g.bindings entry).filter keep) :=
    fun entry => (hm.ordered entry).sublist List.filter_sublist
  refine ⟨fun entry => g.bindings_filter hg entry ▸ hordered entry,
    fun entry slot place r hplace hr => ?_⟩
  rw [g.bindings_filter hg, ← (hordered entry).mem_iff, List.mem_filter,
    (hm.ordered entry).mem_iff] at hr
  exact hd entry slot place r hr.2 (hm.bound entry slot place r hplace hr.1)

/-- Releasing a buffer is paired. -/
theorem paired_releaseBuffer (hm : Mirrors table d g) (h : BufferHandle) :
    Paired table (Device.releaseBuffer h (.host d)) (Device.releaseBuffer h (.gpu g)) := by
  obtain ⟨hordered, hbound⟩ :=
    hm.unbind (d.releaseBuffer h) (g.releaseBuffer h) rfl fun entry slot place r hkeep
    hholds => by
      rw [HostDevice.bindings_releaseBuffer]
      cases r with
      | surface h' => exact hholds
      | buffer h' => exact get?_filter hholds (by simpa using hkeep)
  exact ⟨.ok (), _, _, rfl, rfl,
    { hm with
      buffers := hm.buffers.erase h.id, hostTables := (List.length_map _).trans hm.hostTables
      gpuTables := (List.length_map _).trans hm.gpuTables, ordered := hordered, bound := hbound }⟩

/-! ## Surfaces -/

/-- Making a surface is paired. -/
theorem paired_createSurface (hm : Mirrors table d g) {width height : UInt32} (hwidth : width ≠ 0)
    (hheight : height ≠ 0) (hfits : width.toNat * height.toNat * Float4.size ≤ maxBlock)
    (hrow : TexelFormat.rgba32Float.alignedRow width < 2 ^ 32) :
    Paired table (Device.createSurface width height .rgba32Float (.host d))
      (Device.createSurface width height .rgba32Float (.gpu g)) := by
  have hstands : HostSurface.StandsAs
      ⟨width, height, .rgba32Float, Array.replicate (width.toNat * height.toNat) .zero⟩
      ⟨width, height, .rgba32Float, .blank (width.toNat * height.toNat * Float4.size)⟩ := by
    refine ⟨rfl, Array.size_replicate, ?_, hrow⟩
    rw [Array.toList_replicate, TexelFormat.encode_replicate_zero]
    rfl
  rw [d.createSurface_eq .rgba32Float hfits, g.createSurface_eq hwidth hheight hfits, hm.issued]
  exact ⟨.ok _, _, _, rfl, rfl,
    { hm with issued := rfl, surfaces := hm.surfaces.put (d.issued + 1) hstands }⟩

/-- Sending to a surface is paired. -/
theorem paired_blit (hm : Mirrors table d g) {h : SurfaceHandle} {pixels : Array Float4}
    (hsize : ∀ s ∈ d.surfaces.get? h.id, pixels.size = s.pixels.size) :
    Paired table (Device.blit h pixels (.host d)) (Device.blit h pixels (.gpu g)) := by
  simp only [Device.blit, HostDevice.blit, GpuDevice.blit]
  rcases hm.surfaces.cases h.id with ⟨hd, hg⟩ | ⟨s, s', hd, hg, hstands⟩
  · rw [hd, hg]
    exact hm.refused rfl
  · have hlength := hsize s hd
    have hsame : (TexelFormat.rgba32Float.encode pixels.toList).length = s'.data.size := by
      rw [← s'.data.length_bytes, hstands.data, TexelFormat.length_encode,
        TexelFormat.length_encode, Array.length_toList, Array.length_toList, hlength]
    rw [hd, hg]
    simp only [if_pos hlength.symm, hstands.format]
    refine ⟨.ok (), _, _, rfl, rfl, { hm with surfaces := hm.surfaces.put h.id ?_ }⟩
    exact ⟨rfl, hlength.trans hstands.size, bytes_overwriteStart hsame, hstands.row⟩

/-- Reading a surface is paired. -/
theorem paired_readBack (hm : Mirrors table d g) {h : SurfaceHandle} {out : Array Float4}
    (hsize : ∀ s ∈ d.surfaces.get? h.id, out.size = s.pixels.size) :
    Paired table (Device.readBack h out (.host d)) (Device.readBack h out (.gpu g)) := by
  simp only [Device.readBack, HostDevice.readBack]
  rcases hm.surfaces.cases h.id with ⟨hd, hg⟩ | ⟨s, s', hd, hg, hstands⟩
  · simp only [hd, GpuDevice.readBack, hg]
    exact hm.refused rfl
  · have hlength := hsize s hd
    have hread := readBack_of_encoded hg hstands.format hstands.data hstands.size
      hlength hstands.row
    simp only [hd, if_pos hlength.symm, hread]
    exact ⟨.ok _, _, g, rfl, rfl, { hm with }⟩

/-- Releasing a surface is paired. -/
theorem paired_releaseSurface (hm : Mirrors table d g) (h : SurfaceHandle) :
    Paired table (Device.releaseSurface h (.host d)) (Device.releaseSurface h (.gpu g)) := by
  obtain ⟨hordered, hbound⟩ :=
    hm.unbind (d.releaseSurface h) (g.releaseSurface h) rfl fun entry slot place r hkeep
    hholds => by
      rw [HostDevice.bindings_releaseSurface]
      cases r with
      | buffer h' => exact hholds
      | surface h' => exact get?_filter hholds (by simpa using hkeep)
  exact ⟨.ok (), _, _, rfl, rfl,
    { hm with
      surfaces := hm.surfaces.erase h.id, hostTables := (List.length_map _).trans hm.hostTables
      gpuTables := (List.length_map _).trans hm.gpuTables, ordered := hordered, bound := hbound }⟩

/-! ## Bindings -/

/-- The place of a slot is found for the entry points. -/
theorem place_eq (hm : Mirrors table d g) (hplace : table.get? slot = some place)
    (operation : DeviceOperation) (entry : Nat) :
    g.place operation entry slot =
      if entry < d.entries.length then .ok place else refuse operation (.unknownEntry entry) := by
  rw [GpuDevice.place, hm.entries, hm.places, hplace]

/-- Binding at the place of a slot is binding for the slot, as no other slot is at the place. -/
theorem bind (hm : Mirrors table d g)
    (hinj : ∀ slot slot' place, table.get? slot = some place → table.get? slot' = some place →
    slot = slot') {entry : Nat} (hentry : entry < d.entries.length)
    (hplace : table.get? slot = some place) (r : GpuResource) :
    Mirrors table (d.setBindings entry ((d.bindings entry).bind slot r))
      (g.bind entry place r) := by
  have hhost : ∀ entry', (d.setBindings entry ((d.bindings entry).bind slot r)).bindings entry' =
      if entry' = entry then (d.bindings entry).bind slot r else d.bindings entry' := by
    intro entry'
    rw [HostDevice.bindings_setBindings, hm.hostTables]
    simp only [hentry, and_true]
  have hgpu : ∀ entry', (g.bind entry place r).bindings entry' =
      if entry' = entry then (g.bindings entry).put place r else g.bindings entry' := by
    intro entry'
    rw [bindings_bind, hm.gpuTables]
    simp only [hentry, and_true]
  refine { hm with
    hostTables := (List.length_set ..).trans hm.hostTables
    gpuTables := (List.length_set ..).trans hm.gpuTables
    ordered := fun entry' => ?_, bound := ?_ }
  · rw [hgpu]
    split
    next => exact (hm.ordered entry).put place r
    next => exact hm.ordered entry'
  · intro entry' slot' place' r' hplace' hr'
    rw [hgpu] at hr'
    rw [hhost]
    by_cases he : entry' = entry
    · subst he
      rw [if_pos rfl] at hr' ⊢
      rw [get?_put_nat] at hr'
      by_cases hslot : slot' = slot
      · subst hslot
        rw [if_pos (Option.some.inj (hplace'.symm.trans hplace))] at hr'
        cases hr'
        exact HostBindings.holds_bind_self _ _ _
      · rw [if_neg fun heq : place' = place => hslot (hinj slot' slot place (heq ▸ hplace') hplace)]
          at hr'
        exact (hm.bound entry' slot' place' r' hplace' hr').bind hslot r
    · rw [if_neg he] at hr' ⊢
      exact hm.bound entry' slot' place' r' hplace' hr'

variable (hinj : ∀ slot slot' place, table.get? slot = some place → table.get? slot' = some place →
    slot = slot')
include hinj

/-- Binding a buffer is paired. -/
theorem paired_bindBuffer (hm : Mirrors table d g)
    (hplace : table.get? slot = some place) (entry : Nat) (h : BufferHandle) :
    Paired table (Device.bindBuffer entry slot h (.host d))
      (Device.bindBuffer entry slot h (.gpu g)) := by
  simp only [Device.bindBuffer, HostDevice.bindBuffer, GpuDevice.bindBuffer, hm.place_eq hplace,
    hm.buffers.has_eq]
  by_cases hentry : entry < d.entries.length
  · by_cases hhas : d.buffers.has h.id = true
    · simp only [if_pos hentry, if_pos hhas]
      exact ⟨.ok (), _, _, rfl, rfl, hm.bind hinj hentry hplace (.buffer h)⟩
    · simp only [if_pos hentry, if_neg hhas]
      exact hm.refused rfl
  · simp only [if_neg hentry]
    exact hm.refused rfl

/-- Binding a texture is paired. -/
theorem paired_bindTexture (hm : Mirrors table d g)
    (hplace : table.get? slot = some place) (entry : Nat) (h : SurfaceHandle) :
    Paired table (Device.bindTexture entry slot h (.host d))
      (Device.bindTexture entry slot h (.gpu g)) := by
  simp only [Device.bindTexture, HostDevice.bindTexture, GpuDevice.bindTexture, hm.place_eq hplace,
    hm.surfaces.has_eq]
  by_cases hentry : entry < d.entries.length
  · by_cases hhas : d.surfaces.has h.id = true
    · simp only [if_pos hentry, if_pos hhas]
      exact ⟨.ok (), _, _, rfl, rfl, hm.bind hinj hentry hplace (.surface h)⟩
    · simp only [if_pos hentry, if_neg hhas]
      exact hm.refused rfl
  · simp only [if_neg hentry]
    exact hm.refused rfl

/-! ## Steps and runs -/

/-- **The step.** A proper call has the same answer from both devices, and they still mirror one
another. -/
theorem run_paired (hm : Mirrors table d g) {slots : List String}
    (hslots : ∀ slot ∈ slots, ∃ p, table.get? slot = some p) {c : DeviceCall}
    (hc : c.Proper slots d) : Paired table (c.run (.host d)) (c.run (.gpu g)) := by
  cases c with
  | findEntry name =>
    refine ⟨?_, d, g, rfl, rfl, hm⟩
    show SameAnswer (.ok (DeviceAnswer.entry (d.entries.idxOf? name)))
      (.ok (.entry (g.entries.idxOf? name)))
    rw [hm.entries]
    exact .ok _
  | createBuffer count stride => exact (hm.paired_createBuffer hc).map _
  | upload h bytes => exact (hm.paired_upload hc).map _
  | download h size => exact (hm.paired_download hc.1 hc.2).map _
  | releaseBuffer h => exact (hm.paired_releaseBuffer h).map _
  | createSurface width height format =>
    obtain ⟨rfl, hwidth, hheight, hfits, hrow⟩ := hc
    exact (hm.paired_createSurface hwidth hheight hfits hrow).map _
  | blit h pixels => exact (hm.paired_blit hc).map _
  | readBack h out => exact (hm.paired_readBack hc).map _
  | releaseSurface h => exact (hm.paired_releaseSurface h).map _
  | bindBuffer entry slot h =>
    obtain ⟨place, hplace⟩ := hslots slot hc
    exact (hm.paired_bindBuffer hinj hplace entry h).map _
  | bindTexture entry slot h =>
    obtain ⟨place, hplace⟩ := hslots slot hc
    exact (hm.paired_bindTexture hinj hplace entry h).map _

/-- Proper calls have the same answers. -/
theorem runAll_paired (hm : Mirrors table d g) {slots : List String}
    (hslots : ∀ slot ∈ slots, ∃ p, table.get? slot = some p) {calls : List DeviceCall}
    (hcalls : DeviceCall.ProperAll slots calls (.host d)) :
    List.Forall₂ SameAnswer (DeviceCall.answers calls (.host d))
      (DeviceCall.answers calls (.gpu g)) ∧ ∃ d' g', DeviceCall.runAll calls (.host d) = .host d' ∧
      DeviceCall.runAll calls (.gpu g) = .gpu g' ∧
        Mirrors table d' g' := by
  induction calls generalizing d g with
  | nil => exact ⟨.nil, d, g, rfl, rfl, hm⟩
  | cons c calls ih =>
    obtain ⟨hc, hrest⟩ := hcalls
    obtain ⟨hanswer, d₁, g₁, hd, hg, hm₁⟩ := hm.run_paired hinj hslots hc
    rw [hd] at hrest
    obtain ⟨hanswers, d', g', hd', hg', hm'⟩ := ih hm₁ hrest
    refine ⟨.cons hanswer ?_, d', g', ?_, ?_, hm'⟩
    · rw [hd, hg]
      exact hanswers
    · rw [← hd', ← hd]
      rfl
    · rw [← hg', ← hg]
      rfl

end Mirrors

/-- New devices for the same entry points mirror one another. -/
theorem mirrors_new (module : ShaderModule) (entries : List String) (table : Keyed String Nat) :
    Mirrors table (.ofEntries entries)
      { module, entries, places := table, bound := entries.map fun _ => [] } where
  places := rfl
  entries := rfl
  issued := rfl
  buffers _ := .none
  surfaces _ := .none
  hostTables := List.length_map _
  gpuTables := List.length_map _
  ordered entry := by
    simp only [GpuDevice.bindings, List.getElem?_map]
    cases entries[entry]? with
    | none => exact .nil
    | some name => exact .nil
  bound entry slot place r _ hr := by
    simp only [GpuDevice.bindings, List.getElem?_map] at hr
    cases hname : entries[entry]? with
    | none =>
      rw [hname] at hr
      cases hr
    | some name =>
      rw [hname] at hr
      cases hr

/-- **The two devices agree.** For all entry points, and places that belong to one slot each, and
however a new device in host memory and a new graphics device are called, as long as the calls are
made as they should be: each call has the same answer from both, or both refuse the operation. And
what the graphics device has bound at the place of a slot in the end, the device in host memory has
bound for that slot. -/
theorem devices_agree (module : ShaderModule) (entries : List String) (places : List (String × Nat))
    (hinj : ∀ p ∈ places, ∀ q ∈ places, p.2 = q.2 → p.1 = q.1) (calls : List DeviceCall)
    (hcalls : DeviceCall.ProperAll (places.map Prod.fst) calls (.host (.ofEntries entries))) :
    ∃ g, compile? (some module) entries places = .ok g ∧
      List.Forall₂ SameAnswer (DeviceCall.answers calls (.host (.ofEntries entries)))
        (DeviceCall.answers calls (.gpu g)) ∧
      ∃ d' g', DeviceCall.runAll calls (.host (.ofEntries entries)) = .host d' ∧
        DeviceCall.runAll calls (.gpu g) = .gpu g' ∧
        ∀ entry slot place r, g'.places.get? slot = some place →
        (g'.bindings entry).get? place = some r →
          (d'.bindings entry).Holds slot r := by
  have hmem : ∀ slot place, (Keyed.ofPairs places).get? slot = some place →
      (slot, place) ∈ places := by
    intro slot place hget
    rcases get?_ofPairs places slot with ⟨a, hget', hmem⟩ | ⟨hnone, -⟩
    · cases hget.symm.trans hget'
      exact hmem
    · cases hget.symm.trans hnone
  have hslots : ∀ slot ∈ places.map Prod.fst, ∃ place, (Keyed.ofPairs places).get? slot =
      some place := by
    intro slot hslot
    rcases get?_ofPairs places slot with ⟨a, hget, -⟩ | ⟨-, hnot⟩
    · exact ⟨a, hget⟩
    · exact absurd hslot hnot
  obtain ⟨hanswers, d', g', hd', hg', hm⟩ := (mirrors_new module entries _).runAll_paired
    (fun slot slot' place h h' => hinj _ (hmem slot place h) _ (hmem slot' place h') rfl)
      hslots hcalls
  refine ⟨_, rfl, hanswers, d', g', hd', hg', fun entry slot place r hplace hr => ?_⟩
  exact hm.bound entry slot place r (hm.places ▸ hplace) hr

namespace Gallery

/-- Two slots at places that are not in the order of the slots. -/
def places : List (String × Nat) := [("cells", 3), ("image", 0)]

/-- Three by two texels: a row takes less than the alignment. -/
def picture : Array Float4 :=
  #[⟨1, 2, 3, 4⟩, ⟨5, 6, 7, 8⟩, ⟨9, 10, 11, 12⟩, ⟨0x7fc00001, 0x80000000, 15, 16⟩, .zero,
  ⟨0xffffffff, 18, 19, 20⟩]

/-- A buffer is filled, bound, released and asked for again; an empty one is read; a picture goes to
a surface and back; and what was never made is bound. -/
def calls : List DeviceCall :=
  [.createBuffer 2 4, .upload ⟨1⟩ [1, 2, 3, 4, 5, 6, 7, 8], .createBuffer 0 16, .download ⟨2⟩ 0,
    .createSurface 3 2 .rgba32Float, .blit ⟨3⟩ picture, .bindBuffer 0 "cells" ⟨1⟩,
    .bindTexture 0 "image" ⟨3⟩, .download ⟨1⟩ 8, .releaseBuffer ⟨1⟩, .download ⟨1⟩ 8,
    .readBack ⟨3⟩ (Array.replicate 6 .zero), .bindTexture 0 "image" ⟨1⟩, .bindTexture 7 "image" ⟨3⟩,
    .findEntry "Paint"]

end Gallery

/-- The devices agree on all of these. -/
theorem gallery_agrees :
    DeviceCall.ProperAll (Gallery.places.map Prod.fst) Gallery.calls
      (.host (.ofEntries ["Clear", "Paint"])) ∧
      ∃ g, compile? (some ⟨[]⟩) ["Clear", "Paint"] Gallery.places = .ok g ∧
        List.Forall₂ SameAnswer
          (DeviceCall.answers Gallery.calls (.host (.ofEntries ["Clear", "Paint"])))
          (DeviceCall.answers Gallery.calls (.gpu g)) ∧
        (DeviceCall.answers Gallery.calls (.gpu g))[11]? = some (.ok (.texels Gallery.picture)) ∧
        (DeviceCall.answers Gallery.calls (.gpu g))[10]?
          = some (.error (.device ⟨.gpu, .download, .unknownBuffer ⟨1⟩⟩)) := by
  have hproper : DeviceCall.ProperAll (Gallery.places.map Prod.fst) Gallery.calls
      (.host (.ofEntries ["Clear", "Paint"])) := by decide +kernel
  obtain ⟨g, hg, hanswers, -⟩ := devices_agree ⟨[]⟩ ["Clear", "Paint"] Gallery.places (by decide)
    Gallery.calls hproper
  cases hg
  exact ⟨hproper, _, rfl, hanswers, by decide +kernel, by decide +kernel⟩

end ComputeKernel
