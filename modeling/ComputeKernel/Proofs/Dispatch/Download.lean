import ComputeKernel.Proofs.Dispatch.Reupload

/-!
# What a download leaves on the host

A download goes through the slots of an entry point in order. A slot whose copy fits brings the
bytes of the copy to its buffer (`BufferBinding.offer?`); one without such a copy brings nothing;
and one whose copy is not on the device any more ends the download (`BufferBinding.Missing`). A
buffer that is bound to several slots has what the last of them brought (`Table.brought`,
`Bench.buffer_downloadBuffers`). Whether a copy is marked as behind plays no part in this. So a
download keeps what the host has in a buffer exactly when nothing is brought to it, or the same
bytes (`download_keeps_iff`), and elements that the host has changed since they were sent are
replaced by the older ones of the device (`download_replaces_newer`).
-/

namespace ComputeKernel

open Mill
open BufferBinding ComputeKernel.Action BenchOp

variable {K : Type}

namespace BufferBinding

variable {bytes : Bytes}

/-! ## One slot -/

/-- The bytes of a copy that fits, if the device has them. -/
def offer? (b : BufferBinding) (m : Memory) (d : HostDevice) : Option Bytes := do
  let c ← b.copy
  let block ← d.buffers.get? c.handle.id
  if c.count = (m.buffer b.buffer).length ∧ block.size = c.count * (m.buffer b.buffer).stride then
    return block.bytes
  else none

/-- The copy fits, but is not on the device as it was. -/
def Missing (b : BufferBinding) (m : Memory) (d : HostDevice) : Prop :=
  b.Fits m ∧ b.offer? m d = none

instance (b : BufferBinding) (m : Memory) (d : HostDevice) : Decidable (b.Missing m d) :=
  inferInstanceAs (Decidable (_ ∧ _))

variable {b : BufferBinding} {m m' : Memory} {d d' : HostDevice}

/-- A copy that offers its bytes fits, and is there. -/
theorem offer?_eq_some (h : b.offer? m d = some bytes) :
    ∃ c block, b.copy = some c ∧ c.count = (m.buffer b.buffer).length ∧ d.buffers.get? c.handle.id =
      some block ∧ block.size = c.count * (m.buffer b.buffer).stride ∧ block.bytes = bytes := by
  obtain ⟨c, hc, h⟩ := Option.bind_eq_some_iff.1 h
  obtain ⟨block, hblock, h⟩ := Option.bind_eq_some_iff.1 h
  split at h
  next hfits => exact ⟨c, block, hc, hfits.1, hblock, hfits.2, Option.some.inj h⟩
  next => cases h

/-- A copy that fits and is there offers its bytes. -/
theorem offer?_of_get? {c : DeviceCopy} {block : MemoryBlock} (hc : b.copy = some c)
    (hcount : c.count = (m.buffer b.buffer).length)
    (hblock : d.buffers.get? c.handle.id = some block)
    (hsize : block.size = c.count * (m.buffer b.buffer).stride) :
    b.offer? m d = some block.bytes := by
  simp [offer?, hc, hblock, hcount, hsize]

/-- Only the number and type of the elements matter. -/
theorem offer?_congr (hlength : (m'.buffer b.buffer).length = (m.buffer b.buffer).length)
    (helement : (m'.buffer b.buffer).element = (m.buffer b.buffer).element)
    (hd : d'.buffers = d.buffers) :
    b.offer? m' d' = b.offer? m d := by
  rw [offer?, offer?, hlength, Buffer.stride, helement, hd]
  rfl

/-- Only the number of elements matters. -/
theorem fits_congr (hlength : (m'.buffer b.buffer).length = (m.buffer b.buffer).length) :
    b.Fits m' ↔ b.Fits m := by
  rw [Fits, Fits, hlength]

/-- Without a copy that fits nothing is brought over. -/
theorem toHost_of_not_fits (h : ¬ b.Fits m) (device : Device) :
    ∃ events, toHost (b, ⟨m, device⟩) = ⟨.ok (), (b, ⟨m, device⟩), events⟩ := by
  rw [toHost, contents_bind, get_bind]
  cases hcopy : b.copy with
  | none =>
    simp only [hcopy]
    exact ⟨_, rfl⟩
  | some c =>
    have hcount : ¬ c.count = (m.buffer b.buffer).length := fun hcount => h ⟨c, hcopy, hcount⟩
    simp only [hcopy, if_neg hcount]
    exact ⟨_, rfl⟩

/-- The bytes of a copy become those of the buffer. -/
theorem toHost_eq_of_offer (h : b.offer? m d = some bytes) :
    ∃ host, toHost (b, ⟨m, .host d⟩) =
        { result := .ok ()
          state := ({ b with dirty := false }, ⟨m.setBuffer b.buffer host,
            .host { d with stats.downloads := d.stats.downloads + 1 }⟩)
          events := [.bufferDownloaded (m.buffer b.buffer).length] } ∧
      host.element = (m.buffer b.buffer).element ∧ host.length = (m.buffer b.buffer).length ∧
      host.bytes = bytes := by
  obtain ⟨c, block, hcopy, hcount, hblock, hsize, rfl⟩ := offer?_eq_some h
  have hdown : Device.download c.handle (c.count * (m.buffer b.buffer).stride) (.host d) =
      { result := .ok block.bytes,
          state := .host { d with stats.downloads := d.stats.downloads + 1 } } := by
    simp only [Device.download, HostDevice.download, hblock, if_pos hsize]
    rfl
  obtain ⟨host, hwrite, helement, hlength, hbytes⟩ :=
    Buffer.bytes_of_writeBytes (b := m.buffer b.buffer)
    (block.length_bytes.trans (hcount ▸ hsize))
  refine ⟨host, ?_, helement, hlength, hbytes⟩
  have hevent : Event.bufferDownloaded (m.buffer b.buffer).length =
    .bufferDownloaded c.count := by rw [hcount]
  rw [toHost, contents_bind, get_bind, hevent]
  simp only [hcopy, if_pos hcount, bind_eq, onDevice_apply, hdown,
    report, receive, step, hwrite, change, Action.modify]
  rfl

/-- What is left then. -/
theorem toHost_of_offer (h : b.offer? m d = some bytes) :
    ∃ host d' events, toHost (b, ⟨m, .host d⟩) =
        ⟨.ok (), ({ b with dirty := false }, ⟨m.setBuffer b.buffer host, .host d'⟩), events⟩ ∧
      host.element = (m.buffer b.buffer).element ∧ host.length = (m.buffer b.buffer).length ∧
      host.bytes = bytes ∧ d'.buffers = d.buffers := by
  obtain ⟨host, heq, helement, hlength, hbytes⟩ := toHost_eq_of_offer h
  exact ⟨host, _, _, heq, helement, hlength, hbytes, rfl⟩

/-- A copy that is missing ends a download. -/
theorem toHost_of_missing (h : b.Missing m d) :
    ∃ e, toHost (b, ⟨m, .host d⟩) = ⟨.error (.device e), (b, ⟨m, .host d⟩), []⟩ := by
  obtain ⟨⟨c, hcopy, hcount⟩, hoffer⟩ := h
  have hdown : ∃ e, Device.download c.handle (c.count * (m.buffer b.buffer).stride) (.host d) =
      { result := .error (.device e), state := .host d } := by
    cases hblock : d.buffers.get? c.handle.id with
    | none => exact ⟨_, by simp only [Device.download, HostDevice.download, hblock]; rfl⟩
    | some block =>
      have hsize : ¬ block.size = c.count * (m.buffer b.buffer).stride := by
        intro hsize
        rw [offer?_of_get? hcopy hcount hblock hsize] at hoffer
        cases hoffer
      exact ⟨_, by simp only [Device.download, HostDevice.download, hblock, if_neg hsize]; rfl⟩
  obtain ⟨e, hdown⟩ := hdown
  refine ⟨e, ?_⟩
  rw [toHost, contents_bind, get_bind]
  simp only [hcopy, if_pos hcount, bind_eq, onDevice_apply, hdown]

end BufferBinding

/-! ## All slots of an entry point -/

namespace Table

/-- What slots bring in turn, up to a copy that is missing. -/
def brought (buffers : List (String × BufferBinding)) (m : Memory) (d : HostDevice)
    (r : BufferRef) : List Bytes :=
  (buffers.takeWhile fun p => ¬ p.2.Missing m d).filterMap fun p => if p.2.buffer = r then
    p.2.offer? m d else none

variable {m m' : Memory} {d d' : HostDevice} {r : BufferRef}

/-- What the first slot brings, before the others. -/
theorem brought_cons (slot : String) (b : BufferBinding) (rest : List (String × BufferBinding)) :
    brought ((slot, b) :: rest) m d r =
      if b.Missing m d then [] else (if b.buffer = r then (b.offer? m d).toList else []) ++
        brought rest m d r := by
  by_cases hmissing : b.Missing m d
  · simp [brought, hmissing]
  · by_cases hr : b.buffer = r
    · cases hoffer : b.offer? m d with
      | none => simp [brought, hmissing, hr, hoffer]
      | some bytes => simp [brought, hmissing, hr, hoffer]
    · simp [brought, hmissing, hr]

/-- What is brought does not depend on the host's elements. -/
theorem brought_congr (hlength : ∀ r, (m'.buffer r).length = (m.buffer r).length)
    (helement : ∀ r, (m'.buffer r).element = (m.buffer r).element) (hd : d'.buffers = d.buffers)
    (buffers : List (String × BufferBinding)) :
    brought buffers m' d' r = brought buffers m d r := by
  have hoffer : ∀ b : BufferBinding, b.offer? m' d' = b.offer? m d := fun b =>
    offer?_congr (hlength _) (helement _) hd
  have hmissing : ∀ b : BufferBinding, decide (¬ b.Missing m' d') = decide (¬ b.Missing m d) := by
    intro b
    refine decide_eq_decide.2 (not_congr ?_)
    rw [Missing, Missing, hoffer, fits_congr (hlength _)]
  simp only [brought, hmissing, hoffer]

/-- **The last slot wins.** After a download a buffer has the bytes that came last, or those it
had. -/
theorem onValues_toHost (buffers : List (String × BufferBinding)) :
    ∀ (m : Memory) (d : HostDevice), r.index < m.buffers.size →
      let o := onValues (fun _ : String => BufferBinding.toHost) buffers ⟨m, .host d⟩
      (o.state.2.memory.buffer r).element = (m.buffer r).element ∧
        (o.state.2.memory.buffer r).bytes =
            (brought buffers m d r).getLast?.getD (m.buffer r).bytes := by
  induction buffers with
  | nil => exact fun m d _ => ⟨rfl, rfl⟩
  | cons p rest ih =>
    intro m d hr
    obtain ⟨slot, b⟩ := p
    rw [onValues, brought_cons]
    by_cases hmissing : b.Missing m d
    · obtain ⟨e, heq⟩ := toHost_of_missing hmissing
      rw [heq, if_pos hmissing]
      exact ⟨rfl, rfl⟩
    · rw [if_neg hmissing]
      cases hoffer : b.offer? m d with
      | none =>
        obtain ⟨events, heq⟩ := toHost_of_not_fits (fun hfits => hmissing ⟨hfits, hoffer⟩) (.host d)
        rw [heq, Option.toList_none, ite_self, List.nil_append]
        exact ih m d hr
      | some bytes =>
        obtain ⟨host, d', events, heq, helement, hlength, hbytes, hd'⟩ := toHost_of_offer hoffer
        have hkept : ∀ r, ((m.setBuffer b.buffer host).buffer r).length = (m.buffer r).length ∧
            ((m.setBuffer b.buffer host).buffer r).element = (m.buffer r).element := by
          intro r
          rw [Memory.buffer_setBuffer]
          split
          next hsame => exact hsame.1 ▸ ⟨hlength, helement⟩
          next => exact ⟨rfl, rfl⟩
        obtain ⟨hrest, hlast⟩ :=
          ih (m.setBuffer b.buffer host) d' (by simpa [Memory.setBuffer] using hr)
        rw [heq]
        refine ⟨hrest.trans (hkept r).2, hlast.trans ?_⟩
        rw [brought_congr (fun r => (hkept r).1) (fun r => (hkept r).2) hd' rest,
          Memory.buffer_setBuffer]
        by_cases hbuffer : b.buffer = r
        · rw [if_pos hbuffer, if_pos ⟨hbuffer.symm, hbuffer ▸ hr⟩, hbytes, Option.toList_some,
            List.singleton_append, List.getLast?_cons, Option.getD_some]
        · rw [if_neg hbuffer, if_neg fun h => hbuffer h.1.symm, List.nil_append]

end Table

/-! ## Downloads -/

namespace Bench

variable {s : Bench K} {entry : Nat} {r : BufferRef}

/-- The bytes that a download leaves, if it brings any. -/
def brings? (s : Bench K) (entry : Nat) (r : BufferRef) : Option Bytes := do
  let d ← s.host?
  (Table.brought (s.dispatcher.table entry).buffers s.memory d r).getLast?

/-- What a buffer is after a download. -/
theorem buffer_downloadBuffers (hs : s.Ready) (entry : Nat) (hr : r.index < s.memory.buffers.size) :
    let s' := (downloadBuffers entry s).state
    (s'.memory.buffer r).element = (s.memory.buffer r).element ∧
      (s'.memory.buffer r).bytes = (s.brings? entry r).getD (s.memory.buffer r).bytes := by
  obtain ⟨dispatcher, m, device⟩ := s
  obtain ⟨⟨d, hd⟩, htables, -⟩ := hs
  cases hd
  intro s'
  cases hentry : dispatcher.layout.entry entry with
  | error e =>
    have hstate : s' = ⟨dispatcher, m, some (.host d)⟩ :=
      state_bind_of_error (e := .dispatch e) (by simp only [check, examine, hentry]; rfl)
    -- An entry point that there is not has no slots.
    have hle : dispatcher.tables.length ≤ entry := by
      refine Nat.le_of_not_lt fun hlt => ?_
      rw [htables] at hlt
      rw [Layout.entry, List.getElem?_eq_getElem hlt] at hentry
      cases hentry
    rw [hstate, brings?, Dispatcher.table_of_le hle]
    exact ⟨rfl, rfl⟩
  | ok point =>
    have hstate : s' =
      (withDevice (Dispatcher.onTable entry (Table.onBuffers fun _ => BufferBinding.toHost))
        ⟨dispatcher, m, some (.host d)⟩).state :=
      state_bind_of_ok (x := point) (by simp only [check, examine, hentry]; rfl)
    rw [hstate]
    exact Table.onValues_toHost (dispatcher.table entry).buffers m d hr

end Bench

/-- **What a download keeps.** A buffer is bound to a slot of some entry point, and a download is
done for an entry point. The buffer has what it had before exactly when the download brings nothing
to it, or the bytes that it has. Whether its copies are marked as behind does not matter. -/
theorem download_keeps_iff {s : Bench K} (hs : s.Reachable) {bound : Nat} {slot : String}
    {b : BufferBinding} (hb : (s.dispatcher.table bound).buffers.get? slot = some b) (entry : Nat) :
    (Bench.downloadBuffers entry s).state.memory.buffer b.buffer = s.memory.buffer b.buffer ↔
      ∀ bytes, s.brings? entry b.buffer = some bytes →
      bytes = (s.memory.buffer b.buffer).bytes := by
  obtain ⟨hready, hkept⟩ := hs.kept
  have hwellBound := hkept.wellBound bound
  have hr := hwellBound.present _ (hwellBound.ordered.mem_iff.2 hb)
  obtain ⟨helement, hbytes⟩ := Bench.buffer_downloadBuffers hready entry hr
  constructor
  · intro heq bytes hbrings
    rw [heq, hbrings, Option.getD_some] at hbytes
    exact hbytes.symm
  · intro hsame
    refine Buffer.eq_of_bytes helement (hbytes.trans ?_)
    cases hbrings : s.brings? entry b.buffer with
    | none => rfl
    | some bytes => exact hsame bytes hbrings

namespace Mill

/-- The numbers are sent, and others of another length bound. -/
def resizing : List BenchOp :=
  [.setBuffer 0 "numbers" ⟨0⟩, .hardware 0 ⟨1, 1, 1⟩, .setBuffer 0 "numbers" ⟨1⟩]

/-- The numbers are sent, and then changed on the host. -/
def overtaking : List BenchOp :=
  [.setBuffer 0 "numbers" ⟨0⟩, .hardware 0 ⟨1, 1, 1⟩, .emulated 0 ⟨1, 1, 1⟩]

end Mill

/-- Numbers that have no copy of their length are kept by a download. -/
theorem resized_numbers_kept :
    let s := runAll Mill.resizing bench
    s.Reachable ∧ (s.dispatcher.table 0).buffers.get? "numbers" = some ⟨⟨1⟩, some ⟨⟨1⟩, 2⟩, true⟩ ∧
      s.brings? 0 ⟨1⟩ = none ∧
      (Bench.downloadBuffers 0 s).state.memory.buffer ⟨1⟩ = s.memory.buffer ⟨1⟩ := by
  have hops : LawfulAll Mill.resizing bench := by
    simp only [Mill.resizing, LawfulAll, Lawful]
    decide +kernel
  have hreachable := reachable hops
  have hb : ((runAll Mill.resizing bench).dispatcher.table 0).buffers.get? "numbers" =
      some ⟨⟨1⟩, some ⟨⟨1⟩, 2⟩, true⟩ := by decide +kernel
  have hnone : (runAll Mill.resizing bench).brings? 0 ⟨1⟩ = none := by decide +kernel
  refine ⟨hreachable, hb, hnone, (download_keeps_iff hreachable hb 0).2 fun bytes hbrings => ?_⟩
  rw [hnone] at hbrings
  cases hbrings

/-- Numbers that the host has changed after they were sent are replaced by the older ones, though
their copy is marked as behind. -/
theorem download_replaces_newer :
    let s := runAll Mill.overtaking bench
    let s' := (Bench.downloadBuffers 0 s).state
    s.Reachable ∧ (s.dispatcher.table 0).buffers.get? "numbers" = some ⟨⟨0⟩, some ⟨⟨1⟩, 2⟩, true⟩ ∧
      (s.memory.buffer ⟨0⟩).words = #[0, 2] ∧ (s'.memory.buffer ⟨0⟩).words = #[1, 2] := by
  have hops : LawfulAll Mill.overtaking bench := by
    simp only [Mill.overtaking, LawfulAll, Lawful]
    decide +kernel
  refine ⟨reachable hops, ?_⟩
  decide +kernel

end ComputeKernel
