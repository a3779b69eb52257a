import ComputeKernel.Proofs.Buffer.Coherence

/-!
# Arrays that take the place of others

An array of any length and any type of elements may take the place of the one that is bound to a
slot. The copy on the device stays with the slot. Whether it is kept is decided by its number of
elements, while the device compares its bytes. `BufferBinding.Misfit` falls between the two: as many
elements, but of another width. There the copy can neither be filled nor read, and nothing that is
tried changes this; everywhere else the array is sent, arrives, and comes back as it was
(`replaced_usable_iff`). The only thing to know of the past is that the copies of the slots are on
the device and that no two slots share one (`Table.Held`).
-/

namespace ComputeKernel

open ComputeKernel.Action
open BufferBinding

namespace BufferBinding

variable {b b' : BufferBinding} {m m' : Memory} {d d' : HostDevice}

/-! ## One slot -/

/-- The copy has as many elements, but not as many bytes. -/
def Misfit (b : BufferBinding) (m : Memory) (d : HostDevice) : Prop :=
  ∃ c block, b.copy = some c ∧ c.count = (m.buffer b.buffer).length ∧ d.buffers.get? c.handle.id =
    some block ∧ block.size ≠ (m.buffer b.buffer).bytes.length

/-- The buffer is sent, arrives, and comes back as it was. -/
def Usable (b : BufferBinding) (m : Memory) (d : HostDevice) : Prop :=
  ∃ handle b' d' events block, toDevice (b, ⟨m, .host d⟩) =
    ⟨.ok handle, (b', ⟨m, .host d'⟩), events⟩ ∧
    d'.buffers.get? handle.id = some block ∧ block.bytes = (m.buffer b.buffer).bytes ∧
    ∃ b'' m' d'' events', toHost (b', ⟨m, .host d'⟩) = ⟨.ok (), (b'', ⟨m', .host d''⟩), events'⟩ ∧
      ∀ r, m'.buffer r = m.buffer r

/-- Neither side takes the bytes, and trying changes nothing. -/
def Stuck (b : BufferBinding) (m : Memory) (d : HostDevice) : Prop :=
  (∃ e events, toDevice (b, ⟨m, .host d⟩) = ⟨.error (.device e), (b, ⟨m, .host d⟩), events⟩) ∧
    ∃ e events, toHost (b, ⟨m, .host d⟩) = ⟨.error (.device e), (b, ⟨m, .host d⟩), events⟩

/-- The copy, if there is one, is on the device. -/
def Live (copy : Option DeviceCopy) (d : HostDevice) : Prop :=
  ∀ c, copy = some c → c.handle.id ≤ d.issued ∧ ∃ block, d.buffers.get? c.handle.id = some block

/-- Where the width fits, the copy takes the bytes. -/
theorem ready_of_not_misfit (hlive : Live b.copy d) (h : ¬ b.Misfit m d) : b.Ready m d := by
  intro c hc hcount
  obtain ⟨-, block, hblock⟩ := hlive c hc
  exact ⟨block, hblock, not_not.1 fun hsize => h ⟨c, block, hc, hcount, hblock, hsize⟩⟩

/-- What was sent is brought back, and is what the host has. -/
theorem toHost_of_sent {handle : BufferHandle}
    (hcopy : b.copy = some ⟨handle, (m.buffer b.buffer).length⟩)
    (hblock : d.buffers.get? handle.id = some (.written (m.buffer b.buffer).bytes)) :
    ∃ b' m' d' events, toHost (b, ⟨m, .host d⟩) = ⟨.ok (), (b', ⟨m', .host d'⟩), events⟩ ∧
      ∀ r, m'.buffer r = m.buffer r := by
  have hoffer : b.offer? m d = some (m.buffer b.buffer).bytes :=
    offer?_of_get? (c := ⟨handle, (m.buffer b.buffer).length⟩) hcopy rfl hblock
      (Buffer.length_bytes _)
  obtain ⟨host, heq, helement, -, hbytes⟩ := toHost_eq_of_offer hoffer
  obtain rfl : host = m.buffer b.buffer := Buffer.eq_of_bytes helement hbytes
  refine ⟨_, _, _, _, heq, fun r => ?_⟩
  rw [Memory.buffer_setBuffer]
  split
  next h => rw [h.1]
  next => rfl

/-- Then the buffer is usable. -/
theorem usable_of_ready (hdirty : b.dirty = true) (h : b.Ready m d) : b.Usable m d := by
  obtain ⟨handle, d', events, hsend, hblock⟩ := toDevice_of_ready hdirty h
  exact ⟨handle, _, d', events, _, hsend, hblock, rfl, toHost_of_sent rfl hblock⟩

/-- A copy of another width is kept, and refuses the bytes. -/
theorem toDevice_of_misfit (hdirty : b.dirty = true) {c : DeviceCopy} {block : MemoryBlock}
    (hcopy : b.copy = some c) (hcount : c.count = (m.buffer b.buffer).length)
    (hblock : d.buffers.get? c.handle.id = some block)
    (hsize : block.size ≠ (m.buffer b.buffer).bytes.length) :
    ∃ e events, toDevice (b, ⟨m, .host d⟩) = ⟨.error (.device e), (b, ⟨m, .host d⟩), events⟩ := by
  refine ⟨⟨.host, .upload, .uploadSize block.size (m.buffer b.buffer).bytes.length⟩,
    [.bufferUploaded (m.buffer b.buffer).length (m.buffer b.buffer).element.typeName], ?_⟩
  have hupload : Device.upload c.handle (m.buffer b.buffer).bytes (.host d) =
      { result := .error (.device ⟨.host, .upload,
        .uploadSize block.size (m.buffer b.buffer).bytes.length⟩)
        state := .host d } := by
    simp only [Device.upload, HostDevice.upload, hblock, if_neg hsize]
    rfl
  rw [toDevice, bind_of_ok (ensureCopy_of_fits (.host d) hcopy hcount), contents_bind, get_bind]
  simp only [hdirty, if_true, bind_eq, report, onDevice_apply,
    hupload]
  rfl

/-- A copy of another width is not read into the buffer either. -/
theorem toHost_of_misfit {c : DeviceCopy} {block : MemoryBlock} (hcopy : b.copy = some c)
    (hcount : c.count = (m.buffer b.buffer).length)
    (hblock : d.buffers.get? c.handle.id = some block)
    (hsize : block.size ≠ (m.buffer b.buffer).bytes.length) :
    ∃ e events, toHost (b, ⟨m, .host d⟩) = ⟨.error (.device e), (b, ⟨m, .host d⟩), events⟩ := by
  rw [Buffer.length_bytes, ← hcount] at hsize
  refine ⟨⟨.host, .download,
    .downloadSize block.size (c.count * (m.buffer b.buffer).stride)⟩, [], ?_⟩
  have hdownload : Device.download c.handle (c.count * (m.buffer b.buffer).stride) (.host d) =
      { result := .error (.device ⟨.host, .download,
          .downloadSize block.size (c.count * (m.buffer b.buffer).stride)⟩)
        state := .host d } := by
    simp only [Device.download, HostDevice.download, hblock, if_neg hsize]
    rfl
  rw [toHost, contents_bind, get_bind]
  simp only [hcopy, if_pos hcount, bind_eq, onDevice_apply, hdownload]

/-- Where it does not fit, the buffer is stuck. -/
theorem stuck_of_misfit (hdirty : b.dirty = true) (h : b.Misfit m d) : b.Stuck m d := by
  obtain ⟨c, block, hcopy, hcount, hblock, hsize⟩ := h
  exact ⟨toDevice_of_misfit hdirty hcopy hcount hblock hsize,
    toHost_of_misfit hcopy hcount hblock hsize⟩

/-- What is stuck is not usable. -/
theorem Stuck.not_usable (h : b.Stuck m d) : ¬ b.Usable m d := by
  rintro ⟨handle, b', d', events, block, hsend, -⟩
  obtain ⟨⟨e, events', hrefused⟩, -⟩ := h
  rw [hrefused] at hsend
  cases hsend

/-- A transfer leaves the copy on the device. -/
theorem Transfer.live (t : Transfer b m d b' m' d') (h : Live b.copy d) : Live b'.copy d' := by
  intro c hc
  have hown : b'.own (m.buffer b.buffer).stride =
      some (c.handle.id, c.count * (m.buffer b.buffer).stride) := by
    rw [own, hc]
    rfl
  have hheld : ∀ k size, b.own (m.buffer b.buffer).stride = some (k, size) →
      k ≤ d.issued ∧ ∃ block, d.buffers.get? k = some block := by
    intro k size heq
    obtain ⟨c', hc', hpair⟩ := Option.map_eq_some_iff.1 heq
    cases hpair
    exact h c' hc'
  refine ⟨?_, t.moves.own_stored (fun k size heq => (hheld k size heq).2) hown⟩
  rcases t.moves.own_or_new hown with hold | hnew
  · exact (hheld _ _ hold).1.trans t.moves.issued_le
  · exact hnew.2

end BufferBinding

/-! ## The slots of a table -/

/-- What may be done with the slots of a table and around them. -/
inductive SlotStep where
  /-- A new array is made in host memory. -/
  | make (host : Buffer)
  /-- An element of an array is written on the host. -/
  | write (r : BufferRef) (i : Nat) (value : List UInt32)
  /-- An array is bound to a slot, in the place of another or as the first. -/
  | bind (slot : String) (r : BufferRef)
  | markDirty (slot : String)
  | toDevice (slot : String)
  | toHost (slot : String)
  | release (slot : String)
  /-- A kernel overwrites the copy of a slot. -/
  | kernel (slot : String) (bytes : Bytes)

namespace Table

/-- What an action on a slot leaves, if it is bound. -/
def onSlot {α : Type} (s : Table × Machine) (slot : String)
    (a : Action (BufferBinding × Machine) α) :
    Table × Machine :=
  match s.1.buffers.get? slot with
  | some b =>
    ({ s.1 with buffers := s.1.buffers.put slot (a (b, s.2)).state.1 }, (a (b, s.2)).state.2)
  | none => s

open BufferBinding in
/-- What a step leaves, however it ends. -/
def take (s : Table × Machine) : SlotStep → Table × Machine
  | .make host => (s.1, { s.2 with memory := (s.2.memory.addBuffer host).2 })
  | .write r i value =>
    match (s.2.memory.buffer r).set i value with
    | .ok host => (s.1, { s.2 with memory := s.2.memory.setBuffer r host })
    | .error _ => s
  | .bind slot r => (s.1.bindBuffer slot r, s.2)
  | .markDirty slot => onSlot s slot (change BufferBinding.markDirty)
  | .toDevice slot => onSlot s slot toDevice
  | .toHost slot => onSlot s slot toHost
  | .release slot => onSlot s slot BufferBinding.release
  | .kernel slot bytes => onSlot s slot (kernelWrite bytes)

/-- What steps leave. -/
def run (steps : List SlotStep) (s : Table × Machine) : Table × Machine := steps.foldl take s

/-- The copy that belongs to a slot. -/
def copyAt (t : Table) (slot : String) : Option DeviceCopy := (t.buffers.get? slot).bind (·.copy)

/-- The copies of slots are on the device, and apart. -/
structure Held (t : Table) (d : HostDevice) : Prop where
  live : ∀ slot, Live (t.copyAt slot) d
  apart : ∀ slot slot' c c', t.copyAt slot = some c → t.copyAt slot' = some c' →
    c'.handle = c.handle → slot' = slot

variable {t t' : Table} {m : Memory} {d d' : HostDevice} {slot : String}

/-- No copies are held at the start. -/
theorem held_empty (d : HostDevice) : Held {} d where
  live _ _ hc := nomatch hc
  apart _ _ _ _ hc := nomatch hc

/-- The copy of a bound slot. -/
theorem copyAt_of_get? {b : BufferBinding} (h : t.buffers.get? slot = some b) :
    t.copyAt slot = b.copy := by
  rw [copyAt, h, Option.bind_some]

/-- The copies after a slot was replaced. -/
theorem copyAt_put (t : Table) (slot other : String) (b : BufferBinding) :
    copyAt { t with buffers := t.buffers.put slot b } other = if other = slot then
      b.copy else t.copyAt other := by
  rw [copyAt, copyAt, Keyed.get?_put_string]
  split <;> rfl

/-- A slot is bound to another array as its own binding says. -/
theorem get?_bindBuffer {b : BufferBinding} (h : t.buffers.get? slot = some b) (r : BufferRef) :
    (t.bindBuffer slot r).buffers.get? slot = some (b.rebind r) := by
  rw [bindBuffer, h]
  exact (Keyed.get?_put_string _ _ _ _).trans (if_pos rfl)

/-- Binding keeps the copies. -/
theorem copyAt_bindBuffer (t : Table) (slot : String) (r : BufferRef) (other : String) :
    (t.bindBuffer slot r).copyAt other = if other = slot then
      t.copyAt slot else t.copyAt other := by
  rw [bindBuffer, copyAt_put]
  split
  next =>
    cases hslot : t.buffers.get? slot with
    | none => rw [copyAt, hslot]; rfl
    | some b => rw [copyAt_of_get? hslot]; rfl
  next => rfl

namespace Held

/-- What one slot does leaves all copies held. -/
theorem change (h : t.Held d) {new : Option DeviceCopy}
    (hslot : ∀ other, t'.copyAt other = if other = slot then new else t.copyAt other)
    (hissued : d.issued ≤ d'.issued) (hnew : Live new d')
    (hothers : ∀ handle : BufferHandle, handle.id ≤ d.issued →
    (∀ c, t.copyAt slot = some c → c.handle ≠ handle) →
      d'.buffers.get? handle.id = d.buffers.get? handle.id ∧
      ∀ c, new = some c → c.handle ≠ handle) :
    t'.Held d' := by
  -- The copy of another slot is none of ours, before and after.
  have hother : ∀ {other c}, other ≠ slot → t.copyAt other = some c →
      d'.buffers.get? c.handle.id = d.buffers.get? c.handle.id ∧ ∀ c', new = some c' → c'.handle ≠
          c.handle := by
    intro other c hne hc
    refine hothers c.handle (h.live other c hc).1 fun c' hc' heq => hne ?_
    exact (h.apart other slot c c' hc hc' heq).symm
  constructor
  · intro other c hc
    rw [hslot] at hc
    split at hc
    next => exact hnew c hc
    next hne =>
      obtain ⟨hle, block, hblock⟩ := h.live other c hc
      exact ⟨hle.trans hissued, block, (hother hne hc).1.trans hblock⟩
  · intro other other' c c' hc hc' heq
    rw [hslot] at hc hc'
    split at hc
    next hown =>
      split at hc'
      next hown' => rw [hown, hown']
      next hne' => exact absurd heq.symm ((hother hne' hc').2 c hc)
    next hne =>
      split at hc'
      next hown' => exact absurd heq ((hother hne hc).2 c' hc')
      next => exact h.apart other other' c c' hc hc' heq

/-- So it keeps them held. -/
theorem bindBuffer (h : t.Held d) (slot : String) (r : BufferRef) : (t.bindBuffer slot r).Held d :=
  h.change (copyAt_bindBuffer t slot r) le_rfl (h.live slot) fun _ _ hne => ⟨rfl, hne⟩

end Held

/-- The copies are held, on a device in host memory. -/
def Tidy (s : Table × Machine) : Prop := ∃ t m d, s = (t, ⟨m, .host d⟩) ∧ t.Held d

/-- An action that is a transfer keeps the copies held. -/
theorem tidy_onSlot {α : Type} {a : Action (BufferBinding × Machine) α} (h : t.Held d)
    (ha : ∀ b, Transferred b m d (a (b, ⟨m, .host d⟩)).state) :
    Tidy (onSlot (t, ⟨m, .host d⟩) slot a) := by
  unfold onSlot
  split
  next b hb =>
    obtain ⟨b', m', d', hstate, htransfer⟩ := ha b
    rw [hstate]
    refine ⟨_, m', d', rfl, h.change (copyAt_put t slot · b') htransfer.moves.issued_le ?_ ?_⟩
    · exact htransfer.live (copyAt_of_get? hb ▸ h.live slot)
    · intro handle hle hne
      exact htransfer.others hle (copyAt_of_get? hb ▸ hne)
  next => exact ⟨t, m, d, rfl, h⟩

/-- A kernel writes to the copy that belongs to the slot. -/
theorem transferred_kernelWrite (b : BufferBinding) (m : Memory) (d : HostDevice) (bytes : Bytes) :
    Transferred b m d (BufferBinding.kernelWrite bytes (b, ⟨m, .host d⟩)).state := by
  cases hc : b.copy with
  | none =>
    simp only [BufferBinding.kernelWrite, hc]
    exact transferred_self b m d
  | some c =>
    simp only [BufferBinding.kernelWrite, hc, HostDevice.writeBuffer]
    cases hblock : d.buffers.get? c.handle.id with
    | none => exact transferred_self b m d
    | some block =>
      dsimp only
      split_ifs with hsize
      · have hwrite := Transfer.write (m := m) hc hblock hsize.symm
        exact ⟨b, m, _, rfl, hwrite.trans (.of_memory rfl rfl (fun _ => rfl) rfl)⟩
      · exact transferred_self b m d

/-- **The step.** Whatever is done, the copies of slots are held. -/
theorem tidy_take {s : Table × Machine} (hs : Tidy s) (step : SlotStep) : Tidy (take s step) := by
  obtain ⟨t, m, d, rfl, h⟩ := hs
  cases step with
  | make host => exact ⟨t, _, d, rfl, h⟩
  | write r i value =>
    rw [take]
    cases (m.buffer r).set i value with
    | ok host => exact ⟨t, _, d, rfl, h⟩
    | error e => exact ⟨t, m, d, rfl, h⟩
  | bind slot r => exact ⟨_, m, d, rfl, h.bindBuffer slot r⟩
  | markDirty slot => exact tidy_onSlot h fun b => ⟨_, m, d, rfl, .of_binding rfl rfl⟩
  | toDevice slot => exact tidy_onSlot h fun b => transferred_toDevice b m d
  | toHost slot => exact tidy_onSlot h fun b => transferred_toHost b m d
  | release slot => exact tidy_onSlot h fun b => transferred_release b m d
  | kernel slot bytes => exact tidy_onSlot h fun b => transferred_kernelWrite b m d bytes

/-- **The run.** They are held after all steps. -/
theorem tidy_run {s : Table × Machine} (hs : Tidy s) (steps : List SlotStep) : Tidy (run steps s) :=
  List.foldlRecOn steps take hs fun _ hs step _ => tidy_take hs step

end Table

/-- **When an array can take the place of another.** Whatever was done with the slots of a table and
one device in host memory, in any order and whether it succeeded or not: an array that takes the
place of the one in a slot, of any length and any type, is sent by the next transfer, its bytes
arrive, and a transfer back leaves it as it was, exactly unless the slot has a copy with as many
elements but another number of bytes. In that case neither transfer succeeds or changes anything, so
that the slot stays as it is. Binding through the table replaces the array in the same way. -/
theorem replaced_usable_iff (m : Memory) (d : HostDevice) (steps : List SlotStep) :
    ∃ t m' d', Table.run steps ({}, ⟨m, .host d⟩) = (t, ⟨m', .host d'⟩) ∧
      ∀ slot b, t.buffers.get? slot = some b → ∀ r,
        (t.bindBuffer slot r).buffers.get? slot = some (b.rebind r) ∧
        ((b.rebind r).Usable m' d' ↔ ¬ (b.rebind r).Misfit m' d') ∧
        ((b.rebind r).Misfit m' d' → (b.rebind r).Stuck m' d') := by
  obtain ⟨t, m', d', hrun, h⟩ := Table.tidy_run ⟨_, m, d, rfl, Table.held_empty d⟩ steps
  refine ⟨t, m', d', hrun, fun slot b hb r => ?_⟩
  have hlive : Live (b.rebind r).copy d' := Table.copyAt_of_get? hb ▸ h.live slot
  have hstuck : (b.rebind r).Misfit m' d' → (b.rebind r).Stuck m' d' := stuck_of_misfit rfl
  refine ⟨Table.get?_bindBuffer hb r, ⟨fun husable hmisfit => ?_, fun hfit => ?_⟩, hstuck⟩
  · exact (hstuck hmisfit).not_usable husable
  · exact usable_of_ready rfl (ready_of_not_misfit hlive hfit)

namespace Shelf

/-- Two points of two numbers each. -/
def points : Buffer := ⟨.uint2, 2, #[1, 2, 3, 4], by decide, by decide⟩

/-- Two numbers are sent, and two other arrays are made. -/
def steps : List SlotStep :=
  [.make Tray.pair, .bind "cells" ⟨0⟩, .toDevice "cells", .make Tray.triple, .make points]

/-- What these steps leave. -/
def state : Table × Machine := Table.run steps ({}, ⟨{}, .host (.ofEntries ["Fill"])⟩)

/-- What is bound to the slot. -/
def cells : BufferBinding := { buffer := ⟨0⟩, copy := some ⟨⟨1⟩, 2⟩, dirty := false }

/-- The slot is bound. -/
theorem get?_state : state.1.buffers.get? "cells" = some cells := by decide +kernel

end Shelf

/-- Three numbers take the place of two. -/
theorem longer_array_usable :
    ∃ t m d, Shelf.state = (t, ⟨m, .host d⟩) ∧ (m.buffer ⟨1⟩).length = 3 ∧
    (Shelf.cells.rebind ⟨1⟩).Usable m d := by
  obtain ⟨t, m, d, hrun, h⟩ := replaced_usable_iff {} (.ofEntries ["Fill"]) Shelf.steps
  have hcells : t.buffers.get? "cells" = some Shelf.cells := by
    have := Shelf.get?_state
    rwa [Shelf.state, hrun] at this
  have hlength : (m.buffer ⟨1⟩).length = 3 := by
    have : (Shelf.state.2.memory.buffer ⟨1⟩).length = 3 := by decide +kernel
    rwa [Shelf.state, hrun] at this
  refine ⟨t, m, d, hrun, hlength, (h "cells" Shelf.cells hcells ⟨1⟩).2.1.2 ?_⟩
  rintro ⟨c, block, hc, hcount, -⟩
  cases hc
  rw [show (Shelf.cells.rebind ⟨1⟩).buffer = ⟨1⟩ from rfl, hlength] at hcount
  cases hcount

/-- Two points take the place of two numbers. The copy is kept, and has only half the bytes. -/
theorem wider_array_refused :
    Shelf.state.1.buffers.get? "cells" = some Shelf.cells ∧
      (BufferBinding.toDevice (Shelf.cells.rebind ⟨2⟩, Shelf.state.2)).result =
        .error (.device ⟨.host, .upload, .uploadSize 8 16⟩) :=
  ⟨Shelf.get?_state, by decide +kernel⟩

end ComputeKernel
