import Mathlib.Data.List.Nodup
import Mathlib.Data.List.Pairwise
import ComputeKernel.Proofs.Buffer.Bytes
import ComputeKernel.Proofs.Dispatch.Release
import ComputeKernel.Proofs.Sample.Workbench

/-!
# The device copies of a dispatcher

The slots of a dispatcher are the users of the device's store of buffers: a slot holds the copy that
was made for the buffer bound to it, and takes it to have the bytes of the elements that it was made
for. `copies` lists what all slots of all entry points hold. A step of a dispatcher is a step of at
most one of these users (`Bench.Step.shift`), so along every walk the store holds exactly what the
slots hold (`Bench.Walk.accounted`). That a slot accepts the elements of its buffer
(`Table.WellBound`) is part of the invariant: a slot that is bound to another buffer keeps the copy
of the one before.
-/

namespace ComputeKernel

open List
open Dispatcher BufferBinding BenchOp

variable {K : Type}

/-- The bytes in an element of a slot. -/
def Layout.stride (l : Layout K) (slot : String) : Nat :=
  match l.capability? slot with
  | some (.buffer element) => element.stride
  | _ => 0

/-! ## Tables -/

namespace Table

/-- What the bound buffers of a table hold on the device. -/
def copies (stride : String → Nat) (t : Table) : List (Nat × Nat) :=
  t.buffers.flatMap fun p => (p.2.own (stride p.1)).toList

/-- Slots stand in order, each with a buffer that it accepts. -/
structure WellBound (l : Layout K) (m : Memory) (t : Table) : Prop where
  ordered : t.buffers.Ordered
  present : ∀ p ∈ t.buffers, p.2.buffer.index < m.buffers.size
  accepted : ∀ p ∈ t.buffers, l.capability? p.1 = some (.buffer (m.buffer p.2.buffer).element)

namespace WellBound

variable {l : Layout K} {m : Memory} {t : Table}

/-- An empty table is well bound. -/
theorem empty (l : Layout K) (m : Memory) : WellBound l m {} :=
  ⟨List.Pairwise.nil, fun _ hp => (nomatch hp), fun _ hp => (nomatch hp)⟩

/-- Which buffers are bound where, and their types, matter. -/
theorem congr (h : t.WellBound l m) {m' : Memory} {t' : Table}
    (hcount : m.buffers.size ≤ m'.buffers.size) (hm : ∀ r, r.index < m.buffers.size →
    (m'.buffer r).element = (m.buffer r).element)
    (ht : t'.buffers.map (fun p => (p.1, p.2.buffer)) = t.buffers.map fun p => (p.1, p.2.buffer)) :
    t'.WellBound l m' := by
  have hmem : ∀ p ∈ t'.buffers, ∃ q ∈ t.buffers, q.1 = p.1 ∧ q.2.buffer = p.2.buffer := by
    intro p hp
    have hmem := mem_map_of_mem (f := fun p : String × BufferBinding => (p.1, p.2.buffer)) hp
    rw [ht] at hmem
    obtain ⟨q, hq, heq⟩ := mem_map.1 hmem
    exact ⟨q, hq, Prod.mk.inj heq⟩
  refine ⟨?_, fun p hp => ?_, fun p hp => ?_⟩
  · have hkeys : t'.buffers.map Prod.fst = t.buffers.map Prod.fst := by
      simpa [Function.comp_def] using congrArg (map Prod.fst) ht
    have hordered := pairwise_map.2 h.ordered
    exact pairwise_map.1 (hkeys ▸ hordered)
  · obtain ⟨q, hq, -, hbuffer⟩ := hmem p hp
    exact hbuffer ▸ (h.present q hq).trans_le hcount
  · obtain ⟨q, hq, hslot, hbuffer⟩ := hmem p hp
    rw [← hslot, ← hbuffer, hm _ (h.present q hq)]
    exact h.accepted q hq

/-- A buffer may be bound to a slot that accepts its elements. -/
theorem bindBuffer (h : t.WellBound l m) {slot : String} {r : BufferRef}
    (hr : r.index < m.buffers.size)
    (haccepts : l.capability? slot = some (.buffer (m.buffer r).element)) :
    (t.bindBuffer slot r).WellBound l m where
  ordered := h.ordered.put slot _
  present p hp := by
    rcases Keyed.mem_put hp with rfl | hp
    · cases t.buffers.get? slot with
      | none => exact hr
      | some b => exact hr
    · exact h.present p hp
  accepted p hp := by
    rcases Keyed.mem_put hp with rfl | hp
    · rw [haccepts]
      cases t.buffers.get? slot with
      | none => rfl
      | some b => rfl
    · exact h.accepted p hp

/-- The elements of a slot are as large as those of its buffer. -/
theorem stride_eq (h : t.WellBound l m) {p : String × BufferBinding} (hp : p ∈ t.buffers) :
    l.stride p.1 = (m.buffer p.2.buffer).stride := by
  rw [Layout.stride, h.accepted p hp]
  rfl

end WellBound

variable {stride : String → Nat}

/-- Marking makes no copies. -/
theorem copies_markDirty (t : Table) : t.markDirty.copies stride = t.copies stride := by
  simp only [copies, markDirty, flatMap_map]
  rfl

/-- A slot may have another binding with the same copy. -/
theorem copies_put {buffers : Keyed String BufferBinding} (h : buffers.Ordered) {slot : String}
    {b : BufferBinding} (hcopy : b.copy = (buffers.get? slot).bind (·.copy))
    (textures : Keyed String TextureRef) :
    ({ buffers := buffers.put slot b, textures } : Table).copies stride
      = ({ buffers, textures } : Table).copies stride := by
  simp only [copies]
  rcases h.put_eq slot b with ⟨before, old, after, heq, hput⟩ | ⟨before, after, heq, hnone, hput⟩
  · have hold : buffers.get? slot = some old := h.mem_iff.1 (by rw [heq]; simp)
    rw [hold] at hcopy
    have hown : b.own (stride slot) = old.own (stride slot) := by
      rw [own, hcopy]
      rfl
    rw [hput, heq, flatMap_append, flatMap_append, flatMap_cons, flatMap_cons, hown]
  · rw [hnone] at hcopy
    have hown : b.own (stride slot) = none := by
      rw [own, hcopy]
      rfl
    rw [hput, heq, flatMap_append, flatMap_append, flatMap_cons, hown]
    rfl

/-- Binding makes no copy, and a slot keeps its own. -/
theorem copies_bindBuffer {t : Table} (ht : t.buffers.Ordered) (slot : String) (r : BufferRef) :
    (t.bindBuffer slot r).copies stride = t.copies stride := by
  refine copies_put ht ?_ t.textures
  cases t.buffers.get? slot with
  | none => rfl
  | some b => rfl

/-- The copy of one binding, apart from those of the others. -/
theorem copies_perm (before after : List (String × BufferBinding)) (slot : String)
    (b : BufferBinding) (t : Table) :
    (({ t with buffers := before ++ (slot, b) :: after } : Table).copies stride).Perm
      ((b.own (stride slot)).toList ++
        ({ t with buffers := before ++ after } : Table).copies stride) := by
  simp only [copies, flatMap_append, flatMap_cons]
  exact perm_append_comm_assoc _ _ _

end Table

/-! ## Dispatchers -/

namespace Dispatcher

/-- What the bound buffers of all tables hold on the device. -/
def copies (d : Dispatcher K) : List (Nat × Nat) := d.tables.flatMap (Table.copies d.layout.stride)

variable {d : Dispatcher K} {entry : Nat}

/-- The copies of one table, apart from those of the others. -/
theorem copies_setTable_perm (h : entry < d.tables.length) :
    ∃ rest, ∀ t, (d.setTable entry t).copies.Perm (t.copies d.layout.stride ++ rest) := by
  refine ⟨(d.tables.take entry ++ d.tables.drop (entry + 1)).flatMap (Table.copies d.layout.stride),
    fun t => ?_⟩
  show ((d.tables.set entry t).flatMap _).Perm _
  rw [set_eq_take_append_cons_drop, if_pos h, flatMap_append, flatMap_cons, flatMap_append]
  exact perm_append_comm_assoc _ _ _

/-- A table with the same copies may take the place of another. -/
theorem copies_setTable_of_eq {t : Table}
    (ht : t.copies d.layout.stride = (d.table entry).copies d.layout.stride) :
    (d.setTable entry t).copies.Perm d.copies := by
  by_cases h : entry < d.tables.length
  · obtain ⟨rest, hrest⟩ := copies_setTable_perm h
    have hself := hrest (d.table entry)
    rw [setTable_table, ← ht] at hself
    exact (hrest t).trans hself.symm
  · rw [setTable, set_eq_of_length_le (Nat.le_of_not_lt h)]

/-- A table that was set is found, and others stay. -/
theorem table_setTable_cases (d : Dispatcher K) (entry : Nat) (t : Table) (entry' : Nat) :
    entry' = entry ∧ (d.setTable entry t).table entry' = t ∨ (d.setTable entry t).table entry' =
      d.table entry' := by
  by_cases he : entry' = entry
  · subst he
    by_cases h : entry' < d.tables.length
    · exact .inl ⟨rfl, table_setTable_self h t⟩
    · exact .inr (by rw [setTable, set_eq_of_length_le (Nat.le_of_not_lt h)])
  · exact .inr (by rw [table, setTable, getElem?_set_ne (Ne.symm he)]; rfl)

end Dispatcher

/-! ## Steps -/

namespace Bench

variable {s s' : Bench K}

/-- Every table is well bound. -/
def WellBound (s : Bench K) : Prop :=
  ∀ entry, (s.dispatcher.table entry).WellBound s.dispatcher.layout s.memory

/-- Tables stay well bound. -/
theorem Step.wellBound (h : Step s s') (hs : s.WellBound) : s'.WellBound := by
  intro entry'
  cases h with
  | aside kernel last _ _ hm => exact (hs entry').congr hm.buffers hm.elements rfl
  | exchange => exact (hs entry').congr le_rfl (fun _ _ => rfl) rfl
  | bindBuffer entry hr haccepts =>
    rcases s.dispatcher.table_setTable_cases entry _ entry' with ⟨-, heq⟩ | heq
    · exact heq.symm ▸ (hs entry).bindBuffer hr haccepts
    · exact heq.symm ▸ hs entry'
  | bindTexture entry slot _ =>
    rcases s.dispatcher.table_setTable_cases entry _ entry' with ⟨-, heq⟩ | heq
    · exact heq.symm ▸ (hs entry).congr le_rfl (fun _ _ => rfl) rfl
    · exact heq.symm ▸ hs entry'
  | markDirty entry =>
    rcases s.dispatcher.table_setTable_cases entry _ entry' with ⟨-, heq⟩ | heq
    · refine heq.symm ▸ (hs entry).congr le_rfl (fun _ _ => rfl) ?_
      simp [Table.markDirty, BufferBinding.markDirty]
    · exact heq.symm ▸ hs entry'
  | @transfer d d' m' entry slot b b' before after _ hbuffers htransfer =>
    have hcount := htransfer.count.ge
    rcases s.dispatcher.table_setTable_cases entry _ entry' with ⟨-, heq⟩ | heq
    · refine heq.symm ▸ (hs entry).congr hcount (fun r _ => htransfer.elements r) ?_
      simp [hbuffers, htransfer.buffer]
    · exact heq.symm ▸ (hs entry').congr hcount (fun r _ => htransfer.elements r) rfl

/-- **A step is a shift.** It moves one bound buffer at most. -/
theorem Step.shift (h : Step s s') (hs : s.WellBound) {d : HostDevice}
    (hd : s.device = some (.host d)) :
    ∃ d', s'.device = some (.host d') ∧
    Account.Shift MemoryBlock.size d.issued d.buffers s.dispatcher.copies
      d'.issued d'.buffers s'.dispatcher.copies := by
  cases h with
  | @aside _ d' _ kernel last hdevice hquiet _ =>
    cases hd.symm.trans hdevice
    exact ⟨d', rfl, .idle hquiet.issued.ge hquiet.buffers (.refl _)⟩
  | @exchange _ d' entry slot r t' hdevice _ hexchange =>
    cases hd.symm.trans hdevice
    exact ⟨d', rfl, .idle hexchange.moves.issued_le hexchange.buffers (.refl _)⟩
  | bindBuffer entry _ haccepts =>
    exact ⟨d, hd, .idle le_rfl rfl
      (copies_setTable_of_eq (Table.copies_bindBuffer (hs entry).ordered _ _))⟩
  | bindTexture entry slot _ => exact ⟨d, hd, .idle le_rfl rfl (copies_setTable_of_eq rfl)⟩
  | markDirty entry =>
    exact ⟨d, hd, .idle le_rfl rfl (copies_setTable_of_eq (Table.copies_markDirty _))⟩
  | @transfer _ d' m' entry slot b b' before after hdevice hbuffers htransfer =>
    cases hd.symm.trans hdevice
    have hentry : entry < s.dispatcher.tables.length := by
      refine Nat.lt_of_not_le fun hle => ?_
      rw [table_of_le hle] at hbuffers
      simp at hbuffers
    have hmem : (slot, b) ∈ (s.dispatcher.table entry).buffers := by simp [hbuffers]
    have hstride := (hs entry).stride_eq hmem
    obtain ⟨rest, hrest⟩ := copies_setTable_perm hentry
    have hcopies : ∀ b, (s.dispatcher.setTable entry
        { s.dispatcher.table entry with buffers := before ++ (slot, b) :: after }).copies.Perm
        ((b.own (s.dispatcher.layout.stride slot)).toList ++
          (({ s.dispatcher.table entry with buffers := before ++ after } : Table).copies
            s.dispatcher.layout.stride ++ rest)) := by
      intro b
      rw [← append_assoc]
      exact (hrest _).trans ((Table.copies_perm before after slot b _).append_right rest)
    have hself := hcopies b
    rw [← hbuffers, setTable_table] at hself
    refine ⟨d', rfl, _, _, _, hself, hcopies b', ?_⟩
    rw [hstride]
    exact htransfer.moves

/-! ## Runs -/

/-- The tables are well bound, and the device has their copies. -/
structure Accounted (s : Bench K) : Prop where
  wellBound : s.WellBound
  balanced : ∃ d, s.device = some (.host d) ∧
    Balanced MemoryBlock.size d.issued d.buffers s.dispatcher.copies

/-- A step keeps the account. -/
theorem Step.accounted (h : Step s s') (hs : s.Accounted) : s'.Accounted := by
  obtain ⟨d, hd, hbalanced⟩ := hs.balanced
  obtain ⟨d', hd', hshift⟩ := h.shift hs.wellBound hd
  exact ⟨h.wellBound hs.wellBound, d', hd', hshift.balanced hbalanced⟩

/-- So does a walk. -/
theorem Walk.accounted (h : Walk s s') (hs : s.Accounted) : s'.Accounted := by
  induction h with
  | refl => exact hs
  | tail _ hstep ih => exact hstep.accounted ih

end Bench

/-! ## Copies and buffers -/

namespace Dispatcher

/-- The device copy of the buffer that is bound to a slot. -/
def copy? (d : Dispatcher K) (entry : Nat) (slot : String) : Option DeviceCopy :=
  ((d.table entry).buffers.get? slot).bind (·.copy)

/-- The copies of a dispatcher are the buffers of a device. -/
structure Accounts (d : Dispatcher K) (host : HostDevice) : Prop where
  /-- No two slots share a copy. -/
  apart : ∀ entry slot c entry' slot' c', d.copy? entry slot = some c →
    d.copy? entry' slot' = some c' → c.handle = c'.handle → entry = entry' ∧ slot = slot'
  /-- A copy is a buffer of the device, and has room for the elements that it was made for and no
  more. -/
  live : ∀ entry slot c, d.copy? entry slot = some c → ∃ element block,
    d.layout.capability? slot = some (.buffer element) ∧ host.buffers.get? c.handle.id =
      some block ∧
    block.size = c.count * element.stride
  /-- Every buffer of the device is a copy. -/
  held : ∀ k block, host.buffers.get? k = some block → ∃ entry slot c, d.copy? entry slot = some c ∧
    c.handle.id = k

variable {d : Dispatcher K} {entry : Nat} {slot : String} {c : DeviceCopy}

/-- A slot that has a copy has a place among the tables. -/
theorem mem_of_copy? (h : d.copy? entry slot = some c)
    (hordered : (d.table entry).buffers.Ordered) :
    ∃ b, d.tables[entry]? = some (d.table entry) ∧ (slot, b) ∈ (d.table entry).buffers ∧
    b.copy = some c := by
  obtain ⟨b, hb, hcopy⟩ := Option.bind_eq_some_iff.1 h
  refine ⟨b, ?_, hordered.mem_iff.2 hb, hcopy⟩
  rw [table] at hb ⊢
  cases htable : d.tables[entry]? with
  | some t => rfl
  | none =>
    rw [htable] at hb
    cases hb

/-- A copy is one of its table. -/
theorem mem_ids {t : Table} {b : BufferBinding} (hb : (slot, b) ∈ t.buffers)
    (hcopy : b.copy = some c) (stride : String → Nat) :
    (c.handle.id, c.count * stride slot) ∈ t.copies stride := by
  refine mem_flatMap.2 ⟨(slot, b), hb, ?_⟩
  simp [own, hcopy]

/-- And one of its dispatcher. -/
theorem mem_copies (h : d.copy? entry slot = some c) (hordered : (d.table entry).buffers.Ordered) :
    (c.handle.id, c.count * d.layout.stride slot) ∈ d.copies := by
  obtain ⟨b, htable, hb, hcopy⟩ := mem_of_copy? h hordered
  exact mem_flatMap.2 ⟨_, mem_of_getElem? htable, mem_ids hb hcopy _⟩

/-- Every copy belongs to a slot. -/
theorem copy?_of_mem_copies {k size : Nat} (h : (k, size) ∈ d.copies)
    (hordered : ∀ entry, (d.table entry).buffers.Ordered) :
    ∃ entry slot c, d.copy? entry slot = some c ∧ c.handle.id = k := by
  obtain ⟨t, ht, hmem⟩ := mem_flatMap.1 h
  obtain ⟨⟨slot, b⟩, hb, hown⟩ := mem_flatMap.1 hmem
  obtain ⟨entry, hentry⟩ := mem_iff_getElem?.1 ht
  obtain ⟨c, hcopy, heq⟩ := Option.map_eq_some_iff.1 (Option.mem_toList.1 hown)
  have htable : d.table entry = t := by rw [table, hentry, Option.getD_some]
  refine ⟨entry, slot, c, ?_, congrArg Prod.fst heq⟩
  rw [copy?, (hordered entry).mem_iff.1 (htable ▸ hb)]
  exact hcopy

/-- Copies that are numbered apart belong to one slot each. -/
theorem slot_of_copy {entry' : Nat} {slot' : String} {c' : DeviceCopy}
    (hnodup : (d.copies.map Prod.fst).Nodup) (hordered : ∀ entry, (d.table entry).buffers.Ordered)
    (h : d.copy? entry slot = some c) (h' : d.copy? entry' slot' = some c')
    (hsame : c.handle = c'.handle) : entry = entry' ∧ slot = slot' := by
  rw [copies, map_flatMap, nodup_flatMap] at hnodup
  obtain ⟨hown, hothers⟩ := hnodup
  obtain ⟨b, htable, hb, hcopy⟩ := mem_of_copy? h (hordered entry)
  obtain ⟨b', htable', hb', hcopy'⟩ := mem_of_copy? h' (hordered entry')
  have hid := mem_map_of_mem (f := Prod.fst) (mem_ids hb hcopy d.layout.stride)
  have hid' := mem_map_of_mem (f := Prod.fst) (mem_ids hb' hcopy' d.layout.stride)
  rw [← hsame] at hid'
  -- Slots of different entry points stand in different tables.
  obtain rfl : entry = entry' := by
    obtain ⟨hlt, heq⟩ := List.getElem?_eq_some_iff.1 htable
    obtain ⟨hlt', heq'⟩ := List.getElem?_eq_some_iff.1 htable'
    rw [pairwise_iff_getElem] at hothers
    rcases Nat.lt_trichotomy entry entry' with hbefore | heq | hafter
    · exact absurd hid' (hothers entry entry' hlt hlt' hbefore (heq.symm ▸ hid) <| heq'.symm ▸ ·)
    · exact heq
    · exact absurd hid (hothers entry' entry hlt' hlt hafter (heq'.symm ▸ hid') <| heq.symm ▸ ·)
  refine ⟨rfl, ?_⟩
  have hslots := hown _ (mem_of_getElem? htable)
  rw [Table.copies, map_flatMap, nodup_flatMap] at hslots
  have hsymm : Std.Symm (Function.onFun List.Disjoint fun p : String × BufferBinding =>
      (p.2.own (d.layout.stride p.1)).toList.map Prod.fst) := ⟨fun _ _ h _ ha hb => h hb ha⟩
  by_contra hne
  have hdisjoint := hslots.2.forall hb hb' fun heq => hne (congrArg Prod.fst heq)
  refine hdisjoint (a := c.handle.id) ?_ ?_
  · simp [own, hcopy]
  · simp [own, hcopy', hsame]

end Dispatcher

/-- What the device holds is what the slots hold. -/
theorem Bench.Accounted.accounts {s : Bench K} (hs : s.Accounted) :
    ∃ d, s.device = some (.host d) ∧ s.dispatcher.Accounts d := by
  obtain ⟨d, hd, hbalanced⟩ := hs.balanced
  have hordered := fun entry => (hs.wellBound entry).ordered
  refine ⟨d, hd, fun entry slot c entry' slot' c' h h' hsame => ?_, fun entry slot c h => ?_,
    fun k block hget => ?_⟩
  · exact slot_of_copy hbalanced.nodup hordered h h' hsame
  · obtain ⟨block, hget, hsize⟩ := hbalanced.get?_of_mem (mem_copies h (hordered entry))
    obtain ⟨b, -, hb, -⟩ := mem_of_copy? h (hordered entry)
    have haccepted := (hs.wellBound entry).accepted _ hb
    refine ⟨_, block, haccepted, hget, ?_⟩
    rw [hsize, (hs.wellBound entry).stride_eq hb]
    rfl
  · exact copy?_of_mem_copies (hbalanced.mem_of_get? hget) hordered

/-! ## From the start to the end -/

namespace Dispatcher

/-- Each entry point has a table, and nothing is bound yet. -/
def Unbound (d : Dispatcher K) : Prop := d.tables = d.layout.entries.map fun _ => {}

/-- A dispatcher is made with nothing bound. -/
theorem unbound_of_ofKernel? {kernel : K} {entries : List (EntryDecl K)} {slots : List (Slot K)}
    {d : Dispatcher K} {events : List Event}
    (h : ofKernel? kernel entries slots = .ok (d, events)) : d.Unbound := by
  rw [ofKernel?] at h
  cases hlayout : Layout.of? entries slots with
  | error e =>
    rw [hlayout] at h
    cases h
  | ok layout =>
    rw [hlayout] at h
    cases h
    rfl

variable {d : Dispatcher K}

/-- Its tables are empty. -/
theorem Unbound.table (h : d.Unbound) (entry : Nat) : d.table entry = {} := by
  rw [Dispatcher.table, h, getElem?_map]
  cases d.layout.entries[entry]? with
  | none => rfl
  | some point => rfl

/-- A new dispatcher is ready on a device in host memory. -/
theorem Unbound.ready (h : d.Unbound) (hbodies : d.layout.Preserves) (m : Memory)
    (host : HostDevice) :
    (d.on ⟨m, .host host⟩).Ready := by
  refine ⟨⟨host, rfl⟩, ?_, hbodies⟩
  show d.tables.length = d.layout.entries.length
  rw [h, length_map]

/-- It has no copies. -/
theorem Unbound.copies_eq_nil (h : d.Unbound) : d.copies = [] := by
  rw [copies, h, flatMap_map]
  simp [Table.copies]

/-- It is well bound. -/
theorem Unbound.wellBound (h : d.Unbound) (m : Machine) : (d.on m).WellBound := by
  intro entry
  show (d.table entry).WellBound d.layout m.memory
  rw [h.table]
  exact .empty d.layout m.memory

/-- A new dispatcher and a new device hold nothing. -/
theorem Unbound.accounted (h : d.Unbound) (m : Memory) (names : List String) :
    (d.on ⟨m, .host (.ofEntries names)⟩).Accounted where
  wellBound := h.wellBound _
  balanced := by
    refine ⟨_, rfl, List.Pairwise.nil, fun _ hp => (nomatch hp), ?_⟩
    show d.copies.Perm []
    rw [h.copies_eq_nil]

end Dispatcher

/-- A dispatcher whose tables were all cleared holds nothing. -/
theorem Dispatcher.copies_eq_nil {d : Dispatcher K}
    (h : ∀ entry, ∃ t : Table, d.table entry = t.cleared) :
    d.copies = [] := by
  refine flatMap_eq_nil_iff.2 fun t ht => ?_
  obtain ⟨entry, hentry⟩ := mem_iff_getElem?.1 ht
  obtain ⟨t', heq⟩ := h entry
  rw [table, hentry, Option.getD_some] at heq
  rw [heq, Table.copies, Table.cleared, flatMap_map]
  simp [own, cleared]

/-- **Device buffers are accounted for.** A dispatcher with nothing bound is given a new device that
nobody else uses. Whatever is done with it, the buffers of the device are the copies that slots
hold: no two slots share one, each has the bytes of the elements that it was made for, and no other
buffer is there. Once the dispatcher is disposed of, the device has no buffer. -/
theorem device_buffers_accounted {dispatcher : Dispatcher K} (hnew : dispatcher.Unbound)
    (hbodies : dispatcher.layout.Preserves) (names : List String) (m : Memory) (ops : List BenchOp)
    (hops : LawfulAll ops (dispatcher.on ⟨m, .host (.ofEntries names)⟩)) :
    let s := runAll ops (dispatcher.on ⟨m, .host (.ofEntries names)⟩)
    (∃ d, s.device = some (.host d) ∧ s.dispatcher.Accounts d) ∧
      ∃ d, (Bench.dispose s).state.device = some (.host d) ∧ d.buffers = [] := by
  intro s
  have hready := hnew.ready hbodies m (.ofEntries names)
  have hwalk : Bench.Walk _ s := runAll_walks ops hready hops
  have haccounted : s.Accounted := hwalk.accounted (hnew.accounted m names)
  refine ⟨haccounted.accounts, ?_⟩
  have hdisposed := (Bench.walk_dispose (hwalk.ready hready)).accounted haccounted
  obtain ⟨d, hd, hbalanced⟩ := hdisposed.balanced
  obtain ⟨host, hhost, -⟩ := haccounted.balanced
  obtain ⟨-, -, -, htables, -, -⟩ := Bench.dispose_spec hhost
  rw [copies_eq_nil fun entry => ⟨_, htables entry⟩] at hbalanced
  exact ⟨d, hd, hbalanced.eq_nil⟩

namespace Mill

/-- Two buffers of numbers. -/
def memory : Memory :=
  { buffers := #[.ofNumbers #[1, 2] (by decide), .ofNumbers #[3, 4, 5] (by decide)] }

/-- Its entry points. -/
def entries : List (EntryDecl Workbench) :=
  [Workbench.entry "Double" ⟨2, 1, 1⟩ .double, Workbench.entry "Trace" ⟨2, 1, 1⟩ .trace]

/-- A workbench with two entry points that work on numbers. -/
def dispatcher : Dispatcher Workbench where
  kernel := {}
  layout :=
    { entries := Layout.numbered entries
      slots := [WorkbenchField.u0.slot "numbers"] }
  tables := [{}, {}]
  last := [none, none]

/-- It is given a new device. -/
def bench : Bench Workbench := dispatcher.on ⟨memory, .host (.ofEntries ["Double", "Trace"])⟩

/-- Nothing is bound yet. -/
theorem unbound : dispatcher.Unbound := by
  have hmade : Dispatcher.ofKernel? {} entries [WorkbenchField.u0.slot "numbers"]
      = .ok (dispatcher, [.kernelRegistered 2 1]) := rfl
  exact unbound_of_ofKernel? hmade

/-- The bodies keep surfaces. -/
theorem preserves : dispatcher.layout.Preserves := by
  intro point hpoint
  rcases mem_pair.1 hpoint with rfl | rfl
  · exact Workbench.Body.run_preserved .double
  · exact Workbench.Body.run_preserved .trace

/-- Numbers are sent for both, and others bound for one. -/
def ops : List BenchOp :=
  [.setBuffer 0 "numbers" ⟨0⟩, .hardware 0 ⟨1, 1, 1⟩, .setBuffer 1 "numbers" ⟨0⟩,
    .emulated 1 ⟨1, 1, 1⟩, .hardware 1 ⟨1, 1, 1⟩, .setBuffer 0 "numbers" ⟨1⟩, .hardware 0 ⟨1, 1, 1⟩,
    .download 0]

end Mill

/-- The numbers that were bound last take the place of the first on the device too. -/
theorem mill_buffers_accounted :
    let s := runAll Mill.ops Mill.bench
    (∃ d, s.device = some (.host d) ∧ s.dispatcher.Accounts d ∧
      d.buffers.map (fun p => (p.1, p.2.size)) = [(2, 8), (3, 12)]) ∧
      ∃ d, (Bench.dispose s).state.device = some (.host d) ∧ d.buffers = [] := by
  intro s
  have hops : LawfulAll Mill.ops Mill.bench := by
    simp only [Mill.ops, LawfulAll, Lawful]
    decide +kernel
  obtain ⟨⟨d, hd, haccounts⟩, hdisposed⟩ :=
    device_buffers_accounted Mill.unbound Mill.preserves ["Double", "Trace"]
    Mill.memory Mill.ops hops
  have hlive : s.host?.map (fun d => d.buffers.map fun p => (p.1, p.2.size)) =
      some [(2, 8), (3, 12)] := by
    decide +kernel
  have hd : s.device = some (.host d) := hd
  rw [Bench.host?, hd] at hlive
  exact ⟨⟨d, hd, haccounts, Option.some.inj hlive⟩, hdisposed⟩

end ComputeKernel
