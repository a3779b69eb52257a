import ComputeKernel.Proofs.Dispatch.Copies

/-!
# What the device sees after an emulated dispatch

An emulated dispatch changes buffers on the host, and marks the copies of its own entry point as
behind. The copies are kept for each slot of each entry point, but the buffer on the host may be
bound for several of them. So a dispatch on the device that comes next sees the host's elements in a
slot if the slot belongs to the entry point that was emulated, if its copy was behind anyhow, or if
the copy happens to hold the same bytes; and in no other case (`reupload_after_emulation`,
`shared_copy_stale`). The states are those of a dispatcher while others use the device and the
resources too (`Bench.Reachable`). That no two slots hold the same copy (`Bench.Kept`) lets one slot
be followed while the others are presented: `Waiting` before its turn and `Presented` after it.
-/

namespace ComputeKernel

open Dispatcher BenchOp ComputeKernel.Action Keyed

variable {K : Type}

/-! ## What is bound on the device -/

namespace HostDevice

/-- What is bound for an entry point of the device is found. -/
theorem bindings_setBindings (d : HostDevice) (entry : Nat) (b : HostBindings) (entry' : Nat) :
    (d.setBindings entry b).bindings entry' =
      if entry' = entry ∧ entry < d.bound.length then b else d.bindings entry' := by
  simp only [bindings, setBindings, List.getElem?_set]
  by_cases he : entry' = entry
  · subst he
    by_cases hlt : entry' < d.bound.length
    · simp [hlt]
    · simp [hlt]
  · simp [he, Ne.symm he]

/-- A slot keeps its buffer while others are bound. -/
theorem get?_setBindings (d : HostDevice) (entry : Nat) {b : HostBindings} {slot : String}
    (hb : b.buffers.get? slot = (d.bindings entry).buffers.get? slot) :
    ((d.setBindings entry b).bindings entry).buffers.get? slot =
      (d.bindings entry).buffers.get? slot := by
  rw [bindings_setBindings]
  split
  next => exact hb
  next => rfl

end HostDevice

namespace BufferBinding

variable {slot : String}

/-- The block of a copy once it was presented: the host's elements if it was behind, or what it
was. -/
def Leaves (b : BufferBinding) (m : Memory) (d : HostDevice) (block : MemoryBlock) : Prop :=
  b.Behind m ∧ block = .written (m.buffer b.buffer).bytes ∨
    ¬ b.Behind m ∧ ∃ c, b.copy = some c ∧ d.buffers.get? c.handle.id = some block

/-- What presenting a buffer does to the slot itself. -/
theorem present_spec (entry : Nat) (slot : String) (b : BufferBinding) (m : Memory) {d : HostDevice}
    (hd : d.bound.length = d.entries.length) :
    (present entry slot (b, ⟨m, .host d⟩)).Meets
      (fun _ s => ∃ b' d' c block, s = (b', ⟨m, .host d'⟩) ∧ b'.copy = some c ∧
        (d'.bindings entry).buffers.get? slot = some c.handle ∧ d'.buffers.get? c.handle.id =
          some block ∧
        b.Leaves m d block)
      fun _ => True := by
  refine meets_bind ((toDevice_spec b m d).mono_broken fun _ _ => trivial) ?_
  rintro h _ ⟨b', d', rfl, htransfer, hcopy, -, hcases⟩
  rcases d'.bindBuffer_cases entry slot h with ⟨hentry, hhas, heq⟩ | ⟨e, heq⟩
  · simp only [onDevice_apply, heq]
    obtain ⟨block, hblock⟩ := Option.isSome_iff_exists.1 hhas
    have hlt : entry < d'.bound.length := by
      rw [htransfer.entries.2, hd, ← htransfer.entries.1]; exact hentry
    refine ⟨b', _, _, block, rfl, hcopy, ?_, hblock, ?_⟩
    · rw [HostDevice.bindings_setBindings, if_pos ⟨rfl, hlt⟩, get?_put_string, if_pos rfl]
    · rcases hcases with ⟨hbehind, -, hget⟩ | ⟨hnot, rfl, rfl⟩
      · exact .inl ⟨hbehind, Option.some.inj (hblock.symm.trans hget)⟩
      · exact .inr ⟨hnot, _, hcopy, hblock⟩
  · simp only [onDevice_apply, heq]
    trivial

/-- Presenting a buffer leaves the other slots. -/
theorem present_others (entry : Nat) (b : BufferBinding) (m : Memory) (d : HostDevice)
    {slot' : String} (hne : slot' ≠ slot) :
    ∃ b' d', (present entry slot' (b, ⟨m, .host d⟩)).state = (b', ⟨m, .host d'⟩) ∧
      ∀ h, h.id ≤ d.issued → (∀ c, b.copy = some c → c.handle ≠ h) →
        d'.buffers.get? h.id = d.buffers.get? h.id ∧
        ((d.bindings entry).buffers.get? slot = some h →
          (d'.bindings entry).buffers.get? slot = some h) := by
  have hspec : (present entry slot' (b, ⟨m, .host d⟩)).Meets
      (fun _ s => ∃ b' d' d'', s = (b', ⟨m, .host d''⟩) ∧ b.Transfer m d b' m d' ∧
        d''.buffers = d'.buffers ∧
        (d''.bindings entry).buffers.get? slot = (d'.bindings entry).buffers.get? slot)
      (fun s => ∃ b' d' d'', s = (b', ⟨m, .host d''⟩) ∧ b.Transfer m d b' m d' ∧
        d''.buffers = d'.buffers ∧
        (d''.bindings entry).buffers.get? slot = (d'.bindings entry).buffers.get? slot) := by
    refine meets_bind (M := fun _ s => ∃ b' d', s = (b', Machine.mk m (.host d')) ∧
      b.Transfer m d b' m d')
      ((Outcome.Meets.of_state (toDevice_state b m d)).mono_broken ?_) ?_
    · rintro _ ⟨b', d', rfl, htransfer⟩
      exact ⟨b', d', d', rfl, htransfer, rfl, rfl⟩
    · rintro h _ ⟨b', d', rfl, htransfer⟩
      rcases d'.bindBuffer_cases entry slot' h with ⟨-, -, heq⟩ | ⟨e, heq⟩
      · simp only [onDevice_apply, heq]
        refine ⟨b', d', _, rfl, htransfer, rfl, d'.get?_setBindings entry ?_⟩
        rw [get?_put_string, if_neg (Ne.symm hne)]
      · simp only [onDevice_apply, heq]
        exact ⟨b', d', d', rfl, htransfer, rfl, rfl⟩
  obtain ⟨b', d', d'', hstate, htransfer, hbuffers, hbound⟩ := hspec.state
  refine ⟨b', d'', hstate, fun h hh hother => ⟨?_, fun hget => ?_⟩⟩
  · rw [hbuffers]
    exact (htransfer.others hh hother).1
  · rw [hbound]
    exact htransfer.bound entry slot h hh hother hget

end BufferBinding

/-! ## Reachable states -/

/-- Before a device is attached, nothing is on one. -/
structure Dispatcher.Detached (d : Dispatcher K) (m : Memory) : Prop where
  tables : d.tables.length = d.layout.entries.length
  wellBound : ∀ entry, (d.table entry).WellBound d.layout m
  copies : d.copies = []

/-- A new dispatcher is so. -/
theorem Dispatcher.Unbound.detached {d : Dispatcher K} (h : d.Unbound) (m : Memory) :
    d.Detached m where
  tables := by rw [h, List.length_map]
  wellBound entry := by
    rw [h.table]
    exact .empty d.layout m
  copies := h.copies_eq_nil

namespace Bench

variable {s s' : Bench K}

/-- The tables are well bound, no two slots hold the same copy, and the device has its entry
points. -/
structure Kept (s : Bench K) : Prop where
  wellBound : s.WellBound
  apart : ∃ d, s.device = some (.host d) ∧ d.bound.length = d.entries.length ∧
    Apart d.issued s.dispatcher.copies

/-- The device keeps its entry points. -/
theorem Step.entries (h : Step s s') {d d' : HostDevice} (hd : s.device = some (.host d))
    (hd' : s'.device = some (.host d')) :
    d'.entries = d.entries ∧ d'.bound.length = d.bound.length := by
  cases h with
  | aside kernel last hdevice hquiet _ =>
    cases hd.symm.trans hdevice
    cases hd'
    exact hquiet.entries
  | transfer hdevice _ htransfer =>
    cases hd.symm.trans hdevice
    cases hd'
    exact htransfer.entries
  | exchange hdevice _ hexchange =>
    cases hd.symm.trans hdevice
    cases hd'
    exact hexchange.entries
  | bindBuffer | bindTexture | markDirty =>
    cases hd.symm.trans hd'
    exact ⟨rfl, rfl⟩

/-- A step keeps this. -/
theorem Step.kept (h : Step s s') (hs : s.Kept) : s'.Kept := by
  obtain ⟨d, hd, hlength, hapart⟩ := hs.apart
  obtain ⟨d', hd', hshift⟩ := h.shift hs.wellBound hd
  obtain ⟨hentries, hbound⟩ := h.entries hd hd'
  refine ⟨h.wellBound hs.wellBound, d', hd', ?_, hshift.apart hapart⟩
  rw [hbound, hentries, hlength]

/-- A walk keeps this. -/
theorem Walk.kept (h : Walk s s') (hs : s.Kept) : s'.Kept := by
  induction h with
  | refl => exact hs
  | tail _ hstep ih => exact hstep.kept ih

/-- A copy has a number of its own that was given out. -/
theorem Kept.copy (hs : s.Kept) {d : HostDevice} (hd : s.device = some (.host d)) {entry : Nat}
    {slot : String} {c : DeviceCopy} (hc : s.dispatcher.copy? entry slot = some c) :
    c.handle.id ≤ d.issued ∧
      ∀ slot' c', slot' ≠ slot → s.dispatcher.copy? entry slot' = some c' →
      c'.handle ≠ c.handle := by
  obtain ⟨d', hd', -, hapart⟩ := hs.apart
  cases hd.symm.trans hd'
  have hordered := fun entry => (hs.wellBound entry).ordered
  refine ⟨hapart.issued _ (mem_copies hc (hordered entry)), fun slot' c' hne hc' heq => hne ?_⟩
  exact (slot_of_copy hapart.nodup hordered hc' hc heq).2

/-- What others may do meanwhile: a buffer keeps its type, and the device gives out no number twice
and keeps its entry points. -/
structure Meanwhile (s s' : Bench K) : Prop where
  layout : s'.dispatcher.layout = s.dispatcher.layout
  tables : s'.dispatcher.tables = s.dispatcher.tables
  buffers : s.memory.buffers.size ≤ s'.memory.buffers.size
  elements : ∀ r, r.index < s.memory.buffers.size → (s'.memory.buffer r).element =
    (s.memory.buffer r).element
  device : ∀ d, s.device = some (.host d) → ∃ d', s'.device = some (.host d') ∧
    d.issued ≤ d'.issued ∧ d'.entries = d.entries ∧ d'.bound.length = d.bound.length

/-- The states of a dispatcher on a shared device. -/
inductive Reachable : Bench K → Prop
  | attached {d : Dispatcher K} {m : Memory} {host : HostDevice} :
  d.Detached m → d.layout.Preserves →
      host.bound.length = host.entries.length → Reachable (d.on ⟨m, .host host⟩)
  | run {s : Bench K} (op : BenchOp) : Reachable s → op.Lawful s.memory → Reachable (op.run s)
  | meanwhile {s s' : Bench K} : Reachable s → Meanwhile s s' → Reachable s'

/-- Lawful operations lead to such states. -/
theorem Reachable.runAll (ops : List BenchOp) :
    ∀ {s : Bench K}, Reachable s → LawfulAll ops s → Reachable (runAll ops s) := by
  induction ops with
  | nil => exact fun hs _ => hs
  | cons op ops ih => exact fun hs hops => ih (hs.run op hops.1) hops.2

/-- What steps and others keep holds in every such state. -/
theorem Reachable.kept (h : Reachable s) : s.Ready ∧ s.Kept := by
  induction h with
  | @attached d m host hdetached hbodies hlength =>
    refine ⟨⟨⟨host, rfl⟩, hdetached.tables, hbodies⟩, hdetached.wellBound, host, rfl, hlength, ?_⟩
    show Apart host.issued d.copies
    rw [hdetached.copies]
    exact ⟨List.nodup_nil, fun _ hp => (nomatch hp)⟩
  | run op _ hop ih =>
    have hwalk := op.walks ih.1 hop
    exact ⟨hwalk.ready ih.1, hwalk.kept ih.2⟩
  | @meanwhile s s' _ hmeanwhile ih =>
    obtain ⟨hready, hkept⟩ := ih
    obtain ⟨d, hd, hlength, hapart⟩ := hkept.apart
    obtain ⟨d', hd', hissued, hentries, hbound⟩ := hmeanwhile.device d hd
    refine ⟨⟨⟨d', hd'⟩, ?_, ?_⟩, fun entry => ?_, d', hd', ?_, ?_⟩
    · rw [hmeanwhile.tables, hmeanwhile.layout, hready.tables]
    · rw [hmeanwhile.layout]
      exact hready.bodies
    · rw [hmeanwhile.layout, Dispatcher.table, hmeanwhile.tables]
      exact (hkept.wellBound entry).congr hmeanwhile.buffers hmeanwhile.elements rfl
    · rw [hbound, hentries, hlength]
    · rw [Dispatcher.copies, hmeanwhile.tables, hmeanwhile.layout]
      exact hapart.mono hissued

end Bench

/-! ## The emulated dispatch -/

namespace Bench

variable {s₀ : Bench K} {entry : Nat}

/-- An emulated dispatch marks its own buffers only. -/
theorem dispatchEmulated_tables (h₀ : s₀.Ready) (entry : Nat) (groups : Uint3) :
    (dispatchEmulated entry groups s₀).Meets
      (fun _ s => s.dispatcher.tables =
        s₀.dispatcher.tables.set entry (s₀.dispatcher.table entry).markDirty)
      fun _ => True := by
  rcases dispatchEmulated_refused_or entry groups s₀ with ⟨e, heq⟩ | ⟨point, grid, hpoint, heq⟩
  · rw [heq]
    trivial
  · rw [heq]
    have hbody := h₀.bodies point (entry_lt hpoint).2
    refine (keeps_enter_strolls h₀ entry).meets_bind ⟨.refl, rfl⟩ (fun _ _ => trivial)
      fun _ s hs => ?_
    refine (keeps_runGrid_strolls h₀ groups grid hbody).meets_bind hs (fun _ _ => trivial)
      fun _ s hs => ?_
    refine (keeps_commit_strolls h₀ entry).meets_bind hs (fun _ _ => trivial) fun _ s hs => ?_
    show (s.dispatcher.tables.set entry (s.dispatcher.table entry).markDirty) = _
    rw [Dispatcher.table, hs.2]
    rfl

end Bench

/-! ## The dispatch on the device -/

namespace Bench

section presenting

variable {s₀ : Bench K} {d₀ : HostDevice} {entry : Nat} {slot : String} {b : BufferBinding}

/-- The dispatcher while buffers are presented. -/
def presenting (s₀ : Bench K) (entry : Nat) (buffers : List (String × BufferBinding))
    (m : Machine) : Bench K :=
  (s₀.dispatcher.setTable entry { s₀.dispatcher.table entry with buffers }).on m

/-- The slot was not presented yet, and its copy is as it was. -/
structure Waiting (s₀ : Bench K) (d₀ : HostDevice) (entry : Nat) (slot : String) (b : BufferBinding)
    (buffers : List (String × BufferBinding)) (m : Machine) : Prop where
  walk : Walk s₀ (presenting s₀ entry buffers m)
  memory : m.memory = s₀.memory
  slot : get? buffers slot = some b
  copy : ∃ d, m.device = .host d ∧
    ∀ c, b.copy = some c → d.buffers.get? c.handle.id = d₀.buffers.get? c.handle.id

/-- The slot was presented, and its copy is bound. -/
structure Presented (s₀ : Bench K) (d₀ : HostDevice) (entry : Nat) (slot : String)
    (b : BufferBinding) (buffers : List (String × BufferBinding)) (m : Machine) : Prop where
  walk : Walk s₀ (presenting s₀ entry buffers m)
  memory : m.memory = s₀.memory
  copy : ∃ d b' c block, m.device = .host d ∧ get? buffers slot = some b' ∧ b'.copy = some c ∧
    (d.bindings entry).buffers.get? slot = some c.handle ∧ d.buffers.get? c.handle.id = some block ∧
    b.Leaves s₀.memory d₀ block

variable {before after : List (String × BufferBinding)} {slot' : String} {x : BufferBinding}
    {m : Memory}
  {d : HostDevice}

/-- The copy of one slot, while another slot is presented. -/
theorem copy_of_presenting (h₀ : s₀.Kept) (hentry : entry < s₀.dispatcher.tables.length)
    (hne : slot' ≠ slot)
    (hwalk : Walk s₀ (presenting s₀ entry (before ++ (slot', x) :: after) ⟨m, .host d⟩))
    {b' : BufferBinding} (hslot : get? (before ++ (slot', x) :: after) slot = some b')
    {c : DeviceCopy} (hc : b'.copy = some c) :
    c.handle.id ≤ d.issued ∧ ∀ c', x.copy = some c' → c'.handle ≠ c.handle := by
  have hkept := hwalk.kept h₀
  have htable := table_setTable_self hentry
    { s₀.dispatcher.table entry with buffers := before ++ (slot', x) :: after }
  have hordered : Ordered (before ++ (slot', x) :: after) := by
    have hordered := (hkept.wellBound entry).ordered
    rw [presenting, on, htable] at hordered
    exact hordered
  have hcopy : ∀ slot b', get? (before ++ (slot', x) :: after) slot = some b' →
      (presenting s₀ entry (before ++ (slot', x) :: after) ⟨m, .host d⟩).dispatcher.copy? entry
          slot = b'.copy := by
    intro slot b' hget
    rw [presenting, on, copy?, htable]
    show (get? _ slot).bind _ = _
    rw [hget]
    rfl
  obtain ⟨hissued, hothers⟩ := hkept.copy rfl ((hcopy slot b' hslot).trans hc)
  refine ⟨hissued, fun c' hc' => hothers slot' c' hne ?_⟩
  rw [hcopy slot' x (hordered.mem_iff.1 (by simp)), hc']

/-- Another value under another key is not seen. -/
theorem get?_append_cons_of_ne (hne : slot' ≠ slot) (x y : BufferBinding) :
    get? (before ++ (slot', y) :: after) slot = get? (before ++ (slot', x) :: after) slot := by
  induction before with
  | nil =>
    rw [List.nil_append, List.nil_append, get?_cons, get?_cons, if_neg hne.symm, if_neg hne.symm]
  | cons p before ih =>
    rw [List.cons_append, List.cons_append, get?_cons, get?_cons, ih]

/-- It waits while another one is presented. -/
theorem keeps_waiting (h₀ : s₀.Kept) (hready : s₀.Ready)
    (hentry : entry < s₀.dispatcher.tables.length) (before : List (String × BufferBinding))
    (slot' : String) (after : List (String × BufferBinding)) (hne : slot' ≠ slot) :
    Keeps (fun s => Waiting s₀ d₀ entry slot b (before ++ (slot', s.1) :: after) s.2)
      (BufferBinding.present entry slot') := by
  rintro ⟨x, ⟨m, device⟩⟩ ⟨hwalk, hmemory, hslot, d, rfl, hcopy⟩
  have hwalk' := walk_present hready hentry (s₀.dispatcher.table entry) before slot' after _ hwalk
  obtain ⟨x', d', hstate, hothers⟩ := BufferBinding.present_others entry x m d hne
  rw [hstate] at hwalk' ⊢
  refine ⟨hwalk', hmemory, (get?_append_cons_of_ne hne x x').trans hslot, d', rfl, fun c hc => ?_⟩
  obtain ⟨hissued, hother⟩ := copy_of_presenting h₀ hentry hne hwalk hslot hc
  exact (hothers c.handle hissued hother).1.trans (hcopy c hc)

/-- It stays so while another one is presented. -/
theorem keeps_presented (h₀ : s₀.Kept) (hready : s₀.Ready)
    (hentry : entry < s₀.dispatcher.tables.length) (before : List (String × BufferBinding))
    (slot' : String) (after : List (String × BufferBinding)) (hne : slot' ≠ slot) :
    Keeps (fun s => Presented s₀ d₀ entry slot b (before ++ (slot', s.1) :: after) s.2)
      (BufferBinding.present entry slot') := by
  rintro ⟨x, ⟨m, device⟩⟩ ⟨hwalk, hmemory, d, b', c, block, rfl, hslot, hc, hbound, hblock, hleaves⟩
  have hwalk' := walk_present hready hentry (s₀.dispatcher.table entry) before slot' after _ hwalk
  obtain ⟨x', d', hstate, hothers⟩ := BufferBinding.present_others entry x m d hne
  rw [hstate] at hwalk' ⊢
  obtain ⟨hissued, hother⟩ := copy_of_presenting h₀ hentry hne hwalk hslot hc
  obtain ⟨hget, hbind⟩ := hothers c.handle hissued hother
  exact ⟨hwalk', hmemory, d', b', c, block, rfl, (get?_append_cons_of_ne hne x x').trans hslot, hc,
    hbind hbound, hget.trans hblock, hleaves⟩

/-- When its turn comes, it is presented. -/
theorem presented_of_waiting (h₀ : s₀.Kept) (hready : s₀.Ready)
    (hentry : entry < s₀.dispatcher.tables.length) (before after : List (String × BufferBinding))
    (s : BufferBinding × Machine)
    (hs : Waiting s₀ d₀ entry slot b (before ++ (slot, s.1) :: after) s.2) :
    (BufferBinding.present entry slot s).Meets
      (fun _ s => Presented s₀ d₀ entry slot b (before ++ (slot, s.1) :: after) s.2)
        fun _ => True := by
  obtain ⟨x, ⟨m, device⟩⟩ := s
  obtain ⟨hwalk, rfl, hslot, d, rfl, hcopy⟩ := hs
  have hget : ∀ x m, Walk s₀ (presenting s₀ entry (before ++ (slot, x) :: after) m) →
      get? (before ++ (slot, x) :: after) slot = some x := by
    intro x m hwalk
    have hordered := ((hwalk.kept h₀).wellBound entry).ordered
    rw [presenting, on, table_setTable_self hentry] at hordered
    exact hordered.mem_iff.1 (by simp)
  obtain rfl : x = b := Option.some.inj ((hget x _ hwalk).symm.trans hslot)
  obtain ⟨_, heq, hlength, -⟩ := (hwalk.kept h₀).apart
  cases heq
  have hwalk' := walk_present hready hentry (s₀.dispatcher.table entry) before slot after _ hwalk
  refine ((BufferBinding.present_spec entry slot x s₀.memory hlength).and_state
    (I := fun s : BufferBinding × Machine => Walk s₀
    (presenting s₀ entry (before ++ (slot, s.1) :: after) s.2)) hwalk').mono ?_
    fun _ _ => trivial
  rintro _ _ ⟨⟨b', d', c, block, rfl, hc, hbound, hblock, hleaves⟩, hwalk'⟩
  refine ⟨hwalk', rfl, d', b', c, block, rfl, hget b' _ hwalk', hc, hbound, hblock, ?_⟩
  rcases hleaves with hbehind | ⟨hnot, c, hc, hblock⟩
  · exact .inl hbehind
  · exact .inr ⟨hnot, c, hc, (hcopy c hc).symm.trans hblock⟩

/-- Presenting the buffers presents each of them. -/
theorem meets_presentBuffers (h₀ : s₀.Kept) (hready : s₀.Ready) (hd₀ : s₀.device = some (.host d₀))
    (hentry : entry < s₀.dispatcher.tables.length)
    (hb : (s₀.dispatcher.table entry).buffers.get? slot = some b) :
    (Table.presentBuffers entry (s₀.dispatcher.table entry, ⟨s₀.memory, .host d₀⟩)).Meets
      (fun _ s => Presented s₀ d₀ entry slot b s.1.buffers s.2) fun _ => True := by
  have hordered := (h₀.wellBound entry).ordered
  have hwaiting : Waiting s₀ d₀ entry slot b (s₀.dispatcher.table entry).buffers ⟨s₀.memory,
      .host d₀⟩ := by
    refine ⟨?_, rfl, hb, d₀, rfl, fun _ _ => rfl⟩
    rw [presenting, setTable_table, on, ← hd₀]
  exact meets_onValues (keeps_waiting h₀ hready hentry) (keeps_presented h₀ hready hentry)
    (presented_of_waiting h₀ hready hentry) (s₀.dispatcher.table entry).buffers []
    (List.mem_map_of_mem (hordered.mem_iff.2 hb)) hordered.nodup_keys hwaiting

end presenting

end Bench

/-! ## The textures, and the dispatch itself -/

namespace Machine

variable {entry : Nat} {slot : String} {h : BufferHandle} {block : MemoryBlock}
    {buffers : Array Buffer}
variable (entry' : Nat)

/-- The slot has a block on the device, beside the host's buffers. -/
def Shows (entry : Nat) (slot : String) (h : BufferHandle) (block : MemoryBlock)
    (buffers : Array Buffer) (m : Machine) : Prop :=
  ∃ d, m.device = .host d ∧ m.memory.buffers = buffers ∧
    (d.bindings entry).buffers.get? slot = some h ∧
    d.buffers.get? h.id = some block

/-- An exchange of a texture touches no buffer. -/
theorem keeps_shows_onTexture {α : Type} {a : Action (Texture × Device) α} (r : TextureRef)
    (ha : ∀ t d, Texture.Exchanged t d (a (t, .host d)).state) :
    Keeps (Shows entry slot h block buffers) (onTexture r a) := by
  rintro ⟨m, device⟩ ⟨d, rfl, hbuffers, hbound, hblock⟩
  obtain ⟨t', d', hstate, hexchange⟩ := ha (m.texture r) d
  simp only [onTexture, zoom, hstate]
  refine ⟨d', rfl, hbuffers, ?_, ?_⟩
  · rw [hexchange.bound]
    exact hbound
  · rw [hexchange.buffers]
    exact hblock

/-- Binding a texture touches no buffer. -/
theorem keeps_shows_bindTexture (slot' : String) (h' : SurfaceHandle) :
    Keeps (Shows entry slot h block buffers) (onDevice (Device.bindTexture entry' slot' h')) := by
  rintro ⟨m, device⟩ ⟨d, rfl, hbuffers, hbound, hblock⟩
  rcases d.bindTexture_cases entry' slot' h' with heq | ⟨e, heq⟩
  · simp only [onDevice, zoom, heq]
    refine ⟨_, rfl, hbuffers, ?_, hblock⟩
    rw [HostDevice.bindings_setBindings]
    split
    next hentry => exact hentry.1 ▸ hbound
    next => exact hbound
  · simp only [onDevice, zoom, heq]
    exact ⟨d, rfl, hbuffers, hbound, hblock⟩

/-- A dispatch touches no buffer. -/
theorem keeps_shows_dispatch (groups : Uint3) :
    Keeps (Shows entry slot h block buffers) (onDevice (Device.dispatch entry' groups)) := by
  rintro ⟨m, device⟩ ⟨d, rfl, hbuffers, hbound, hblock⟩
  rcases d.dispatch_cases entry' groups with heq | ⟨e, heq⟩
  · simp only [onDevice, zoom, heq]
    exact ⟨_, rfl, hbuffers, hbound, hblock⟩
  · simp only [onDevice, zoom, heq]
    exact ⟨d, rfl, hbuffers, hbound, hblock⟩

/-- Presenting a texture touches no buffer. -/
theorem keeps_shows_presentTexture (slot' : String) (r : TextureRef) :
    Keeps (Shows entry slot h block buffers) (Table.presentTexture entry' slot' r) := by
  refine (keeps_shows_onTexture r Texture.exchanged_toDevice).bind fun h' => ?_
  refine (keeps_shows_bindTexture entry' slot' h').bind fun _ => ?_
  exact keeps_shows_onTexture r (Texture.exchanged_change (f := Texture.hintDevice) fun _ =>
    ⟨rfl, rfl, rfl⟩)

end Machine

namespace Bench

variable {s₀ : Bench K} {d₀ : HostDevice} {entry : Nat} {slot : String} {b : BufferBinding}

/-- **What a dispatch on the device shows.** Each slot has a buffer on the device: the host's
elements if its copy was behind, or what its copy was. -/
theorem dispatchHardware_shows (h₀ : s₀.Kept) (hready : s₀.Ready)
    (hd₀ : s₀.device = some (.host d₀))
    (hb : (s₀.dispatcher.table entry).buffers.get? slot = some b) (groups : Uint3) :
    (dispatchHardware entry groups s₀).Meets
      (fun _ s => ∃ d h block, s.device = some (.host d) ∧ s.memory.buffers = s₀.memory.buffers ∧
        (d.bindings entry).buffers.get? slot = some h ∧ d.buffers.get? h.id = some block ∧
        b.Leaves s₀.memory d₀ block)
      fun _ => True := by
  refine meets_dispatchHardware hd₀ trivial fun point hpoint _ => ?_
  have hentry : entry < s₀.dispatcher.tables.length := hready.tables ▸ (entry_lt hpoint).1
  refine Outcome.Meets.mono (?_ : Outcome.Meets _ (fun _ t => ∃ h block,
    t.2.Shows entry slot h block s₀.memory.buffers ∧ b.Leaves s₀.memory d₀ block) _) ?_ fun _ h => h
  · refine meets_bind (M := fun _ t => ∃ h block, t.2.Shows entry slot h block s₀.memory.buffers ∧
      b.Leaves s₀.memory d₀ block) ?_ ?_
    · refine (meets_presentBuffers h₀ hready hd₀ hentry hb).mono ?_ fun _ _ => trivial
      rintro _ s ⟨-, hmemory, d, b', c, block, hd, -, -, hbound, hblock, hleaves⟩
      exact ⟨c.handle, block, ⟨d, hd, congrArg Memory.buffers hmemory, hbound, hblock⟩, hleaves⟩
    · rintro _ s ⟨h, block, hshows, hleaves⟩
      refine (Outcome.Meets.of_state (I := fun s => s.2.Shows entry slot h block s₀.memory.buffers)
        ?_).mono
        (fun _ _ hshows => ⟨h, block, hshows, hleaves⟩) fun _ _ => trivial
      refine Keeps.bind (Table.keeps_presentTextures (Machine.keeps_shows_presentTexture entry))
        (fun _ => (keeps_report _).bind fun _ => ?_) s hshows
      exact fun s hs => Machine.keeps_shows_dispatch entry groups s.2 hs
  · rintro _ ⟨dispatcher, m⟩ ⟨h, block, ⟨d, hd, hbuffers, hbound, hblock⟩, hleaves⟩
    exact ⟨d, h, block, congrArg some hd, hbuffers, hbound, hblock, hleaves⟩

end Bench

namespace Bench

/-- The bytes of the buffer that is bound for a slot. -/
def boundBytes? (s : Bench K) (entry : Nat) (slot : String) : Option Bytes := do
  let d ← s.host?
  let h ← (d.bindings entry).buffers.get? slot
  let block ← d.buffers.get? h.id
  return block.bytes

/-- The bytes of the device copy of a bound buffer. -/
def copyBytes? (s : Bench K) (b : BufferBinding) : Option Bytes := do
  let d ← s.host?
  let c ← b.copy
  let block ← d.buffers.get? c.handle.id
  return block.bytes

end Bench

/-- The slots of the entry point that was emulated are marked. -/
theorem Dispatcher.binding_after_mark {d d' : Dispatcher K} {emulated entry : Nat}
    (htables : d'.tables = d.tables.set emulated (d.table emulated).markDirty) {slot : String}
    {b : BufferBinding} (hb : (d.table entry).buffers.get? slot = some b) :
    (d'.table entry).buffers.get? slot = some (if entry = emulated then b.markDirty else b) := by
  have htable : d'.table entry =
      (d.setTable emulated (d.table emulated).markDirty).table entry := by
    rw [table, htables]
    rfl
  rw [htable]
  by_cases he : entry = emulated
  · subst he
    have hlt : entry < d.tables.length := by
      refine Nat.lt_of_not_le fun hle => ?_
      rw [table_of_le hle] at hb
      cases hb
    rw [table_setTable_self hlt, if_pos rfl]
    show get? ((d.table entry).buffers.map fun p => (p.1, p.2.markDirty)) slot = _
    rw [get?_map, hb]
    rfl
  · rw [table, setTable, List.getElem?_set_ne (Ne.symm he), if_neg he]
    exact hb

/-- **What the device sees after an emulated dispatch.** An entry point was emulated, and next an
entry point was dispatched on the device. The device has the host's elements in a slot exactly when
the two are the same entry point, or the copy of the slot was behind, or it held these elements
already. -/
theorem reupload_after_emulation {s : Bench K} (hs : s.Reachable) {emulated entry : Nat}
    {groups groups' : Uint3}
    (hemulated : (Bench.dispatchEmulated emulated groups s).result = .ok ())
    (hhardware : (Bench.dispatchHardware entry groups'
      (Bench.dispatchEmulated emulated groups s).state).result = .ok ())
    {slot : String} {b : BufferBinding}
    (hb : (s.dispatcher.table entry).buffers.get? slot = some b) :
    let s₁ := (Bench.dispatchEmulated emulated groups s).state
    let s₂ := (Bench.dispatchHardware entry groups' s₁).state
    s₂.boundBytes? entry slot = some (s₂.memory.buffer b.buffer).bytes ↔
      entry = emulated ∨ b.Behind s₁.memory ∨
          s₁.copyBytes? b = some (s₂.memory.buffer b.buffer).bytes := by
  intro s₁ s₂
  obtain ⟨hready, -⟩ := hs.kept
  have htables := (Bench.dispatchEmulated_tables hready emulated groups).of_ok hemulated
  have hreachable : s₁.Reachable := hs.run (.emulated emulated groups) trivial
  obtain ⟨hready₁, hkept₁⟩ := hreachable.kept
  obtain ⟨d₁, hd₁, -⟩ := hkept₁.apart
  have hb₁ := binding_after_mark htables hb
  obtain ⟨d, h, block, hd, hbuffers, hbound, hblock, hleaves⟩ :=
    (Bench.dispatchHardware_shows hkept₁ hready₁ hd₁ hb₁ groups').of_ok hhardware
  have hhost : s₂.memory.buffer b.buffer = s₁.memory.buffer b.buffer := by
    rw [Memory.buffer, hbuffers]; rfl
  have hshown : s₂.boundBytes? entry slot = some block.bytes := by
    simp [Bench.boundBytes?, Bench.host?, s₂, hd, hbound, hblock]
  rw [hshown, hhost]
  by_cases he : entry = emulated
  · -- All copies of the entry point were marked.
    rw [if_pos he] at hleaves
    rcases hleaves with ⟨-, rfl⟩ | ⟨hnot, -⟩
    · exact iff_of_true rfl (.inl he)
    · exact absurd (.inl rfl) hnot
  · rw [if_neg he] at hleaves
    rcases hleaves with ⟨hbehind, rfl⟩ | ⟨hnot, c, hc, hblock₁⟩
    · exact iff_of_true rfl (.inr (.inl hbehind))
    · have hcopy : s₁.copyBytes? b = some block.bytes := by
        simp [Bench.copyBytes?, Bench.host?, hd₁, hc, hblock₁]
      simp [he, hnot, hcopy]

namespace Mill

/-- The same numbers are bound for both, and sent for the second. -/
def sharing : List BenchOp :=
  [.setBuffer 0 "numbers" ⟨0⟩, .setBuffer 1 "numbers" ⟨0⟩, .hardware 1 ⟨1, 1, 1⟩]

/-- The same, but then the second's copies are marked as behind. -/
def invalidating : List BenchOp := sharing ++ [.invalidate 1]

/-- What is done with the mill is reachable. -/
theorem reachable {ops : List BenchOp} (hops : LawfulAll ops bench) :
    (runAll ops bench).Reachable :=
  Bench.Reachable.runAll ops (.attached (unbound.detached memory) preserves rfl) hops

/-- The first entry point is emulated. -/
def emulate (s : Bench Workbench) : Outcome (Bench Workbench) Unit :=
  Bench.dispatchEmulated 0 ⟨1, 1, 1⟩ s

/-- Then the second entry point is dispatched on the device. -/
def dispatch (s : Bench Workbench) : Outcome (Bench Workbench) Unit :=
  Bench.dispatchHardware 1 ⟨1, 1, 1⟩ (emulate s).state

end Mill

/-- Numbers that an emulated dispatch has changed are not sent again for another entry point. -/
theorem shared_copy_stale :
    let s := runAll Mill.sharing Mill.bench
    s.Reachable ∧ (Mill.emulate s).result = .ok () ∧ (Mill.dispatch s).result = .ok () ∧
      ((s.dispatcher.table 0).buffers.get? "numbers").map (·.buffer) = some ⟨0⟩ ∧
      ((s.dispatcher.table 1).buffers.get? "numbers").map (·.buffer) = some ⟨0⟩ ∧
      (Mill.dispatch s).state.boundBytes? 1 "numbers" = some [1, 0, 0, 0, 2, 0, 0, 0] ∧
      ((Mill.dispatch s).state.memory.buffer ⟨0⟩).bytes = [0, 0, 0, 0, 2, 0, 0, 0] := by
  have hops : LawfulAll Mill.sharing Mill.bench := by
    simp only [Mill.sharing, LawfulAll, Lawful]
    decide +kernel
  refine ⟨Mill.reachable hops, ?_⟩
  decide +kernel

/-- Numbers whose copy was marked are sent to the device again. -/
theorem marked_copy_current :
    let s := runAll Mill.invalidating Mill.bench
    s.Reachable ∧
      (Mill.dispatch s).state.boundBytes? 1 "numbers" =
          some ((Mill.dispatch s).state.memory.buffer ⟨0⟩).bytes := by
  have hops : LawfulAll Mill.invalidating Mill.bench := by
    simp only [Mill.invalidating, Mill.sharing, List.cons_append, List.nil_append,
      LawfulAll, Lawful]
    decide +kernel
  have hreachable := Mill.reachable hops
  have hb : ((runAll Mill.invalidating Mill.bench).dispatcher.table 1).buffers.get? "numbers"
      = some ⟨⟨0⟩, some ⟨⟨1⟩, 2⟩, true⟩ := by decide +kernel
  have hemulated : (Mill.emulate (runAll Mill.invalidating Mill.bench)).result = .ok () := by
    decide +kernel
  have hhardware : (Mill.dispatch (runAll Mill.invalidating Mill.bench)).result = .ok () := by
    decide +kernel
  exact ⟨hreachable, (reupload_after_emulation hreachable hemulated hhardware hb).2
    (.inr (.inl (.inl rfl)))⟩

end ComputeKernel
