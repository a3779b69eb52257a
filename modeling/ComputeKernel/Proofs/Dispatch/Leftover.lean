import Mathlib.Data.List.Induction
import ComputeKernel.Proofs.Dispatch.Copies
import ComputeKernel.Proofs.Sample.Confined

/-!
# What stays in the fields of a kernel

Only emulated dispatches put resources into the fields of a kernel, and nothing takes them out
again: a field that has no slot bound to an entry point keeps what it has while that is emulated. A
slot that was bound stays bound (`Dispatcher.Follows`), so what is left in such a field comes from
another entry point (`BenchOp.held_origin`).
-/

namespace ComputeKernel

open ComputeKernel.Action Bench Table

variable {K F : Type} {v : FieldView K F}

/-! ## What stays in the fields -/

namespace Table

variable {t : Table} {slot slot' : String}

/-- A bound slot has a buffer or a texture. -/
theorem mem_slots_iff : slot ∈ t.slots ↔ t.buffers.get? slot ≠ none ∨
    t.textures.get? slot ≠ none := by
  simp only [slots_eq, List.mem_append, Keyed.keys, List.mem_map, ne_eq, Keyed.get?_eq_none_iff]
  simp

/-- Marking leaves the slots. -/
theorem slots_markDirty (t : Table) : t.markDirty.slots = t.slots := by
  simp [slots_eq, markDirty, Keyed.keys, Function.comp_def]

/-- Binding a buffer leaves them bound. -/
theorem mem_slots_bindBuffer (h : slot ∈ t.slots) (slot' : String) (r : BufferRef) :
    slot ∈ (t.bindBuffer slot' r).slots := by
  rw [mem_slots_iff] at h ⊢
  simp only [bindBuffer, Keyed.get?_put_string]
  by_cases hslot : slot = slot'
  · exact .inl (by simp [hslot])
  · simpa [hslot] using h

/-- So does binding a texture. -/
theorem mem_slots_bindTexture (h : slot ∈ t.slots) (slot' : String) (r : TextureRef) :
    slot ∈ (t.bindTexture slot' r).slots := by
  rw [mem_slots_iff] at h ⊢
  simp only [bindTexture, Keyed.get?_put_string]
  by_cases hslot : slot = slot'
  · exact .inr (by simp [hslot])
  · simpa [hslot] using h

/-- Buffers stay bound whatever is done with them. -/
theorem slots_onBuffers (f : String → Action (BufferBinding × Machine) Unit) (s : Table × Machine) :
    (onBuffers f s).state.1.slots = s.1.slots := by
  rw [slots_eq, slots_eq]
  exact congrArg (· ++ s.1.textures.keys) (keys_onValues f s.1.buffers s.2)

end Table

namespace Dispatcher

/-- The kernel class is the same, and slots stay bound. -/
structure Follows (d d' : Dispatcher K) : Prop where
  layout : d'.layout = d.layout
  slots : ∀ entry, ∀ slot ∈ (d.table entry).slots, slot ∈ (d'.table entry).slots

namespace Follows

variable {d d' : Dispatcher K}

/-- Nothing has changed. -/
theorem refl (d : Dispatcher K) : d.Follows d := ⟨rfl, fun _ _ h => h⟩

/-- A table may change to one with the same slots, and more. -/
theorem setTable (h : d.Follows d') {entry : Nat} {t : Table}
    (ht : ∀ slot ∈ (d'.table entry).slots, slot ∈ t.slots) :
    d.Follows (d'.setTable entry t) := by
  refine ⟨h.layout, fun entry' slot hslot => ?_⟩
  have hslot' := h.slots entry' slot hslot
  rcases d'.table_setTable_cases entry t entry' with ⟨rfl, heq⟩ | heq
  · exact heq.symm ▸ ht slot hslot'
  · exact heq.symm ▸ hslot'

end Follows

/-- The kernel is the same, too. -/
structure Rebinds (d d' : Dispatcher K) : Prop extends d.Follows d' where
  kernel : d'.kernel = d.kernel

/-- A table may change to one with more slots. -/
theorem Rebinds.setTable {d d' : Dispatcher K} (h : d.Rebinds d') {entry : Nat} {t : Table}
    (ht : ∀ slot ∈ (d'.table entry).slots, slot ∈ t.slots) : d.Rebinds (d'.setTable entry t) :=
  ⟨h.toFollows.setTable ht, h.kernel⟩

end Dispatcher

namespace Bench

variable {α : Type} {d : Dispatcher K}

/-- What leaves a table's slots leaves the dispatcher's. -/
theorem keeps_rebinds_onTable (entry : Nat) {a : Action (Table × Machine) α}
    (ha : ∀ s, (a s).state.1.slots = s.1.slots) :
    Keeps (fun s : Dispatcher K × Machine => d.Rebinds s.1) (Dispatcher.onTable entry a) := by
  rintro ⟨d', m⟩ hs
  exact hs.setTable fun slot hslot => (ha (d'.table entry, m)).symm ▸ hslot

/-- What leaves this on a device leaves it. -/
theorem keeps_rebinds_withDevice {a : Action (Dispatcher K × Machine) α}
    (ha : Keeps (fun s : Dispatcher K × Machine => d.Rebinds s.1) a) :
    Keeps (fun s : Bench K => d.Rebinds s.dispatcher) (withDevice a) := by
  rintro ⟨d', m, device⟩ hs
  cases device with
  | none => exact hs
  | some device => exact ha (d', ⟨m, device⟩) hs

/-- A check leaves it. -/
theorem keeps_rebinds_check {f : Dispatcher K → Except DispatchError α} :
    Keeps (fun s : Bench K => d.Rebinds s.dispatcher) (check f) := keeps_examine _

/-- Presenting what is bound leaves the slots of a table. -/
theorem slots_present (entry : Nat) (groups : Uint3) (e : Event) (s : Table × Machine) :
    (submit entry groups e s).state.1.slots = s.1.slots := by
  have hkeeps : Keeps (fun t : Table × Machine => t.1.slots = s.1.slots)
      (submit entry groups e) := by
    refine Keeps.bind (fun t ht => (slots_onBuffers _ t).trans ht) fun _ => Keeps.bind ?_ fun _ =>
      (keeps_report _).bind fun _ => ?_
    · exact fun t ht => ht
    · exact fun t ht => ht
  exact hkeeps s rfl

/-- A release leaves the slots. -/
theorem slots_release (s : Table × Machine) : (release s).state.1.slots = s.1.slots := by
  have hkeeps : Keeps (fun t : Table × Machine => t.1.slots = s.1.slots) release :=
    Keeps.bind (fun t ht => (slots_onBuffers _ t).trans ht) fun _ t ht => ht
  exact hkeeps s rfl

end Bench

/-- Other operations leave the kernel as it is. -/
theorem BenchOp.keeps_rebinds {d : Dispatcher K} (op : BenchOp)
    (hop : ∀ entry groups, op ≠ .emulated entry groups) :
    Keeps (fun s : Bench K => d.Rebinds s.dispatcher) op.act := by
  cases op with
  | setBuffer entry slot r =>
    refine Bench.keeps_rebinds_check.bind fun _ => Action.keeps_get.bind fun _ =>
      Bench.keeps_rebinds_check.bind
      fun _ => (keeps_report _).bind fun _ => ?_
    exact keeps_modify fun s hs => hs.setTable fun _ h => mem_slots_bindBuffer h slot r
  | setTexture entry slot r =>
    refine Bench.keeps_rebinds_check.bind fun _ => Bench.keeps_rebinds_check.bind fun _ =>
      Action.keeps_get.bind
      fun _ => (keeps_report _).bind fun _ => ?_
    exact keeps_modify fun s hs => hs.setTable fun _ h => mem_slots_bindTexture h slot r
  | invalidate entry =>
    refine Bench.keeps_rebinds_check.bind fun _ => keeps_modify fun s hs =>
      hs.setTable fun _ h => ?_
    exact (slots_markDirty _).symm ▸ h
  | hardware entry groups =>
    refine Bench.keeps_rebinds_check.bind fun point => keeps_rebinds_withDevice ?_
    refine Action.keeps_get.bind fun _ => (keeps_ofExcept _).bind fun _ => Keeps.bind ?_ fun _ => ?_
    · exact keeps_rebinds_onTable entry (slots_present entry groups _)
    · exact keeps_modify fun _ hs => ⟨⟨hs.layout, hs.slots⟩, hs.kernel⟩
  | emulated entry groups => exact absurd rfl (hop entry groups)
  | download entry =>
    exact Bench.keeps_rebinds_check.bind fun _ => keeps_rebinds_withDevice <|
      keeps_rebinds_onTable entry (slots_onBuffers _)
  | dispose =>
    refine Action.keeps_get.bind fun s => ?_
    cases s.device.isSome with
    | false => exact keeps_pure ()
    | true =>
      refine keeps_rebinds_withDevice (Action.keeps_get.bind fun _ => Keeps.bind ?_ fun _ =>
        keeps_report _)
      exact .forEach fun entry _ => keeps_rebinds_onTable entry slots_release
  | caller change => exact keeps_modify fun _ hs => hs

namespace Bench

variable {s : Bench K}
variable {d : Dispatcher K} {entry : Nat}

/-- What an emulated dispatch leaves. Tables are as they were, but for marks. A field holds
something that is bound to the entry point, or what it held. -/
structure Emulated (v : FieldView K F) (entry : Nat) (d d' : Dispatcher K) : Prop where
  layout : d'.layout = d.layout
  tables : d'.tables = d.tables ∨ d'.tables = d.tables.set entry (d.table entry).markDirty
  held : ∀ f x, v.held d'.kernel f = some x →
    (∃ slot, (slot, x) ∈ (d.table entry).bound ∧ v.slot slot = f) ∨ v.held d.kernel f = some x

/-- Nothing was done yet. -/
theorem Emulated.refl (v : FieldView K F) (entry : Nat) (d : Dispatcher K) : Emulated v entry d d :=
  ⟨rfl, .inl rfl, fun _ _ h => .inr h⟩

/-- Entering leaves this. -/
theorem Entering.emulated {d d' : Dispatcher K} (h : Entering v (d.table entry) d d') :
    Emulated v entry d d' :=
  ⟨h.layout, .inl h.tables, h.held⟩

/-- A table is as it was, or marked. -/
theorem Emulated.table {d d' : Dispatcher K} (h : Emulated v entry d d') (entry' : Nat) :
    d'.table entry' = d.table entry' ∨ entry' = entry ∧
    d'.table entry' = (d.table entry).markDirty := by
  rcases h.tables with heq | heq
  · exact .inl (by rw [Dispatcher.table, heq, Dispatcher.table])
  · have htable : d'.table entry' = (d.setTable entry (d.table entry).markDirty).table entry' := by
      rw [Dispatcher.table, heq]
      rfl
    rw [htable]
    exact (d.table_setTable_cases entry _ entry').symm

/-- So it follows. -/
theorem Emulated.follows {d d' : Dispatcher K} (h : Emulated v entry d d') : d.Follows d' := by
  refine ⟨h.layout, fun entry' slot hslot => ?_⟩
  rcases h.table entry' with heq | ⟨rfl, heq⟩
  · exact heq.symm ▸ hslot
  · rw [heq, slots_markDirty]
    exact hslot

/-- The lanes leave the fields as they are. -/
theorem keeps_entering_runGrid {point : EntryPoint K} (hpoint : point.Confined v)
    (groups grid : Uint3) {t : Table} :
    Keeps (fun s : Bench K => Entering v t d s.dispatcher) (runGrid point groups grid) := by
  rw [runGrid]
  split
  next => exact keeps_report _
  next =>
    refine (keeps_report _).bind fun _ s hs => ?_
    have hlanes : Keeps (fun u : Scene K => v.held u.kernel = v.held s.dispatcher.kernel)
        (runLanes point groups) := by
      refine .forEach fun _ _ => (keeps_ofExcept _).bind fun id u hu => ?_
      exact (hpoint.fields id u).trans hu
    have hfields := hlanes ⟨s.dispatcher.kernel, s.memory⟩ rfl
    refine ⟨hs.layout, hs.tables, fun f x hx => hs.held f x ?_, fun f hf => ?_⟩
    · rw [← hfields]
      exact hx
    · rw [← hs.others f hf, ← hfields]
      rfl

/-- **What an emulated dispatch leaves** in either case. -/
theorem dispatchEmulated_emulated (hl : s.dispatcher.layout.Exposes v)
    (hbodies : ∀ point ∈ s.dispatcher.layout.entries, point.Confined v) (entry : Nat)
    (groups : Uint3) :
    Emulated v entry s.dispatcher (dispatchEmulated entry groups s).state.dispatcher := by
  rcases dispatchEmulated_refused_or entry groups s with ⟨e, heq⟩ | ⟨point, grid, hpoint, heq⟩
  · rw [heq]
    exact .refl v entry s.dispatcher
  · rw [heq]
    have hconfined := hbodies point (entry_lt hpoint).2
    refine Outcome.Meets.state (I := fun u : Bench K => Emulated v entry s.dispatcher
      u.dispatcher) ?_
    refine (keeps_entering_enter hl _).meets_bind (.refl v _ _) (fun _ h => h.emulated)
      fun _ u hu => ?_
    refine (keeps_entering_runGrid hconfined groups grid).meets_bind hu (fun _ h => h.emulated)
      fun _ u hu => ?_
    have hcommit : Keeps
        (fun u : Bench K => Entering v (s.dispatcher.table entry) s.dispatcher u.dispatcher)
        (forEach (s.dispatcher.table entry).textures fun p =>
          changeTexture p.2 Texture.applyHostChanges) :=
      .forEach fun _ _ => keeps_modify fun _ h => h
    refine hcommit.meets_bind hu (fun _ h => h.emulated) fun _ u hu => ?_
    refine ⟨hu.layout, .inr ?_, hu.held⟩
    show u.dispatcher.tables.set entry (u.dispatcher.table entry).markDirty = _
    rw [Dispatcher.table, hu.tables, Dispatcher.table]

end Bench

/-! ## Runs -/

/-- Slots fill fields, and bodies touch nothing else. -/
structure Layout.Closed (l : Layout K) (v : FieldView K F) : Prop where
  exposes : l.Exposes v
  bodies : ∀ point ∈ l.entries, point.Confined v

namespace BenchOp

variable {s₀ s : Bench K}

/-- A slot stays bound, and fields change by emulation only. -/
theorem run_follows (hl : s.dispatcher.layout.Closed v) (op : BenchOp) :
    s.dispatcher.Follows (op.run s).dispatcher ∧
      ∀ f x, v.held (op.run s).dispatcher.kernel f = some x →
      v.held s.dispatcher.kernel f = some x ∨
        ∃ entry groups slot, op = .emulated entry groups ∧ v.slot slot = f ∧
          (slot, x) ∈ (s.dispatcher.table entry).bound := by
  by_cases hop : ∃ entry groups, op = .emulated entry groups
  · obtain ⟨entry, groups, rfl⟩ := hop
    have hemulated := dispatchEmulated_emulated hl.exposes hl.bodies entry groups
    refine ⟨hemulated.follows, fun f x hx => ?_⟩
    rcases hemulated.held f x hx with ⟨slot, hbound, hslot⟩ | hold
    · exact .inr ⟨entry, groups, slot, rfl, hslot, hbound⟩
    · exact .inl hold
  · have hrebinds := keeps_rebinds op (fun entry groups heq => hop ⟨entry, groups, heq⟩) s
      ⟨.refl s.dispatcher, rfl⟩
    refine ⟨hrebinds.toFollows, fun f x hx => .inl ?_⟩
    rw [← hrebinds.kernel]
    exact hx

/-- The last operation comes after the others. -/
theorem runAll_concat (ops : List BenchOp) (op : BenchOp) (s : Bench K) :
    runAll (ops ++ [op]) s = op.run (runAll ops s) := by
  rw [runAll, List.foldl_append]
  rfl

/-- The kernel class stays the same. -/
theorem runAll_closed (hl : s₀.dispatcher.layout.Closed v) (ops : List BenchOp) :
    (runAll ops s₀).dispatcher.layout.Closed v := by
  induction ops using List.reverseRecOn with
  | nil => exact hl
  | append_singleton ops op ih =>
    rw [runAll_concat, (run_follows ih op).1.layout]
    exact ih

/-- **Where the contents of a field come from.** What is in a field was bound, for a slot of the
field, to an entry point that was emulated, and still is. -/
theorem held_origin (hl : s₀.dispatcher.layout.Closed v)
    (hempty : ∀ f, v.held s₀.dispatcher.kernel f = none) (ops : List BenchOp) {f : F} {x : Resource}
    (hx : v.held (runAll ops s₀).dispatcher.kernel f = some x) :
    ∃ before entry groups after slot, ops = before ++ .emulated entry groups :: after ∧
    v.slot slot = f ∧
      (slot, x) ∈ ((runAll before s₀).dispatcher.table entry).bound ∧
      slot ∈ ((runAll ops s₀).dispatcher.table entry).slots := by
  induction ops using List.reverseRecOn with
  | nil => cases (hempty f).symm.trans hx
  | append_singleton ops op ih =>
    obtain ⟨hfollows, hheld⟩ := run_follows (runAll_closed hl ops) op
    rw [runAll_concat] at hx ⊢
    rcases hheld f x hx with hold | ⟨entry, groups, slot, rfl, hslot, hbound⟩
    · obtain ⟨before, entry, groups, after, slot, rfl, hslot, hbound, hkept⟩ := ih hold
      refine ⟨before, entry, groups, after ++ [op], slot, ?_, hslot, hbound,
        hfollows.slots entry slot hkept⟩
      rw [List.append_assoc, List.cons_append]
    · refine ⟨ops, entry, groups, [], slot, rfl, hslot, hbound, hfollows.slots entry slot ?_⟩
      exact List.mem_map_of_mem hbound

end BenchOp

/-- **What an emulated dispatch can reach.** A kernel starts with empty fields, and its bodies find
resources in fields only. Whatever was done with its dispatcher, an emulated dispatch of an entry
point reads and writes only what is in its reach, and leaves what other entry points know of their
buffers. What is in its reach is bound to the entry point, or it was bound to another one, when that
was emulated, for a slot that has nothing bound for this one. -/
theorem emulation_reach {s₀ : Bench K} (hl : s₀.dispatcher.layout.Closed v)
    (hempty : ∀ f, v.held s₀.dispatcher.kernel f = none) (ops : List BenchOp) (entry : Nat)
    (groups : Uint3) :
    let s := BenchOp.runAll ops s₀
    Touches (v.Reach s.dispatcher entry) (Bench.dispatchEmulated entry groups) s ∧
      (∀ other, other ≠ entry →
        (Bench.dispatchEmulated entry groups s).state.dispatcher.table other =
        s.dispatcher.table other) ∧
      ∀ x, v.Reach s.dispatcher entry x → x ∈ (s.dispatcher.table entry).bound.map Prod.snd ∨
        ∃ before other groups' after slot, ops = before ++ .emulated other groups' :: after ∧
          other ≠ entry ∧ (slot, x) ∈ ((BenchOp.runAll before s₀).dispatcher.table other).bound ∧
          slot ∉ (s.dispatcher.table entry).slots := by
  intro s
  have hclosed := BenchOp.runAll_closed hl ops
  refine ⟨touches_dispatchEmulated hclosed.exposes hclosed.bodies entry groups,
    fun other hother => ?_, ?_⟩
  · rcases (dispatchEmulated_emulated hclosed.exposes hclosed.bodies entry groups).table
      other with heq | ⟨heq, -⟩
    · exact heq
    · exact absurd heq hother
  · rintro x (hbound | ⟨f, hx, hnone⟩)
    · exact .inl hbound
    · obtain ⟨before, other, groups', after, slot, hops, rfl, hbound, hkept⟩ :=
        BenchOp.held_origin hl hempty ops hx
      refine .inr ⟨before, other, groups', after, slot, hops, ?_, hbound,
        fun hslot => hnone slot hslot rfl⟩
      rintro rfl
      exact hnone slot hkept rfl

namespace Twins

/-- Two entry points, for one thread and for two. -/
def dispatcher : Dispatcher Workbench where
  kernel := {}
  layout :=
    { entries := Layout.numbered
        [Workbench.entry "One" ⟨1, 1, 1⟩ .doubleGuarded,
          Workbench.entry "Two" ⟨2, 1, 1⟩ .doubleGuarded]
      slots := [WorkbenchField.u0.slot "numbers"] }
  tables := [{}, {}]
  last := [none, none]

/-- Two buffers of numbers. -/
def bench : Bench Workbench :=
  { dispatcher
    memory := { buffers := #[.ofNumbers #[7, 7] (by decide), .ofNumbers #[8, 8] (by decide)] } }

/-- All slots have the same field. -/
def view : FieldView Workbench WorkbenchField := Workbench.view fun _ => .u0

/-- The kernel class is closed. -/
theorem closed : bench.dispatcher.layout.Closed view where
  exposes := Workbench.exposes fun s hs => by
    rw [List.mem_singleton.1 hs]
    rfl
  bodies point hpoint := by
    rcases List.mem_pair.1 hpoint with rfl | rfl
    · exact Workbench.Body.run_confined _ .doubleGuarded rfl
    · exact Workbench.Body.run_confined _ .doubleGuarded rfl

/-- The fields start empty. -/
theorem empty (f : WorkbenchField) : view.held bench.dispatcher.kernel f = none := by
  cases f <;> rfl

/-- Numbers are bound to the first, which is emulated. -/
def lending : List BenchOp := [.setBuffer 0 "numbers" ⟨0⟩, .emulated 0 ⟨1, 1, 1⟩]

/-- Other numbers are bound to the second entry point. -/
def parting : List BenchOp := lending ++ [.setBuffer 1 "numbers" ⟨1⟩]

/-- The second entry point is emulated. -/
def emulate (ops : List BenchOp) : Outcome (Bench Workbench) Unit :=
  Bench.dispatchEmulated 1 ⟨1, 1, 1⟩ (BenchOp.runAll ops bench)

end Twins

/-- Numbers that are bound to the first entry point only are written by the second. -/
theorem lent_numbers_written :
    let s := BenchOp.runAll Twins.lending Twins.bench
    Twins.bench.dispatcher.layout.Closed Twins.view ∧
      (∀ f, Twins.view.held Twins.bench.dispatcher.kernel f = none) ∧
      (s.dispatcher.table 1).bound = [] ∧ (Twins.emulate Twins.lending).result = .ok () ∧
      (s.memory.buffer ⟨0⟩).words = #[0, 7] ∧
      ((Twins.emulate Twins.lending).state.memory.buffer ⟨0⟩).words = #[0, 2] :=
  ⟨Twins.closed, Twins.empty, by decide +kernel⟩

/-- Numbers of the first entry point are left alone when the second has its own. -/
theorem parted_numbers_kept :
    let s := BenchOp.runAll Twins.parting Twins.bench
    (Twins.emulate Twins.parting).result = .ok () ∧
      (Twins.emulate Twins.parting).state.memory.buffers[0]? = s.memory.buffers[0]? ∧
      ((Twins.emulate Twins.parting).state.memory.buffer ⟨1⟩).words = #[0, 2] := by
  intro s
  obtain ⟨htouches, -, -⟩ := emulation_reach Twins.closed Twins.empty Twins.parting 1 ⟨1, 1, 1⟩
  refine ⟨by decide +kernel, htouches.frame.buffers ⟨0⟩ ?_, by decide +kernel⟩
  rintro (hbound | ⟨f, hheld, hnone⟩)
  · revert hbound
    decide +kernel
  · have hslot : "numbers" ∈ (s.dispatcher.table 1).slots := by decide +kernel
    have hf : f ≠ .u0 := (hnone "numbers" hslot).symm
    have hothers : ∀ f, f ≠ .u0 → Twins.view.held s.dispatcher.kernel f = none := by
      intro f hf
      cases f with
      | u0 => exact absurd rfl hf
      | u1 | i0 | f0 | w0 | v0 | c0 | t0 | t1 => decide +kernel
    cases (hothers f hf).symm.trans hheld

end ComputeKernel
