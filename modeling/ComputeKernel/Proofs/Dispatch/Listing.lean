import ComputeKernel.Proofs.Dispatch.Rest

/-!
# What the device has bound

A device keeps what was bound for each entry point from one dispatch to the next, and records it
with every dispatch. It forgets a slot when what is bound there is released. A dispatcher never
forgets a slot. So while it is the only one that binds on a device, the slots that are bound there
for an entry point are slots of its table, in order (`Bench.Alone.tidy`).
-/

namespace ComputeKernel

open HostDevice ComputeKernel.Action Outcome Keyed

variable {K : Type}

/-! ## What is bound for one entry point -/

/-- What is bound for an entry point is in its table, in order. -/
structure HostBindings.Listed (bound : List (String × Resource)) (b : HostBindings) : Prop where
  buffersOrdered : Ordered b.buffers
  texturesOrdered : Ordered b.textures
  buffers : ∀ p ∈ b.buffers, ∃ r, (p.1, .buffer r) ∈ bound
  textures : ∀ p ∈ b.textures, ∃ r, (p.1, .texture r) ∈ bound

namespace HostBindings.Listed

variable {bound bound' : List (String × Resource)} {b b' : HostBindings}

/-- Nothing is bound. -/
theorem empty (bound : List (String × Resource)) : Listed bound {} :=
  ⟨.nil, .nil, fun _ h => (nomatch h), fun _ h => (nomatch h)⟩

/-- Some of it may be unbound. -/
theorem sublist (h : Listed bound b) (hbuffers : b'.buffers.Sublist b.buffers)
    (htextures : b'.textures.Sublist b.textures) : Listed bound b' where
  buffersOrdered := h.buffersOrdered.sublist hbuffers
  texturesOrdered := h.texturesOrdered.sublist htextures
  buffers p hp := h.buffers p (hbuffers.subset hp)
  textures p hp := h.textures p (htextures.subset hp)

/-- The table may get more slots. -/
theorem mono (h : Listed bound b) (hbuffers : ∀ slot r, (slot, .buffer r) ∈ bound →
    ∃ r, (slot, .buffer r) ∈ bound') (htextures : ∀ slot r, (slot, .texture r) ∈ bound →
    ∃ r, (slot, .texture r) ∈ bound') : Listed bound' b where
  buffersOrdered := h.buffersOrdered
  texturesOrdered := h.texturesOrdered
  buffers p hp := (h.buffers p hp).elim fun r => hbuffers p.1 r
  textures p hp := (h.textures p hp).elim fun r => htextures p.1 r

/-- A buffer of the table may be bound. -/
theorem putBuffer (h : Listed bound b) {slot : String} {r : BufferRef}
    (hslot : (slot, .buffer r) ∈ bound) (handle : BufferHandle) :
    Listed bound { b with buffers := b.buffers.put slot handle } where
  buffersOrdered := h.buffersOrdered.put slot handle
  texturesOrdered := h.texturesOrdered
  buffers p hp := by
    rcases mem_put hp with rfl | hp
    · exact ⟨r, hslot⟩
    · exact h.buffers p hp
  textures := h.textures

/-- A texture of the table may be bound. -/
theorem putTexture (h : Listed bound b) {slot : String} {r : TextureRef}
    (hslot : (slot, .texture r) ∈ bound) (handle : SurfaceHandle) :
    Listed bound { b with textures := b.textures.put slot handle } where
  buffersOrdered := h.buffersOrdered
  texturesOrdered := h.texturesOrdered.put slot handle
  buffers := h.buffers
  textures p hp := by
    rcases mem_put hp with rfl | hp
    · exact ⟨r, hslot⟩
    · exact h.textures p hp

end HostBindings.Listed

/-! ## What is bound on a device -/

/-- What is bound on a device in host memory is bound to slots. -/
def Device.Lists (bound : Nat → List (String × Resource)) : Device → Prop
  | .host d => ∀ entry, (d.bindings entry).Listed (bound entry)
  | .gpu _ => True

namespace Device

variable {α : Type} {bound : Nat → List (String × Resource)}

/-- A use of a device that leaves what is bound. -/
def LeavesBound (a : Action Device α) : Prop :=
  ∀ d : HostDevice, ∃ d', (a (.host d)).state = .host d' ∧ d'.bound = d.bound

/-- A graphics device stays one. -/
theorem gpuStep_state (d : GpuDevice) (r : Except Failure (α × GpuDevice)) :
    ∃ d', (gpuStep d r).state = .gpu d' := by
  cases r with
  | ok x => exact ⟨x.2, rfl⟩
  | error e => exact ⟨d, rfl⟩

/-- It is enough to look at host memory. -/
theorem keeps_lists {a : Action Device α}
    (hhost : ∀ d : HostDevice, Lists bound (.host d) → Lists bound (a (.host d)).state)
    (hgpu : ∀ d, ∃ d', (a (.gpu d)).state = .gpu d') : Keeps (Lists bound) a := by
  rintro (d | d) hd
  · exact hhost d hd
  · obtain ⟨d', hstate⟩ := hgpu d
    rw [hstate]
    trivial

/-- What leaves what is bound keeps this. -/
theorem LeavesBound.keeps_lists {a : Action Device α} (ha : LeavesBound a)
    (hgpu : ∀ d, ∃ d', (a (.gpu d)).state = .gpu d') : Keeps (Lists bound) a := by
  refine Device.keeps_lists (fun d hd => ?_) hgpu
  obtain ⟨d', hstate, hbound⟩ := ha d
  rw [hstate]
  intro entry
  rw [bindings, hbound]
  exact hd entry

/-- Making a buffer leaves what is bound. -/
theorem leavesBound_createBuffer (count stride : Nat) :
    LeavesBound (createBuffer count stride) := by
  intro d
  refine ⟨_, rfl, ?_⟩
  have hkeeps : Keeps (fun d' : HostDevice => d'.bound = d.bound)
      (HostDevice.createBuffer count stride) := by
    rw [HostDevice.createBuffer]
    split
    · exact Keeps.bind (fun _ hd => hd) fun _ => (keeps_ofExcept _).bind fun _ =>
        Keeps.bind (fun _ hd => hd) fun _ => keeps_pure _
    · exact keeps_ofExcept _
  exact hkeeps d rfl

/-- So does making a surface. -/
theorem leavesBound_createSurface (width height : UInt32) (format : TexelFormat) :
    LeavesBound (createSurface width height format) := by
  intro d
  refine ⟨_, rfl, ?_⟩
  have hkeeps : Keeps (fun d' : HostDevice => d'.bound = d.bound)
      (HostDevice.createSurface width height format) :=
    Keeps.bind (fun _ hd => hd) fun _ => (keeps_ofExcept _).bind fun _ =>
      Keeps.bind (fun _ hd => hd) fun _ => keeps_pure _
  exact hkeeps d rfl

/-- So does sending to a buffer. -/
theorem leavesBound_upload (h : BufferHandle) (bytes : Bytes) : LeavesBound (upload h bytes) := by
  intro d
  rcases d.upload_cases h bytes with ⟨_, _, _, heq⟩ | ⟨_, heq⟩
  · exact ⟨_, congrArg state heq, rfl⟩
  · exact ⟨_, congrArg state heq, rfl⟩

/-- So does reading a buffer. -/
theorem leavesBound_download (h : BufferHandle) (size : Nat) : LeavesBound (download h size) := by
  intro d
  rcases d.download_cases h size with ⟨_, heq⟩ | ⟨_, heq⟩
  · exact ⟨_, congrArg state heq, rfl⟩
  · exact ⟨_, congrArg state heq, rfl⟩

/-- So does sending to a surface. -/
theorem leavesBound_blit (h : SurfaceHandle) (pixels : Array Float4) :
    LeavesBound (blit h pixels) := by
  intro d
  rcases d.blit_cases h pixels with ⟨_, _, heq⟩ | ⟨_, _, heq⟩
  · exact ⟨_, congrArg state heq, rfl⟩
  · exact ⟨_, congrArg state heq, rfl⟩

/-- So does reading a surface. -/
theorem leavesBound_readBack (h : SurfaceHandle) (out : Array Float4) :
    LeavesBound (readBack h out) := by
  intro d
  rcases d.readBack_cases h out with ⟨_, heq⟩ | ⟨_, heq⟩
  · exact ⟨_, congrArg state heq, rfl⟩
  · exact ⟨_, congrArg state heq, rfl⟩

/-- So does a dispatch. -/
theorem leavesBound_dispatch (entry : Nat) (groups : Uint3) :
    LeavesBound (dispatch entry groups) := by
  intro d
  rcases d.dispatch_cases entry groups with heq | ⟨_, heq⟩
  · exact ⟨_, congrArg state heq, rfl⟩
  · exact ⟨_, congrArg state heq, rfl⟩

/-- Slots are forgotten by releases, and none are new. -/
theorem stable_lists (bound : Nat → List (String × Resource)) : Stable (Lists bound) where
  createBuffer count stride := (leavesBound_createBuffer count stride).keeps_lists fun d =>
    gpuStep_state d _
  upload h bytes := (leavesBound_upload h bytes).keeps_lists fun d => gpuStep_state d _
  download h size := (leavesBound_download h size).keeps_lists fun d => gpuStep_state d _
  releaseBuffer h := by
    refine keeps_lists (fun d hd entry => ?_) fun d => ⟨_, rfl⟩
    rw [bindings_releaseBuffer]
    exact (hd entry).sublist List.filter_sublist (List.Sublist.refl _)
  createSurface width height format :=
    (leavesBound_createSurface width height format).keeps_lists fun d => gpuStep_state d _
  blit h pixels := (leavesBound_blit h pixels).keeps_lists fun d => gpuStep_state d _
  readBack h out := (leavesBound_readBack h out).keeps_lists fun d => ⟨d, rfl⟩
  releaseSurface h := by
    refine keeps_lists (fun d hd entry => ?_) fun d => ⟨_, rfl⟩
    rw [bindings_releaseSurface]
    exact (hd entry).sublist (List.Sublist.refl _) List.filter_sublist

/-- Binding a buffer of the table keeps this. -/
theorem keeps_lists_bindBuffer {entry : Nat} {slot : String} {r : BufferRef}
    (hslot : (slot, .buffer r) ∈ bound entry) (h : BufferHandle) :
    Keeps (Lists bound) (bindBuffer entry slot h) := by
  refine keeps_lists (fun d hd => ?_) fun d => gpuStep_state d _
  rcases d.bindBuffer_cases entry slot h with ⟨-, -, heq⟩ | ⟨e, heq⟩
  · rw [heq]
    intro entry'
    rw [bindings_setBindings]
    split
    next hentry => exact hentry.1 ▸ (hd entry).putBuffer hslot h
    next => exact hd entry'
  · rw [heq]
    exact hd

/-- Binding a texture of the table keeps it. -/
theorem keeps_lists_bindTexture {entry : Nat} {slot : String} {r : TextureRef}
    (hslot : (slot, .texture r) ∈ bound entry) (h : SurfaceHandle) :
    Keeps (Lists bound) (bindTexture entry slot h) := by
  refine keeps_lists (fun d hd => ?_) fun d => gpuStep_state d _
  rcases d.bindTexture_cases entry slot h with heq | ⟨e, heq⟩
  · rw [heq]
    intro entry'
    rw [bindings_setBindings]
    split
    next hentry => exact hentry.1 ▸ (hd entry).putTexture hslot h
    next => exact hd entry'
  · rw [heq]
    exact hd

end Device

/-- The tables may get more slots. -/
theorem Device.Lists.mono {bound bound' : Nat → List (String × Resource)} {device : Device}
    (h : device.Lists bound) (hbuffers : ∀ entry slot r, (slot, .buffer r) ∈ bound entry →
    ∃ r, (slot, .buffer r) ∈ bound' entry)
    (htextures : ∀ entry slot r, (slot, .texture r) ∈ bound entry →
    ∃ r, (slot, .texture r) ∈ bound' entry) :
    device.Lists bound' := by
  cases device with
  | host d => exact fun entry => (h entry).mono (hbuffers entry) (htextures entry)
  | gpu d => trivial

/-! ## Operations -/

namespace Bench

variable {s s' : Bench K}

/-- What is bound on the device is in the tables. -/
def Listed (s : Bench K) : Prop :=
  ∀ device, s.device = some device → device.Lists fun entry => (s.dispatcher.table entry).bound

/-- A table may get more slots. -/
theorem Listed.setTable (hs : s.Listed) {entry : Nat} {t : Table}
    (hbuffers : ∀ p ∈ (s.dispatcher.table entry).buffers, ∃ q ∈ t.buffers, q.1 = p.1)
    (htextures : ∀ p ∈ (s.dispatcher.table entry).textures, ∃ q ∈ t.textures, q.1 = p.1) :
    Listed { s with dispatcher := s.dispatcher.setTable entry t } := by
  refine fun device hdevice => (hs device hdevice).mono (fun entry' slot r hr => ?_)
    fun entry' slot r hr => ?_
  · rcases s.dispatcher.table_setTable_cases entry t entry' with ⟨rfl, heq⟩ | heq
    · obtain ⟨b, hb, -⟩ := Table.mem_bound_buffer.1 hr
      obtain ⟨⟨_, b'⟩, hb', rfl⟩ := hbuffers _ hb
      exact ⟨b'.buffer, by rw [heq]; exact Table.mem_bound_buffer.2 ⟨b', hb', rfl⟩⟩
    · exact ⟨r, by rw [heq]; exact hr⟩
  · rcases s.dispatcher.table_setTable_cases entry t entry' with ⟨rfl, heq⟩ | heq
    · obtain ⟨⟨_, r'⟩, hr', rfl⟩ := htextures _ (Table.mem_bound_texture.1 hr)
      exact ⟨r', by rw [heq]; exact Table.mem_bound_texture.2 hr'⟩
    · exact ⟨r, by rw [heq]; exact hr⟩

/-- Presenting a table keeps it. -/
theorem presentable_lists (s : Bench K) (entry : Nat) (groups : Uint3) :
    Presentable (Device.Lists fun entry => (s.dispatcher.table entry).bound) s entry groups where
  buffers _ _ hslot h := Device.keeps_lists_bindBuffer hslot h
  textures _ _ hslot h := Device.keeps_lists_bindTexture hslot h
  dispatch := (Device.leavesBound_dispatch entry groups).keeps_lists fun d => by
    simp only [Device.dispatch]
    cases d.dispatch entry groups with
    | ok name => exact ⟨d, rfl⟩
    | error e => exact ⟨d, rfl⟩

end Bench

/-- **One operation** binds only slots of the tables. -/
theorem BenchOp.run_listed {s : Bench K} (hs : s.Listed) (hbodies : s.dispatcher.layout.Preserves)
    {op : BenchOp} (hop : op.Lawful s.memory) : (op.run s).Listed := by
  by_cases hbinds : op.Binds
  · rw [run]
    cases op with
    | setBuffer entry slot r =>
      rcases Bench.setBuffer_cases entry slot r s with ⟨e, heq⟩ | ⟨-, events, heq⟩
      · rw [act, heq]
        exact hs
      · rw [act, heq]
        exact hs.setTable (fun p hp => key_put hp _ _) fun p hp => ⟨p, hp, rfl⟩
    | setTexture entry slot r =>
      rcases Bench.setTexture_cases entry slot r s with ⟨e, heq⟩ | ⟨-, events, heq⟩
      · rw [act, heq]
        exact hs
      · rw [act, heq]
        exact hs.setTable (fun p hp => ⟨p, hp, rfl⟩) fun p hp => key_put hp _ _
    | invalidate | hardware | emulated | download | dispose | caller => cases hbinds
  · have hproper : op.Proper s.memory := by
      cases op with
      | setBuffer => exact hop
      | caller change => exact ⟨hop.buffers, hop.elements⟩
      | setTexture | invalidate | hardware | emulated | download | dispose => trivial
    have htyped : ∀ point ∈ s.dispatcher.layout.entries, ∀ id (t : Scene K),
        t.memory.Typed (point.body id t).state.memory :=
      fun point hpoint id t => ⟨(hbodies point hpoint id t).buffers,
        (hbodies point hpoint id t).elements⟩
    have hrests := run_rests hbinds hproper htyped (Device.stable_lists _) s.presentable_lists hs
    intro device hdevice
    rw [funext hrests.bound]
    exact hrests.device device hdevice

/-! ## Runs -/

namespace Bench

variable {s s' : Bench K}

/-- The textures of each table are in order. -/
def TexturesOrdered (s : Bench K) : Prop := ∀ entry, Ordered (s.dispatcher.table entry).textures

/-- A table may get textures in order. -/
theorem TexturesOrdered.setTable (hs : s.TexturesOrdered) {entry : Nat} {t : Table}
    (ht : Ordered t.textures) {m : Memory} {device : Option Device} :
    TexturesOrdered ⟨s.dispatcher.setTable entry t, m, device⟩ := by
  intro entry'
  show Ordered ((s.dispatcher.setTable entry t).table entry').textures
  rcases s.dispatcher.table_setTable_cases entry t entry' with ⟨-, heq⟩ | heq
  · rw [heq]
    exact ht
  · rw [heq]
    exact hs entry'

/-- A step keeps them in order. -/
theorem Step.texturesOrdered (h : Step s s') (hs : s.TexturesOrdered) : s'.TexturesOrdered := by
  cases h with
  | aside | exchange => exact hs
  | bindBuffer entry | markDirty entry =>
    refine hs.setTable ?_
    exact hs entry
  | @transfer _ _ _ entry =>
    refine hs.setTable ?_
    exact hs entry
  | bindTexture entry slot =>
    refine hs.setTable ?_
    exact (hs entry).put slot _

/-- Bound textures are in order, and what is bound on the device is bound to slots. -/
structure Tidy (s : Bench K) : Prop where
  present : s.Present
  ordered : s.TexturesOrdered
  listed : s.Listed

/-- A walk keeps them there and in order. -/
theorem Walk.texturesOrdered (h : Walk s s') (hs : s.Present ∧ s.TexturesOrdered) :
    s'.Present ∧ s'.TexturesOrdered := by
  induction h with
  | refl => exact hs
  | tail _ hstep ih => exact ⟨hstep.present ih.1, hstep.texturesOrdered ih.2⟩

/-- The states of a dispatcher on a device in host memory, which is new at first. Others may write
resources, and use the device as long as they bind nothing there. -/
inductive Alone : Bench K → Prop
  | attached {d : Dispatcher K} {m : Memory} (names : List String) :
  d.Detached m → d.layout.Preserves →
      (∀ entry, Ordered (d.table entry).textures) →
      (∀ entry, ∀ p ∈ (d.table entry).textures, p.2.index < m.textures.size) →
      Alone (d.on ⟨m, .host (.ofEntries names)⟩)
  | run {s : Bench K} (op : BenchOp) : Alone s → op.Lawful s.memory → Alone (op.run s)
  | meanwhile {s s' : Bench K} : Alone s → Meanwhile s s' → s.memory.textures.size ≤
    s'.memory.textures.size →
      (∀ d d', s.device = some (.host d) → s'.device = some (.host d') →
        d'.bound = d.bound) → Alone s'

/-- These states are reachable. -/
theorem Alone.reachable (h : s.Alone) : s.Reachable := by
  induction h with
  | attached names hdetached hbodies => exact .attached hdetached hbodies (List.length_map _)
  | run op _ hop ih => exact ih.run op hop
  | meanwhile _ hmeanwhile _ _ ih => exact ih.meanwhile hmeanwhile

/-- **What is bound on the device is in the tables** in all these states. -/
theorem Alone.tidy (h : s.Alone) : s.Tidy := by
  induction h with
  | @attached d m names hdetached hbodies hordered hpresent =>
    refine ⟨hpresent, hordered, ?_⟩
    rintro _ ⟨⟩ entry
    have hempty : (ofEntries names).bindings entry = {} := by
      simp only [bindings, ofEntries, List.getElem?_map]
      cases names[entry]? <;> rfl
    rw [hempty]
    exact .empty _
  | run op hs hop ih =>
    obtain ⟨hready, -⟩ := hs.reachable.kept
    obtain ⟨hpresent, hordered⟩ := (op.walks hready hop).texturesOrdered ⟨ih.present, ih.ordered⟩
    exact ⟨hpresent, hordered, BenchOp.run_listed ih.listed hready.bodies hop⟩
  | @meanwhile s s' hs hmeanwhile hsize hbound ih =>
    obtain ⟨⟨d, hd⟩, -, -⟩ := hs.reachable.kept.1
    obtain ⟨d', hd', -⟩ := hmeanwhile.device d hd
    have htable : ∀ entry, s'.dispatcher.table entry = s.dispatcher.table entry := by
      intro entry
      rw [Dispatcher.table, hmeanwhile.tables, Dispatcher.table]
    refine ⟨fun entry p hp => ?_, fun entry => ?_, fun device hdevice => ?_⟩
    · rw [htable] at hp
      exact (ih.present entry p hp).trans_le hsize
    · rw [htable]
      exact ih.ordered entry
    · cases hd'.symm.trans hdevice
      intro entry
      dsimp only
      rw [htable, bindings, hbound d d' hd hd']
      exact ih.listed _ hd entry

end Bench

end ComputeKernel
