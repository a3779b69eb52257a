import ComputeKernel.Proofs.Dispatch.Step
import ComputeKernel.Proofs.Resource.Footprint

/-!
# What an emulated dispatch can reach

The bodies of a kernel class find resources in the fields of the kernel only
(`EntryPoint.Confined`). Before the lanes run, what is bound to the entry point is put into the
fields of its slots; the other fields keep what they have (`Bench.enter_within`). So an emulated
dispatch touches what is bound to its entry point, and what is in fields that have no slot bound to
it (`FieldView.Reach`), and nothing else (`Bench.touches_dispatchEmulated`).
-/

namespace ComputeKernel

open ComputeKernel.Action
open HasMemory

/-! ## Fields -/

/-- The fields of a kernel, and the field of each slot. -/
structure FieldView (K F : Type) where
  held : K → F → Option Resource
  slot : String → F

variable {K F : Type} {v : FieldView K F}

/-- A resource was put into the field of a slot. -/
def FieldView.Sets (v : FieldView K F) (slot : String) (x : Resource) (k k' : K) : Prop :=
  v.held k' (v.slot slot) = some x ∧ ∀ f, f ≠ v.slot slot → v.held k' f = v.held k f

/-- The fields of a kernel hold certain resources only. -/
def FieldView.Within (v : FieldView K F) (R : Resource → Prop) (k : K) : Prop :=
  ∀ f x, v.held k f = some x → R x

/-- Binding puts a resource into the field of the slot. -/
structure Layout.Exposes (l : Layout K) (v : FieldView K F) : Prop where
  buffer : ∀ s ∈ l.slots, ∀ element r k k', s.bindBuffer? element r k = some k' →
    v.Sets s.name (.buffer r) k k'
  texture : ∀ s ∈ l.slots, ∀ r k k', s.bindTexture? r k = some k' → v.Sets s.name (.texture r) k k'

/-- A body leaves the fields, and touches only what they hold. -/
structure EntryPoint.Confined (v : FieldView K F) (point : EntryPoint K) : Prop where
  fields : ∀ id (s : Scene K), v.held (point.body id s).state.kernel = v.held s.kernel
  touches : ∀ id (s : Scene K), Touches (fun x => ∃ f, v.held s.kernel f = some x) (point.body id) s

namespace Table

variable (t : Table)

/-- The bound resources with their slots, as they are entered. -/
def bound : List (String × Resource) :=
  t.buffers.map (fun p => (p.1, .buffer p.2.buffer)) ++ t.textures.map fun p => (p.1, .texture p.2)

/-- The slots that have something bound. -/
def slots : List String := t.bound.map Prod.fst

/-- They are those of buffers and of textures. -/
theorem slots_eq : t.slots = t.buffers.keys ++ t.textures.keys := by
  simp [slots, bound, Keyed.keys, Function.comp_def]

end Table

/-- What an emulated dispatch can reach: what is bound to the entry point, and what is in fields
without a bound slot. -/
def FieldView.Reach (v : FieldView K F) (d : Dispatcher K) (entry : Nat) (x : Resource) : Prop :=
  x ∈ (d.table entry).bound.map Prod.snd ∨
    ∃ f, v.held d.kernel f = some x ∧ ∀ slot ∈ (d.table entry).slots, v.slot slot ≠ f

/-! ## Before the lanes -/

namespace Bench

variable {d : Dispatcher K} {p : String × Resource} {point : EntryPoint K} {t : Table}

/-- Put a resource into its field, and make it ready. -/
def enterResource : String × Resource → Action (Bench K) Unit
  | (slot, .buffer r) => bindBufferField slot r
  | (slot, .texture r) => enterTexture slot r

/-- Entering a table is entering what is bound. -/
theorem enter_eq (t : Table) :
    (enter t : Action (Bench K) Unit) = forEach t.bound enterResource := by
  rw [Table.bound, forEach_append, forEach_map, forEach_map]
  rfl

variable {s : Bench K} {slot : String}

/-- A dispatcher has put a resource into the field of its slot. -/
def Enters (v : FieldView K F) (p : String × Resource) (d d' : Dispatcher K) : Prop :=
  ∃ kernel, d' = { d with kernel } ∧ v.Sets p.1 p.2 d.kernel kernel

/-- A buffer enters its field. -/
theorem bindBufferField_enters (hl : s.dispatcher.layout.Exposes v) (slot : String)
    (r : BufferRef) :
    (bindBufferField slot r s).Meets
      (fun _ t => Enters v (slot, .buffer r) s.dispatcher t.dispatcher)
      fun t => t.dispatcher = s.dispatcher := by
  simp only [bindBufferField]
  split
  next kernel hkernel =>
    obtain ⟨declared, hslot, hbind⟩ := Option.bind_eq_some_iff.1 hkernel
    obtain ⟨hmem, rfl⟩ := Layout.mem_of_slot? hslot
    exact ⟨kernel, rfl, hl.buffer declared hmem _ r _ _ hbind⟩
  next => exact rfl

/-- A texture enters its field. -/
theorem bindTextureField_enters (hl : s.dispatcher.layout.Exposes v) (slot : String)
    (r : TextureRef) :
    (bindTextureField slot r s).Meets
      (fun _ t => Enters v (slot, .texture r) s.dispatcher t.dispatcher)
      fun t => t.dispatcher = s.dispatcher := by
  simp only [bindTextureField]
  split
  next kernel hkernel =>
    obtain ⟨declared, hslot, hbind⟩ := Option.bind_eq_some_iff.1 hkernel
    obtain ⟨hmem, rfl⟩ := Layout.mem_of_slot? hslot
    exact ⟨kernel, rfl, hl.texture declared hmem r _ _ hbind⟩
  next => exact rfl

/-- Fetching leaves the dispatcher. -/
theorem dispatcher_fetchTexture (r : TextureRef) (s : Bench K) :
    (fetchTexture r s).state.dispatcher = s.dispatcher := by
  unfold fetchTexture
  split
  next => rfl
  next => rfl

/-- **What entering a resource does.** The resource is in the field of its slot, and nothing else
has changed, unless it fails. -/
theorem enterResource_enters (hl : s.dispatcher.layout.Exposes v) (p : String × Resource) :
    (enterResource p s).Meets (fun _ t => Enters v p s.dispatcher t.dispatcher)
      fun t => t.dispatcher = s.dispatcher ∨ Enters v p s.dispatcher t.dispatcher := by
  obtain ⟨slot, r | r⟩ := p
  · exact (bindBufferField_enters hl slot r).mono_broken fun _ h => .inl h
  · refine meets_bind ((bindTextureField_enters hl slot r).mono_broken fun _ h => .inl h)
      fun _ t ht => ?_
    have hkeeps : Keeps (fun u : Bench K => Enters v (slot, .texture r) s.dispatcher u.dispatcher)
        (do fetchTexture r
            changeTexture r Texture.hintHost) := by
      refine Keeps.bind (fun u hu => ?_) fun _ => keeps_modify fun _ hu => hu
      rw [dispatcher_fetchTexture]
      exact hu
    exact (hkeeps.meets ht).mono_broken fun _ h => .inr h

/-- While a table is entered, a field holds one of its resources or what it held, and one without a
slot there what it held. -/
structure Entering (v : FieldView K F) (t : Table) (d d' : Dispatcher K) : Prop where
  layout : d'.layout = d.layout
  tables : d'.tables = d.tables
  held : ∀ f x, v.held d'.kernel f = some x →
    (∃ slot, (slot, x) ∈ t.bound ∧ v.slot slot = f) ∨ v.held d.kernel f = some x
  others : ∀ f, (∀ slot ∈ t.slots, v.slot slot ≠ f) → v.held d'.kernel f = v.held d.kernel f

/-- Nothing was entered yet. -/
theorem Entering.refl (v : FieldView K F) (t : Table) (d : Dispatcher K) : Entering v t d d :=
  ⟨rfl, rfl, fun _ _ h => .inr h, fun _ _ => rfl⟩

/-- One more is entered. -/
theorem Entering.enters {d d' d'' : Dispatcher K} (h : Entering v t d d')
    (hp : p ∈ t.bound) (henters : Enters v p d' d'') : Entering v t d d'' := by
  obtain ⟨kernel, rfl, hself, hothers⟩ := henters
  refine ⟨h.layout, h.tables, fun f x hx => ?_, fun f hf => ?_⟩
  · by_cases hfield : f = v.slot p.1
    · subst hfield
      cases hself.symm.trans hx
      exact .inl ⟨p.1, hp, rfl⟩
    · exact h.held f x ((hothers f hfield).symm.trans hx)
  · have hfield : f ≠ v.slot p.1 := (hf p.1 (List.mem_map_of_mem hp)).symm
    exact (hothers f hfield).trans (h.others f hf)

/-- Entering one keeps this. -/
theorem keeps_entering (hl : d.layout.Exposes v)
    (hp : p ∈ t.bound) :
    Keeps (fun s : Bench K => Entering v t d s.dispatcher) (enterResource p) := by
  intro s hs
  refine ((enterResource_enters (hs.layout ▸ hl) p).mono (fun _ _ h => hs.enters hp h)
    fun u hu => ?_).state
  rcases hu with hsame | henters
  · exact hsame ▸ hs
  · exact hs.enters hp henters

/-- The field of a bound slot holds something bound. -/
theorem enter_holds_bound (hl : s.dispatcher.layout.Exposes v) (hp : p ∈ t.bound) :
    (enter t s).Meets (fun _ u => ∃ q ∈ t.bound, v.held u.dispatcher.kernel (v.slot p.1) = some q.2)
      fun _ => True := by
  have hset : ∀ c ∈ t.bound, ∀ u : Bench K, Entering v t s.dispatcher u.dispatcher →
      (c = p ∨ ∃ q ∈ t.bound, v.held u.dispatcher.kernel (v.slot p.1) = some q.2) →
      (enterResource c u).Meets (fun _ u => Entering v t s.dispatcher u.dispatcher ∧
        ∃ q ∈ t.bound, v.held u.dispatcher.kernel (v.slot p.1) = some q.2)
      fun u => Entering v t s.dispatcher u.dispatcher := by
    intro c hc u hu hfield
    have hkeeps := keeps_entering hl hc u hu
    refine ((enterResource_enters (hu.layout ▸ hl) c).and_state hkeeps).mono
      (fun _ w hw => ⟨hw.2, ?_⟩) fun _ h => h.2
    obtain ⟨⟨kernel, hkernel, hself, hothers⟩, -⟩ := hw
    rw [hkernel]
    by_cases hsame : v.slot p.1 = v.slot c.1
    · exact ⟨c, hc, hsame ▸ hself⟩
    · rcases hfield with rfl | ⟨q, hq, hheld⟩
      · exact absurd rfl hsame
      · exact ⟨q, hq, (hothers _ hsame).trans hheld⟩
  have hstart : Entering v t s.dispatcher s.dispatcher := .refl v t s.dispatcher
  rw [enter_eq]
  refine (meets_forEach (I := fun u : Bench K => Entering v t s.dispatcher u.dispatcher) hp
    (fun c hc => keeps_entering hl hc) (fun c hc u hu => hset c hc u hu.1 (.inr hu.2))
    (fun u hu => hset p hp u hu (.inl rfl)) hstart).mono (fun _ _ h => h.2) fun _ _ => trivial

/-- Entering all keeps this. -/
theorem keeps_entering_enter (hl : d.layout.Exposes v) (t : Table) :
    Keeps (fun s : Bench K => Entering v t d s.dispatcher) (enter t) := by
  rw [enter_eq]
  exact .forEach fun p hp => keeps_entering hl hp

/-- **What the lanes find in the fields.** It is bound now, or was there in a field without a bound
slot. -/
theorem enter_within (hl : s.dispatcher.layout.Exposes v) (entry : Nat) :
    (enter (s.dispatcher.table entry) s).result = .ok () →
      v.Within (v.Reach s.dispatcher entry)
        (enter (s.dispatcher.table entry) s).state.dispatcher.kernel := by
  intro hok f x hx
  by_cases hfield : ∃ slot ∈ (s.dispatcher.table entry).slots, v.slot slot = f
  · obtain ⟨slot, hslot, rfl⟩ := hfield
    obtain ⟨p, hp, rfl⟩ := List.mem_map.1 hslot
    obtain ⟨q, hq, hheld⟩ := (enter_holds_bound hl hp).of_ok hok
    cases hheld.symm.trans hx
    exact .inl (List.mem_map_of_mem hq)
  · have hnone : ∀ slot ∈ (s.dispatcher.table entry).slots, v.slot slot ≠ f :=
      fun slot hslot heq => hfield ⟨slot, hslot, heq⟩
    have hentering := keeps_entering_enter hl (s.dispatcher.table entry) s (.refl v _ s.dispatcher)
    exact .inr ⟨f, (hentering.others f hnone).symm.trans hx, hnone⟩

/-! ## Footprints -/

variable {R : Resource → Prop}

/-- Putting a buffer into its field touches it. -/
theorem touches_bindBufferField (slot : String) {r : BufferRef} (hr : R (.buffer r)) :
    Touches R (bindBufferField slot r) s where
  frame := by
    simp only [bindBufferField]
    split
    next => exact .refl _ _
    next => exact .refl _ _
  same m hm := by
    have helement : (m.buffer r).element = (s.memory.buffer r).element :=
      congrArg Buffer.element (hm.buffer hr)
    simp only [bindBufferField, withMemory, helement]
    split
    next => exact ⟨m, hm, rfl⟩
    next => exact ⟨m, hm, rfl⟩

/-- Putting a texture there touches nothing. -/
theorem touches_bindTextureField (slot : String) (r : TextureRef) :
    Touches R (bindTextureField slot r) s := by
  refine touches_of_aside ?_ fun m => ?_
  · simp only [bindTextureField]
    split
    next => rfl
    next => rfl
  · simp only [bindTextureField, withMemory]
    split
    next => rfl
    next => rfl

/-- Changing a texture touches it. -/
theorem touches_changeTexture {r : TextureRef} (hr : R (.texture r)) (f : Texture → Texture) :
    Touches R (changeTexture r f) s where
  frame := s.memory.agrees_modifyTexture hr f
  same m hm := ⟨m.modifyTexture r f, hm.modifyTexture r f, rfl⟩

/-- Fetching a texture touches it. -/
theorem touches_fetchTexture {r : TextureRef} (hr : R (.texture r)) :
    Touches R (fetchTexture r) s := by
  obtain ⟨dispatcher, memory, device⟩ := s
  cases device with
  | none => exact touches_of_aside rfl fun _ => rfl
  | some device =>
    refine ⟨memory.agrees_setTexture hr _, fun m hm => ?_⟩
    have htexture : m.texture r = memory.texture r := hm.texture hr
    refine ⟨m.setTexture r (Texture.toHost (memory.texture r, device)).state.1,
      hm.setTexture r _, ?_⟩
    simp only [fetchTexture, withMemory, Machine.onTexture, zoom, htexture]

/-- Entering a resource touches it and nothing else. -/
theorem touches_enterResource (hp : R p.2) : Touches R (enterResource p) s := by
  obtain ⟨slot, r | r⟩ := p
  · exact touches_bindBufferField slot hp
  · refine (touches_bindTextureField slot r).bind fun _ _ =>
      (touches_fetchTexture hp).bind fun _ _ => ?_
    exact touches_changeTexture hp _

/-- Entering a table touches what is bound. -/
theorem touches_enter (ht : ∀ p ∈ t.bound, R p.2) : Touches R (enter t) s := by
  rw [enter_eq]
  exact touches_forEach (I := fun _ => True) (fun _ _ _ _ => trivial)
    (fun p hp _ _ => touches_enterResource (ht p hp)) trivial

/-- What bodies touch lies in the fields. -/
theorem touches_body (hpoint : point.Confined v) (id : Uint3) {s : Scene K}
    (hs : v.Within R s.kernel) : Touches R (point.body id) s :=
  (hpoint.touches id s).mono (fun m => hpoint.touches id { s with memory := m })
    fun x ⟨f, hx⟩ => hs f x hx

/-- The lanes touch what is in the fields. -/
theorem touches_runLanes (hpoint : point.Confined v) (groups : Uint3) {s : Scene K}
    (hs : v.Within R s.kernel) : Touches R (runLanes point groups) s := by
  refine touches_forEach (I := fun s : Scene K => v.Within R s.kernel) (fun c _ => ?_)
    (fun c _ s hs => ?_) hs
  · refine (keeps_ofExcept _).bind fun id s hs => ?_
    rw [FieldView.Within, hpoint.fields id s]
    exact hs
  · refine Touches.bind (touches_of_aside rfl fun _ => rfl) fun id _ => ?_
    exact touches_body hpoint id hs

/-- An action touches what it touches of the scene. -/
theorem touches_onScene {α : Type} {a : Action (Scene K) α}
    (ha : Touches R a ⟨s.dispatcher.kernel, s.memory⟩) : Touches R (onScene a) s where
  frame := ha.frame
  same m hm := by
    obtain ⟨m', hm', heq⟩ := ha.same m hm
    refine ⟨m', hm', ?_⟩
    simp only [onScene, zoom, withMemory] at heq ⊢
    rw [heq]

/-- The grid touches what is in the fields. -/
theorem touches_runGrid (hpoint : point.Confined v) (groups grid : Uint3)
    (hs : v.Within R s.dispatcher.kernel) : Touches R (runGrid point groups grid) s := by
  rw [runGrid]
  split
  next => exact touches_report _
  next => exact (touches_report _).bind fun _ _ =>
    touches_onScene (touches_runLanes hpoint groups hs)

/-- Leaving touches what is bound. -/
theorem touches_leave (entry : Nat) (ht : ∀ p ∈ t.bound, R p.2) : Touches R (leave entry t) s := by
  refine Touches.bind ?_ fun _ _ => Touches.bind ?_ fun _ _ => ?_
  · refine touches_forEach (I := fun _ => True) (fun _ _ _ _ => trivial)
      (fun p hp _ _ => ?_) trivial
    exact touches_changeTexture (ht (p.1, .texture p.2)
      (List.mem_append_right _ (List.mem_map_of_mem hp))) _
  · exact touches_of_aside rfl fun _ => rfl
  · exact touches_of_aside rfl fun _ => rfl

/-- The emulated dispatch of an entry point. -/
def emulation (d : Dispatcher K) (entry : Nat) (groups : Uint3) : Action (Bench K) Unit :=
  match d.layout.entry entry with
  | .error e => fail (.dispatch e)
  | .ok point =>
    match Grid.grid? point.extent groups with
    | none => fail (.dispatch (.gridOverflow point.name point.extent groups))
    | some grid => do
      enter (d.table entry)
      runGrid point groups grid
      leave entry (d.table entry)

/-- A dispatch is the one for its dispatcher. -/
theorem dispatchEmulated_eq (entry : Nat) (groups : Uint3) (s : Bench K) :
    dispatchEmulated entry groups s = emulation s.dispatcher entry groups s := by
  rw [dispatchEmulated, check_bind, emulation]
  cases s.dispatcher.layout.entry entry with
  | error e => rfl
  | ok point =>
    dsimp only
    cases Grid.grid? point.extent groups with
    | none => rfl
    | some grid => rfl

/-- **What an emulated dispatch touches** is in its reach. -/
theorem touches_dispatchEmulated (hl : s.dispatcher.layout.Exposes v)
    (hbodies : ∀ point ∈ s.dispatcher.layout.entries, point.Confined v) (entry : Nat)
    (groups : Uint3) :
    Touches (v.Reach s.dispatcher entry) (dispatchEmulated entry groups) s := by
  refine Touches.congr ?_ (dispatchEmulated_eq entry groups s) fun m =>
    dispatchEmulated_eq entry groups _
  have hbound : ∀ p ∈ (s.dispatcher.table entry).bound, v.Reach s.dispatcher entry p.2 :=
    fun p hp => .inl (List.mem_map_of_mem hp)
  rw [emulation]
  cases hpoint : s.dispatcher.layout.entry entry with
  | error e => exact touches_of_aside rfl fun _ => rfl
  | ok point =>
    dsimp only
    cases Grid.grid? point.extent groups with
    | none => exact touches_of_aside rfl fun _ => rfl
    | some grid =>
      have hconfined := hbodies point (entry_lt hpoint).2
      refine (touches_enter hbound).bind fun _ hok => ?_
      exact (touches_runGrid hconfined groups grid (enter_within hl entry hok)).bind fun _ _ =>
        touches_leave entry hbound

end Bench

end ComputeKernel
