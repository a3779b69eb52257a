import ComputeKernel.Proofs.Dispatch.Rest

/-!
# Mistakes in binding and dispatch

A mistake of the caller (`DispatchError`) is found before anything is changed (`Action.Atomic`). For
most operations that is because their checks come first: what follows fails with faults and refusals
of the device only (`Bench.Rests`). An emulated dispatch puts what is bound into the fields of the
kernel, one slot after the other, and refuses a resource that its slot does not accept when others
were put into their fields already. That never happens, because in every state that can be reached
each slot accepts what is bound to it (`Bench.Reached.accepted`): binding checks it, a buffer keeps
the type of its elements, and nothing else changes what is bound. All of this holds with no device
attached and with any device.
-/

namespace ComputeKernel

open ComputeKernel.Action Bench Device Failure

variable {σ α β K : Type}

/-! ## Atomic actions -/

/-- An action that ends with a mistake has changed nothing. -/
def Action.Atomic (s : σ) (a : Action σ α) : Prop :=
  ∀ e, (a s).result = .error (.dispatch e) → a s = { result := .error (.dispatch e), state := s }

namespace Action.Atomic

variable {s : σ} {a b : Action σ α}

/-- What finds no mistake is atomic. -/
theorem of_noMistake (h : NoMistake (a s).result) : Atomic s a := fun e he => absurd rfl (h _ he e)

/-- So is what is a mistake at once. -/
theorem of_mistake {e : DispatchError} (h : a s = { result := .error (.dispatch e), state := s }) :
    Atomic s a := by
  intro e' he
  rw [h] at he ⊢
  cases he
  rfl

/-- So is what does the same. -/
theorem congr (hb : Atomic s b) (h : a s = b s) : Atomic s a := by
  unfold Atomic
  rw [h]
  exact hb

end Action.Atomic

namespace Bench

variable {s : Bench K}

/-- A check changes nothing, so only what follows matters. -/
theorem atomic_check {f : Dispatcher K → Except DispatchError α} {g : α → Action (Bench K) β}
    (hg : ∀ x, Atomic s (g x)) : Atomic s (check f >>= g) := by
  cases hf : f s.dispatcher with
  | ok x => exact (hg x).congr (by rw [check_bind, hf])
  | error e => exact .of_mistake (by rw [check_bind, hf])

/-! ## Uses of the device -/

/-- A dispatcher with any device. -/
theorem Rests.any (s : Bench K) : Rests Any s s := .refl fun _ _ => trivial

/-- A use of the device that finds no mistake. -/
theorem noMistake_withDevice {device : Device} (hdevice : s.device = some device)
    {a : Action (Dispatcher K × Machine) α}
    (ha : Safe (fun t : Dispatcher K × Machine => Rests Any s (t.1.on t.2)) NotOfDispatch a) :
    NoMistake (withDevice a s).result := by
  rw [result_withDevice hdevice]
  exact (ha (s.dispatcher, _) ⟨rfl, fun _ => rfl, .refl _, fun _ _ => trivial⟩).2

/-- The only mistake is that there is no device. -/
theorem atomic_withDevice {a : Action (Dispatcher K × Machine) α}
    (ha : Safe (fun t : Dispatcher K × Machine => Rests Any s (t.1.on t.2)) NotOfDispatch a) :
    Atomic s (withDevice a) := by
  cases hdevice : s.device with
  | none => exact .of_mistake (by simp only [withDevice, hdevice]; rfl)
  | some device => exact .of_noMistake (noMistake_withDevice hdevice ha)

/-- A mistake in a dispatch is found by its checks. -/
theorem atomic_dispatchHardware (entry : Nat) (groups : Uint3) :
    Atomic s (dispatchHardware entry groups) := by
  cases hentry : s.dispatcher.layout.entry entry with
  | error e => exact .of_mistake (by rw [dispatchHardware_eq, hentry])
  | ok point =>
    cases hdevice : s.device with
    | none => exact .of_mistake (by rw [dispatchHardware_eq, hentry, hdevice])
    | some device =>
      cases hagree : agree point entry device with
      | error e =>
        exact .of_mistake (e := e) (by simp only [dispatchHardware_eq, hentry, hdevice, hagree])
      | ok _ =>
        have hpresent := safe_present stable_any (presentable_any s entry groups) point device.kind
        exact (atomic_withDevice hpresent).congr
          (by simp only [dispatchHardware_eq, hentry, hdevice, hagree])

/-- Releasing everything is never a mistake. -/
theorem noMistake_dispose : NoMistake (dispose s).result := by
  rw [dispose, get_bind]
  cases hdevice : s.device with
  | none => exact .ok ()
  | some device => exact noMistake_withDevice hdevice (safe_releaseAll stable_any)

end Bench

/-! ## What slots accept -/

/-- A slot accepts what is bound to it. -/
def Layout.Accepts (l : Layout K) (m : Memory) : String × Resource → Prop
  | (slot, .buffer r) =>
    r.index < m.buffers.size ∧ l.capability? slot = some (.buffer (m.buffer r).element)
  | (slot, .texture _) => l.capability? slot = some .texture

/-- Buffers keep their types, and so slots accept them. -/
theorem Layout.Accepts.typed {l : Layout K} {m m' : Memory} {p : String × Resource}
    (h : l.Accepts m p) (hm : m.Typed m') : l.Accepts m' p := by
  obtain ⟨slot, r | r⟩ := p
  · obtain ⟨hr, hcapability⟩ := h
    exact ⟨hr.trans_le hm.buffers, by rw [hcapability, hm.elements r hr]⟩
  · exact h

/-- A slot for such buffers takes one. -/
theorem Slot.bindBuffer?_of_capability {s : Slot K} {element : Element}
    (h : s.capability = .buffer element) (r : BufferRef) (kernel : K) :
    ∃ kernel', s.bindBuffer? element r kernel = some kernel' := by
  obtain ⟨name, field⟩ := s
  cases field with
  | buffer accepted set =>
    cases h
    exact ⟨set r kernel, if_pos rfl⟩
  | texture set => cases h

/-- A slot for textures takes one. -/
theorem Slot.bindTexture?_of_capability {s : Slot K} (h : s.capability = .texture) (r : TextureRef)
    (kernel : K) :
    ∃ kernel', s.bindTexture? r kernel = some kernel' := by
  obtain ⟨name, field⟩ := s
  cases field with
  | buffer accepted set => cases h
  | texture set => exact ⟨set r kernel, rfl⟩

namespace Bench

variable {s₀ s : Bench K} {entry : Nat}

/-- Every slot accepts what is bound to it. -/
def Accepted (s : Bench K) : Prop :=
  ∀ entry, ∀ p ∈ (s.dispatcher.table entry).bound, s.dispatcher.layout.Accepts s.memory p

/-- What rests is accepted. -/
theorem Rests.accepted (h : Rests Any s₀ s) (h₀ : s₀.Accepted) : s.Accepted := by
  intro entry p hp
  rw [h.bound] at hp
  rw [h.layout]
  exact (h₀ entry p hp).typed h.typed

/-- A buffer that its slot accepts is put into its field. -/
theorem safe_bindBufferField {slot : String} {r : BufferRef}
    (h : s₀.dispatcher.layout.Accepts s₀.memory (slot, .buffer r)) :
    Safe (Rests Any s₀) NotOfDispatch (bindBufferField slot r) := by
  intro s hs
  obtain ⟨-, hcapability⟩ := h.typed hs.typed
  rw [← hs.layout] at hcapability
  obtain ⟨declared, hslot, hdeclared⟩ := Option.map_eq_some_iff.1 hcapability
  obtain ⟨kernel, hkernel⟩ := Slot.bindBuffer?_of_capability hdeclared r s.dispatcher.kernel
  simp only [bindBufferField, hslot, Option.bind_some, hkernel]
  exact ⟨⟨hs.layout, hs.bound, hs.typed, hs.device⟩, NoMistake.ok ()⟩

/-- A texture that its slot accepts is put into its field. -/
theorem safe_bindTextureField {slot : String} {r : TextureRef}
    (h : s₀.dispatcher.layout.Accepts s₀.memory (slot, .texture r)) :
    Safe (Rests Any s₀) NotOfDispatch (bindTextureField slot r) := by
  intro s hs
  have hcapability : s.dispatcher.layout.capability? slot = some .texture := by
    rw [hs.layout]
    exact h
  obtain ⟨declared, hslot, hdeclared⟩ := Option.map_eq_some_iff.1 hcapability
  obtain ⟨kernel, hkernel⟩ := Slot.bindTexture?_of_capability hdeclared r s.dispatcher.kernel
  simp only [bindTextureField, hslot, Option.bind_some, hkernel]
  exact ⟨⟨hs.layout, hs.bound, hs.typed, hs.device⟩, NoMistake.ok ()⟩

/-- **What is bound is put into the fields**, if the slots accept it. -/
theorem safe_enterBound (h₀ : s₀.Accepted) (entry : Nat) :
    Safe (Rests Any s₀) NotOfDispatch (enter (s₀.dispatcher.table entry)) := by
  rw [enter_eq]
  refine .forEach fun p hp => ?_
  have haccepts := h₀ entry p hp
  obtain ⟨slot, r | r⟩ := p
  · exact safe_bindBufferField haccepts
  · exact (safe_bindTextureField haccepts).bind fun _ => (safe_fetch stable_any r).bind fun _ =>
      safe_change r Texture.hintHost

end Bench

/-- A body keeps the types of buffers, and fails by own faults. -/
structure EntryPoint.Plain (point : EntryPoint K) : Prop where
  typed : ∀ id (s : Scene K), s.memory.Typed (point.body id s).state.memory
  faults : point.OnlyFaults

/-- The bodies of all entry points are plain. -/
def Layout.Plain (l : Layout K) : Prop := ∀ point ∈ l.entries, point.Plain

namespace Bench

variable {s₀ s : Bench K} {entry : Nat}

/-- The threads of a grid find no mistake. -/
theorem safe_runPlain {point : EntryPoint K} (hpoint : point.Plain) (groups grid : Uint3) :
    Safe (Rests Any s₀) NotOfDispatch (runGrid point groups grid) := by
  have hlanes : Safe (fun _ : Scene K => True) NotOfDispatch (runLanes point groups) := by
    refine .forEach fun v _ => (safe_ofExcept (.fault _)).bind fun id t _ =>
      ⟨trivial, fun e he => ?_⟩
    obtain ⟨fault, rfl⟩ := hpoint.faults id t e he
    exact fun _ h => by cases h
  refine fun s hs => ⟨keeps_rests_runGrid hpoint.typed groups grid s hs, ?_⟩
  rw [runGrid]
  split
  · exact NoMistake.ok ()
  · exact (hlanes ⟨s.dispatcher.kernel, s.memory⟩ trivial).2

/-- An emulated dispatch is refused at once, or finds no mistake. -/
theorem dispatchEmulated_cases (hplain : s.dispatcher.layout.Plain) (hs : s.Accepted) (entry : Nat)
    (groups : Uint3) :
    (∃ e, s.dispatcher.layout.entry entry = .error e ∧
        dispatchEmulated entry groups s = { result := .error (.dispatch e), state := s }) ∨
      (∃ point : EntryPoint K, dispatchEmulated entry groups s
        = { result := .error (.dispatch (.gridOverflow point.name point.extent groups)),
            state := s }) ∨
      NoMistake (dispatchEmulated entry groups s).result := by
  rw [dispatchEmulated_eq, emulation]
  cases hentry : s.dispatcher.layout.entry entry with
  | error e => exact .inl ⟨e, rfl, rfl⟩
  | ok point =>
    dsimp only
    cases Grid.grid? point.extent groups with
    | none => exact .inr (.inl ⟨point, rfl⟩)
    | some grid =>
      have hsafe : Safe (Rests Any s) NotOfDispatch (do
          enter (s.dispatcher.table entry)
          runGrid point groups grid
          leave entry (s.dispatcher.table entry)) :=
        (safe_enterBound hs entry).bind fun _ =>
          (safe_runPlain (hplain point (entry_lt hentry).2) groups grid).bind
          fun _ => safe_leaveBound entry _
      exact .inr (.inr (hsafe s (.any s)).2)

/-- A mistake in an emulated dispatch changes nothing. -/
theorem atomic_dispatchEmulated (hplain : s.dispatcher.layout.Plain) (hs : s.Accepted) (entry : Nat)
    (groups : Uint3) : Atomic s (dispatchEmulated entry groups) := by
  rcases dispatchEmulated_cases hplain hs entry groups with ⟨e, -, heq⟩ | ⟨point, heq⟩ | hnone
  · exact .of_mistake heq
  · exact .of_mistake heq
  · exact .of_noMistake hnone

/-! ## Binding -/

/-- A table may change if slots accept what is new. -/
theorem Accepted.setTable (h : s.Accepted) {t : Table}
    (ht : ∀ p ∈ t.bound, s.dispatcher.layout.Accepts s.memory p ∨
    p ∈ (s.dispatcher.table entry).bound) :
    Accepted { s with dispatcher := s.dispatcher.setTable entry t } := by
  intro entry' p hp
  rcases s.dispatcher.table_setTable_cases entry t entry' with ⟨rfl, heq⟩ | heq
  · rw [heq] at hp
    exact (ht p hp).elim id (h entry' p)
  · rw [heq] at hp
    exact h entry' p hp

end Bench

/-! ## Runs -/

namespace BenchOp

variable {s : Bench K}

/-- After an operation slots accept what is bound to them. -/
theorem run_accepted (hplain : s.dispatcher.layout.Plain) (hs : s.Accepted) (op : BenchOp)
    (hop : op.Proper s.memory) :
    (op.run s).dispatcher.layout = s.dispatcher.layout ∧ (op.run s).Accepted := by
  by_cases hbinds : op.Binds
  · rw [run]
    cases op with
    | setBuffer entry slot r =>
      rcases setBuffer_cases entry slot r s with ⟨e, heq⟩ | ⟨hcapability, events, heq⟩
      · rw [act, heq]
        exact ⟨rfl, hs⟩
      · rw [act, heq]
        refine ⟨rfl, hs.setTable fun p hp => ?_⟩
        rcases Table.mem_bound_bindBuffer hp with rfl | hp
        · exact .inl ⟨hop, hcapability⟩
        · exact .inr hp
    | setTexture entry slot r =>
      rcases setTexture_cases entry slot r s with ⟨e, heq⟩ | ⟨hcapability, events, heq⟩
      · rw [act, heq]
        exact ⟨rfl, hs⟩
      · rw [act, heq]
        refine ⟨rfl, hs.setTable fun p hp => ?_⟩
        rcases Table.mem_bound_bindTexture hp with rfl | hp
        · exact .inl hcapability
        · exact .inr hp
    | invalidate | hardware | emulated | download | dispose | caller => cases hbinds
  · -- Nothing but binding changes what is bound.
    have hrests := run_rests hbinds hop (fun point hpoint => (hplain point hpoint).typed) stable_any
      (presentable_any s) fun _ _ => trivial
    exact ⟨hrests.layout, hrests.accepted hs⟩

/-- A mistake in an operation leaves everything as it was. -/
theorem act_atomic (hplain : s.dispatcher.layout.Plain) (hs : s.Accepted) (op : BenchOp) :
    Atomic s op.act := by
  cases op with
  | setBuffer entry slot r =>
    rcases setBuffer_cases entry slot r s with ⟨e, heq⟩ | ⟨-, events, heq⟩
    · exact .of_mistake heq
    · exact .of_noMistake (by rw [act, heq]; exact .ok ())
  | setTexture entry slot r =>
    rcases setTexture_cases entry slot r s with ⟨e, heq⟩ | ⟨-, events, heq⟩
    · exact .of_mistake heq
    · exact .of_noMistake (by rw [act, heq]; exact .ok ())
  | invalidate entry => exact atomic_check fun _ => .of_noMistake (.ok ())
  | hardware entry groups => exact atomic_dispatchHardware entry groups
  | emulated entry groups => exact atomic_dispatchEmulated hplain hs entry groups
  | download entry =>
    exact atomic_check fun _ => atomic_withDevice (safe_download stable_any entry)
  | dispose => exact .of_noMistake noMistake_dispose
  | caller change => exact .of_noMistake (.ok ())

end BenchOp

/-- The states of a dispatcher, which starts with nothing bound. Its operations succeed or fail in
any order, and in between others may change the kernel, resources and the device. Buffers keep their
types. -/
inductive Bench.Reached : Bench K → Prop
  | start {s : Bench K} : s.dispatcher.Unbound → s.dispatcher.layout.Plain → Reached s
  | run {s : Bench K} (op : BenchOp) : Reached s → op.Proper s.memory → Reached (op.run s)
  | meanwhile {s s' : Bench K} : Reached s → s'.dispatcher.layout = s.dispatcher.layout →
      s'.dispatcher.tables = s.dispatcher.tables → s.memory.Typed s'.memory → Reached s'

/-- **In every state slots accept what is bound to them.** -/
theorem Bench.Reached.accepted {s : Bench K} (h : s.Reached) :
    s.dispatcher.layout.Plain ∧ s.Accepted := by
  induction h with
  | start hunbound hplain =>
    refine ⟨hplain, fun entry p hp => ?_⟩
    rw [hunbound.table entry] at hp
    cases hp
  | run op _ hop ih =>
    obtain ⟨hplain, hs⟩ := ih
    obtain ⟨hlayout, haccepted⟩ := op.run_accepted hplain hs hop
    exact ⟨hlayout ▸ hplain, haccepted⟩
  | @meanwhile s s' _ hlayout htables htyped ih =>
    obtain ⟨hplain, hs⟩ := ih
    have hrests : Rests Any s s' :=
      ⟨hlayout, fun entry => by rw [Dispatcher.table, htables, Dispatcher.table], htyped,
        fun _ _ => trivial⟩
    exact ⟨hlayout ▸ hplain, hrests.accepted hs⟩

/-- **Mistakes are atomic.** In every state that a dispatcher can reach, with any device or none: an
operation that ends with a mistake in binding or dispatch has changed nothing and reported nothing,
and neither has asking for the texture of a slot. An emulated dispatch never refuses a resource that
is bound. -/
theorem mistakes_change_nothing {s : Bench K} (h : s.Reached) :
    (∀ (op : BenchOp) e, (op.act s).result = .error (.dispatch e) →
        op.act s = { result := .error (.dispatch e), state := s }) ∧
      (∀ entry slot e, (Bench.check (·.texture entry slot) s).result = .error (.dispatch e) →
        Bench.check (·.texture entry slot) s = { result := .error (.dispatch e), state := s }) ∧
      ∀ entry groups slot expected found, (Bench.dispatchEmulated entry groups s).result
        ≠ .error (.dispatch (.capability slot expected found)) := by
  obtain ⟨hplain, hs⟩ := h.accepted
  refine ⟨fun op => op.act_atomic hplain hs, fun entry slot e he => ?_,
    fun entry groups slot expected found he => ?_⟩
  · simp only [Bench.check, examine] at he ⊢
    rw [he]
  · rcases dispatchEmulated_cases hplain hs entry groups with ⟨e, hentry, heq⟩ |
      ⟨point, heq⟩ | hnone
    · rw [heq] at he
      cases he
      rw [Layout.entry] at hentry
      split at hentry
      · cases hentry
      · cases hentry
    · rw [heq] at he
      cases he
    · exact absurd rfl (hnone _ he _)

/-- After numbers were sent to the device, a texture in their place and a grid that is too large are
mistakes. -/
theorem mill_mistakes :
    let s := BenchOp.runAll [.setBuffer 0 "numbers" ⟨0⟩, .hardware 0 ⟨1, 1, 1⟩] Mill.bench
    Bench.setTexture 0 "numbers" ⟨0⟩ s
        = { result := .error (.dispatch (.capability "numbers" (some (.buffer .uint)) .texture)),
            state := s } ∧
      Bench.dispatchEmulated 0 ⟨4294967295, 1, 1⟩ s
        = { result := .error (.dispatch (.gridOverflow "Double" ⟨2, 1, 1⟩ ⟨4294967295, 1, 1⟩)),
            state := s } := by
  intro s
  have hplain : Mill.dispatcher.layout.Plain := by
    intro point hpoint
    have hbody (body : Workbench.Body) (name : String) (extent : Uint3) (ordinal : Nat) :
        EntryPoint.Plain { name, extent, ordinal, body := body.run } :=
      ⟨fun id t => ⟨(body.run_preserved id t).buffers, (body.run_preserved id t).elements⟩,
        fun id t => (body.faults_run id t trivial).2⟩
    rcases List.mem_pair.1 hpoint with rfl | rfl
    · exact hbody .double _ _ _
    · exact hbody .trace _ _ _
  have hs : s.Reached := .run (.hardware 0 ⟨1, 1, 1⟩)
    (.run (.setBuffer 0 "numbers" ⟨0⟩) (.start (s := Mill.bench) Mill.unbound hplain)
      (Nat.zero_lt_succ 1)) trivial
  obtain ⟨hatomic, -, -⟩ := mistakes_change_nothing hs
  exact ⟨hatomic (.setTexture 0 "numbers" ⟨0⟩) _ (by rfl),
    hatomic (.emulated 0 ⟨4294967295, 1, 1⟩) _ (by rfl)⟩

end ComputeKernel
