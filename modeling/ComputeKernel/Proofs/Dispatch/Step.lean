import ComputeKernel.Proofs.Dispatch.Lanes

/-!
# What a dispatcher does, step by step

The operations of a dispatcher on a device in host memory, and the small steps that they are made
of. `Bench.Step` has one case for each thing that can happen: something is bound, a table is marked,
a bound buffer is transferred, a bound texture is exchanged, or something happens aside that touches
none of them. Every operation is a walk of such steps, also when it fails half way
(`BenchOp.walks`), so an invariant of dispatchers is shown for the steps alone.
-/

namespace ComputeKernel

open Bench Action.Keeps
open ComputeKernel.Action Dispatcher Texture

variable {K : Type}

/-! ## What users leave alone -/

/-- Resources may be written and made, but buffers keep their types and textures their surfaces. -/
structure Memory.Preserved (m m' : Memory) : Prop where
  buffers : m.buffers.size ≤ m'.buffers.size
  textures : m.textures.size ≤ m'.textures.size
  elements : ∀ r, r.index < m.buffers.size → (m'.buffer r).element = (m.buffer r).element
  surfaces : ∀ r, (m'.texture r).surface = (m.texture r).surface

namespace Memory.Preserved

variable (m : Memory)

/-- Nothing has changed. -/
theorem refl : Preserved m m := ⟨le_rfl, le_rfl, fun _ _ => rfl, fun _ => rfl⟩

/-- One change after another. -/
theorem trans {m m' m'' : Memory} (h : Preserved m m') (h' : Preserved m' m'') :
    Preserved m m'' where
  buffers := h.buffers.trans h'.buffers
  textures := h.textures.trans h'.textures
  elements r hr := (h'.elements r (hr.trans_le h.buffers)).trans (h.elements r hr)
  surfaces r := (h'.surfaces r).trans (h.surfaces r)

/-- A buffer may be written. -/
theorem modifyBuffer (r : BufferRef) {f : Buffer → Buffer} (hf : ∀ b, (f b).element = b.element) :
    Preserved m (m.modifyBuffer r f) where
  buffers := (Array.size_modify ..).ge
  textures := le_rfl
  elements r' _ := by
    simp only [buffer, Memory.modifyBuffer, Array.getElem?_modify]
    split
    next =>
      cases m.buffers[r'.index]? with
      | none => rfl
      | some b => exact hf b
    next => rfl
  surfaces _ := rfl

/-- A texture may be written. -/
theorem modifyTexture (r : TextureRef) {f : Texture → Texture}
    (hf : ∀ t, (f t).surface = t.surface) :
    Preserved m (m.modifyTexture r f) where
  buffers := le_rfl
  textures := (Array.size_modify ..).ge
  elements _ _ := rfl
  surfaces r' := by
    rw [modifyTexture_eq, texture_setTexture]
    split
    next h => rw [hf, h.1]
    next => rfl

end Memory.Preserved

/-- The bodies of all entry points preserve resources. -/
def Layout.Preserves (l : Layout K) : Prop :=
  ∀ point ∈ l.entries, ∀ id (s : Scene K), s.memory.Preserved (point.body id s).state.memory

/-! ## Operations -/

/-- The operations of a dispatcher, and of its caller in between. -/
inductive BenchOp where
  | setBuffer (entry : Nat) (slot : String) (r : BufferRef)
  | setTexture (entry : Nat) (slot : String) (r : TextureRef)
  | invalidate (entry : Nat)
  | hardware (entry : Nat) (groups : Uint3)
  | emulated (entry : Nat) (groups : Uint3)
  | download (entry : Nat)
  | dispose
  | caller (change : Memory → Memory)

namespace BenchOp

/-- What an operation does. -/
def act : BenchOp → Action (Bench K) Unit
  | .setBuffer entry slot r => Bench.setBuffer entry slot r
  | .setTexture entry slot r => Bench.setTexture entry slot r
  | .invalidate entry => Bench.invalidateBuffers entry
  | .hardware entry groups => Bench.dispatchHardware entry groups
  | .emulated entry groups => Bench.dispatchEmulated entry groups
  | .download entry => Bench.downloadBuffers entry
  | .dispose => Bench.dispose
  | .caller change => .modify fun s => { s with memory := change s.memory }

/-- What is there after an operation. -/
def run (op : BenchOp) (s : Bench K) : Bench K := (op.act s).state

/-- What is there after a list of operations. -/
def runAll (ops : List BenchOp) (s : Bench K) : Bench K := ops.foldl (fun s op => op.run s) s

/-- Bound resources are there, and the caller preserves them. -/
def Lawful (m : Memory) : BenchOp → Prop
  | .setBuffer _ _ r => r.index < m.buffers.size
  | .setTexture _ _ r => r.index < m.textures.size
  | .caller change => m.Preserved (change m)
  | _ => True

/-- Each operation of a list is lawful when its turn comes. -/
def LawfulAll : List BenchOp → Bench K → Prop
  | [], _ => True
  | op :: ops, s => op.Lawful s.memory ∧ LawfulAll ops (op.run s)

end BenchOp

/-! ## Steps -/

namespace Bench

/-- One step of a dispatcher on a device in host memory. -/
inductive Step : Bench K → Bench K → Prop
  /-- The kernel is changed, a run is noted, resources are written, or the device binds, counts and
  records. -/
  | aside {s : Bench K} {d d' : HostDevice} {m' : Memory} (kernel : K)
  (last : List (Option DispatchPath)) :
      s.device = some (.host d) → d.Quiet d' → s.memory.Preserved m' →
      Step s ⟨{ s.dispatcher with kernel, last }, m', some (.host d')⟩
  | bindBuffer {s : Bench K} (entry : Nat) {slot : String} {r : BufferRef} : r.index <
    s.memory.buffers.size →
      s.dispatcher.layout.capability? slot = some (.buffer (s.memory.buffer r).element) →
      Step s { s with dispatcher :=
        s.dispatcher.setTable entry ((s.dispatcher.table entry).bindBuffer slot r) }
  | bindTexture {s : Bench K} (entry : Nat) (slot : String) {r : TextureRef} :
      r.index < s.memory.textures.size →
      Step s { s with dispatcher :=
        s.dispatcher.setTable entry ((s.dispatcher.table entry).bindTexture slot r) }
  | markDirty {s : Bench K} (entry : Nat) :
      Step s { s with
        dispatcher := s.dispatcher.setTable entry (s.dispatcher.table entry).markDirty }
  | transfer {s : Bench K} {d d' : HostDevice} {m' : Memory} {entry : Nat} {slot : String}
      {b b' : BufferBinding} {before after : List (String × BufferBinding)} :
      s.device = some (.host d) →
        (s.dispatcher.table entry).buffers = before ++ (slot, b) :: after →
      b.Transfer s.memory d b' m' d' →
      Step s ⟨s.dispatcher.setTable entry
        { s.dispatcher.table entry with buffers := before ++ (slot, b') :: after }, m',
        some (.host d')⟩
  | exchange {s : Bench K} {d d' : HostDevice} {entry : Nat} {slot : String} {r : TextureRef}
    {t' : Texture} :
      s.device = some (.host d) → (slot, r) ∈ (s.dispatcher.table entry).textures →
      (s.memory.texture r).Exchange d t' d' →
      Step s { s with memory := s.memory.setTexture r t', device := some (.host d') }

/-- Any number of steps. -/
abbrev Walk : Bench K → Bench K → Prop := Relation.ReflTransGen (Step)

/-- The device in host memory that is attached. -/
def host? (s : Bench K) : Option HostDevice :=
  match s.device with
  | some (.host d) => some d
  | _ => none

/-- A dispatcher that can work: a device is attached, each entry point has a table, and bodies
preserve resources. -/
structure Ready (s : Bench K) : Prop where
  attached : ∃ d, s.device = some (.host d)
  tables : s.dispatcher.tables.length = s.dispatcher.layout.entries.length
  bodies : s.dispatcher.layout.Preserves

variable {s s' : Bench K}

/-- A step keeps the layout. -/
theorem Step.layout (h : Step s s') : s'.dispatcher.layout = s.dispatcher.layout := by
  cases h <;> rfl

/-- A step leaves it ready. -/
theorem Step.ready (h : Step s s') (hs : s.Ready) : s'.Ready := by
  have hlayout := h.layout
  refine ⟨?_, ?_, hlayout ▸ hs.bodies⟩
  · cases h with
    | aside | transfer | exchange => exact ⟨_, rfl⟩
    | bindBuffer | bindTexture | markDirty => exact hs.attached
  · rw [hlayout, ← hs.tables]
    cases h with
    | aside | exchange => rfl
    | bindBuffer | bindTexture | markDirty | transfer => exact List.length_set

/-- A walk leaves it ready. -/
theorem Walk.ready (h : Walk s s') (hs : s.Ready) : s'.Ready := by
  induction h with
  | refl => exact hs
  | tail _ hstep ih => exact hstep.ready ih

/-- What happens aside of all this is a step. -/
theorem Walk.aside (h : Walk s s') (hs : s.Ready) (kernel : K) (last : List (Option DispatchPath))
    {m' : Memory} (hm : s'.memory.Preserved m') :
    Walk s ⟨{ s'.dispatcher with kernel, last }, m', s'.device⟩ := by
  obtain ⟨d, hd⟩ := (h.ready hs).attached
  refine h.tail ?_
  rw [hd]
  exact .aside kernel last hd (.refl d) hm

/-- A walk keeps the layout. -/
theorem Walk.layout (h : Walk s s') : s'.dispatcher.layout = s.dispatcher.layout := by
  induction h with
  | refl => rfl
  | tail _ hstep ih => exact hstep.layout.trans ih

end Bench

/-! ## Walks on a table -/

namespace Dispatcher

variable {d : Dispatcher K} {entry : Nat}

/-- A table that was set is found. -/
theorem table_setTable_self (h : entry < d.tables.length) (t : Table) :
    (d.setTable entry t).table entry = t := by
  simp [table, setTable, h]

/-- The last table counts. -/
theorem setTable_setTable (d : Dispatcher K) (entry : Nat) (t t' : Table) :
    (d.setTable entry t).setTable entry t' = d.setTable entry t' := by
  simp [setTable]

/-- A table may be put back. -/
theorem setTable_table (d : Dispatcher K) (entry : Nat) : d.setTable entry (d.table entry) = d := by
  have htables : d.tables.set entry (d.table entry) = d.tables := by
    by_cases hlt : entry < d.tables.length
    · simp [table, hlt]
    · rw [List.set_eq_of_length_le (Nat.le_of_not_lt hlt)]
  rw [setTable, htables]

end Dispatcher

namespace Bench

variable {s₀ : Bench K} {d : Dispatcher K} {entry : Nat}
variable {point : EntryPoint K} {r : TextureRef} {slot : String} {α : Type}

/-- An action that transfers a bound buffer walks. -/
theorem walk_transfer {a : Action (BufferBinding × Machine) α} (h₀ : s₀.Ready)
    (hentry : entry < d.tables.length)
    (ha : ∀ b m d, BufferBinding.Transferred b m d (a (b, ⟨m, .host d⟩)).state) (t : Table)
    (before : List (String × BufferBinding)) (slot : String)
    (after : List (String × BufferBinding)) :
    Keeps (fun s => Walk s₀
      ((d.setTable entry { t with buffers := before ++ (slot, s.1) :: after }).on s.2))
      a := by
  rintro ⟨b, ⟨m, device⟩⟩ hwalk
  obtain ⟨host, hhost⟩ := (hwalk.ready h₀).attached
  cases hhost
  obtain ⟨b', m', host', hstate, htransfer⟩ := ha b m host
  rw [hstate]
  refine hwalk.tail ?_
  have htable := table_setTable_self hentry { t with buffers := before ++ (slot, b) :: after }
  have hstep := Step.transfer
    (s := (d.setTable entry { t with buffers := before ++ (slot, b) :: after }).on ⟨m, .host host⟩)
    rfl (congrArg Table.buffers htable) htransfer
  rw [on, htable, setTable_setTable] at hstep
  exact hstep

/-- A quiet use of the device walks. -/
theorem walk_quiet {a : Action Device α} (h₀ : s₀.Ready) (ha : Device.IsQuiet a) :
    Keeps (fun m : Machine => Walk s₀ (d.on m)) (Machine.onDevice a) := by
  rintro ⟨m, device⟩ hwalk
  obtain ⟨host, hhost⟩ := (hwalk.ready h₀).attached
  cases hhost
  obtain ⟨host', hstate, hquiet⟩ := ha host
  refine hwalk.tail ?_
  simp only [Machine.onDevice, zoom, hstate]
  exact Step.aside d.kernel d.last rfl hquiet (.refl m)

/-- Presenting a bound buffer walks. -/
theorem walk_present (h₀ : s₀.Ready) (hentry : entry < d.tables.length) (t : Table)
    (before : List (String × BufferBinding)) (slot : String)
    (after : List (String × BufferBinding)) :
    Keeps (fun s => Walk s₀
      ((d.setTable entry { t with buffers := before ++ (slot, s.1) :: after }).on s.2))
      (BufferBinding.present entry slot) := by
  refine bind (walk_transfer h₀ hentry BufferBinding.transferred_toDevice t before slot
    after) fun h => ?_
  exact fun s hs => walk_quiet h₀ (Device.isQuiet_bindBuffer entry slot h) s.2 hs

/-- An action that exchanges a bound texture walks. -/
theorem walk_exchange {a : Action (Texture × Device) α} (h₀ : s₀.Ready)
    (hbound : (slot, r) ∈ (d.table entry).textures)
    (ha : ∀ t d, Exchanged t d (a (t, .host d)).state) :
    Keeps (fun m : Machine => Walk s₀ (d.on m)) (Machine.onTexture r a) := by
  rintro ⟨m, device⟩ hwalk
  obtain ⟨host, hhost⟩ := (hwalk.ready h₀).attached
  cases hhost
  obtain ⟨t', host', hstate, hexchange⟩ := ha (m.texture r) host
  refine hwalk.tail ?_
  simp only [Machine.onTexture, zoom, hstate]
  exact Step.exchange (s := d.on ⟨m, .host host⟩) rfl hbound hexchange

/-- What walks for each bound buffer walks for all of them. -/
theorem walk_onBuffers {f : String → Action (BufferBinding × Machine) Unit}
    (hf : ∀ (t : Table) before slot after, Keeps (fun s => Walk s₀
      ((d.setTable entry { t with buffers := before ++ (slot, s.1) :: after }).on s.2)) (f slot)) :
    Keeps (fun s => Walk s₀ ((d.setTable entry s.1).on s.2)) (Table.onBuffers f) := by
  rintro ⟨t, m⟩ hwalk
  exact onValues_keeps (J := fun buffers m => Walk s₀ ((d.setTable entry { t with buffers }).on m))
    (P := fun _ => True) (fun before slot after _ => hf t before slot after) t.buffers []
      (fun _ _ => trivial) hwalk

/-- What walks for each bound texture walks for all of them. -/
theorem walk_onTextures {f : String → TextureRef → Action Machine Unit}
    (hf : ∀ (t : Table) slot r, (slot, r) ∈ t.textures →
      Keeps (fun m => Walk s₀ ((d.setTable entry t).on m)) (f slot r)) :
    Keeps (fun s => Walk s₀ ((d.setTable entry s.1).on s.2)) (Table.onTextures f) := by
  rintro ⟨t, m⟩ hwalk
  exact Keeps.forEach (I := fun m => Walk s₀ ((d.setTable entry t).on m))
    (fun p hp => hf t p.1 p.2 hp) m hwalk

/-- The textures that are bound once a table was set. -/
theorem walk_onTexture {a : Action (Texture × Device) α} (h₀ : s₀.Ready)
    (hentry : entry < d.tables.length)
    (ha : ∀ t d, Exchanged t d (a (t, .host d)).state) {t : Table}
    (hbound : (slot, r) ∈ t.textures) :
    Keeps (fun m => Walk s₀ ((d.setTable entry t).on m)) (Machine.onTexture r a) := by
  have htable := table_setTable_self hentry t
  exact walk_exchange h₀ (htable.symm ▸ hbound) ha

/-- What walks on a table walks on the dispatcher. -/
theorem walk_onTable {a : Action (Table × Machine) α} (h₀ : s₀.Ready)
    (hentry : entry < s₀.dispatcher.layout.entries.length)
    (ha : ∀ d : Dispatcher K, entry < d.tables.length →
      Keeps (fun s => Walk s₀ ((d.setTable entry s.1).on s.2)) a) :
    Keeps (fun s : Dispatcher K × Machine => Walk s₀ (s.1.on s.2))
      (onTable entry a) := by
  rintro ⟨d, m⟩ hwalk
  have hlt : entry < d.tables.length := by
    have htables := (hwalk.ready h₀).tables
    rw [hwalk.layout] at htables
    exact htables ▸ hentry
  refine ha d hlt (d.table entry, m) ?_
  show Walk s₀ ((d.setTable entry (d.table entry)).on m)
  rw [setTable_table]
  exact hwalk

/-- What walks on the machine walks on the bench. -/
theorem walk_withDevice {a : Action (Dispatcher K × Machine) α}
    (ha : Keeps (fun s : Dispatcher K × Machine => Walk s₀ (s.1.on s.2)) a) :
    Keeps (Walk s₀) (withDevice a) := by
  rintro ⟨d, m, device⟩ hwalk
  cases device with
  | none => exact hwalk
  | some device => exact ha (d, ⟨m, device⟩) hwalk

/-! ## The operations -/

/-- An entry point that is declared has a place among them. -/
theorem entry_lt {l : Layout K} (h : l.entry entry = .ok point) :
    entry < l.entries.length ∧ point ∈ l.entries := by
  rw [Layout.entry_eq_ok_iff] at h
  exact ⟨(List.getElem?_eq_some_iff.1 h).1, List.mem_of_getElem? h⟩

/-- A slot that was found is declared. -/
theorem slot_eq {d : Dispatcher K} {declared : Slot K} (h : d.slot entry slot = .ok declared) :
    d.layout.slot? slot = some declared := by
  rw [Dispatcher.slot] at h
  cases hentry : d.layout.entry entry with
  | error e =>
    rw [hentry] at h
    cases h
  | ok point =>
    cases hslot : d.layout.slot? slot with
    | none =>
      simp only [hentry, hslot] at h
      cases h
    | some found =>
      simp only [hentry, hslot] at h
      cases h
      rfl

/-- A resource is accepted by a slot with its capability. -/
theorem capability_of_accept {d : Dispatcher K} {declared : Slot K} {found : Capability}
    (hslot : d.slot entry slot = .ok declared) (haccept : accept declared found = .ok ()) :
    d.layout.capability? slot = some found := by
  rw [accept] at haccept
  split at haccept
  next hcapability => rw [Layout.capability?, slot_eq hslot, Option.map_some, hcapability]
  next => cases haccept

/-- Binding a buffer is a mistake, or the slot accepts it. -/
theorem setBuffer_cases (entry : Nat) (slot : String) (r : BufferRef) (s : Bench K) :
    (∃ e, setBuffer entry slot r s = { result := .error (.dispatch e), state := s }) ∨
      s.dispatcher.layout.capability? slot = some (.buffer (s.memory.buffer r).element) ∧
        ∃ events, setBuffer entry slot r s =
          { result := .ok ()
            state := { s with
              dispatcher := s.dispatcher.setTable entry
                ((s.dispatcher.table entry).bindBuffer slot r) }
            events } := by
  rw [setBuffer, check_bind]
  cases hslot : s.dispatcher.slot entry slot with
  | error e => exact .inl ⟨e, rfl⟩
  | ok declared =>
    dsimp only
    rw [get_bind, check_bind]
    cases haccept : accept declared (.buffer (s.memory.buffer r).element) with
    | error e => exact .inl ⟨e, rfl⟩
    | ok _ => exact .inr ⟨capability_of_accept hslot haccept, _, rfl⟩

/-- Binding a texture is a mistake, or the slot accepts it. -/
theorem setTexture_cases (entry : Nat) (slot : String) (r : TextureRef) (s : Bench K) :
    (∃ e, setTexture entry slot r s = { result := .error (.dispatch e), state := s }) ∨
      s.dispatcher.layout.capability? slot = some .texture ∧
        ∃ events, setTexture entry slot r s =
          { result := .ok ()
            state := { s with
              dispatcher := s.dispatcher.setTable entry
                ((s.dispatcher.table entry).bindTexture slot r) }
            events } := by
  rw [setTexture, check_bind]
  cases hslot : s.dispatcher.slot entry slot with
  | error e => exact .inl ⟨e, rfl⟩
  | ok declared =>
    dsimp only
    rw [check_bind]
    cases haccept : accept declared .texture with
    | error e => exact .inl ⟨e, rfl⟩
    | ok _ => exact .inr ⟨capability_of_accept hslot haccept, _, rfl⟩

/-- Binding a buffer is a walk. -/
theorem walk_setBuffer {s₀ : Bench K} (entry : Nat) (slot : String) {r : BufferRef}
    (hr : r.index < s₀.memory.buffers.size) :
    Walk s₀ (setBuffer entry slot r s₀).state := by
  rcases setBuffer_cases entry slot r s₀ with ⟨e, heq⟩ | ⟨hcapability, events, heq⟩
  · rw [heq]
  · rw [heq]
    exact .single (.bindBuffer entry hr hcapability)

/-- Binding a texture is a walk. -/
theorem walk_setTexture {s₀ : Bench K} (entry : Nat) (slot : String)
    (hr : r.index < s₀.memory.textures.size) :
    Walk s₀ (setTexture entry slot r s₀).state := by
  rcases setTexture_cases entry slot r s₀ with ⟨e, heq⟩ | ⟨-, events, heq⟩
  · rw [heq]
  · rw [heq]
    exact .single (.bindTexture entry slot hr)

/-- Marking is a walk. -/
theorem walk_invalidateBuffers (s₀ : Bench K) (entry : Nat) :
    Walk s₀ (invalidateBuffers entry s₀).state := by
  refine (meets_bind (check_meets (I := Walk s₀) .refl) ?_).state
  rintro point _ ⟨rfl, -⟩
  exact .single (.markDirty entry)

/-- A dispatch on the device is a walk. -/
theorem walk_dispatchHardware (h₀ : s₀.Ready) (entry : Nat) (groups : Uint3) :
    Walk s₀ (dispatchHardware entry groups s₀).state := by
  refine (meets_bind (check_meets (I := Walk s₀) .refl) ?_).state
  rintro point _ ⟨rfl, hpoint⟩
  refine (walk_withDevice ?_).meets .refl
  refine Action.keeps_get.bind fun s => (keeps_ofExcept _).bind fun _ => bind ?_ fun _ => ?_
  · refine walk_onTable h₀ (entry_lt hpoint).1 fun d hd => bind ?_ fun _ => bind ?_ fun _ =>
      (keeps_report _).bind fun _ => ?_
    · exact walk_onBuffers (walk_present h₀ hd)
    · refine walk_onTextures fun t slot r hr => bind ?_ fun h => bind ?_ fun _ => ?_
      · exact walk_onTexture h₀ hd exchanged_toDevice hr
      · exact walk_quiet h₀ (Device.isQuiet_bindTexture entry slot h)
      · exact walk_onTexture h₀ hd (exchanged_change (f := hintDevice) fun _ => ⟨rfl, rfl, rfl⟩) hr
    · exact fun s hs => walk_quiet h₀ (Device.isQuiet_dispatch entry groups) s.2 hs
  · rintro ⟨d, m⟩ hwalk
    exact hwalk.aside h₀ d.kernel _ (.refl m.memory)

/-- A download is a walk. -/
theorem walk_downloadBuffers (h₀ : s₀.Ready) (entry : Nat) :
    Walk s₀ (downloadBuffers entry s₀).state := by
  refine (meets_bind (check_meets (I := Walk s₀) .refl) ?_).state
  rintro point _ ⟨rfl, hpoint⟩
  refine (walk_withDevice (walk_onTable h₀ (entry_lt hpoint).1 fun d hd => ?_)).meets .refl
  exact walk_onBuffers (walk_transfer h₀ hd BufferBinding.transferred_toHost)

/-- Disposing is a walk. -/
theorem walk_dispose (h₀ : s₀.Ready) : Walk s₀ (dispose s₀).state := by
  rw [dispose, get_bind]
  split
  next =>
    refine walk_withDevice ?_ s₀ (Relation.ReflTransGen.refl : Walk s₀ s₀)
    rintro ⟨d, m⟩ hwalk
    refine bind (I := fun s : Dispatcher K × Machine => Walk s₀ (s.1.on s.2))
      (.forEach fun entry hentry => ?_) (fun _ => keeps_report _) (d, m) hwalk
    have hlt : entry < s₀.dispatcher.layout.entries.length := by
      rw [← hwalk.layout, ← (hwalk.ready h₀).tables]
      exact List.mem_range.1 hentry
    refine walk_onTable h₀ hlt fun d hd => bind ?_ fun _ => ?_
    · exact walk_onBuffers (walk_transfer h₀ hd BufferBinding.transferred_release)
    · exact walk_onTextures fun t slot r hr => walk_onTexture h₀ hd exchanged_release hr
  next => exact .refl

/-! ## Emulated dispatch -/

/-- The lanes preserve resources when the body does. -/
theorem runLanes_preserved (groups : Uint3) {s : Scene K}
    (hbody : ∀ id (s : Scene K), s.memory.Preserved (point.body id s).state.memory) :
    s.memory.Preserved (runLanes point groups s).state.memory := by
  have hkeeps : Keeps (fun t : Scene K => s.memory.Preserved t.memory) (runLanes point groups) := by
    refine .forEach fun v _ => (keeps_ofExcept _).bind fun id t ht => ?_
    exact ht.trans (hbody id t)
  exact hkeeps s (.refl s.memory)

/-- A walk that has not changed the tables. -/
def Strolls (s₀ s : Bench K) : Prop :=
  Walk s₀ s ∧ s.dispatcher.tables = s₀.dispatcher.tables

/-- The kernel may change. -/
theorem Strolls.kernel (h₀ : s₀.Ready) (s : Bench K) (kernel : K) (hs : Strolls s₀ s) :
    Strolls s₀ { s with dispatcher := { s.dispatcher with kernel } } :=
  ⟨hs.1.aside h₀ kernel s.dispatcher.last (.refl s.memory), hs.2⟩

section textures

variable {slot : String} {r : TextureRef}

/-- A bound texture is bound while the tables are the same. -/
theorem Strolls.bound {s : Bench K} (h : Strolls s₀ s)
    (hr : (slot, r) ∈ (s₀.dispatcher.table entry).textures) :
    (slot, r) ∈ (s.dispatcher.table entry).textures := by
  rw [Dispatcher.table, h.2]
  exact hr

/-- A bound texture may change but for its surface. -/
theorem keeps_changeTexture_strolls (h₀ : s₀.Ready)
    (hr : (slot, r) ∈ (s₀.dispatcher.table entry).textures) {f : Texture → Texture}
    (hf : ∀ t, (f t).width = t.width ∧ (f t).height = t.height ∧ (f t).surface = t.surface) :
    Keeps (Strolls s₀) (changeTexture r f : Action (Bench K) Unit) := by
  rintro s hs
  obtain ⟨host, hhost⟩ := (hs.1.ready h₀).attached
  refine ⟨hs.1.tail ?_, hs.2⟩
  have hchange : (s.memory.texture r).Exchange host (f (s.memory.texture r)) host :=
    .of_texture (hf _) rfl
  have hstep := Step.exchange hhost (hs.bound hr) hchange
  rw [← hhost, ← Memory.modifyTexture_eq] at hstep
  exact hstep

/-- A bound texture may be fetched. -/
theorem keeps_fetchTexture_strolls (h₀ : s₀.Ready)
    (hr : (slot, r) ∈ (s₀.dispatcher.table entry).textures) :
    Keeps (Strolls s₀) (fetchTexture r : Action (Bench K) Unit) := by
  rintro ⟨d, m, device⟩ hs
  cases device with
  | none => exact hs
  | some device => exact ⟨walk_exchange h₀ (hs.bound hr) exchanged_toHost ⟨m, device⟩ hs.1, hs.2⟩

end textures

/-- What comes before the lanes. -/
theorem keeps_enter_strolls (h₀ : s₀.Ready) (entry : Nat) :
    Keeps (Strolls s₀) (enter (s₀.dispatcher.table entry)) := by
  refine bind (.forEach fun p _ => keeps_bindBufferField (Strolls.kernel h₀)
      p.1 p.2.buffer) fun _ =>
    .forEach fun p hp => ?_
  refine (keeps_bindTextureField (Strolls.kernel h₀) p.1 p.2).bind fun _ => ?_
  refine (keeps_fetchTexture_strolls h₀ hp).bind fun _ => ?_
  exact keeps_changeTexture_strolls h₀ hp fun _ => ⟨rfl, rfl, rfl⟩

/-- The lanes. -/
theorem keeps_runGrid_strolls (h₀ : s₀.Ready) (groups grid : Uint3)
    (hbody : ∀ id (s : Scene K), s.memory.Preserved (point.body id s).state.memory) :
    Keeps (Strolls s₀) (runGrid point groups grid) := by
  rw [runGrid]
  split
  next => exact keeps_report _
  next =>
    refine (keeps_report _).bind fun _ s hs => ?_
    have hlanes := runLanes_preserved groups (s := ⟨s.dispatcher.kernel, s.memory⟩) hbody
    exact ⟨hs.1.aside h₀ _ s.dispatcher.last hlanes, hs.2⟩

/-- The texels that the lanes wrote are committed. -/
theorem keeps_commit_strolls (h₀ : s₀.Ready) (entry : Nat) :
    Keeps (Strolls s₀) (forEach (s₀.dispatcher.table entry).textures fun (_, r) =>
      changeTexture r applyHostChanges) :=
  .forEach fun _ hp => keeps_changeTexture_strolls h₀ hp fun _ => ⟨rfl, rfl, rfl⟩

/-- What comes after the lanes. -/
theorem walk_leave (h₀ : s₀.Ready) (entry : Nat) {s : Bench K} (hs : Strolls s₀ s) :
    Walk s₀ (leave entry (s₀.dispatcher.table entry) s).state := by
  refine ((keeps_commit_strolls h₀ entry).meets_bind hs (fun _ h => h.1) fun _ s hs => ?_).state
  have hmark : Walk s₀ (changeTable entry Table.markDirty s).state := hs.1.tail (.markDirty entry)
  exact hmark.aside h₀ _ _ (.refl _)

/-- An emulated dispatch is a walk. -/
theorem walk_dispatchEmulated (h₀ : s₀.Ready) (entry : Nat) (groups : Uint3) :
    Walk s₀ (dispatchEmulated entry groups s₀).state := by
  rcases dispatchEmulated_refused_or entry groups s₀ with ⟨e, heq⟩ | ⟨point, grid, hpoint, heq⟩
  · rw [heq]
  · rw [heq]
    have hbody := h₀.bodies point (entry_lt hpoint).2
    refine ((keeps_enter_strolls h₀ entry).meets_bind ⟨.refl, rfl⟩ (fun _ h => h.1)
      fun _ s hs => ?_).state
    refine (keeps_runGrid_strolls h₀ groups grid hbody).meets_bind hs (fun _ h => h.1)
      fun _ s hs => ?_
    exact .of_state (walk_leave h₀ entry hs)

end Bench

/-! ## Runs -/

namespace BenchOp

/-- **Every operation is a walk**, also where it fails. -/
theorem walks {s : Bench K} (hs : s.Ready) (op : BenchOp) (hop : op.Lawful s.memory) :
    s.Walk (op.run s) := by
  cases op with
  | setBuffer entry slot r => exact walk_setBuffer entry slot hop
  | setTexture entry slot r => exact walk_setTexture entry slot hop
  | invalidate entry => exact walk_invalidateBuffers s entry
  | hardware entry groups => exact walk_dispatchHardware hs entry groups
  | emulated entry groups => exact walk_dispatchEmulated hs entry groups
  | download entry => exact walk_downloadBuffers hs entry
  | dispose => exact walk_dispose hs
  | caller change => exact Walk.aside .refl hs s.dispatcher.kernel s.dispatcher.last hop

/-- Any operations are a walk. -/
theorem runAll_walks (ops : List BenchOp) :
    ∀ {s : Bench K}, s.Ready → LawfulAll ops s → s.Walk (runAll ops s) := by
  induction ops with
  | nil => exact fun _ _ => .refl
  | cons op ops ih =>
    intro s hs hops
    have hop := walks hs op hops.1
    exact hop.trans (ih (hop.ready hs) hops.2)

end BenchOp

end ComputeKernel
