import ComputeKernel.Dispatch.Emulation
import ComputeKernel.Proofs.Dispatch.Present

/-!
# A texture through an emulated dispatch

The lanes of an emulated dispatch see textures through `Texture.get` and `Texture.put` only. So what
a body does to the textures is a list of texel writes (`EntryPoint.Writes`); the writes of a whole
dispatch are those of its bodies in the order in which they ran (`laneWrites`,
`Bench.emulatedWrites`). A body that faults ends the list. The lanes start from the image of a bound
texture (`Bench.enter_holds`), and the dispatch leaves the image with their writes on it
(`Bench.dispatchEmulated_holds`), however it ended.
-/

namespace ComputeKernel

open Grid
open ComputeKernel.Action Texture Machine

/-- The failure is a fault. -/
def Failure.IsFault (e : Failure) : Prop := ∃ fault, e = .fault fault

/-- The body of an entry point fails by faults of its own only. -/
def EntryPoint.OnlyFaults {K : Type} (point : EntryPoint K) : Prop :=
  ∀ id (s : Scene K) e, (point.body id s).result = .error e → e.IsFault

/-! ## Writes of texels -/

/-- A texel of a texture is given a value. -/
structure TexelWrite where
  texture : TextureRef
  uv : Uint2
  value : Float4
deriving DecidableEq

/-- The place and the value of a write to one texture. -/
def TexelWrite.at? (r : TextureRef) (w : TexelWrite) : Option (Uint2 × Float4) :=
  if w.texture = r then some (w.uv, w.value) else none

/-- A texel that an image of a given size has. -/
def Inside (size uv : Uint2) : Prop := uv.x < size.x ∧ uv.y < size.y

instance (size uv : Uint2) : Decidable (Inside size uv) := inferInstanceAs (Decidable (_ ∧ _))

/-- An image of a given size after a write. -/
def paint (size : Uint2) (image : Array Float4) (w : Uint2 × Float4) : Array Float4 :=
  image.setIfInBounds (w.1.y.toNat * size.x.toNat + w.1.x.toNat) w.2

namespace Memory

/-- Do a write. -/
def write (m : Memory) (w : TexelWrite) : Memory := m.modifyTexture w.texture (·.put w.uv w.value)

end Memory

variable {K : Type}

/-- A body changes textures by these writes alone. -/
structure EntryPoint.Writes (point : EntryPoint K) (writes : Uint3 → Scene K → List TexelWrite) :
    Prop where
  textures : ∀ id s,
    (point.body id s).state.memory.textures = ((writes id s).foldl Memory.write s.memory).textures
  inside : ∀ id s, ∀ w ∈ writes id s, (s.memory.texture w.texture).contains w.uv = true

/-- One visit of a lane: the body for its id. -/
def visit (point : EntryPoint K) (groups : Uint3) (v : Uint3 × Uint3) : Action (Scene K) Unit := do
  let id ← ofExcept ((id? groups v.1 v.2).mapError .fault)
  point.body id

/-- A visit without an id is a fault. -/
theorem visit_of_error {point : EntryPoint K} {groups : Uint3} {v : Uint3 × Uint3} {e : Fault}
    (h : id? groups v.1 v.2 = .error e) (s : Scene K) :
    visit point groups v s = { result := .error (.fault e), state := s } := by
  rw [visit, h]
  rfl

/-- A visit with an id runs the body. -/
theorem visit_of_ok {point : EntryPoint K} {groups : Uint3} {v : Uint3 × Uint3} {id : Uint3}
    (h : id? groups v.1 v.2 = .ok id) : visit point groups v = point.body id := by
  rw [visit, h]
  exact ofExcept_ok_bind id point.body

/-- The writes of the lanes, up to a thread that faults. -/
def laneWrites (point : EntryPoint K) (groups : Uint3)
    (writes : Uint3 → Scene K → List TexelWrite) :
    List (Uint3 × Uint3) → Scene K → List TexelWrite
  | [], _ => []
  | v :: rest, s =>
    match id? groups v.1 v.2 with
    | .error _ => []
    | .ok id =>
      writes id s ++
        match (point.body id s).result with
        | .ok _ => laneWrites point groups writes rest (point.body id s).state
        | .error _ => []

namespace Bench

/-- The writes of the threads of a grid, if it is not refused. -/
def gridWrites (writes : Uint3 → Scene K → List TexelWrite) (point : EntryPoint K)
    (groups grid : Uint3) (table : Table) (s : Bench K) : List TexelWrite :=
  let o := enter table s
  match o.result with
  | .error _ => []
  | .ok _ =>
    if grid.isEmpty then []
    else laneWrites point groups writes (Grid.visits point.extent groups)
      ⟨o.state.dispatcher.kernel, o.state.memory⟩

/-- The writes of the lanes of an emulated dispatch. -/
def emulatedWrites (writes : Uint3 → Scene K → List TexelWrite) (entry : Nat) (groups : Uint3)
    (s : Bench K) : List TexelWrite :=
  match s.dispatcher.layout.entry entry with
  | .error _ => []
  | .ok point =>
    match grid? point.extent groups with
    | none => []
    | some grid => gridWrites writes point groups grid (s.dispatcher.table entry) s

end Bench

/-! ## The lanes -/

variable {r : TextureRef} {size : Uint2} {image : Array Float4} {P : Texture → Prop}
    {d : HostDevice}

/-- The texture is settled, and the host is current. -/
def Settled.Current (r : TextureRef) (size : Uint2) (image : Array Float4) (d : HostDevice)
    (m : Memory) : Prop :=
  Settled r size image m d ∧ (m.texture r).hostStale = false

namespace Settled.Current

/-- Being current is about textures, not about buffers. -/
theorem congr {m m' : Memory} (h : m'.textures = m.textures) (hm : Current r size image d m) :
    Current r size image d m' := by
  obtain ⟨hs, hstale⟩ := hm
  refine ⟨hs.congr h, ?_⟩
  rw [Memory.texture_congr h, hstale]

/-- A write paints the image of its texture, and no other. -/
theorem write {m : Memory} (hm : Current r size image d m) (w : TexelWrite) :
    Current r size ((w.at? r).toList.foldl (paint size) image) d (m.write w) := by
  obtain ⟨hs, hstale⟩ := hm
  rw [Memory.write, Memory.modifyTexture_eq, TexelWrite.at?]
  by_cases hr : w.texture = r
  · subst hr
    rw [if_pos rfl]
    have hput := hs.coherent.put hstale w.uv w.value
    rw [position, hs.width] at hput
    refine ⟨hs.own (.of_texture ⟨rfl, rfl, rfl⟩) hput, ?_⟩
    rw [Memory.texture_setTexture_self hs.present]
    rfl
  · rw [if_neg hr]
    refine ⟨hs.other hr (.of_texture ⟨rfl, rfl, rfl⟩), ?_⟩
    rw [m.texture_setTexture_of_ne (Ne.symm hr)]
    exact hstale

/-- The writes of a lane paint the image one after the other. -/
theorem foldl_write (ws : List TexelWrite) :
    ∀ {m : Memory} {image : Array Float4}, Current r size image d m →
      Current r size ((ws.filterMap (·.at? r)).foldl (paint size) image) d
        (ws.foldl Memory.write m) := by
  induction ws with
  | nil => exact fun hm => hm
  | cons w ws ih =>
    intro m image hm
    have hrest := ih (hm.write w)
    rw [← List.foldl_append] at hrest
    rw [List.foldl_cons, List.filterMap_cons]
    cases hw : w.at? r with
    | none => simpa [hw] using hrest
    | some p => simpa [hw] using hrest

/-- The writes of a body are inside the image. -/
theorem inside {point : EntryPoint K} {writes : Uint3 → Scene K → List TexelWrite}
    (hwrites : point.Writes writes) {s : Scene K} (hs : Current r size image d s.memory)
    (id : Uint3) :
    ∀ p ∈ (writes id s).filterMap (·.at? r), Inside size p.1 := by
  intro p hp
  obtain ⟨w, hw, hat⟩ := List.mem_filterMap.1 hp
  rw [TexelWrite.at?] at hat
  split at hat
  · next hr =>
    cases hat
    have hcontains := hwrites.inside id s w hw
    rw [hr, contains, hs.1.width, hs.1.height] at hcontains
    simpa [Inside] using hcontains
  · cases hat

/-- The lanes paint the image with their writes. -/
theorem runVisits {point : EntryPoint K} {writes : Uint3 → Scene K → List TexelWrite}
    (hwrites : point.Writes writes) (groups : Uint3) (visits : List (Uint3 × Uint3)) :
    ∀ {s : Scene K} {image : Array Float4}, Current r size image d s.memory →
      (∀ p ∈ (laneWrites point groups writes visits s).filterMap (·.at? r), Inside size p.1) ∧
      Current r size (((laneWrites point groups writes visits s).filterMap (·.at? r)).foldl
        (paint size) image) d
        (forEach visits (visit point groups) s).state.memory := by
  induction visits with
  | nil => exact fun hs => ⟨fun _ hp => absurd hp List.not_mem_nil, hs⟩
  | cons v visits ih =>
    intro s image hs
    rw [laneWrites, forEach, bind_eq]
    cases hid : id? groups v.1 v.2 with
    | error e =>
      rw [visit_of_error hid]
      exact ⟨fun _ hp => absurd hp List.not_mem_nil, hs⟩
    | ok id =>
      have hinside := hs.inside hwrites id
      have hbody := (hs.foldl_write (writes id s)).congr (hwrites.textures id s)
      simp only [visit_of_ok hid, List.filterMap_append, List.foldl_append, List.mem_append]
      cases (point.body id s).result with
      | error e =>
        exact ⟨fun p hp => hp.elim (hinside p) fun hp => absurd hp List.not_mem_nil, hbody⟩
      | ok _ =>
        obtain ⟨hrest, hcurrent⟩ := ih hbody
        exact ⟨fun p hp => hp.elim (hinside p) (hrest p), hcurrent⟩

end Settled.Current

/-! ## Before and after the lanes -/

namespace Bench

variable {r' : TextureRef} {s : Bench K} {writes : Uint3 → Scene K → List TexelWrite}

/-- What leaves memory and device alone keeps the texture. -/
theorem keeps_of_memory {α : Type} {a : Action (Bench K) α}
    (h : ∀ s, (a s).state.memory = s.memory ∧ (a s).state.device = s.device) :
    Keeps (Holds r size image P) a := by
  rintro s ⟨device, hdevice, hm⟩
  obtain ⟨hmemory, hsame⟩ := h s
  refine ⟨device, hsame.trans hdevice, ?_⟩
  rw [hmemory]
  exact hm

/-- A buffer in its field keeps what is not the kernel's. -/
theorem keeps_bindBufferField {I : Bench K → Prop}
    (hI : ∀ s kernel, I s → I { s with dispatcher := { s.dispatcher with kernel } }) (slot : String)
    (b : BufferRef) :
    Keeps I (bindBufferField slot b) := by
  intro s hs
  simp only [bindBufferField]
  split
  next kernel _ => exact hI s kernel hs
  next => exact hs

/-- So does a texture in its field. -/
theorem keeps_bindTextureField {I : Bench K → Prop}
    (hI : ∀ s kernel, I s → I { s with dispatcher := { s.dispatcher with kernel } }) (slot : String)
    (r' : TextureRef) : Keeps I (bindTextureField slot r') := by
  intro s hs
  simp only [bindTextureField]
  split
  next kernel _ => exact hI s kernel hs
  next => exact hs

/-- A change of a texture, as an action on the machine. -/
theorem onTexture_change_eq (r' : TextureRef) (f : Texture → Texture) (m : Machine) :
    (onTexture r' (change f) m).state = { m with memory := m.memory.modifyTexture r' f } := by
  rw [Memory.modifyTexture_eq]
  rfl

/-- A change of another texture keeps the texture. -/
theorem keeps_changeTexture_of_ne (hr : r' ≠ r) (f : Texture → Texture)
    (hkept : ∀ t, (f t).width = t.width ∧ (f t).height = t.height ∧ (f t).surface = t.surface) :
    Keeps (Holds r size image P) (changeTexture r' f : Action (Bench K) Unit) := by
  rintro s ⟨device, hdevice, hm⟩
  have hchange := keeps_onTexture_of_ne hr (fun _ _ => keeps_change hkept) _ hm
  rw [onTexture_change_eq] at hchange
  exact ⟨device, hdevice, hchange⟩

/-- A change of the texture itself that keeps it coherent. -/
theorem changeTexture_holds (f : Texture → Texture) {Q : Texture → Prop}
    (hs : s.Holds r size image P)
    (hkept : ∀ t, (f t).width = t.width ∧ (f t).height = t.height ∧ (f t).surface = t.surface)
    (hf : ∀ t d, t.Coherent d image → P t → (f t).Coherent d image ∧ Q (f t)) :
    (changeTexture r f s).state.Holds r size image Q := by
  obtain ⟨device, hdevice, hm⟩ := hs
  have hchange := (meets_change hm hkept hf).of_ok rfl
  rw [onTexture_change_eq] at hchange
  exact ⟨device, hdevice, hchange⟩

/-- Fetching a texture, as an action on the machine. -/
theorem meets_fetchTexture {device : Device} {Q R : Machine → Prop}
    (hdevice : s.device = some device)
    (h : (onTexture r' toHost { memory := s.memory, device }).Meets (fun _ => Q) R) :
    (fetchTexture r' s).Meets
      (fun _ t => ∃ device, t.device = some device ∧ Q { memory := t.memory, device })
      (fun t => ∃ device, t.device = some device ∧ R { memory := t.memory, device }) := by
  simp only [fetchTexture, hdevice]
  generalize onTexture r' toHost { memory := s.memory, device } = o at h
  obtain ⟨result, m, events⟩ := o
  cases result with
  | ok _ => exact ⟨_, rfl, h⟩
  | error e => exact ⟨_, rfl, h⟩

/-- Making another texture ready keeps the texture. -/
theorem keeps_enterTexture_of_ne (slot : String) (hr : r' ≠ r) :
    Keeps (Holds r size image P) (enterTexture slot r' : Action (Bench K) Unit) := by
  refine (keeps_bindTextureField (fun _ _ h => h) slot r').bind fun _ => Keeps.bind ?_ fun _ =>
    keeps_changeTexture_of_ne hr hintHost fun _ => ⟨rfl, rfl, rfl⟩
  rintro s ⟨device, hdevice, hm⟩
  have hkeeps : Keeps (Machine.Holds r size image P) (onTexture r' toHost) :=
    keeps_onTexture_of_ne hr fun _ _ => keeps_toHost
  exact (meets_fetchTexture hdevice (hkeeps.meets hm)).state

/-- Making the texture itself ready fetches its image. -/
theorem enterTexture_holds (slot : String) (hs : s.Holds r size image P) :
    (enterTexture slot r s).Meets (fun _ s => s.Holds r size image fun t => t.hostStale = false)
      (fun s => s.Holds r size image fun _ => True) := by
  have hfield := ((keeps_bindTextureField (fun _ _ h => h) slot r).meets hs).mono_broken
    fun _ h => h.mono fun _ _ => trivial
  refine meets_bind hfield fun _ s hs => ?_
  obtain ⟨device, hdevice, hm⟩ := hs
  have hfetch := meets_onTexture (R := fun _ t => t.hostStale = false) hm
    (fun _ _ => keeps_toHost) fun t d hc _ _ _ => toHost_coherent hc
  refine meets_bind ((meets_fetchTexture hdevice hfetch).mono_broken ?_) fun _ s hs => ?_
  · rintro _ ⟨_, _, h⟩
    exact h.elim
  · exact changeTexture_holds hintHost hs (fun _ => ⟨rfl, rfl, rfl⟩)
      fun t d hc hcurrent => ⟨hc.hintHost hcurrent, rfl⟩

/-- What comes before the lanes keeps the image of a bound texture, and leaves it on the host. -/
theorem enter_holds {table : Table} (hs : s.Holds r size image P)
    (hr : r ∈ table.textures.map Prod.snd) :
    (enter table s).Meets (fun _ s => s.Holds r size image fun t => t.hostStale = false)
      (fun s => s.Holds r size image fun _ => True) := by
  obtain ⟨⟨slot, r⟩, hmem, rfl⟩ := List.mem_map.1 hr
  have hbuffers : Keeps (Holds r size image fun _ => True)
      (forEach table.buffers fun b => bindBufferField b.1 b.2.buffer : Action (Bench K) Unit) :=
    Keeps.forEach fun b _ => keeps_bindBufferField (fun _ _ h => h) b.1 b.2.buffer
  refine meets_bind (hbuffers.meets (hs.mono fun _ _ => trivial)) fun _ s hs => ?_
  have hown : ∀ slot (s : Bench K) (Q : Texture → Prop), s.Holds r size image Q →
    (enterTexture slot r s).Meets
      (fun _ s => s.Holds r size image fun t => t.hostStale = false)
      (fun s => s.Holds r size image fun _ => True) := fun slot s Q hs => enterTexture_holds slot hs
  refine meets_forEach hmem ?_ ?_ (fun s hs => hown slot s _ hs) hs
  · rintro ⟨slot', r'⟩ -
    by_cases hr' : r' = r
    · subst hr'
      intro s hs
      exact ((hown slot' s _ hs).mono (fun _ _ hs => hs.mono fun _ _ => trivial) fun _ h => h).state
    · exact keeps_enterTexture_of_ne slot' hr'
  · rintro ⟨slot', r'⟩ - s hs
    by_cases hr' : r' = r
    · subst hr'
      exact hown slot' s _ hs
    · exact ((keeps_enterTexture_of_ne slot' hr').meets hs).mono_broken fun _ hs =>
        hs.mono fun _ _ => trivial

/-- What comes after the lanes keeps a current image. -/
theorem keeps_leave (entry : Nat) (table : Table) :
    Keeps (Holds r size image fun t => t.hostStale = false)
    (leave entry table : Action (Bench K) Unit) := by
  refine Keeps.bind (Keeps.forEach ?_) fun _ => Keeps.bind ?_ fun _ => ?_
  · rintro ⟨slot, r'⟩ -
    by_cases hr : r' = r
    · subst hr
      intro s hs
      exact changeTexture_holds applyHostChanges hs (fun _ => ⟨rfl, rfl, rfl⟩)
        fun t d hc hcurrent => ⟨hc.applyHostChanges hcurrent, hcurrent⟩
    · exact keeps_changeTexture_of_ne hr _ fun _ => ⟨rfl, rfl, rfl⟩
  · exact keeps_of_memory fun _ => ⟨rfl, rfl⟩
  · exact keeps_of_memory fun _ => ⟨rfl, rfl⟩

/-- The lanes of a grid paint the image. -/
theorem runGrid_holds {point : EntryPoint K}
    (hwrites : point.Writes writes) (groups grid : Uint3) {ws : List TexelWrite}
    (hs : s.Holds r size image fun t => t.hostStale = false)
    (hws : ws = if grid.isEmpty then [] else
      laneWrites point groups writes (Grid.visits point.extent groups) ⟨s.dispatcher.kernel,
      s.memory⟩) :
    (∀ p ∈ ws.filterMap (·.at? r), Inside size p.1) ∧
      (runGrid point groups grid s).state.Holds r size
        ((ws.filterMap (·.at? r)).foldl (paint size) image)
        fun t => t.hostStale = false := by
  obtain ⟨_, hdevice, d, rfl, hsettled, hstale⟩ := hs
  cases hempty : grid.isEmpty with
  | true =>
    simp only [hempty, if_true] at hws
    subst hws
    simp only [runGrid, hempty, if_true]
    exact ⟨fun _ hp => absurd hp List.not_mem_nil, _, hdevice, d, rfl, hsettled, hstale⟩
  | false =>
    simp only [hempty] at hws
    subst hws
    obtain ⟨hinside, hsettled', hstale'⟩ := Settled.Current.runVisits hwrites groups
      (Grid.visits point.extent groups) (s := ⟨s.dispatcher.kernel, s.memory⟩) ⟨hsettled, hstale⟩
    simp only [runGrid, hempty]
    exact ⟨hinside, _, hdevice, d, rfl, hsettled', hstale'⟩

/-- A grid leaves the image with its writes on it. -/
theorem gridWrites_holds {point : EntryPoint K}
    (hwrites : point.Writes writes) (entry : Nat) (groups grid : Uint3) {table : Table}
    (hs : s.Holds r size image P) (hr : r ∈ table.textures.map Prod.snd) :
    (∀ p ∈ (gridWrites writes point groups grid table s).filterMap (·.at? r), Inside size p.1) ∧
      ((do enter table
           runGrid point groups grid
           leave entry table : Action (Bench K) Unit) s).state.Holds r size
        (((gridWrites writes point groups grid table s).filterMap (·.at? r)).foldl
          (paint size) image)
        fun _ => True := by
  have henter := enter_holds hs hr
  cases hresult : (enter table s).result with
  | error e =>
    rw [state_bind_of_error hresult]
    simp only [gridWrites, hresult]
    exact ⟨fun _ hp => absurd hp List.not_mem_nil, henter.of_error hresult⟩
  | ok _ =>
    obtain ⟨hinside, hgrid⟩ := runGrid_holds hwrites groups grid (henter.of_ok hresult) rfl
    rw [state_bind_of_ok hresult]
    simp only [gridWrites, hresult]
    refine ⟨hinside, ?_⟩
    cases hrun : (runGrid point groups grid (enter table s).state).result with
    | error e =>
      rw [state_bind_of_error hrun]
      exact hgrid.mono fun _ _ => trivial
    | ok _ =>
      rw [state_bind_of_ok hrun]
      exact (keeps_leave entry table _ hgrid).mono fun _ _ => trivial

/-- An emulated dispatch is refused, or runs its grid. -/
theorem dispatchEmulated_refused_or (entry : Nat) (groups : Uint3) (s : Bench K) :
    (∃ e, dispatchEmulated entry groups s = { result := .error (.dispatch e), state := s }) ∨
      ∃ point grid, s.dispatcher.layout.entry entry = .ok point ∧
        dispatchEmulated entry groups s = (do
          enter (s.dispatcher.table entry)
          runGrid point groups grid
          leave entry (s.dispatcher.table entry) : Action (Bench K) Unit) s := by
  rw [dispatchEmulated, check_bind]
  cases s.dispatcher.layout.entry entry with
  | error e => exact .inl ⟨e, rfl⟩
  | ok point =>
    dsimp only
    cases grid? point.extent groups with
    | none => exact .inl ⟨_, rfl⟩
    | some grid => exact .inr ⟨point, grid, rfl, rfl⟩

/-- An emulated dispatch leaves the image with its writes. -/
theorem dispatchEmulated_holds {entry : Nat} (groups : Uint3)
    (hs : s.Holds r size image P)
    (hr : r ∈ (s.dispatcher.table entry).textures.map Prod.snd)
    (hwrites : ∀ point, s.dispatcher.layout.entry entry = .ok point → point.Writes writes) :
    (∀ p ∈ (emulatedWrites writes entry groups s).filterMap (·.at? r), Inside size p.1) ∧
      (dispatchEmulated entry groups s).state.Holds r size
        (((emulatedWrites writes entry groups s).filterMap (·.at? r)).foldl (paint size) image)
        fun _ => True := by
  have hany : s.Holds r size image fun _ => True := hs.mono fun _ _ => trivial
  rw [dispatchEmulated, check_bind, emulatedWrites]
  cases hentry : s.dispatcher.layout.entry entry with
  | error e => exact ⟨fun _ hp => absurd hp List.not_mem_nil, hany⟩
  | ok point =>
    dsimp only
    cases grid? point.extent groups with
    | none => exact ⟨fun _ hp => absurd hp List.not_mem_nil, hany⟩
    | some grid => exact gridWrites_holds (hwrites point hentry) entry groups grid hs hr

end Bench

end ComputeKernel
