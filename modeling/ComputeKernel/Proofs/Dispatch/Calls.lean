import Mathlib.Tactic.Ring
import ComputeKernel.Proofs.Buffer.Bytes
import ComputeKernel.Proofs.Dispatch.Cover
import ComputeKernel.Proofs.Dispatch.Fields
import ComputeKernel.Sample.Workbench

/-!
# How often an emulated dispatch calls its body

Any kernel can be made to keep a log of the ids its bodies are called for (`Bench.logged`). No body
and no field sees the log, so a dispatch of the logged kernel does what a dispatch of the kernel
does, and adds to the log (`Bench.dispatchEmulated_logged`). After a dispatch that succeeded the log
has the ids of the grid, as many as lanes times groups (`Grid.length_ids`). Acceptance looks at the
components of the grid, each in 32 bits, but the lanes are counted in 64 bits and count as none when
they do not fit. So there are grids that are accepted of which no thread is run.
-/

namespace ComputeKernel

open Grid Layout
open ComputeKernel.Action

variable {σ τ α β K : Type}

/-! ## Runs beside one another -/

/-- The outcome with its state put into another kind of state. -/
def Outcome.along (e : σ → τ) (o : Outcome σ α) : Outcome τ α :=
  { result := o.result, state := e o.state, events := o.events }

/-- One action does on the images of states what another does. -/
def Action.Along (e : σ → τ) (a : Action σ α) (b : Action τ α) : Prop :=
  ∀ s, b (e s) = (a s).along e

namespace Action

variable {e : σ → τ}

/-- What follows may put the state in another way. -/
theorem bind_along {e' : σ → τ} {a : Action σ α} {f : α → Action σ β} {b : Action τ α}
    {g : α → Action τ β} {s : σ} {t : τ} (ha : b t = (a s).along e)
    (hf : ∀ x, (a s).result = .ok x → g x (e (a s).state) = (f x (a s).state).along e')
    (herror : ∀ x, (a s).result = .error x → e (a s).state = e' (a s).state) :
    (b >>= g) t = ((a >>= f) s).along e' := by
  rw [bind_eq, bind_eq, ha]
  cases hr : (a s).result with
  | error x => simp only [Outcome.along, hr, herror x hr]
  | ok x => simp only [Outcome.along, hr, hf x hr]

/-- One step after another. -/
theorem Along.bind {a : Action σ α} {f : α → Action σ β} {b : Action τ α} {g : α → Action τ β}
    (ha : Along e a b) (hf : ∀ x, Along e (f x) (g x)) : Along e (a >>= f) (b >>= g) :=
  fun s => bind_along (ha s) (fun x _ => hf x _) fun _ _ => rfl

/-- A step for each item. -/
theorem Along.forEach {items : List β} {f : β → Action σ Unit} {g : β → Action τ Unit}
    (h : ∀ c ∈ items, Along e (f c) (g c)) : Along e (forEach items f) (forEach items g) := by
  induction items with
  | nil => exact fun _ => rfl
  | cons c items ih =>
    exact (h c (.head _)).bind fun _ => ih fun d hd => h d (.tail _ hd)

end Action

/-! ## Logged kernels -/

/-- A kernel, and the ids its bodies were called for. -/
structure Logged (K : Type) where
  kernel : K
  calls : List Uint3

/-- The scene of a logged kernel. -/
def Scene.logged (s : Scene K) (calls : List Uint3) : Scene (Logged K) :=
  ⟨⟨s.kernel, calls⟩, s.memory⟩

/-- The field of a logged kernel. -/
def Field.logged : Field K → Field (Logged K)
  | .buffer element set => .buffer element fun r k => { k with kernel := set r k.kernel }
  | .texture set => .texture fun r k => { k with kernel := set r k.kernel }

/-- The slot of a logged kernel. -/
def Slot.logged (s : Slot K) : Slot (Logged K) := { name := s.name, field := s.field.logged }

/-- The entry point with a body that notes its calls. -/
def EntryPoint.logged (point : EntryPoint K) : EntryPoint (Logged K) where
  name := point.name
  extent := point.extent
  ordinal := point.ordinal
  body id s := (point.body id ⟨s.kernel.kernel, s.memory⟩).along fun t =>
    t.logged (s.kernel.calls ++ [id])

/-- The layout of a logged kernel. -/
def Layout.logged (l : Layout K) : Layout (Logged K) :=
  { entries := l.entries.map EntryPoint.logged, slots := l.slots.map Slot.logged }

/-- The dispatcher of a logged kernel. -/
def Dispatcher.logged (d : Dispatcher K) (calls : List Uint3) : Dispatcher (Logged K) where
  kernel := ⟨d.kernel, calls⟩
  layout := d.layout.logged
  tables := d.tables
  last := d.last
  source := d.source
  workers := d.workers

/-- The bench of a logged kernel, with a log. -/
def Bench.logged (s : Bench K) (calls : List Uint3) : Bench (Logged K) :=
  { dispatcher := s.dispatcher.logged calls, memory := s.memory, device := s.device }

namespace Slot

variable (s : Slot K)

/-- A logged slot accepts what the slot does. -/
theorem capability_logged : s.logged.capability = s.capability := by
  obtain ⟨name, field⟩ := s
  cases field <;> rfl

/-- It takes the same buffers. -/
theorem bindBuffer?_logged (element : Element) (r : BufferRef) (kernel : K) (calls : List Uint3) :
    s.logged.bindBuffer? element r ⟨kernel, calls⟩ =
      (s.bindBuffer? element r kernel).map (⟨·, calls⟩) := by
  obtain ⟨name, field⟩ := s
  cases field with
  | buffer accepted set =>
    simp only [bindBuffer?, logged, Field.logged]
    split <;> rfl
  | texture set => rfl

/-- It takes the same textures. -/
theorem bindTexture?_logged (r : TextureRef) (kernel : K) (calls : List Uint3) :
    s.logged.bindTexture? r ⟨kernel, calls⟩ = (s.bindTexture? r kernel).map (⟨·, calls⟩) := by
  obtain ⟨name, field⟩ := s
  cases field <;> rfl

end Slot

namespace Layout

/-- It is found by the same name. -/
theorem slot?_logged (l : Layout K) (name : String) :
    l.logged.slot? name = (l.slot? name).map Slot.logged := by
  rw [slot?, logged, List.find?_map]
  rfl

/-- What is accepted by name is the same. -/
theorem capability?_logged (l : Layout K) (name : String) :
    l.logged.capability? name = l.capability? name := by
  rw [capability?, capability?, slot?_logged, Option.map_map]
  congr 1
  funext s
  exact s.capability_logged

/-- An entry point is found as a logged one. -/
theorem entry_logged {l : Layout K} {entry : Nat} {point : EntryPoint K}
    (h : l.entry entry = .ok point) :
    l.logged.entry entry = .ok point.logged := by
  rw [entry_eq_ok_iff] at h ⊢
  rw [logged, List.getElem?_map, h, Option.map_some]

end Layout

/-! ## Runs of logged kernels -/

/-- The logged body does the same, and logs its ids. -/
theorem EntryPoint.forEach_logged (point : EntryPoint K) (ids : List Uint3) (s : Scene K)
    (calls : List Uint3) :
    ∃ new, Action.forEach ids point.logged.body (s.logged calls)
        = (Action.forEach ids point.body s).along (·.logged (calls ++ new)) ∧
      ((Action.forEach ids point.body s).result = .ok () → new = ids) := by
  induction ids generalizing s calls with
  | nil => exact ⟨[], by rw [List.append_nil]; rfl, fun _ => rfl⟩
  | cons id ids ih =>
    have hbody : point.logged.body id (s.logged calls) =
      (point.body id s).along (·.logged (calls ++ [id])) := rfl
    obtain ⟨new, hrun, hnew⟩ := ih (point.body id s).state (calls ++ [id])
    rw [List.append_assoc, List.singleton_append] at hrun
    cases hr : (point.body id s).result with
    | error e =>
      refine ⟨[id], bind_along hbody (fun x hx => ?_) fun _ _ => rfl, fun hok => ?_⟩
      · cases hr.symm.trans hx
      · rw [Action.forEach, bind_eq, hr] at hok
        cases hok
    | ok x =>
      refine ⟨id :: new, bind_along hbody (fun _ _ => hrun) fun e he => ?_, fun hok => ?_⟩
      · cases hr.symm.trans he
      · rw [Action.forEach, result_bind_of_ok hr] at hok
        rw [hnew hok]

namespace Grid

variable {extent groups : Uint3}

/-- There are as many points as groups. -/
theorem length_points :
    (points groups).length = groups.x.toNat * groups.y.toNat * groups.z.toNat := by
  simp only [points, List.length_flatMap, List.length_map, List.length_range, List.map_const',
    List.sum_replicate_nat]
  ring

/-- There is one id for each lane and each point of the groups. -/
theorem length_ids : (ids extent groups).length
    = laneCount extent * (groups.x.toNat * groups.y.toNat * groups.z.toNat) := by
  rw [ids, List.length_map, visits_eq_product, List.length_product, length_points, lanes,
    List.length_map, List.length_range]

/-- There are no lanes when they do not fit in 64 bits. -/
theorem laneCount_of_le (h : 2 ^ 64 ≤ extent.x.toNat * extent.y.toNat * extent.z.toNat) :
    laneCount extent = 0 := by
  have hvolume : extent.volume? = none := if_neg (Nat.not_lt.2 h)
  rw [laneCount, hvolume, Option.getD_none]

/-- A component of a grid that is found fits in 32 bits. -/
theorem product?_eq_some {a b c : UInt32} (h : product? a b = some c) :
    a.toNat * b.toNat < 2 ^ 32 ∧ c.toNat = a.toNat * b.toNat := by
  by_cases hlt : a.toNat * b.toNat < 2 ^ 32
  · obtain ⟨hok, hexact⟩ := Word.product?_eq_ok hlt
    rw [product?, hok] at h
    cases h
    exact ⟨hlt, hexact⟩
  · have herror : Word.product? a b = .error .multiplication := if_neg hlt
    rw [product?, herror] at h
    cases h

/-- A grid that is found fits, and is the products. -/
theorem fits_of_grid? {grid : Uint3} (h : grid? extent groups = some grid) :
    Fits extent groups ∧ grid.x.toNat = extent.x.toNat * groups.x.toNat ∧
      grid.y.toNat = extent.y.toNat * groups.y.toNat ∧
      grid.z.toNat = extent.z.toNat * groups.z.toNat := by
  simp only [grid?, Option.bind_eq_bind, Option.bind_eq_some_iff] at h
  obtain ⟨x, hx, y, hy, z, hz, h⟩ := h
  cases h
  obtain ⟨fx, ex⟩ := product?_eq_some hx
  obtain ⟨fy, ey⟩ := product?_eq_some hy
  obtain ⟨fz, ez⟩ := product?_eq_some hz
  exact ⟨⟨fx, fy, fz⟩, ex, ey, ez⟩

/-- A grid that does not fit is not found. -/
theorem grid?_eq_none (h : ¬ Fits extent groups) : grid? extent groups = none := by
  cases hgrid : grid? extent groups with
  | none => rfl
  | some grid => exact absurd (fits_of_grid? hgrid).1 h

/-- An empty grid has no ids. -/
theorem ids_of_isEmpty {grid : Uint3} (hgrid : grid? extent groups = some grid)
    (hempty : grid.isEmpty = true) :
    ids extent groups = [] := by
  obtain ⟨-, hx, hy, hz⟩ := fits_of_grid? hgrid
  have hvolume : grid.x.toNat * grid.y.toNat * grid.z.toNat = 0 := by
    simp only [Uint3.isEmpty, Bool.or_eq_true, beq_iff_eq] at hempty
    rcases hempty with (h | h) | h <;> rw [h] <;> simp
  have hcount : laneCount extent ≤ extent.x.toNat * extent.y.toNat * extent.z.toNat := by
    by_cases hv : extent.x.toNat * extent.y.toNat * extent.z.toNat < 2 ^ 64
    · exact Nat.le_of_eq (laneCount_eq hv)
    · rw [laneCount_of_le (Nat.not_lt.1 hv)]
      exact Nat.zero_le _
  refine List.eq_nil_of_length_eq_zero (Nat.eq_zero_of_le_zero ?_)
  calc (ids extent groups).length
      = laneCount extent * (groups.x.toNat * groups.y.toNat * groups.z.toNat) := length_ids
    _ ≤ extent.x.toNat * extent.y.toNat * extent.z.toNat *
      (groups.x.toNat * groups.y.toNat * groups.z.toNat) :=
        Nat.mul_le_mul_right _ hcount
    _ = grid.x.toNat * grid.y.toNat * grid.z.toNat := by rw [hx, hy, hz]; ring
    _ = 0 := hvolume

end Grid

namespace Bench

variable {groups : Uint3} {point : EntryPoint K} {s : Bench K}

/-- The lanes run the body for the ids of the dispatch, or for none if there are too many. -/
theorem runLanes_eq_ids (point : EntryPoint K) (hf : Grid.Fits point.extent groups) :
    runLanes point groups = Action.forEach (Grid.ids point.extent groups) point.body := by
  by_cases hv : point.extent.x.toNat * point.extent.y.toNat * point.extent.z.toNat < 2 ^ 64
  · exact runLanes_eq_forEach point hv hf
  · have hnone := laneCount_of_le (Nat.not_lt.1 hv)
    rw [runLanes, Grid.ids, visits, hnone]
    rfl

variable {calls : List Uint3}

/-- A buffer is put into its field in the same way. -/
theorem bindBufferField_along (slot : String) (r : BufferRef) :
    Along (·.logged calls) (bindBufferField slot r : Action (Bench K) Unit)
      (bindBufferField slot r) := by
  intro s
  simp only [bindBufferField, logged, Dispatcher.logged, slot?_logged, capability?_logged]
  cases s.dispatcher.layout.slot? slot with
  | none => rfl
  | some declared =>
    simp only [Option.map_some, Option.bind_some, Slot.bindBuffer?_logged]
    cases declared.bindBuffer? (s.memory.buffer r).element r s.dispatcher.kernel <;> rfl

/-- So is a texture. -/
theorem bindTextureField_along (slot : String) (r : TextureRef) :
    Along (·.logged calls) (bindTextureField slot r : Action (Bench K) Unit)
      (bindTextureField slot r) := by
  intro s
  simp only [bindTextureField, logged, Dispatcher.logged, slot?_logged, capability?_logged]
  cases s.dispatcher.layout.slot? slot with
  | none => rfl
  | some declared =>
    simp only [Option.map_some, Option.bind_some, Slot.bindTexture?_logged]
    cases declared.bindTexture? r s.dispatcher.kernel <;> rfl

/-- Textures are fetched in the same way. -/
theorem fetchTexture_along (r : TextureRef) :
    Along (·.logged calls) (fetchTexture r : Action (Bench K) Unit) (fetchTexture r) := by
  rintro ⟨dispatcher, memory, device⟩
  cases device <;> rfl

/-- Fields are entered in the same way. -/
theorem enter_along (table : Table) :
    Along (·.logged calls) (enter table : Action (Bench K) Unit) (enter table) := by
  refine Along.bind (.forEach fun p _ => bindBufferField_along p.1 p.2.buffer) fun _ =>
    .forEach fun p _ => ?_
  exact (bindTextureField_along p.1 p.2).bind fun _ => (fetchTexture_along p.2).bind fun _ _ => rfl

/-- And they are left so. -/
theorem leave_along (entry : Nat) (table : Table) :
    Along (·.logged calls) (leave entry table : Action (Bench K) Unit) (leave entry table) :=
  Along.bind (.forEach fun _ _ _ => rfl) fun _ => Along.bind (fun _ => rfl) fun _ _ => rfl

/-- An action on the scene goes along. -/
theorem onScene_along {a : Action (Scene K) Unit} {b : Action (Scene (Logged K)) Unit}
    {calls' : List Uint3} (h : b (Scene.logged ⟨s.dispatcher.kernel, s.memory⟩ calls)
      = (a ⟨s.dispatcher.kernel, s.memory⟩).along (·.logged calls')) :
    onScene b (s.logged calls) = (onScene a s).along (·.logged calls') := by
  have hzoom : onScene b (s.logged calls) =
    (b (Scene.logged ⟨s.dispatcher.kernel, s.memory⟩ calls)).along
      fun t => { (s.logged calls) with
        dispatcher := { (s.logged calls).dispatcher with kernel := t.kernel },
          memory := t.memory } := rfl
  rw [hzoom, h]
  rfl

/-- The grid of a logged kernel is run alike, and if that succeeds the log has its ids. -/
theorem runGrid_logged {groups grid : Uint3} (hgrid : Grid.grid? point.extent groups = some grid)
    (s : Bench K) (calls : List Uint3) :
    ∃ new, runGrid point.logged groups grid (s.logged calls)
        = (runGrid point groups grid s).along (·.logged (calls ++ new)) ∧
      ((runGrid point groups grid s).result = .ok () → new = Grid.ids point.extent groups) := by
  cases hempty : grid.isEmpty with
  | true =>
    refine ⟨[], ?_, fun _ => (ids_of_isEmpty hgrid hempty).symm⟩
    rw [runGrid, runGrid, if_pos hempty, if_pos hempty, List.append_nil]
    rfl
  | false =>
    have hf := (fits_of_grid? hgrid).1
    obtain ⟨new, hrun, hnew⟩ := point.forEach_logged (Grid.ids point.extent groups)
      ⟨s.dispatcher.kernel, s.memory⟩ calls
    refine ⟨new, ?_, fun hok => hnew ?_⟩
    · simp only [runGrid, hempty, runLanes_eq_ids point hf, runLanes_eq_ids point.logged hf]
      have hreport (event : Event) : report event (s.logged calls)
          = (report event s).along (·.logged calls) := rfl
      refine bind_along (hreport _) (fun _ _ => onScene_along hrun) ?_
      rintro _ ⟨⟩
    · simp only [runGrid, hempty, runLanes_eq_ids point hf] at hok
      exact hok

/-- **A log does not change a dispatch.** A dispatch of a logged kernel does what that of the kernel
does and adds to the log, and if it succeeds the ids of the grid. -/
theorem dispatchEmulated_logged {entry : Nat}
    (hentry : s.dispatcher.layout.entry entry = .ok point) (groups : Uint3) (calls : List Uint3) :
    ∃ new, dispatchEmulated entry groups (s.logged calls)
        = (dispatchEmulated entry groups s).along (·.logged (calls ++ new)) ∧
      ((dispatchEmulated entry groups s).result = .ok () → new = Grid.ids point.extent groups) := by
  have hlogged : (s.logged calls).dispatcher.layout.entry entry = .ok point.logged :=
    entry_logged hentry
  rw [dispatchEmulated_eq, dispatchEmulated_eq, emulation, emulation, hlogged, hentry]
  dsimp only
  rw [show point.logged.extent = point.extent from rfl]
  cases hgrid : Grid.grid? point.extent groups with
  | none =>
    refine ⟨[], by rw [List.append_nil]; rfl, ?_⟩
    rintro ⟨⟩
  | some grid =>
    dsimp only
    have henter : enter (s.dispatcher.table entry) (s.logged calls)
        = (enter (s.dispatcher.table entry) s).along (·.logged calls) := enter_along _ s
    cases hr : (enter (s.dispatcher.table entry) s).result with
    | error e =>
      refine ⟨[], ?_, fun hok => ?_⟩
      · rw [List.append_nil]
        refine bind_along henter (fun x hx => ?_) fun _ _ => rfl
        cases hr.symm.trans hx
      · rw [bind_eq, hr] at hok
        cases hok
    | ok u =>
      obtain ⟨new, hrun, hnew⟩ :=
        runGrid_logged hgrid (enter (s.dispatcher.table entry) s).state calls
      refine ⟨new, ?_, fun hok => hnew ?_⟩
      · refine bind_along henter (fun _ _ => ?_) fun e he => ?_
        · exact bind_along hrun (fun _ _ => leave_along entry _ _) fun _ _ => rfl
        · cases hr.symm.trans he
      · rw [result_bind_of_ok hr, bind_eq] at hok
        cases hgrid : (runGrid point groups grid
            (enter (s.dispatcher.table entry) s).state).result with
        | ok u => rfl
        | error e =>
          rw [hgrid] at hok
          cases hok

/-- A grid that does not fit is refused at once. -/
theorem dispatchEmulated_of_not_fits {entry : Nat}
    (hentry : s.dispatcher.layout.entry entry = .ok point) (h : ¬ Grid.Fits point.extent groups) :
    dispatchEmulated entry groups s
      = { result := .error (.dispatch (.gridOverflow point.name point.extent groups)),
          state := s } := by
  rw [dispatchEmulated_eq, emulation, hentry]
  dsimp only
  rw [grid?_eq_none h]
  rfl

end Bench

/-- **What a dispatch that succeeds has run.** A grid with a component that does not fit in 32 bits
is refused and nothing is done. When a dispatch succeeds, the body was called once for each thread
of the grid if the number of lanes fits in 64 bits, and never if it does not. The calls are those in
the log of a dispatch that is the same but for the log. -/
theorem emulated_call_count (s : Bench K) {entry : Nat} {point : EntryPoint K}
    (hentry : s.dispatcher.layout.entry entry = .ok point) (groups : Uint3) :
    (¬ Grid.Fits point.extent groups → Bench.dispatchEmulated entry groups s
        = { result := .error (.dispatch (.gridOverflow point.name point.extent groups)),
            state := s }) ∧
      ∃ calls, Bench.dispatchEmulated entry groups (s.logged [])
          = (Bench.dispatchEmulated entry groups s).along (·.logged calls) ∧
        ((Bench.dispatchEmulated entry groups s).result = .ok () → calls.length
          = if point.extent.x.toNat * point.extent.y.toNat * point.extent.z.toNat < 2 ^ 64 then
              point.extent.x.toNat * point.extent.y.toNat * point.extent.z.toNat
                * (groups.x.toNat * groups.y.toNat * groups.z.toNat)
            else 0) := by
  obtain ⟨calls, hrun, hcalls⟩ := Bench.dispatchEmulated_logged hentry groups []
  refine ⟨Bench.dispatchEmulated_of_not_fits hentry, calls, hrun, fun hok => ?_⟩
  rw [hcalls hok, length_ids]
  split
  · next hv => rw [laneCount_eq hv]
  · next hv => rw [laneCount_of_le (Nat.not_lt.1 hv), Nat.zero_mul]

namespace Quarry

/-- Two entry points for numbers, one with too many lanes. -/
def dispatcher : Dispatcher Workbench where
  kernel := {}
  layout :=
    { entries := numbered
        [Workbench.entry "Pit" ⟨2, 3, 1⟩ .doubleGuarded,
          Workbench.entry "Face" ⟨4294967295, 4294967295, 2⟩ .doubleGuarded]
      slots := [WorkbenchField.u0.slot "numbers"] }
  tables := [{ buffers := [("numbers", { buffer := ⟨0⟩ })] },
    { buffers := [("numbers", { buffer := ⟨0⟩ })] }]
  last := [none, none]

/-- Both double the same two numbers. -/
def bench : Bench Workbench :=
  { dispatcher
    memory := { buffers := #[⟨.uint, 2, #[7, 7], rfl, by decide⟩] } }

/-- What an entry point does, and how often it is called. -/
def emulate (entry : Nat) (groups : Uint3) : Except Failure Unit × Array UInt32 × Nat :=
  let o := Bench.dispatchEmulated entry groups (bench.logged [])
  (o.result, (o.state.memory.buffer ⟨0⟩).words, o.state.dispatcher.kernel.calls.length)

end Quarry

/-- A grid of which each component fits in 32 bits is accepted, but its body is not called at all:
its lanes are too many to count. -/
theorem unrun_grid_accepted :
    Grid.Fits ⟨4294967295, 4294967295, 2⟩ ⟨1, 1, 1⟩ ∧ Quarry.emulate 1 ⟨1, 1, 1⟩ =
      (.ok (), #[7, 7], 0) :=
  ⟨⟨by decide, by decide, by decide⟩, by decide +kernel⟩

/-- The body of a grid that is run is called for every thread, also for those beyond the end of the
numbers. -/
theorem pit_call_count :
    ∃ calls, Bench.dispatchEmulated 0 ⟨2, 1, 5⟩ (Quarry.bench.logged [])
        = (Bench.dispatchEmulated 0 ⟨2, 1, 5⟩ Quarry.bench).along (·.logged calls) ∧
      (Bench.dispatchEmulated 0 ⟨2, 1, 5⟩ Quarry.bench).result = .ok () ∧ calls.length = 60 := by
  have hok : (Bench.dispatchEmulated 0 ⟨2, 1, 5⟩ Quarry.bench).result = .ok () := by decide +kernel
  have hentry : Quarry.bench.dispatcher.layout.entry 0
      = .ok { Workbench.entry "Pit" ⟨2, 3, 1⟩ .doubleGuarded with ordinal := 0 } := rfl
  obtain ⟨-, calls, hrun, hcount⟩ := emulated_call_count Quarry.bench hentry ⟨2, 1, 5⟩
  exact ⟨calls, hrun, hok, hcount hok⟩

end ComputeKernel
