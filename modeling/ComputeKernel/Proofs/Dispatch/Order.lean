import ComputeKernel.Proofs.Dispatch.Calls
import ComputeKernel.Proofs.Resource.Cells

/-!
# The order of the threads

The lanes of an emulated dispatch may be run by many workers, so its bodies are called in an order
that is not known beforehand. When each thread reads and writes cells of its own only (`OwnCells`),
the order does not matter: what a body does is a list of writes to the cells of its thread, and
depends on these cells alone, which the other threads leave as they are (`OwnCells.forEach`). Writes
of different threads may be done in any order (`OwnCells.forEach_perm`). No thread is called twice,
and so it does not meet its own writes either.
-/

namespace ComputeKernel

open ComputeKernel.Action Grid Memory

variable {K : Type}

/-! ## The same end -/

/-- Both runs end in one state, or neither succeeds. -/
def Outcome.SameEnd {σ : Type} (o o' : Outcome σ Unit) : Prop :=
  (o'.result = .ok () ↔ o.result = .ok ()) ∧ (o.result = .ok () → o'.state = o.state)

namespace Outcome.SameEnd

variable {σ τ : Type}

/-- A run ends as itself. -/
theorem refl (o : Outcome σ Unit) : o.SameEnd o := ⟨.rfl, fun _ => rfl⟩

/-- What follows is the same after the same end. -/
theorem bind {a a' : Action σ Unit} {s : σ} (h : (a s).SameEnd (a' s)) (f : Unit → Action σ Unit) :
    ((a >>= f) s).SameEnd ((a' >>= f) s) := by
  obtain ⟨hok, hstate⟩ := h
  cases hr : (a s).result with
  | ok _ =>
    have hr' : (a' s).result = .ok () := hok.2 hr
    unfold SameEnd
    rw [result_bind_of_ok hr, result_bind_of_ok hr', state_bind_of_ok hr,
      state_bind_of_ok hr', hstate hr]
    exact ⟨.rfl, fun _ => rfl⟩
  | error e =>
    cases hr' : (a' s).result with
    | ok _ => cases hr.symm.trans (hok.1 hr')
    | error e' =>
      unfold SameEnd
      rw [bind_eq, bind_eq, hr, hr']
      exact ⟨⟨nofun, nofun⟩, nofun⟩

/-- What comes before is the same. -/
theorem bind_left {α : Type} (a : Action σ α) {f f' : α → Action σ Unit} {s : σ}
    (h : ∀ x, (a s).result = .ok x → (f x (a s).state).SameEnd (f' x (a s).state)) :
    ((a >>= f) s).SameEnd ((a >>= f') s) := by
  cases hr : (a s).result with
  | ok x =>
    unfold SameEnd
    rw [result_bind_of_ok hr, result_bind_of_ok hr, state_bind_of_ok hr,
      state_bind_of_ok hr]
    exact h x hr
  | error e =>
    unfold SameEnd
    rw [bind_eq, bind_eq, hr]
    exact ⟨.rfl, fun _ => rfl⟩

/-- An action on a part of the state. -/
theorem zoom {part : σ → τ} {replace : τ → σ → σ} {a a' : Action τ Unit} {s : σ}
    (h : (a (part s)).SameEnd (a' (part s))) :
    (Action.zoom part replace a s).SameEnd (Action.zoom part replace a' s) :=
  ⟨h.1, fun hok => congrArg (replace · s) (h.2 hok)⟩

end Outcome.SameEnd

/-! ## Threads with cells of their own -/

/-- An action reads and writes certain cells only: whatever is in the others, it ends in the same
way, with the same writes to these. -/
def Action.Within (C : Cell → Prop) (a : Action (Scene K) Unit) (s : Scene K) : Prop :=
  ∃ ws : List CellWrite, (∀ w ∈ ws, C w.cell) ∧ ∀ m, s.memory.SameOn C m →
    (a ⟨s.kernel, m⟩).result = (a s).result ∧ (a ⟨s.kernel, m⟩).state = ⟨s.kernel, ws.foldl store m⟩

/-- Threads with cells of their own, no two of them the same. -/
structure OwnCells (body : Uint3 → Action (Scene K) Unit) (threads : Uint3 → Prop)
    (own : Uint3 → Cell → Prop) (s : Scene K) : Prop where
  apart : ∀ i j, threads i → threads j → i ≠ j → ∀ c, own i c → ¬ own j c
  within : ∀ id, threads id → (body id).Within (own id) s

namespace OwnCells

variable {body : Uint3 → Action (Scene K) Unit} {threads : Uint3 → Prop} {own : Uint3 → Cell → Prop}
    {s : Scene K}

/-- The writes of a thread. -/
noncomputable def writes (h : OwnCells body threads own s) (id : Uint3) : List CellWrite :=
  open Classical in if hid : threads id then (h.within id hid).choose else []

variable (h : OwnCells body threads own s) {id : Uint3}
include h

/-- They are to its own cells. -/
theorem own_of_mem_writes (hid : threads id) {w : CellWrite} (hw : w ∈ h.writes id) :
    own id w.cell := by
  rw [writes, dif_pos hid] at hw
  exact (h.within id hid).choose_spec.1 w hw

/-- What the body does while its cells are as at the start. -/
theorem body_eq (hid : threads id) {m : Memory} (hm : s.memory.SameOn (own id) m) :
    (body id ⟨s.kernel, m⟩).result = (body id s).result ∧
      (body id ⟨s.kernel, m⟩).state = ⟨s.kernel, (h.writes id).foldl store m⟩ := by
  rw [writes, dif_pos hid]
  exact (h.within id hid).choose_spec.2 m hm

/-- Threads find their cells as at the start, and so do the writes that they would do first. -/
theorem forEach {ids : List Uint3} (hids : ∀ id ∈ ids, threads id) (hnodup : ids.Nodup) {m : Memory}
    (hm : ∀ id ∈ ids, s.memory.SameOn (own id) m) :
    ((Action.forEach ids body ⟨s.kernel, m⟩).result = .ok () ↔
    ∀ id ∈ ids, (body id s).result = .ok ()) ∧
      ((∀ id ∈ ids, (body id s).result = .ok ()) → (Action.forEach ids body ⟨s.kernel, m⟩).state
        = ⟨s.kernel, ids.foldl (fun m id => (h.writes id).foldl store m) m⟩) := by
  induction ids generalizing m with
  | nil => exact ⟨⟨fun _ _ hid => absurd hid List.not_mem_nil, fun _ => rfl⟩, fun _ => rfl⟩
  | cons id ids ih =>
    obtain ⟨hnew, hnodup⟩ := List.nodup_cons.1 hnodup
    obtain ⟨hresult, hstate⟩ := h.body_eq (hids id (.head _)) (hm id (.head _))
    have hrest : ∀ j ∈ ids, s.memory.SameOn (own j) ((h.writes id).foldl store m) := by
      intro j hj
      have hne : id ≠ j := fun heq => hnew (heq ▸ hj)
      refine (hm j (.tail _ hj)).trans (.foldl_store m fun w hw => ?_)
      exact h.apart id j (hids id (.head _)) (hids j (.tail _ hj)) hne _
        (h.own_of_mem_writes (hids id (.head _)) hw)
    obtain ⟨hok, hend⟩ := ih (fun j hj => hids j (.tail _ hj)) hnodup hrest
    rw [Action.forEach, bind_eq, hresult, hstate]
    cases hr : (body id s).result with
    | error e =>
      refine ⟨⟨fun herror => ?_, fun hall => ?_⟩, fun hall => ?_⟩
      · cases herror
      · cases hr.symm.trans (hall id (.head _))
      · cases hr.symm.trans (hall id (.head _))
    | ok _ =>
      have hall : (∀ j ∈ id :: ids, (body j s).result = .ok ()) ↔ ∀ j ∈ ids, (body j s).result =
          .ok () := by
        rw [List.forall_mem_cons]
        exact and_iff_right hr
      rw [hall]
      exact ⟨hok, hend⟩

/-- **Threads with cells of their own** may be run in any order: all orders succeed or none does,
and they end alike. -/
theorem forEach_perm {ids ids' : List Uint3} (hids : ∀ id ∈ ids, threads id) (hnodup : ids.Nodup)
    (hperm : ids'.Perm ids) : (Action.forEach ids body s).SameEnd (Action.forEach ids' body s) := by
  obtain ⟨hok, hend⟩ := h.forEach hids hnodup fun id _ => .refl (own id) s.memory
  obtain ⟨hok', hend'⟩ :=
    h.forEach (fun id hid => hids id (hperm.mem_iff.1 hid)) (hperm.nodup_iff.2 hnodup)
    fun id _ => .refl (own id) s.memory
  have hall : (∀ id ∈ ids', (body id s).result = .ok ()) ↔
    ∀ id ∈ ids, (body id s).result = .ok () :=
    forall_congr' fun id => by rw [hperm.mem_iff]
  refine ⟨hok'.trans (hall.trans hok.symm), fun hsuccess => ?_⟩
  have hsuccess := hok.1 hsuccess
  rw [hend hsuccess, hend' (hall.2 hsuccess)]
  congr 1
  refine hperm.foldl_eq' (fun i hi j hj m => ?_) s.memory
  by_cases hij : i = j
  · rw [hij]
  · have hi := hids i (hperm.mem_iff.1 hi)
    have hj := hids j (hperm.mem_iff.1 hj)
    refine m.foldl_store_comm fun w hw v hv heq => ?_
    exact h.apart i j hi hj hij _ (h.own_of_mem_writes hi hw) (heq ▸ h.own_of_mem_writes hj hv)

end OwnCells

/-! ## Dispatches -/

/-- The lanes, with their visits in some order. -/
def lanesInOrder (order : List (Uint3 × Uint3)) (point : EntryPoint K) (groups : Uint3) :
    Action (Scene K) Unit :=
  Action.forEach order (visit point groups)

/-- Such a grid may be visited in any order. -/
theorem OwnCells.lanesInOrder {point : EntryPoint K} {groups : Uint3} {own : Uint3 → Cell → Prop}
    {s : Scene K} (h : OwnCells point.body (InGrid point.extent groups) own s)
    (hf : Grid.Fits point.extent groups) {order : List (Uint3 × Uint3)}
    (horder : order.Perm (visits point.extent groups)) :
    (Bench.runLanes point groups s).SameEnd (lanesInOrder order point groups s) := by
  by_cases hv : point.extent.x.toNat * point.extent.y.toNat * point.extent.z.toNat < 2 ^ 64
  · have hids : ComputeKernel.lanesInOrder order point groups
        = Action.forEach (order.map fun v => threadId groups v.1 v.2) point.body := by
      rw [ComputeKernel.lanesInOrder, forEach_map]
      refine forEach_congr fun v hmem => ?_
      obtain ⟨hl, hp⟩ := (mem_visits hv).1 (horder.mem_iff.1 hmem)
      exact visit_of_ok (id?_eq_ok hf hl hp)
    rw [hids, Bench.runLanes_eq_forEach point hv hf]
    exact h.forEach_perm (fun id hid => (mem_ids hv hf).1 hid) (nodup_ids hv hf) (horder.map _)
  · -- There are no visits at all, and no others to order.
    have hnone : visits point.extent groups = [] := by
      rw [visits, laneCount_of_le (Nat.not_lt.1 hv)]
      rfl
    rw [hnone] at horder
    rw [horder.eq_nil, Bench.runLanes, hnone]
    exact .refl _

namespace Bench

/-- The threads of a grid, with a way to run the lanes. -/
def runGridBy (lanes : EntryPoint K → Uint3 → Action (Scene K) Unit) (point : EntryPoint K)
    (groups grid : Uint3) :
    Action (Bench K) Unit :=
  if grid.isEmpty then report (.emptyGrid point.name groups)
  else do
    report (.emulatedDispatch point.name point.extent groups)
    onScene (lanes point groups)

/-- An emulated dispatch, with a way to run the lanes. -/
def dispatchBy (lanes : EntryPoint K → Uint3 → Action (Scene K) Unit) (entry : Nat)
    (groups : Uint3) :
    Action (Bench K) Unit := do
  let point ← check (·.layout.entry entry)
  match grid? point.extent groups with
  | none => fail (.dispatch (.gridOverflow point.name point.extent groups))
  | some grid =>
    let s ← get
    let table := s.dispatcher.table entry
    enter table
    runGridBy lanes point groups grid
    leave entry table

/-- A dispatch runs the lanes in order. -/
theorem dispatchEmulated_eq_dispatchBy (entry : Nat) (groups : Uint3) :
    (dispatchEmulated entry groups : Action (Bench K) Unit) = dispatchBy runLanes entry groups :=
  rfl

/-- What the lanes of an emulated dispatch start from. -/
def laneScene (entry : Nat) (s : Bench K) : Scene K :=
  let o := enter (s.dispatcher.table entry) s
  ⟨o.state.dispatcher.kernel, o.state.memory⟩

/-- Lanes that end alike make dispatches that do. -/
theorem dispatchBy_sameEnd {lanes lanes' : EntryPoint K → Uint3 → Action (Scene K) Unit}
    {s : Bench K} {entry : Nat} {groups : Uint3} {point : EntryPoint K}
    (hentry : s.dispatcher.layout.entry entry = .ok point) (h : Grid.Fits point.extent groups →
      (lanes point groups (laneScene entry s)).SameEnd (lanes' point groups (laneScene entry s))) :
    (dispatchBy lanes entry groups s).SameEnd (dispatchBy lanes' entry groups s) := by
  rw [dispatchBy, dispatchBy, check_bind, check_bind, hentry]
  dsimp only
  cases hgrid : grid? point.extent groups with
  | none => exact .refl _
  | some grid =>
    refine .bind_left (enter (s.dispatcher.table entry)) fun _ _ => .bind ?_ fun _ => leave entry _
    rw [runGridBy, runGridBy]
    cases grid.isEmpty with
    | true => exact .refl _
    | false => exact .bind_left (report _) fun _ _ => .zoom (h (fits_of_grid? hgrid).1)

end Bench

/-- **The order of the lanes does not matter.** Let the threads of a grid read and write cells of
their own only. Then an emulated dispatch that takes the visits of its lanes in any other order
succeeds if and only if the dispatch does, and leaves the same kernel, the same contents of all
buffers and textures and the same flags. -/
theorem lane_order_irrelevant {s : Bench K} {entry : Nat} {point : EntryPoint K}
    (hentry : s.dispatcher.layout.entry entry = .ok point) {groups : Uint3}
    {own : Uint3 → Cell → Prop}
    (hown : OwnCells point.body (InGrid point.extent groups) own (s.laneScene entry))
    {order : List (Uint3 × Uint3)} (horder : order.Perm (visits point.extent groups)) :
    ((Bench.dispatchBy (lanesInOrder order) entry groups s).result = .ok () ↔
        (Bench.dispatchEmulated entry groups s).result = .ok ()) ∧
      ((Bench.dispatchEmulated entry groups s).result = .ok () →
        (Bench.dispatchBy (lanesInOrder order) entry groups s).state
          = (Bench.dispatchEmulated entry groups s).state) := by
  rw [Bench.dispatchEmulated_eq_dispatchBy]
  exact Bench.dispatchBy_sameEnd hentry fun hf => hown.lanesInOrder hf horder

/-! ## Texels at the place of the thread -/

namespace Workbench

variable {f g : WorkbenchField} {r r' : TextureRef} {uv : Uint2} {s : Scene Workbench}

/-- Setting a texel does the write, if there is one. -/
theorem setTexel_eq (hg : s.kernel.textures g = some r) (uv : Uint2) (value : Float4) :
    setTexel g uv value s =
      { result := ((s.memory.texture r).checkTexel uv).mapError .fault
        state := ⟨s.kernel, s.memory.store (.texel r uv value)⟩ } := by
  have htexture : texture g s = s.memory.texture r := by rw [texture, hg]
  rw [setTexel, bind_eq, store, modifyTexture_eq]
  simp only [examine, htexture, Texture.checkTexel, Texture.putIfInside]
  by_cases hcontains : (s.memory.texture r).contains uv = true
  · rw [if_pos hcontains, if_pos hcontains, ← modifyTexture_eq s.memory r (·.put uv value)]
    simp only [Except.mapError, Action.modify, changeTexture, hg, List.append_nil]
  · rw [if_neg hcontains, if_neg hcontains, setTexture_self]
    rfl

/-- It reads and writes these two texels only. -/
theorem within_withTexel (hf : s.kernel.textures f = some r) (hg : s.kernel.textures g = some r')
    (uv : Uint2) (value : Float4 → Float4) {C : Cell → Prop} (hC : C (.texel r uv))
    (hC' : C (.texel r' uv)) :
    (Body.withTexel f uv fun p => setTexel g uv (value p)).Within C s := by
  have hread : ∀ m, s.memory.SameOn C m → texel? f uv ⟨s.kernel, m⟩ = texel? f uv s := by
    intro m hm
    simp only [texel?, texture, hf, hm.texels r uv hC]
  cases hp : texel? f uv s with
  | none =>
    refine ⟨[], fun w hw => absurd hw List.not_mem_nil, fun m hm => ?_⟩
    simp only [Body.withTexel, bind_eq, gets, hread m hm, hp]
    exact ⟨rfl, rfl⟩
  | some p =>
    refine ⟨[.texel r' uv (value p)], fun w hw => ?_, fun m hm => ?_⟩
    · rw [List.mem_singleton.1 hw]
      exact hC'
    · have hcheck : (m.texture r').checkTexel uv = (s.memory.texture r').checkTexel uv := by
        have hshape := hm.shape_texture r'
        simp only [Texture.shape, Prod.mk.injEq] at hshape
        rw [Texture.checkTexel, Texture.checkTexel, Texture.contains, Texture.contains,
          hshape.1, hshape.2.1]
      simp only [Body.withTexel, bind_eq, gets, hread m hm, hp, setTexel_eq hg,
        setTexel_eq (s := ⟨s.kernel, m⟩) hg, hcheck, true_and]
      rfl

end Workbench

namespace Diptych

/-- The colours of four texels. -/
def panel (pixels : List Float4) (h : (pixels.flatMap Float4.components).toArray.size = 16) :
    Texture :=
  { Easel.canvas with
    words := (pixels.flatMap Float4.components).toArray
    image := pixels.toArray
    size_words := h }

/-- An entry point that copies a texture reversed. -/
def dispatcher : Dispatcher Workbench where
  kernel := {}
  layout :=
    { entries := Layout.numbered [Workbench.entry "Mirror" ⟨2, 1, 1⟩ .blend]
      slots := [WorkbenchField.t0.slot "left", WorkbenchField.t1.slot "right"] }
  tables := [{ textures := [("left", ⟨0⟩), ("right", ⟨1⟩)] }]
  last := [none]

/-- Two panels of four texels. -/
def bench : Bench Workbench :=
  { dispatcher
    memory :=
      { textures := #[panel [⟨1, 2, 3, 4⟩, ⟨5, 6, 7, 8⟩, ⟨9, 10, 11, 12⟩, ⟨13, 14, 15, 16⟩] rfl,
          panel [.zero, .zero, .zero, .zero] rfl] } }

/-- The texels at the place of a thread, one in each texture. -/
def own (id : Uint3) (c : Cell) : Prop := c = .texel ⟨0⟩ id.xy ∨ c = .texel ⟨1⟩ id.xy

/-- The visits, last one first. -/
def order : List (Uint3 × Uint3) := (visits ⟨2, 1, 1⟩ ⟨1, 2, 1⟩).reverse

/-- Each thread has texels of its own. -/
theorem ownCells :
    OwnCells (Workbench.Body.run .blend) (InGrid ⟨2, 1, 1⟩ ⟨1, 2, 1⟩) own (bench.laneScene 0) where
  apart i j hi hj hne c := by
    have hz : i.z.toNat = j.z.toNat := by
      have hi : i.z.toNat < 1 := hi.2.2
      have hj : j.z.toNat < 1 := hj.2.2
      omega
    have hplace : i.xy ≠ j.xy := fun heq =>
      hne (Uint3.ext_toNat (congrArg (·.x.toNat) heq) (congrArg (·.y.toNat) heq) hz)
    rintro (rfl | rfl) (heq | heq)
    · exact hplace (Cell.texel.inj heq).2
    · cases (Cell.texel.inj heq).1
    · cases (Cell.texel.inj heq).1
    · exact hplace (Cell.texel.inj heq).2
  within id _ := Workbench.within_withTexel rfl rfl id.xy _ (.inl rfl) (.inr rfl)

end Diptych

/-- The texels are mirrored from the last to the first as they are from the first to the last. -/
theorem diptych_order_irrelevant :
    (Bench.dispatchEmulated 0 ⟨1, 2, 1⟩ Diptych.bench).result = .ok () ∧
      (Bench.dispatchBy (lanesInOrder Diptych.order) 0 ⟨1, 2, 1⟩ Diptych.bench).result = .ok () ∧
      (Bench.dispatchBy (lanesInOrder Diptych.order) 0 ⟨1, 2, 1⟩ Diptych.bench).state
        = (Bench.dispatchEmulated 0 ⟨1, 2, 1⟩ Diptych.bench).state := by
  have hentry : Diptych.bench.dispatcher.layout.entry 0
      = .ok { Workbench.entry "Mirror" ⟨2, 1, 1⟩ .blend with ordinal := 0 } := rfl
  have hok : (Bench.dispatchEmulated 0 ⟨1, 2, 1⟩ Diptych.bench).result = .ok () := by decide +kernel
  obtain ⟨hiff, hstate⟩ := lane_order_irrelevant hentry Diptych.ownCells (List.reverse_perm _)
  exact ⟨hok, hiff.2 hok, hstate hok⟩

end ComputeKernel
