import ComputeKernel.Proofs.Dispatch.Copies
import ComputeKernel.Proofs.Dispatch.SingleCopy

/-!
# The surfaces that a dispatcher leaves

A surface belongs to its texture and not to the slot that the texture is bound to, so here the users
of the device's store are the textures. Along every walk the device holds exactly the surfaces of
the textures (`Bench.Walk.surfaced`). But a dispatcher that is disposed of releases the surfaces of
those textures that are bound at that time. So the surfaces of textures that were bound and are
bound no more stay (`surfaces_after_dispose`, `replaced_surface_stays`).
-/

namespace ComputeKernel

open List
open BenchOp Memory

variable {K : Type}

/-! ## What textures hold -/

namespace Memory

variable {m : Memory}

/-- What the textures hold on the device. -/
def held (m : Memory) : List (Nat × Unit) :=
  (range m.textures.size).flatMap fun i => (m.texture ⟨i⟩).own.toList

/-- What is not there has no surface. -/
theorem surface_of_le {r : TextureRef} (h : m.textures.size ≤ r.index) :
    (m.texture r).surface = none := by
  rw [texture_of_le h]
  rfl

/-- The numbers that are held are those of the surfaces. -/
theorem mem_held {k : Nat} : (k, ()) ∈ m.held ↔ ∃ r, (m.texture r).surface = some ⟨k⟩ := by
  simp only [held, mem_flatMap, mem_range, Option.mem_toList, Texture.own,
    Option.map_eq_some_iff, Prod.mk.injEq, and_true]
  constructor
  · rintro ⟨i, -, h, hsurface, rfl⟩
    exact ⟨⟨i⟩, hsurface⟩
  · rintro ⟨r, hsurface⟩
    refine ⟨r.index, Nat.lt_of_not_le fun hle => ?_, ⟨k⟩, hsurface, rfl⟩
    rw [surface_of_le hle] at hsurface
    cases hsurface

/-- What one texture holds, apart from what the others hold. -/
theorem held_setTexture_perm {r : TextureRef} (h : r.index < m.textures.size) :
    ∃ rest, ∀ t, (m.setTexture r t).held.Perm (t.own.toList ++ rest) := by
  refine ⟨((range m.textures.size).erase r.index).flatMap fun i => (m.texture ⟨i⟩).own.toList,
    fun t => ?_⟩
  have hperm := perm_cons_erase (mem_range.2 h)
  have hsize : (m.setTexture r t).textures.size = m.textures.size := Array.size_setIfInBounds ..
  rw [held, hsize]
  refine (hperm.flatMap_right _).trans (.of_eq ?_)
  rw [flatMap_cons, texture_setTexture_self h]
  congr 1
  refine flatMap_congr fun i hi => ?_
  have hne : (⟨i⟩ : TextureRef) ≠ r := by
    rintro rfl
    exact Nodup.not_mem_erase nodup_range hi
  rw [texture_setTexture_of_ne m hne]

/-- Textures that are made later hold nothing. -/
theorem Preserved.held_eq {m m' : Memory} (h : m.Preserved m') : m'.held = m.held := by
  have hown : ∀ i, (m'.texture ⟨i⟩).own.toList = (m.texture ⟨i⟩).own.toList := by
    intro i
    rw [Texture.own, h.surfaces]
    rfl
  obtain ⟨k, hk⟩ := Nat.exists_eq_add_of_le h.textures
  rw [held, held, hk, range_add, flatMap_append]
  simp only [hown]
  refine append_right_eq_self.2 (flatMap_eq_nil_iff.2 fun i hi => ?_)
  obtain ⟨j, -, rfl⟩ := mem_map.1 hi
  rw [Texture.own, surface_of_le (Nat.le_add_right ..)]
  rfl

/-- Without surfaces nothing is held. -/
theorem held_eq_nil (h : ∀ r, (m.texture r).surface = none) : m.held = [] :=
  flatMap_eq_nil_iff.2 fun i _ => by rw [Texture.own, h]; rfl

/-- Only textures matter. -/
theorem held_congr {m m' : Memory} (h : m'.textures = m.textures) : m'.held = m.held := by
  simp only [held, texture_congr h, h]

end Memory

/-! ## Steps -/

namespace Bench

variable {s s' : Bench K}
variable {d : HostDevice}

/-- The textures that are bound are there. -/
def Present (s : Bench K) : Prop :=
  ∀ entry, ∀ p ∈ (s.dispatcher.table entry).textures, p.2.index < s.memory.textures.size

/-- Which textures are bound matters, and how many there are. -/
theorem Present.congr (hs : s.Present) {entry : Nat} {t : Table}
    (ht : t.textures = (s.dispatcher.table entry).textures) {m' : Memory}
    (hm : s.memory.textures.size ≤ m'.textures.size) (device : Option Device) :
    Present ⟨s.dispatcher.setTable entry t, m', device⟩ := by
  intro entry' p hp
  refine (hs entry' p ?_).trans_le hm
  rcases s.dispatcher.table_setTable_cases entry t entry' with ⟨rfl, heq⟩ | heq
  · rw [← ht, ← heq]
    exact hp
  · rw [← heq]
    exact hp

/-- A step keeps them there. -/
theorem Step.present (h : Step s s') (hs : s.Present) : s'.Present := by
  cases h with
  | aside kernel last _ _ hm => exact fun entry p hp => (hs entry p hp).trans_le hm.textures
  | exchange =>
    intro entry p hp
    refine (hs entry p hp).trans_eq ?_
    exact (Array.size_setIfInBounds ..).symm
  | bindBuffer | markDirty =>
    refine hs.congr ?_ le_rfl s.device
    rfl
  | transfer _ _ htransfer =>
    refine hs.congr ?_ ?_ _
    · rfl
    · rw [htransfer.textures]
  | bindTexture entry slot hr =>
    intro entry' p hp
    rcases s.dispatcher.table_setTable_cases entry _ entry' with ⟨-, heq⟩ | heq
    · rcases Keyed.mem_put (heq ▸ hp : p ∈ (Table.bindTexture _ _ _).textures) with rfl | hp
      · exact hr
      · exact hs entry p hp
    · exact hs entry' p (heq ▸ hp)

/-- A step moves what one texture holds at most. -/
theorem Step.surface_shift (h : Step s s') (hs : s.Present) (hd : s.device = some (.host d)) :
    ∃ d', s'.device = some (.host d') ∧
    Account.Shift (fun _ => ()) d.issued d.surfaces s.memory.held
      d'.issued d'.surfaces s'.memory.held := by
  cases h with
  | @aside _ d' _ kernel last hdevice hquiet hm =>
    cases hd.symm.trans hdevice
    exact ⟨d', rfl, .idle hquiet.issued.ge hquiet.surfaces (.of_eq hm.held_eq)⟩
  | bindBuffer | bindTexture | markDirty => exact ⟨d, hd, .idle le_rfl rfl (.refl _)⟩
  | @transfer _ d' m' entry slot b b' before after hdevice _ htransfer =>
    cases hd.symm.trans hdevice
    refine ⟨d', rfl, .idle htransfer.moves.issued_le htransfer.surfaces (.of_eq ?_)⟩
    exact held_congr htransfer.textures
  | @exchange _ d' entry slot r t' hdevice hbound hexchange =>
    cases hd.symm.trans hdevice
    obtain ⟨rest, hrest⟩ := held_setTexture_perm (hs entry _ hbound)
    have hself := hrest (s.memory.texture r)
    rw [setTexture_self] at hself
    exact ⟨d', rfl, _, _, rest, hself, hrest t', hexchange.moves⟩

/-! ## Runs -/

/-- The device holds exactly the surfaces of textures. -/
structure Surfaced (s : Bench K) : Prop where
  present : s.Present
  balanced : ∃ d, s.device = some (.host d) ∧
    Balanced (fun _ => ()) d.issued d.surfaces s.memory.held

/-- A step keeps this. -/
theorem Step.surfaced (h : Step s s') (hs : s.Surfaced) : s'.Surfaced := by
  obtain ⟨d, hd, hbalanced⟩ := hs.balanced
  obtain ⟨d', hd', hshift⟩ := h.surface_shift hs.present hd
  exact ⟨h.present hs.present, d', hd', hshift.balanced hbalanced⟩

/-- A walk keeps this. -/
theorem Walk.surfaced (h : Walk s s') (hs : s.Surfaced) : s'.Surfaced := by
  induction h with
  | refl => exact hs
  | tail _ hstep ih => exact hstep.surfaced ih

/-- The device has a surface when a texture has it. -/
theorem Surfaced.get?_iff (hs : s.Surfaced) (hd : s.device = some (.host d)) (k : Nat) :
    (d.surfaces.get? k).isSome = true ↔ ∃ r, (s.memory.texture r).surface = some ⟨k⟩ := by
  obtain ⟨d', hd', hbalanced⟩ := hs.balanced
  cases hd.symm.trans hd'
  rw [← mem_held, Option.isSome_iff_exists]
  constructor
  · rintro ⟨surface, hget⟩
    exact hbalanced.mem_of_get? hget
  · intro hmem
    obtain ⟨surface, hget, -⟩ := hbalanced.get?_of_mem hmem
    exact ⟨surface, hget⟩

/-- The device has no surface when no texture has one. -/
theorem Surfaced.eq_nil_iff (hs : s.Surfaced) (hd : s.device = some (.host d)) :
    d.surfaces = [] ↔ ∀ r, (s.memory.texture r).surface = none := by
  constructor
  · intro hnil r
    refine Option.eq_none_iff_forall_ne_some.2 fun h hsurface => ?_
    have hget := (hs.get?_iff hd h.id).2 ⟨r, hsurface⟩
    rw [hnil] at hget
    cases hget
  · intro hnone
    obtain ⟨d', hd', hbalanced⟩ := hs.balanced
    cases hd.symm.trans hd'
    rw [held_eq_nil hnone] at hbalanced
    exact hbalanced.eq_nil

end Bench

/-- New textures have no surface, and neither has a new device. -/
theorem Dispatcher.Unbound.surfaced {d : Dispatcher K} (h : d.Unbound) {m : Memory}
    (hm : ∀ r, (m.texture r).surface = none) (names : List String) :
    (d.on ⟨m, .host (.ofEntries names)⟩).Surfaced where
  present entry p hp := by
    have hp : p ∈ (d.table entry).textures := hp
    rw [h.table] at hp
    cases hp
  balanced := by
    refine ⟨_, rfl, List.Pairwise.nil, fun _ hp => (nomatch hp), ?_⟩
    show m.held.Perm []
    rw [held_eq_nil hm]

/-- **The surfaces that stay.** A dispatcher with nothing bound is given a new device that nobody
else uses. Whatever is done with it, once it is disposed of the device has the surfaces of those
textures that have one but are not bound. So no surface stays exactly when every texture with a
surface is bound. -/
theorem surfaces_after_dispose {dispatcher : Dispatcher K} (hnew : dispatcher.Unbound)
    (hbodies : dispatcher.layout.Preserves) (names : List String) {m : Memory}
    (hm : ∀ r, (m.texture r).surface = none) (ops : List BenchOp)
    (hops : LawfulAll ops (dispatcher.on ⟨m, .host (.ofEntries names)⟩)) :
    let s := runAll ops (dispatcher.on ⟨m, .host (.ofEntries names)⟩)
    ∃ d, (Bench.dispose s).state.device = some (.host d) ∧
      (∀ k, (d.surfaces.get? k).isSome = true ↔
        ∃ r, (s.memory.texture r).surface = some ⟨k⟩ ∧ ¬ s.dispatcher.Binds r) ∧
      (d.surfaces = [] ↔ ∀ r, (s.memory.texture r).surface ≠ none → s.dispatcher.Binds r) := by
  intro s
  have hready := hnew.ready hbodies m (.ofEntries names)
  have hwalk : Bench.Walk _ s := runAll_walks ops hready hops
  have hsurfaced : s.Surfaced := hwalk.surfaced (hnew.surfaced hm names)
  have hdisposed := (Bench.walk_dispose (hwalk.ready hready)).surfaced hsurfaced
  obtain ⟨host, hhost, -⟩ := hsurfaced.balanced
  obtain ⟨d, -, hd, -, hbound, hothers⟩ := Bench.dispose_spec hhost
  refine ⟨d, hd, fun k => ?_, ?_⟩
  · rw [hdisposed.get?_iff hd]
    refine exists_congr fun r => ?_
    by_cases hr : s.dispatcher.Binds r
    · simp [hbound r hr, hr]
    · simp [hothers r hr, hr]
  · rw [hdisposed.eq_nil_iff hd]
    refine forall_congr' fun r => ?_
    by_cases hr : s.dispatcher.Binds r
    · simp [hbound r hr, hr]
    · simp [hothers r hr, hr]

namespace Gallery

/-- Two entry points that paint a texture, and nothing bound. -/
def dispatcher : Dispatcher Workbench where
  kernel := {}
  layout :=
    { entries := Layout.numbered
        [Workbench.entry "Fill" ⟨2, 2, 1⟩ .fill, Workbench.entry "Brighten" ⟨2, 2, 1⟩ .brighten]
      slots := [WorkbenchField.t0.slot "wall"] }
  tables := [{}, {}]
  last := [none, none]

/-- Two canvases. -/
def memory : Memory := { textures := #[Easel.canvas, Easel.canvas] }

/-- It is given a new device. -/
def bench : Bench Workbench := dispatcher.on ⟨memory, .host (.ofEntries ["Fill", "Brighten"])⟩

/-- A texture takes the place of one that was painted. -/
def replacing : List BenchOp :=
  [.setTexture 0 "wall" ⟨0⟩, .hardware 0 ⟨1, 1, 1⟩, .setTexture 0 "wall" ⟨1⟩, .hardware 0 ⟨1, 1, 1⟩]

/-- The same, but the first is bound elsewhere too. -/
def sharing : List BenchOp := .setTexture 1 "wall" ⟨0⟩ :: replacing

end Gallery

/-- The texture that was replaced has a surface to the end. -/
theorem replaced_surface_stays :
    LawfulAll Gallery.replacing Gallery.bench ∧
      (Bench.dispose (runAll Gallery.replacing Gallery.bench)).state.host?.map
        (fun d => d.surfaces.map Prod.fst) = some [1] := by
  refine ⟨?_, by decide +kernel⟩
  simp only [Gallery.replacing, LawfulAll, Lawful]
  decide +kernel

/-- A texture that was replaced for one entry point, but is bound for another, has no surface. -/
theorem shared_surface_released :
    ∃ d, (Bench.dispose (runAll Gallery.sharing Gallery.bench)).state.device = some (.host d) ∧
      d.surfaces = [] := by
  have hbodies : Gallery.dispatcher.layout.Preserves := by
    intro point hpoint
    rcases mem_pair.1 hpoint with rfl | rfl
    · exact Workbench.Body.run_preserved .fill
    · exact Workbench.Body.run_preserved .brighten
  have hnone : ∀ r, (Gallery.memory.texture r).surface = none := by
    rintro ⟨_ | _ | i⟩
    · rfl
    · rfl
    · exact surface_of_le (Nat.le_add_left 2 i)
  have hops : LawfulAll Gallery.sharing Gallery.bench := by
    simp only [Gallery.sharing, Gallery.replacing, LawfulAll, Lawful]
    decide +kernel
  obtain ⟨d, hd, -, hnil⟩ := surfaces_after_dispose (rfl : Gallery.dispatcher.Unbound) hbodies
    ["Fill", "Brighten"] hnone Gallery.sharing hops
  refine ⟨d, hd, hnil.2 ?_⟩
  have hcount : (runAll Gallery.sharing Gallery.bench).memory.textures.size = 2 := by decide +kernel
  rintro ⟨_ | _ | i⟩ hsurface
  · exact ⟨1, by decide +kernel⟩
  · exact ⟨0, by decide +kernel⟩
  · exact absurd (surface_of_le (hcount ▸ Nat.le_add_left 2 i)) hsurface

end ComputeKernel
