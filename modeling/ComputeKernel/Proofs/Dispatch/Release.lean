import ComputeKernel.Proofs.Dispatch.Step

/-!
# What a dispatcher leaves when it is disposed of

Releasing never fails, so what it leaves can be written down. Every table is `cleared`: what is
bound stays bound, but no buffer has a copy any more. A texture that is bound for some entry point
has lost its surface (`Texture.released`), and every other texture is as it was
(`Bench.dispose_spec`).
-/

namespace ComputeKernel

open Dispatcher
open ComputeKernel.Action

variable {K : Type}

/-! ## Textures -/

namespace Texture

@[simp] theorem surface_released (t : Texture) : t.released.surface = none := by
  rw [released]
  split
  next => rfl
  next h => simpa using h

/-- Without a surface nothing happens. -/
theorem released_of_none {t : Texture} (h : t.surface = none) : t.released = t := by
  simp [released, h]

end Texture

namespace Memory

variable (m : Memory)
variable (refs : List TextureRef)

/-- The memory after some surfaces were released. -/
def released : Memory :=
  refs.foldl (fun m r => m.setTexture r (m.texture r).released) m

/-- Some, and then others. -/
theorem released_append (refs refs' : List TextureRef) :
    m.released (refs ++ refs') = (m.released refs).released refs' := List.foldl_append

/-- One texture is released, if it is there. -/
theorem texture_setTexture_released (r r' : TextureRef) :
    (m.setTexture r' (m.texture r').released).texture r = if r = r' then
      (m.texture r).released else m.texture r := by
  rw [texture_setTexture]
  by_cases hr : r = r'
  · subst hr
    rw [if_pos rfl]
    by_cases hlt : r.index < m.textures.size
    · rw [if_pos ⟨rfl, hlt⟩]
    · rw [if_neg fun h => hlt h.2, texture_of_le (Nat.le_of_not_lt hlt)]
      rfl
  · rw [if_neg fun h => hr h.1, if_neg hr]

/-- A released texture has no surface; others stay. -/
theorem texture_released (r : TextureRef) :
    (m.released refs).texture r = if r ∈ refs then (m.texture r).released else m.texture r := by
  induction refs generalizing m with
  | nil => rfl
  | cons r' refs ih =>
    show ((m.setTexture r' (m.texture r').released).released refs).texture r = _
    rw [ih, texture_setTexture_released]
    by_cases hr : r = r'
    · simp [hr, Texture.released_of_none]
    · simp [hr]

end Memory

/-! ## Tables -/

/-- The binding after its copy was released. -/
def BufferBinding.cleared (b : BufferBinding) : BufferBinding :=
  { b with copy := none, dirty := true }

namespace Table

variable (t : Table)

/-- The table after all copies were released. -/
def cleared : Table := { t with buffers := t.buffers.map fun p => (p.1, p.2.cleared) }

/-- The textures that are bound. -/
def refs : List TextureRef := t.textures.map Prod.snd

/-- Releasing the copies of bound buffers never fails. -/
theorem release_buffers (entries : List (String × BufferBinding)) :
    ∀ (m : Memory) (d : HostDevice), ∃ d',
      onValues (fun _ : String => BufferBinding.release) entries ⟨m, .host d⟩ =
        { result := .ok (),
          state := (entries.map fun p => (p.1, p.2.cleared), ⟨m, .host d'⟩) } := by
  induction entries with
  | nil => exact fun m d => ⟨d, rfl⟩
  | cons p rest ih =>
    intro m d
    obtain ⟨d', heq, -⟩ := BufferBinding.release_eq p.2 m d
    obtain ⟨d'', hrest⟩ := ih m d'
    refine ⟨d'', ?_⟩
    rw [onValues, heq]
    simp only [hrest]
    rfl

/-- Releasing the surfaces of textures never fails. -/
theorem release_textures (slots : List (String × TextureRef)) :
    ∀ (m : Memory) (d : HostDevice), ∃ d',
      (forEach slots fun p => Machine.onTexture p.2 Texture.release : Action Machine Unit)
        ⟨m, .host d⟩ =
        { result := .ok (), state := ⟨m.released (slots.map Prod.snd), .host d'⟩ } := by
  induction slots with
  | nil => exact fun m d => ⟨d, rfl⟩
  | cons p slots ih =>
    intro m d
    obtain ⟨d', heq, -⟩ := Texture.release_eq (m.texture p.2) d
    have hfirst : Machine.onTexture p.2 Texture.release ⟨m, .host d⟩ =
        { result := .ok (), state := ⟨m.setTexture p.2 (m.texture p.2).released, .host d'⟩ } := by
      simp only [Machine.onTexture, zoom, heq]
    obtain ⟨d'', hrest⟩ := ih (m.setTexture p.2 (m.texture p.2).released) d'
    exact ⟨d'', (bind_of_ok hfirst).trans hrest⟩

/-- Releasing what a table holds never fails. -/
theorem release_eq (m : Memory) (d : HostDevice) :
    ∃ d', release (t, ⟨m, .host d⟩) =
      { result := .ok (), state := (t.cleared, ⟨m.released t.refs, .host d'⟩) } := by
  obtain ⟨d', hbuffers⟩ := release_buffers t.buffers m d
  have hfirst : onBuffers (fun _ => BufferBinding.release) (t, ⟨m, .host d⟩) =
      { result := .ok (), state := (t.cleared, ⟨m, .host d'⟩) } := by
    simp only [onBuffers, hbuffers]
    rfl
  obtain ⟨d'', htextures⟩ := release_textures t.textures m d'
  refine ⟨d'', (bind_of_ok hfirst).trans ?_⟩
  simp only [onTextures, get_bind, onMachine, zoom]
  rw [show t.cleared.textures = t.textures from rfl, htextures]
  rfl

/-- Clearing twice is clearing. -/
theorem cleared_cleared : t.cleared.cleared = t.cleared := by
  simp [cleared, BufferBinding.cleared]

end Table

/-! ## Dispatchers -/

namespace Dispatcher

/-- The texture is bound for some entry point. -/
def Binds (d : Dispatcher K) (r : TextureRef) : Prop := ∃ entry, r ∈ (d.table entry).refs

/-- An entry point that there is not has nothing bound. -/
theorem table_of_le {d : Dispatcher K} {entry : Nat} (h : d.tables.length ≤ entry) :
    d.table entry = {} := by
  rw [table, List.getElem?_eq_none h, Option.getD_none]

/-- The textures of all tables. -/
theorem binds_iff {d : Dispatcher K} {r : TextureRef} :
    d.Binds r ↔ r ∈ (List.range d.tables.length).flatMap fun entry => (d.table entry).refs := by
  rw [List.mem_flatMap]
  constructor
  · rintro ⟨entry, hr⟩
    refine ⟨entry, List.mem_range.2 (Nat.lt_of_not_le fun hle => ?_), hr⟩
    rw [table_of_le hle] at hr
    cases hr
  · rintro ⟨entry, -, hr⟩
    exact ⟨entry, hr⟩

/-- A table that was cleared is found, if there was one. -/
theorem table_setTable_cleared (d : Dispatcher K) (entry entry' : Nat) :
    (d.setTable entry (d.table entry).cleared).table entry' =
      if entry' = entry then (d.table entry').cleared else d.table entry' := by
  by_cases he : entry' = entry
  · subst he
    rw [if_pos rfl]
    by_cases hlt : entry' < d.tables.length
    · rw [table_setTable_self hlt]
    · rw [setTable, List.set_eq_of_length_le (Nat.le_of_not_lt hlt),
        table_of_le (Nat.le_of_not_lt hlt)]
      rfl
  · rw [if_neg he, table, table, setTable, List.getElem?_set_ne (Ne.symm he)]
    rfl

/-- Releasing what some tables hold never fails. -/
theorem release_tables (entries : List Nat) :
    ∀ (d : Dispatcher K) (m : Memory) (host : HostDevice), ∃ d' host',
      (forEach entries fun entry => onTable entry Table.release :
          Action (Dispatcher K × Machine) Unit) (d, ⟨m, .host host⟩) =
        { result := .ok ()
          state := (d', ⟨m.released (entries.flatMap fun entry => (d.table entry).refs),
            .host host'⟩) } ∧
      ∀ entry, d'.table entry =
        if entry ∈ entries then (d.table entry).cleared else d.table entry := by
  induction entries with
  | nil => exact fun d m host => ⟨d, host, rfl, fun _ => rfl⟩
  | cons entry entries ih =>
    intro d m host
    obtain ⟨host', hrelease⟩ := (d.table entry).release_eq m host
    have hfirst : onTable entry Table.release (d, ⟨m, .host host⟩) =
        { result := .ok ()
          state := (d.setTable entry (d.table entry).cleared,
              ⟨m.released (d.table entry).refs, .host host'⟩) } := by
      simp only [onTable, zoom, hrelease]
    obtain ⟨d', host'', hrest, htables⟩ := ih (d.setTable entry (d.table entry).cleared)
      (m.released (d.table entry).refs) host'
    refine ⟨d', host'', (bind_of_ok hfirst).trans (hrest.trans ?_), fun entry' => ?_⟩
    · have hrefs : ∀ entry',
          ((d.setTable entry (d.table entry).cleared).table entry').refs =
              (d.table entry').refs := by
        intro entry'
        rw [table_setTable_cleared]
        split
        next => rfl
        next => rfl
      simp only [hrefs, List.flatMap_cons, Memory.released_append]
    · rw [htables, table_setTable_cleared]
      by_cases he : entry' = entry
      · simp [he, Table.cleared_cleared]
      · simp [he]

end Dispatcher

/-- **What a dispatcher leaves.** Disposing never fails. Afterwards no table holds a copy, and bound
textures have no surface. -/
theorem Bench.dispose_spec {s : Bench K} {d : HostDevice} (hd : s.device = some (.host d)) :
    ∃ d', (dispose s).result = .ok () ∧ (dispose s).state.device = some (.host d') ∧
      (∀ entry, (dispose s).state.dispatcher.table entry = (s.dispatcher.table entry).cleared) ∧
      (∀ r, s.dispatcher.Binds r → (dispose s).state.memory.texture r =
        (s.memory.texture r).released) ∧
      ∀ r, ¬ s.dispatcher.Binds r → (dispose s).state.memory.texture r = s.memory.texture r := by
  obtain ⟨dispatcher, m, device⟩ := s
  cases hd
  obtain ⟨dispatcher', d', hrelease, htables⟩ :=
    release_tables (List.range dispatcher.tables.length) dispatcher m d
  have hstate : (dispose ⟨dispatcher, m, some (.host d)⟩).result = .ok () ∧
      (dispose ⟨dispatcher, m, some (.host d)⟩).state = dispatcher'.on ⟨m.released
        ((List.range dispatcher.tables.length).flatMap fun entry => (dispatcher.table entry).refs),
            .host d'⟩ := by
    rw [dispose, get_bind]
    simp only [Option.isSome_some, if_true, withDevice, releaseAll, get_bind, bind_of_ok hrelease]
    exact ⟨rfl, rfl⟩
  refine ⟨d', hstate.1, by rw [hstate.2]; rfl, fun entry => ?_, fun r hr => ?_, fun r hr => ?_⟩
  · rw [hstate.2]
    refine (htables entry).trans ?_
    split
    next => rfl
    next hentry =>
      rw [List.mem_range, Nat.not_lt] at hentry
      rw [table_of_le hentry]
      rfl
  · rw [hstate.2]
    exact (m.texture_released _ r).trans (if_pos (binds_iff.1 hr))
  · rw [hstate.2]
    exact (m.texture_released _ r).trans (if_neg fun hmem => hr (binds_iff.2 hmem))

end ComputeKernel
