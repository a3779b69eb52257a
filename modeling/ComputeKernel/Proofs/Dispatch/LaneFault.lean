import ComputeKernel.Proofs.Dispatch.Flags
import ComputeKernel.Proofs.Dispatch.Workshop

/-!
# What a faulting lane leaves behind

An emulated dispatch marks the textures that are bound to its entry point before the lanes run, and
the buffers after they have run. A fault in a lane ends the dispatch in between: what the lanes have
written stays, the textures are marked, and the buffers are marked only if they were before
(`dispatchEmulated_of_fault`). So the next dispatch on the device sends every texture, but of the
buffers only those whose copies were behind anyhow (`lane_fault_effect`). A texture is followed
through the dispatch on the device by `Machine.Carries`.
-/

namespace ComputeKernel

open Bench
open Texture ComputeKernel.Action Machine Memory Dispatcher

variable {K : Type} {ours : TextureRef → Prop} {names : List String} {r : TextureRef}

/-! ## One texture -/

namespace Texture

variable {t : Texture} {d : HostDevice} {pixels : Array Float4}

/-- The surface of the texture holds certain texels. -/
def Displays (pixels : Array Float4) (t : Texture) (d : HostDevice) : Prop :=
  ∃ h s, t.surface = some h ∧ d.surfaces.get? h.id = some s ∧ s.pixels = pixels

/-- The texture has certain texels on both sides. -/
def Shown (pixels : Array Float4) (t : Texture) (d : HostDevice) : Prop :=
  t.pixels = pixels ∧ t.Displays pixels d

/-- The same, or the device is marked as behind. -/
def Due (pixels : Array Float4) (t : Texture) (d : HostDevice) : Prop :=
  t.pixels = pixels ∧ (t.deviceStale = true ∨ t.Displays pixels d)

/-- What is shown is due. -/
theorem Shown.due (h : Shown pixels t d) : Due pixels t d := ⟨h.1, .inr h.2⟩

/-- Making the surface current brings the texels there. -/
theorem toDevice_shows (ht : t.Sized d) (hdue : Due pixels t d) :
    (toDevice (t, .host d)).Meets (fun _ s => ∃ u d', s = (u, .host d') ∧ Shown pixels u d')
      fun _ => False := by
  obtain ⟨rfl, hdue⟩ := hdue
  rcases Option.eq_none_or_eq_some t.surface with hs | ⟨h, hs⟩
  · obtain ⟨d', heq, -, hget⟩ := toDevice_of_none hs d
    rw [heq]
    exact ⟨_, d', rfl, rfl, _, _, rfl, (hget _).trans (if_pos rfl), rfl⟩
  · cases hstale : t.deviceStale with
    | true =>
      obtain ⟨s, hget, hsize⟩ := ht.surface h hs
      rw [toDevice_of_stale hs hstale hget (hsize.trans t.size_pixels.symm)]
      exact ⟨_, _, rfl, rfl, h, _, rfl, (d.get?_withImage h s t.pixels h.id).trans
        (if_pos rfl), rfl⟩
    | false =>
      rw [toDevice_of_current hs hstale]
      exact ⟨t, d, rfl, rfl, hdue.resolve_left (by rw [hstale]; exact Bool.false_ne_true)⟩

/-- What is said of a texture depends on its own surface only. -/
def IsOwn (P : Texture → HostDevice → Prop) : Prop :=
  ∀ t d d', (∀ h, t.surface = some h → d'.surfaces.get? h.id = d.surfaces.get? h.id) →
    P t d → P t d'

/-- This is so for what is shown. -/
theorem isOwn_shown : IsOwn (Shown pixels) := by
  rintro t d d' hsame ⟨hpixels, h, s, hs, hget, heq⟩
  exact ⟨hpixels, h, s, hs, (hsame h hs).trans hget, heq⟩

/-- And for what is due. -/
theorem isOwn_due : IsOwn (Due pixels) := by
  rintro t d d' hsame ⟨hpixels, hstale | hdisplays⟩
  · exact ⟨hpixels, .inl hstale⟩
  · exact (isOwn_shown t d d' hsame ⟨hpixels, hdisplays⟩).due

end Texture

/-! ## One texture among those of a device -/

namespace Machine

variable {P Q : Texture → HostDevice → Prop} {pixels : Array Float4} {α : Type}

/-- The textures are sound, and one has a property. -/
structure Carries (ours : TextureRef → Prop) (names : List String) (r : TextureRef)
    (P : Texture → HostDevice → Prop) (m : Machine) : Prop where
  sound : m.Sound ours names
  present : r.index < m.memory.textures.size
  holds : ∃ d, m.device = .host d ∧ P (m.memory.texture r) d

/-- A weaker property holds, too. -/
theorem Carries.mono {m : Machine} (h : m.Carries ours names r P) (hPQ : ∀ t d, P t d → Q t d) :
    m.Carries ours names r Q := by
  obtain ⟨d, hd, hP⟩ := h.holds
  exact ⟨h.sound, h.present, d, hd, hPQ _ d hP⟩

/-- A use of the device that only binds, counts and records. -/
theorem keeps_carries_quiet (hP : IsOwn P) {a : Action Device α} (ha : Device.IsQuiet a) :
    Keeps (Carries ours names r P) (onDevice a) := by
  rintro ⟨m, device⟩ ⟨hsound, hpresent, d, rfl, hm⟩
  refine ⟨keeps_sound_quiet ha _ hsound, hpresent, ?_⟩
  obtain ⟨d', hstate, hquiet⟩ := ha d
  exact ⟨d', hstate, hP _ d d' (fun _ _ => by rw [hquiet.surfaces]) hm⟩

/-- A transfer of a buffer. -/
theorem keeps_carries_transfer (hP : IsOwn P) {a : Action (BufferBinding × Machine) α}
    (ha : ∀ b m d, BufferBinding.Transferred b m d (a (b, ⟨m, .host d⟩)).state) :
    Keeps (fun s : BufferBinding × Machine => s.2.Carries ours names r P) a := by
  rintro ⟨b, ⟨m, device⟩⟩ ⟨hsound, hpresent, d, rfl, hm⟩
  have hsound' := keeps_sound_transfer ha (b, ⟨m, .host d⟩) hsound
  obtain ⟨b', m', d', hstate, htransfer⟩ := ha b m d
  rw [hstate] at hsound' ⊢
  refine ⟨hsound', htransfer.textures ▸ hpresent, d', rfl, ?_⟩
  rw [texture_congr htransfer.textures]
  exact hP _ d d' (fun _ _ => by rw [htransfer.surfaces]) hm

/-- A use of another texture of the device. -/
theorem keeps_carries_other (hP : IsOwn P) (hr : ours r) {r' : TextureRef} (hr' : ours r')
    (hne : r' ≠ r) {a : Action (Texture × Device) α} (ha : Tidy a) :
    Keeps (Carries ours names r P) (onTexture r' a) := by
  rintro ⟨m, device⟩ ⟨hsound, hpresent, d, rfl, hm⟩
  have hsound' := keeps_sound_onTexture hr' ha _ hsound
  obtain ⟨_, heq, -, hs⟩ := hsound
  cases heq
  obtain ⟨u, d', hstate, hexchange, -⟩ := ha _ d (hs.sized r' hr')
  simp only [onTexture, zoom, hstate] at hsound' ⊢
  refine ⟨hsound', ?_, d', rfl, ?_⟩
  · exact hpresent.trans_eq (Array.size_setIfInBounds ..).symm
  · show P ((m.setTexture r' u).texture r) d'
    rw [m.texture_setTexture_of_ne (Ne.symm hne)]
    -- The surface is that of no other texture.
    refine hP _ d d' (fun h hh => ?_) hm
    exact hexchange.frame.others h.id (hs.issued r h hr hh) fun hh' =>
      hne (hs.apart r' r h hr' hr hh' hh)

/-- The texture is shown once its surface is current. -/
theorem toDevice_carries (hr : ours r) {m : Machine} (hm : m.Carries ours names r (Due pixels)) :
    (onTexture r Texture.toDevice m).Meets (fun _ => Carries ours names r (Shown pixels))
      fun _ => False := by
  obtain ⟨m, device⟩ := m
  obtain ⟨hsound, hpresent, d, rfl, hdue⟩ := hm
  have hsound' := keeps_sound_onTexture hr tidy_toDevice _ hsound
  obtain ⟨_, heq, -, hs⟩ := hsound
  cases heq
  obtain ⟨h, hok, u, d', hstate, hshown⟩ := (toDevice_shows (hs.sized r hr) hdue).succeeds
  have hafter : (onTexture r Texture.toDevice ⟨m, .host d⟩).state =
      ⟨m.setTexture r u, .host d'⟩ := by
    simp only [onTexture, zoom, hstate]
  refine .of_result (a := h) hok ?_
  rw [hafter] at hsound' ⊢
  refine ⟨hsound', hpresent.trans_eq (Array.size_setIfInBounds ..).symm, d', rfl, ?_⟩
  show Shown pixels ((m.setTexture r u).texture r) d'
  rw [texture_setTexture_self hpresent]
  exact hshown

/-- Marking the device as the newer side touches no texel. -/
theorem keeps_shown_hintDevice (hr : ours r) :
    Keeps (Carries ours names r (Shown pixels)) (onTexture r (change hintDevice)) := by
  rintro ⟨m, device⟩ ⟨hsound, hpresent, d, rfl, hshown⟩
  have htidy : Tidy (change hintDevice) :=
    tidy_change (fun _ => ⟨rfl, rfl, rfl⟩) fun _ h => h
  refine ⟨keeps_sound_onTexture hr htidy _ hsound, ?_, d, rfl, ?_⟩
  · exact hpresent.trans_eq (Array.size_setIfInBounds ..).symm
  · show Shown pixels ((m.setTexture r _).texture r) d
    rw [texture_setTexture_self hpresent]
    exact hshown

end Machine

/-! ## The dispatch on the device -/

namespace Table

variable {P : Texture → HostDevice → Prop} {pixels : Array Float4}

/-- A texture that is due is shown. -/
theorem presentTexture_carries (entry : Nat) (slot : String) (hr : ours r) {m : Machine}
    (hm : m.Carries ours names r (Due pixels)) :
    (presentTexture entry slot r m).Meets (fun _ => Carries ours names r (Shown pixels))
      (Carries ours names r (Due pixels)) := by
  refine meets_bind ((toDevice_carries hr hm).mono_broken fun _ h => h.elim) fun h m hm => ?_
  have hkeeps : Keeps (Carries ours names r (Shown pixels)) _ :=
    (keeps_carries_quiet isOwn_shown (Device.isQuiet_bindTexture entry slot h)).bind fun _ =>
      keeps_shown_hintDevice hr
  exact (hkeeps.meets hm).mono_broken fun _ h => h.mono fun _ _ => Shown.due

/-- Presenting another one leaves it. -/
theorem keeps_carries_presentTexture (hP : IsOwn P) (entry : Nat) (slot : String) (hr : ours r)
    {r' : TextureRef} (hr' : ours r') (hne : r' ≠ r) :
    Keeps (Carries ours names r P) (presentTexture entry slot r') := by
  refine (keeps_carries_other hP hr hr' hne tidy_toDevice).bind fun h => ?_
  refine (keeps_carries_quiet hP (Device.isQuiet_bindTexture entry slot h)).bind fun _ => ?_
  exact keeps_carries_other hP hr hr' hne (tidy_change (fun _ => ⟨rfl, rfl, rfl⟩) fun _ h => h)

/-- Presenting all textures shows each of them. -/
theorem presentTextures_carries (entry : Nat) {s : Table × Machine}
    (hours : ∀ p ∈ s.1.textures, ours p.2) (hr : r ∈ s.1.textures.map Prod.snd)
    (hs : s.2.Carries ours names r (Due pixels)) :
    (presentTextures entry s).Meets (fun _ s => s.2.Carries ours names r (Shown pixels))
      fun _ => True := by
  obtain ⟨⟨slot, r⟩, hmem, rfl⟩ := List.mem_map.1 hr
  have hr := hours _ hmem
  show (onMachine (forEach s.1.textures fun p => presentTexture entry p.1 p.2) s).Meets _ _
  refine meets_zoom ((meets_forEach (I := Carries ours names r (Due pixels))
    (J := Carries ours names r (Shown pixels)) (s := s.2) hmem ?_ ?_
    (fun m hm => presentTexture_carries entry slot hr hm) hs).mono_broken fun _ _ => trivial)
  · rintro ⟨slot', r'⟩ hp
    by_cases hne : r' = r
    · subst hne
      exact fun m hm => ((presentTexture_carries entry slot' hr hm).mono
        (fun _ _ h => h.mono fun _ _ => Shown.due) fun _ h => h).state
    · exact keeps_carries_presentTexture isOwn_due entry slot' hr (hours _ hp) hne
  · rintro ⟨slot', r'⟩ hp m hm
    by_cases hne : r' = r
    · subst hne
      exact presentTexture_carries entry slot' hr (hm.mono fun _ _ => Shown.due)
    · refine ((keeps_carries_presentTexture isOwn_shown entry slot' hr (hours _ hp) hne).meets
        hm).mono_broken
        fun _ h => h.mono fun _ _ => Shown.due

end Table

namespace Bench

variable {s : Bench K} {d : HostDevice} {entry : Nat}

/-- **A texture that is due is sent.** After a dispatch on the device, the surface of a marked
texture holds the texels of the host. -/
theorem dispatchHardware_sends (hs : s.Sound ours names) (hr : r ∈ (s.dispatcher.table entry).refs)
    (hpresent : r.index < s.memory.textures.size) (hstale : (s.memory.texture r).deviceStale = true)
    (groups : Uint3) :
    (dispatchHardware entry groups s).Meets
      (fun _ s' => ∃ d, s'.device = some (.host d) ∧
      (s'.memory.texture r).Shown (s.memory.texture r).pixels d)
      fun _ => True := by
  obtain ⟨hours, device, hdevice, hsound⟩ := hs
  obtain ⟨d, rfl, -⟩ := id hsound
  have hstart : (Machine.mk s.memory (.host d)).Carries ours names r
    (Due (s.memory.texture r).pixels) :=
    ⟨hsound, hpresent, d, rfl, rfl, .inl hstale⟩
  refine meets_dispatchHardware hdevice trivial fun point _ _ => ?_
  refine Outcome.Meets.mono
    (?_ : Outcome.Meets _
      (fun _ t => t.2.Carries ours names r (Shown (s.memory.texture r).pixels)) _) ?_
    fun _ h => h
  · have hbuffers : Keeps (fun t : Table × Machine => t.1.textures =
      (s.dispatcher.table entry).textures ∧
        t.2.Carries ours names r (Due (s.memory.texture r).pixels))
            (Table.presentBuffers entry) := by
      rintro t ⟨htextures, ht⟩
      refine ⟨htextures, Table.keeps_presentBuffers (I := Carries ours names r _)
        (fun slot => ?_) t ht⟩
      exact (keeps_carries_transfer isOwn_due BufferBinding.transferred_toDevice).bind fun h s hs =>
        keeps_carries_quiet isOwn_due (Device.isQuiet_bindBuffer entry slot h) s.2 hs
    refine hbuffers.meets_bind ⟨rfl, hstart⟩ (fun _ _ => trivial) ?_
    rintro _ t ⟨htextures, ht⟩
    refine meets_bind (Table.presentTextures_carries entry ?_ ?_ ht) fun _ t ht => ?_
    · rw [htextures]
      exact hours entry
    · rw [htextures]
      exact hr
    · have hdispatch : Keeps (fun t : Table × Machine =>
          t.2.Carries ours names r (Shown (s.memory.texture r).pixels))
          (Table.onMachine (Machine.onDevice (Device.dispatch entry groups))) := fun t ht =>
        keeps_carries_quiet isOwn_shown (Device.isQuiet_dispatch entry groups) t.2 ht
      exact ((Keeps.bind (keeps_report _) fun _ => hdispatch).meets ht).mono_broken
        fun _ _ => trivial
  · rintro _ t ht
    obtain ⟨d, hd, hshown⟩ := ht.holds
    exact ⟨d, congrArg some hd, hshown⟩

end Bench

/-! ## The emulated dispatch -/

/-- A body leaves the host the newer side of a texture. -/
def EntryPoint.KeepsNewer (point : EntryPoint K) : Prop :=
  ∀ id (s : Scene K) r, (s.memory.texture r).HostNewer →
    ((point.body id s).state.memory.texture r).HostNewer

/-- A body that writes texels makes the host the newer side. -/
theorem EntryPoint.Writes.keepsNewer {point : EntryPoint K}
    {writes : Uint3 → Scene K → List TexelWrite} (h : point.Writes writes) : point.KeepsNewer := by
  intro id s r hs
  rw [texture_congr (h.textures id s)]
  refine List.foldlRecOn (writes id s) Memory.write (motive := fun m => (m.texture r).HostNewer)
    hs fun m hm w _ => ?_
  rw [Memory.write, modifyTexture_eq, texture_setTexture]
  split
  next => exact ⟨rfl, rfl⟩
  next => exact hm

namespace Bench

variable {s : Bench K} {entry : Nat} {groups : Uint3} {fault : Fault}

/-- **Where a fault comes from.** An emulated dispatch that faults does so in its lanes, and nothing
after them was done. -/
theorem dispatchEmulated_of_fault (hs : s.Sound ours names)
    (hbodies : ∀ point ∈ s.dispatcher.layout.entries, point.Tame ours)
    (hfault : (dispatchEmulated entry groups s).result = .error (.fault fault)) :
    ∃ point grid, s.dispatcher.layout.entry entry = .ok point ∧
      (enter (s.dispatcher.table entry) s).result = .ok () ∧
      (dispatchEmulated entry groups s).state =
        (runGrid point groups grid (enter (s.dispatcher.table entry) s).state).state := by
  rcases dispatchEmulated_refused_or entry groups s with ⟨e, heq⟩ | ⟨point, grid, hpoint, heq⟩
  · rw [heq] at hfault
    cases hfault
  · rw [heq] at hfault ⊢
    have hsafe : Safe (Sound ours names) (fun e => ∃ error, e = .dispatch error)
        (enter (s.dispatcher.table entry) : Action (Bench K) Unit) :=
          safe_enter (fun error => ⟨error, rfl⟩) (hs.1 entry)
    have henter := hsafe s hs
    cases hready : (enter (s.dispatcher.table entry) s).result with
    | error e =>
      obtain ⟨error, rfl⟩ := henter.2 e hready
      rw [bind_eq, hready] at hfault
      cases hfault
    | ok u =>
      refine ⟨point, grid, hpoint, rfl, ?_⟩
      rw [result_bind_of_ok hready] at hfault
      rw [state_bind_of_ok hready]
      cases hlanes : (runGrid point groups grid
          (enter (s.dispatcher.table entry) s).state).result with
      | error e => rw [state_bind_of_error hlanes]
      | ok u =>
        -- What comes after the lanes does not fail.
        have hrun := safe_runGrid (hbodies point (entry_lt hpoint).2) groups grid _ henter.1
        have hleave : Safe (Sound ours names) (fun _ => False)
            (leave entry (s.dispatcher.table entry) : Action (Bench K) Unit) := safe_leave entry _
        rw [result_bind_of_ok hlanes] at hfault
        exact ((hleave _ hrun.1).2 _ hfault).elim

/-- Bound textures stay there. -/
theorem Walk.present {s' : Bench K} (h : Walk s s') (hs : s.Present) : s'.Present := by
  induction h with
  | refl => exact hs
  | tail _ hstep ih => exact hstep.present ih

/-- The states of a dispatcher on a device in host memory, with textures of this device only. Others
may use the device and the resources, but leave the textures sound. -/
inductive Tended (ours : TextureRef → Prop) : Bench K → Prop
  | attached {d : Dispatcher K} {m : Memory} {host : HostDevice} :
  d.Detached m → d.layout.Preserves →
      (∀ point ∈ d.layout.entries, point.Tame ours) →
      (∀ entry, ∀ p ∈ (d.table entry).textures, ours p.2 ∧ p.2.index < m.textures.size) →
      host.bound.length = host.entries.length → m.Sound ours host →
        Tended ours (d.on ⟨m, .host host⟩)
  | run {s : Bench K} (op : BenchOp) : Tended ours s → op.Lawful s.memory → op.Apt ours s.memory →
      Tended ours (op.run s)
  | meanwhile {s s' : Bench K} : Tended ours s → Meanwhile s s' → s.memory.textures.size ≤
    s'.memory.textures.size →
      (∀ d, s'.device = some (.host d) → s'.memory.Sound ours d) → Tended ours s'

namespace Tended

/-- These states are reachable. -/
theorem reachable (h : s.Tended ours) : s.Reachable := by
  induction h with
  | attached hdetached hbodies _ _ hlength _ => exact .attached hdetached hbodies hlength
  | run op _ hop _ ih => exact ih.run op hop
  | meanwhile _ hmeanwhile _ _ ih => exact ih.meanwhile hmeanwhile

/-- Textures are sound in these states, and bound ones there. -/
theorem sound (h : s.Tended ours) :
    (∃ names, s.Sound ours names) ∧ s.Present ∧ ∀ point ∈ s.dispatcher.layout.entries,
    point.Tame ours := by
  induction h with
  | @attached d m host _ _ htame hbound _ hsound =>
    exact ⟨⟨host.entries, fun entry p hp => (hbound entry p hp).1, _, rfl, host, rfl, rfl, hsound⟩,
      fun entry p hp => (hbound entry p hp).2, htame⟩
  | run op hs hop hapt ih =>
    obtain ⟨⟨names, hsound⟩, hpresent, htame⟩ := ih
    have hwalk := op.walks hs.reachable.kept.1 hop
    refine ⟨⟨names, op.run_sound hsound htame hapt⟩, ?_, hwalk.layout ▸ htame⟩
    exact hwalk.present hpresent
  | @meanwhile s s' hs hmeanwhile hsize hsound ih =>
    obtain ⟨⟨names, hbound, -⟩, hpresent, htame⟩ := ih
    obtain ⟨d, hd⟩ := hs.reachable.kept.1.attached
    obtain ⟨d', hd', -⟩ := hmeanwhile.device d hd
    have htable : ∀ entry, s'.dispatcher.table entry = s.dispatcher.table entry := fun entry => by
      rw [table, hmeanwhile.tables, table]
    refine ⟨⟨d'.entries, fun entry => ?_, _, hd', d', rfl, rfl, hsound d' hd'⟩,
      fun entry p hp => ?_, ?_⟩
    · rw [htable]
      exact hbound entry
    · rw [htable] at hp
      exact (hpresent entry p hp).trans_le hsize
    · rw [hmeanwhile.layout]
      exact htame

/-- Apt operations lead to such states. -/
theorem runAll (ops : List BenchOp) (hapt : ∀ op ∈ ops, ∀ m, op.Apt ours m) :
    ∀ {s : Bench K}, s.Tended ours → BenchOp.LawfulAll ops s →
    (BenchOp.runAll ops s).Tended ours := by
  induction ops with
  | nil => exact fun hs _ => hs
  | cons op ops ih =>
    intro s hs hops
    exact ih (fun op' h => hapt op' (.tail _ h))
      (hs.run op hops.1 (hapt op (.head _) s.memory)) hops.2

end Tended

/-- After a fault tables are the same, and the host is newer. -/
theorem Tended.after_fault (hs : s.Tended ours)
    (hfault : (dispatchEmulated entry groups s).result = .error (.fault fault))
    (hbody : ∀ point, s.dispatcher.layout.entry entry = .ok point → point.KeepsNewer) :
    (dispatchEmulated entry groups s).state.dispatcher.tables = s.dispatcher.tables ∧
      ∀ r ∈ (s.dispatcher.table entry).refs,
        ((dispatchEmulated entry groups s).state.memory.texture r).HostNewer := by
  obtain ⟨⟨names, hsound⟩, -, htame⟩ := hs.sound
  obtain ⟨hready, -⟩ := hs.reachable.kept
  obtain ⟨point, grid, hpoint, henter, hstate⟩ := dispatchEmulated_of_fault hsound htame hfault
  rw [hstate]
  constructor
  · have hentered := keeps_enter_strolls hready entry s ⟨.refl, rfl⟩
    exact (keeps_runGrid_strolls hready groups grid (hready.bodies point (entry_lt hpoint).2)
      _ hentered).2
  · intro r hr
    obtain ⟨d, hd⟩ := hready.attached
    have hany : Keeps (OnHost fun _ => True) toHost :=
      keeps_onHost_toHost fun _ _ => trivial
    have hentered := (enter_newer hany (fun _ _ => trivial) hr ⟨d, hd, trivial⟩).of_ok henter
    have hlanes := keeps_has_lanes (r := r) (fun id s => hbody point hpoint id s r)
      groups grid _ hentered
    obtain ⟨-, -, hnewer⟩ := hlanes
    exact hnewer

end Bench

/-- A copy that was behind has the host's bytes. -/
theorem BufferBinding.Leaves.bytes_iff {s : Bench K} {d : HostDevice}
    (hd : s.device = some (.host d)) {b : BufferBinding} {block : MemoryBlock}
    (h : b.Leaves s.memory d block) :
    block.bytes = (s.memory.buffer b.buffer).bytes ↔
      b.Behind s.memory ∨ s.copyBytes? b = some (s.memory.buffer b.buffer).bytes := by
  rcases h with ⟨hbehind, rfl⟩ | ⟨hnot, c, hc, hblock⟩
  · exact iff_of_true rfl (.inl hbehind)
  · have hcopy : s.copyBytes? b = some block.bytes := by
      simp [Bench.copyBytes?, host?, hd, hc, hblock]
    simp [hnot, hcopy]

/-- **What a faulting lane leaves behind.** Whatever the lanes of an emulated dispatch have done
before one of them faults: no copy of a buffer is marked that was not marked before, while every
texture of the entry point is marked. So once the entry point was dispatched on the device, the
device has in a slot what the lanes have left there exactly if the copy of the slot was behind
before, or held the same bytes; and it has the texels of all textures. -/
theorem lane_fault_effect {s : Bench K} (hs : s.Tended ours) {entry : Nat} {groups : Uint3}
    {fault : Fault} (hfault : (Bench.dispatchEmulated entry groups s).result =
      .error (.fault fault)) (hbody : ∀ point, s.dispatcher.layout.entry entry = .ok point →
      point.KeepsNewer) :
    let s₁ := (Bench.dispatchEmulated entry groups s).state
    s₁.dispatcher.tables = s.dispatcher.tables ∧
      (∀ r ∈ (s.dispatcher.table entry).refs, (s₁.memory.texture r).deviceStale = true) ∧
      ∀ groups', (Bench.dispatchHardware entry groups' s₁).result = .ok () →
        let s₂ := (Bench.dispatchHardware entry groups' s₁).state
        (∀ slot b, (s.dispatcher.table entry).buffers.get? slot = some b →
          (s₂.boundBytes? entry slot = some (s₁.memory.buffer b.buffer).bytes ↔
            b.Behind s₁.memory ∨ s₁.copyBytes? b = some (s₁.memory.buffer b.buffer).bytes)) ∧
        ∀ r ∈ (s.dispatcher.table entry).refs, ∃ d, s₂.device = some (.host d) ∧
          (s₂.memory.texture r).Displays (s₁.memory.texture r).pixels d := by
  intro s₁
  obtain ⟨htables, hnewer⟩ := hs.after_fault hfault hbody
  have htended : s₁.Tended ours := hs.run (.emulated entry groups) trivial trivial
  have htable : s₁.dispatcher.table entry = s.dispatcher.table entry := by
    rw [table, htables, table]
  obtain ⟨⟨names, hsound⟩, hpresent, -⟩ := htended.sound
  obtain ⟨hready, hkept⟩ := htended.reachable.kept
  obtain ⟨d, hd, -⟩ := hkept.apart
  refine ⟨htables, fun r hr => (hnewer r hr).2,
    fun groups' hok => ⟨fun slot b hb => ?_, fun r hr => ?_⟩⟩
  · obtain ⟨d', h, block, hd', -, hbound, hblock, hleaves⟩ :=
      (dispatchHardware_shows hkept hready hd (htable ▸ hb) groups').of_ok hok
    have hshown : (Bench.dispatchHardware entry groups' s₁).state.boundBytes? entry slot =
        some block.bytes := by
      simp [boundBytes?, host?, hd', hbound, hblock]
    rw [hshown, Option.some_inj]
    exact hleaves.bytes_iff hd
  · have hr₁ : r ∈ (s₁.dispatcher.table entry).refs := htable ▸ hr
    obtain ⟨p, hp, rfl⟩ := List.mem_map.1 hr₁
    obtain ⟨d', hd', -, hdisplays⟩ := (dispatchHardware_sends hsound hr₁ (hpresent entry p hp)
      (hnewer p.2 hr).2 groups').of_ok hok
    exact ⟨d', hd', hdisplays⟩

namespace Forge

/-- Its entry point. -/
def entries : List (EntryDecl Workbench) := [Workbench.entry "Double" ⟨1, 1, 1⟩ .double]

/-- A workbench without checks, with a texture. -/
def dispatcher : Dispatcher Workbench where
  kernel := {}
  layout :=
    { entries := Layout.numbered entries
      slots := [WorkbenchField.u0.slot "numbers", WorkbenchField.u1.slot "others",
        WorkbenchField.t0.slot "wall"] }
  tables := [{}]
  last := [none]

/-- Two buffers and a canvas. -/
def memory : Memory := { Mill.memory with textures := #[Easel.canvas] }

/-- It is given a new device. -/
def bench : Bench Workbench := dispatcher.on ⟨memory, .host (.ofEntries ["Double"])⟩

/-- Numbers and a texture are sent, and others bound. -/
def ops : List BenchOp :=
  [.setBuffer 0 "numbers" ⟨0⟩, .setTexture 0 "wall" ⟨0⟩, .hardware 0 ⟨1, 1, 1⟩,
    .setBuffer 0 "others" ⟨1⟩]

/-- What they leave. -/
def start : Bench Workbench := BenchOp.runAll ops bench

/-- The third thread has no number to double. -/
def emulate : Outcome (Bench Workbench) Unit := Bench.dispatchEmulated 0 ⟨3, 1, 1⟩ start

/-- Then the entry point is dispatched on the device. -/
def dispatch : Outcome (Bench Workbench) Unit := Bench.dispatchHardware 0 ⟨1, 1, 1⟩ emulate.state

/-- The canvas is sound. -/
theorem sound : memory.Sound (fun _ => True) (.ofEntries ["Double"]) := by
  have hnone : ∀ r, (memory.texture r).surface = none := by
    rintro ⟨_ | i⟩
    · rfl
    · exact surface_of_le (Nat.le_add_left 1 i)
  have himage : ∀ r, (memory.texture r).image.size =
      (memory.texture r).width.toNat * (memory.texture r).height.toNat := by
    rintro ⟨_ | i⟩
    · rfl
    · rw [show memory.texture ⟨i + 1⟩ = default from texture_of_le (Nat.le_add_left 1 i)]
      rfl
  refine ⟨fun r _ => ⟨himage r, fun h hh => ?_⟩, fun r h _ hh => ?_, fun r r' h _ _ hh => ?_⟩
  all_goals
    rw [hnone] at hh
    cases hh

/-- This is one of the states. -/
theorem tended : start.Tended fun _ => True := by
  have hmade : ofKernel? {} entries [WorkbenchField.u0.slot "numbers",
    WorkbenchField.u1.slot "others",
      WorkbenchField.t0.slot "wall"] = .ok (dispatcher, [.kernelRegistered 1 3]) := rfl
  have hunbound := unbound_of_ofKernel? hmade
  have hops : BenchOp.LawfulAll ops bench := by
    simp only [ops, BenchOp.LawfulAll, BenchOp.Lawful]
    decide +kernel
  refine Tended.runAll ops (fun op hop m => ?_)
    (.attached (hunbound.detached memory) ?_ ?_ ?_ rfl sound) hops
  · simp only [ops, List.mem_cons, List.not_mem_nil, or_false] at hop
    rcases hop with rfl | rfl | rfl | rfl
    all_goals trivial
  · intro point hpoint
    cases List.mem_singleton.1 hpoint
    exact Workbench.Body.run_preserved .double
  · intro point hpoint
    cases List.mem_singleton.1 hpoint
    exact Workbench.Body.run_tame .double rfl
  · intro entry p hp
    rw [hunbound.table] at hp
    cases hp

end Forge

/-- Numbers that the lanes have changed before the fault are not sent to the device again. -/
theorem faulted_copy_stale :
    Forge.start.Tended (fun _ => True) ∧ Forge.emulate.result = .error (.fault (.index 2 2)) ∧
      Forge.dispatch.result = .ok () ∧
      ((Forge.emulate.state.dispatcher.table 0).buffers.get? "numbers").map (·.dirty) = some false ∧
      Forge.dispatch.state.boundBytes? 0 "numbers" = some [1, 0, 0, 0, 2, 0, 0, 0] ∧
      (Forge.emulate.state.memory.buffer ⟨0⟩).bytes = [0, 0, 0, 0, 2, 0, 0, 0] :=
  ⟨Forge.tended, by decide +kernel⟩

/-- Numbers whose copy was behind, and the texture, are sent to the device all the same. -/
theorem forge_fault_effect :
    Forge.emulate.result = .error (.fault (.index 2 2)) ∧ Forge.dispatch.result = .ok () ∧
      Forge.dispatch.state.boundBytes? 0 "others" =
        some (Forge.emulate.state.memory.buffer ⟨1⟩).bytes ∧
      Forge.dispatch.state.boundBytes? 0 "numbers" ≠
        some (Forge.emulate.state.memory.buffer ⟨0⟩).bytes ∧
      ∃ d, Forge.dispatch.state.device = some (.host d) ∧
        (Forge.dispatch.state.memory.texture ⟨0⟩).Displays
          (Forge.emulate.state.memory.texture ⟨0⟩).pixels d := by
  have hfault : Forge.emulate.result = .error (.fault (.index 2 2)) := by decide +kernel
  have hok : Forge.dispatch.result = .ok () := by decide +kernel
  have hbody : ∀ point, Forge.start.dispatcher.layout.entry 0 = .ok point → point.KeepsNewer := by
    intro point hpoint
    cases hpoint
    exact (Workbench.Body.run_writes .double rfl).keepsNewer
  obtain ⟨-, -, hnext⟩ := lane_fault_effect Forge.tended hfault hbody
  obtain ⟨hbuffers, htextures⟩ := hnext _ hok
  have hothers : (Forge.start.dispatcher.table 0).buffers.get? "others" =
    some ⟨⟨1⟩, none, true⟩ := by decide +kernel
  have hnumbers : (Forge.start.dispatcher.table 0).buffers.get? "numbers" =
      some ⟨⟨0⟩, some ⟨⟨1⟩, 2⟩, false⟩ := by
    decide +kernel
  refine ⟨hfault, hok, (hbuffers "others" _ hothers).2 (.inl (.inl rfl)), ?_,
    htextures ⟨0⟩ (by decide +kernel)⟩
  exact fun h => absurd ((hbuffers "numbers" _ hnumbers).1 h) (by decide +kernel)

end ComputeKernel
