import ComputeKernel.Proofs.Dispatch.Supply

/-!
# What a device in host memory refuses

A device in host memory refuses nothing, as long as a dispatcher is supplied and its textures are
those of the device and sound (`Bench.Sound`). Every operation keeps the textures sound
(`BenchOp.run_sound`). So a dispatch on the device ends as its two checks end
(`Bench.dispatchHardware_result`); a download ends as the check of the entry point ends
(`Bench.downloadBuffers_result`); and an emulated dispatch, which reads textures back, never ends
with a failure of the device (`Bench.dispatchEmulated_sound`).
-/

namespace ComputeKernel

open Bench
open ComputeKernel.Action Machine Table

variable {K : Type} {ours : TextureRef → Prop} {names : List String} {α : Type}

/-- The failure is not one of the device. -/
def Failure.NotOfDevice (e : Failure) : Prop := ∀ error, e ≠ .device error

/-- A body touches no surfaces, and fails by own faults. -/
structure EntryPoint.Tame (ours : TextureRef → Prop) (point : EntryPoint K) : Prop where
  steady : ∀ id (s : Scene K), s.memory.Steady ours (point.body id s).state.memory
  faults : point.OnlyFaults

/-! ## Tables -/

namespace Table

/-- Bound textures are those of the device, and sound. -/
def Sound (ours : TextureRef → Prop) (names : List String) (s : Table × Machine) : Prop :=
  (∀ p ∈ s.1.textures, ours p.2) ∧ s.2.Sound ours names

/-- What is sound for each buffer is so for all. -/
theorem keeps_sound_onBuffers {f : String → Action (BufferBinding × Machine) Unit}
    (hf : ∀ slot, Keeps (fun s : BufferBinding × Machine => s.2.Sound ours names) (f slot)) :
    Keeps (Sound ours names) (onBuffers f) := by
  rintro ⟨t, m⟩ ⟨hours, hm⟩
  exact ⟨hours, keeps_onValues hf t.buffers hm⟩

/-- What is sound on the machine is so on the table. -/
theorem keeps_sound_onMachine {a : Action Machine α} (ha : Keeps (Machine.Sound ours names) a) :
    Keeps (Sound ours names) (onMachine a) :=
  fun s hs => ⟨hs.1, ha s.2 hs.2⟩

/-- What is sound for each texture is so for all. -/
theorem keeps_sound_onTextures {f : String → TextureRef → Action Machine Unit}
    (hf : ∀ slot r, ours r → Keeps (Machine.Sound ours names) (f slot r)) :
    Keeps (Sound ours names) (onTextures f) := by
  rintro ⟨t, m⟩ hs
  exact keeps_sound_onMachine (Keeps.forEach fun p hp => hf p.1 p.2 (hs.1 p hp)) (t, m) hs

/-- Presenting a texture of the device is sound. -/
theorem keeps_sound_presentTexture (entry : Nat) (slot : String) {r : TextureRef} (hr : ours r) :
    Keeps (Machine.Sound ours names) (presentTexture entry slot r) := by
  refine (keeps_sound_onTexture hr Texture.tidy_toDevice).bind fun h => ?_
  refine (keeps_sound_quiet (Device.isQuiet_bindTexture entry slot h)).bind fun _ => ?_
  exact keeps_sound_onTexture hr (Texture.tidy_change (fun _ => ⟨rfl, rfl, rfl⟩) fun _ h => h)

/-- Presenting a buffer is sound. -/
theorem keeps_sound_present (entry : Nat) (slot : String) :
    Keeps (fun s : BufferBinding × Machine => s.2.Sound ours names)
      (BufferBinding.present entry slot) :=
  (keeps_sound_transfer BufferBinding.transferred_toDevice).bind fun h s hs =>
    keeps_sound_quiet (Device.isQuiet_bindBuffer entry slot h) s.2 hs

/-- A release is sound. -/
theorem keeps_sound_release : Keeps (Sound ours names) release :=
  (keeps_sound_onBuffers fun _ => keeps_sound_transfer BufferBinding.transferred_release).bind
      fun _ =>
    keeps_sound_onTextures fun _ _ hr => keeps_sound_onTexture hr Texture.tidy_release

/-- A texture is presented for an entry point there is. -/
theorem presentTexture_succeeds {entry : Nat} (hentry : entry < names.length) (slot : String)
    {r : TextureRef} (hr : ours r) {m : Machine} (hm : m.Sound ours names) :
    (presentTexture entry slot r m).result = .ok () := by
  obtain ⟨m, device⟩ := m
  obtain ⟨d, rfl, hnames, hs⟩ := hm
  obtain ⟨h, hok, u, d', hstate, hsized, hsurface⟩ :=
    (Texture.toDevice_sized (hs.sized r hr)).succeeds
  obtain ⟨surface, hget, -⟩ := hsized.surface h hsurface
  have hentries : d'.entries = names := by
    obtain ⟨_, _, hstate', hexchange⟩ := Texture.exchanged_toDevice (m.texture r) d
    cases hstate.symm.trans hstate'
    exact hexchange.entries.1.trans hnames
  have hbind := HostDevice.bindTexture_eq_ok (hentries ▸ hentry) (by rw [Keyed.has, hget]; rfl) slot
  simp only [presentTexture, bind_eq, onTexture, onDevice, zoom, hok, hstate, hbind]
  rfl

end Table

/-! ## Dispatchers -/

namespace Bench

variable {may : Failure → Prop} {point : EntryPoint K} {s : Bench K}
variable (entry : Nat)

/-- All bound textures are those of the device, and are sound. -/
def Sound (ours : TextureRef → Prop) (names : List String) (s : Bench K) : Prop :=
  (∀ entry, ∀ p ∈ (s.dispatcher.table entry).textures, ours p.2) ∧
    ∃ device, s.device = some device ∧ (Machine.mk s.memory device).Sound ours names

/-- The textures of a table may change to others of the device. -/
theorem Sound.setTable (hs : s.Sound ours names) (entry : Nat) {t : Table}
    (ht : ∀ p ∈ t.textures, ours p.2) :
    Sound ours names { s with dispatcher := s.dispatcher.setTable entry t } := by
  refine ⟨fun entry' => ?_, hs.2⟩
  rcases s.dispatcher.table_setTable_cases entry t entry' with ⟨-, heq⟩ | heq
  · exact heq.symm ▸ ht
  · exact heq.symm ▸ hs.1 entry'

/-- The memory may change while surfaces stay. -/
theorem Sound.steady (hs : s.Sound ours names) {m' : Memory} (hm : s.memory.Steady ours m') :
    Sound ours names { s with memory := m' } := by
  obtain ⟨hours, device, hdevice, d, hd, hnames, hsound⟩ := hs
  exact ⟨hours, device, hdevice, d, hd, hnames, hsound.steady hm⟩

/-- A check is sound. -/
theorem keeps_sound_check {f : Dispatcher K → Except DispatchError α} :
    Keeps (Sound ours names) (check f) :=
  keeps_examine _

/-- What keeps the textures of a table sound keeps all sound. -/
theorem keeps_sound_onTable {a : Action (Table × Machine) α}
    (ha : Keeps (Table.Sound ours names) a) :
    Keeps (fun s : Dispatcher K × Machine => (s.1.on s.2).Sound ours names)
      (Dispatcher.onTable entry a) := by
  rintro ⟨d, m⟩ ⟨hours, device, hdevice, hm⟩
  cases hdevice
  obtain ⟨hours', hm'⟩ := ha (d.table entry, m) ⟨hours entry, hm⟩
  have hsound : Sound ours names (d.on (a (d.table entry, m)).state.2) := ⟨hours, _, rfl, hm'⟩
  exact hsound.setTable entry hours'

/-- A use of the device is sound. -/
theorem keeps_sound_withDevice {a : Action (Dispatcher K × Machine) α}
    (ha : Keeps (fun s : Dispatcher K × Machine => (s.1.on s.2).Sound ours names) a) :
    Keeps (Sound ours names) (withDevice a) := by
  rintro ⟨d, m, device⟩ hs
  obtain ⟨-, device, rfl, -⟩ := id hs
  exact ha (d, ⟨m, device⟩) hs

/-! ## Operations -/

/-- Binding a buffer is sound. -/
theorem keeps_sound_setBuffer (slot : String) (r : BufferRef) :
    Keeps (Sound ours names) (setBuffer entry slot r : Action (Bench K) Unit) := by
  refine keeps_sound_check.bind fun _ => Action.keeps_get.bind fun _ =>
      keeps_sound_check.bind fun _ =>
    (keeps_report _).bind fun _ => ?_
  exact keeps_modify fun s hs => hs.setTable entry (hs.1 entry)

/-- Binding a texture of the device is sound. -/
theorem keeps_sound_setTexture (slot : String) {r : TextureRef} (hr : ours r) :
    Keeps (Sound ours names) (setTexture entry slot r : Action (Bench K) Unit) := by
  refine keeps_sound_check.bind fun _ => keeps_sound_check.bind fun _ =>
      Action.keeps_get.bind fun _ =>
    (keeps_report _).bind fun _ => ?_
  refine keeps_modify fun s hs => hs.setTable entry fun p hp => ?_
  rcases Keyed.mem_put hp with rfl | hp
  · exact hr
  · exact hs.1 entry p hp

/-- Marking is sound. -/
theorem keeps_sound_invalidateBuffers :
    Keeps (Sound ours names) (invalidateBuffers entry : Action (Bench K) Unit) :=
  keeps_sound_check.bind fun _ => keeps_modify fun _ hs => hs.setTable entry (hs.1 entry)

/-- A dispatch on the device is sound. -/
theorem keeps_sound_dispatchHardware (groups : Uint3) :
    Keeps (Sound ours names) (dispatchHardware entry groups : Action (Bench K) Unit) := by
  refine keeps_sound_check.bind fun point => keeps_sound_withDevice ?_
  refine Action.keeps_get.bind fun _ => (keeps_ofExcept _).bind fun _ => Keeps.bind ?_ fun _ =>
    keeps_modify fun _ hs => hs
  refine keeps_sound_onTable entry (Keeps.bind ?_ fun _ => Keeps.bind ?_ fun _ =>
    (keeps_report _).bind fun _ => ?_)
  · exact keeps_sound_onBuffers fun slot => keeps_sound_present entry slot
  · exact keeps_sound_onTextures fun slot _ hr => keeps_sound_presentTexture entry slot hr
  · exact keeps_sound_onMachine (keeps_sound_quiet (Device.isQuiet_dispatch entry groups))

/-- A download is sound. -/
theorem keeps_sound_downloadBuffers :
    Keeps (Sound ours names) (downloadBuffers entry : Action (Bench K) Unit) :=
  keeps_sound_check.bind fun _ => keeps_sound_withDevice <| keeps_sound_onTable entry <|
    keeps_sound_onBuffers fun _ => keeps_sound_transfer BufferBinding.transferred_toHost

/-- Disposing is sound. -/
theorem keeps_sound_dispose : Keeps (Sound ours names) (dispose : Action (Bench K) Unit) := by
  refine Action.keeps_get.bind fun s => ?_
  cases s.device.isSome with
  | false => exact keeps_pure ()
  | true =>
    refine keeps_sound_withDevice (Action.keeps_get.bind fun _ => Keeps.bind ?_ fun _ =>
      keeps_report _)
    exact .forEach fun entry _ => keeps_sound_onTable entry keeps_sound_release

/-! ## Emulated dispatch -/

/-- A texture may change but for its size and surface. -/
theorem keeps_sound_changeTexture (r : TextureRef) {f : Texture → Texture}
    (hf : ∀ t, (f t).width = t.width ∧ (f t).height = t.height ∧ (f t).surface = t.surface)
    (himage : ∀ t, t.image.size = t.width.toNat * t.height.toNat →
      (f t).image.size = t.width.toNat * t.height.toNat) :
    Keeps (Sound ours names) (changeTexture r f : Action (Bench K) Unit) :=
  keeps_modify fun s hs => hs.steady (.modifyTexture s.memory r hf himage)

/-- The texels of a texture of the device are always read back. -/
theorem safe_fetchTexture {r : TextureRef} (hr : ours r) :
    Safe (Sound ours names) may (fetchTexture r : Action (Bench K) Unit) := by
  rintro s ⟨hours, device, hdevice, hm⟩
  have hfetch : (onTexture r Texture.toHost ⟨s.memory, device⟩).Meets
      (fun _ => Machine.Sound ours names) fun _ => False := by
    have hkeeps := keeps_sound_onTexture hr Texture.tidy_toHost _ hm
    obtain ⟨d, rfl, -, hs⟩ := id hm
    obtain ⟨_, hok, -⟩ := (Texture.toHost_sized (hs.sized r hr)).succeeds
    exact .of_result (a := ()) hok hkeeps
  obtain ⟨_, hok, hsound⟩ := ((meets_fetchTexture hdevice hfetch).mono_broken (by simp)).succeeds
  refine ⟨⟨?_, hsound⟩, fun e he => by cases hok.symm.trans he⟩
  simp only [fetchTexture, hdevice]
  exact hours

/-- Only a field that does not take what is bound stops it. -/
theorem safe_enter (hmay : ∀ error, may (.dispatch error)) {table : Table}
    (ht : ∀ p ∈ table.textures, ours p.2) :
    Safe (Sound ours names) may (enter table : Action (Bench K) Unit) := by
  refine .bind (.forEach fun p _ s hs =>
      ⟨keeps_bindBufferField (fun _ _ h => h) p.1 p.2.buffer s hs, ?_⟩) fun _ =>
    .forEach fun p hp =>
      .bind (fun s hs => ⟨keeps_bindTextureField (fun _ _ h => h) p.1 p.2 s hs, ?_⟩) fun _ => ?_
  · intro e he
    simp only [bindBufferField] at he
    split at he
    next => cases he
    next =>
      cases he
      exact hmay _
  · intro e he
    simp only [bindTextureField] at he
    split at he
    next => cases he
    next =>
      cases he
      exact hmay _
  · refine (safe_fetchTexture (ht p hp)).bind fun _ => Keeps.safe ?_ fun _ _ => ⟨(), rfl⟩
    exact keeps_sound_changeTexture p.2 (fun _ => ⟨rfl, rfl, rfl⟩) fun _ h => h

/-- The lanes fail by faults of their own only. -/
theorem safe_runLanes (hpoint : point.Tame ours) (groups : Uint3) (m : Memory) :
    Safe (fun s : Scene K => m.Steady ours s.memory) Failure.NotOfDevice
      (runLanes point groups) := by
  refine .forEach fun v _ => .bind (fun s hs => ⟨hs, fun e he error => ?_⟩) fun id s hs => ?_
  · obtain ⟨fault, -, rfl⟩ : ∃ fault, Grid.id? groups v.1 v.2 = .error fault ∧
      .fault fault = e := by
      cases hid : Grid.id? groups v.1 v.2 with
      | ok id =>
        rw [hid] at he
        cases he
      | error fault =>
        rw [hid] at he
        cases he
        exact ⟨fault, rfl, rfl⟩
    exact Failure.noConfusion
  · refine ⟨hs.trans (hpoint.steady id s), fun e he error => ?_⟩
    obtain ⟨fault, rfl⟩ := hpoint.faults id s e he
    exact Failure.noConfusion

/-- The grid fails by faults of its own only. -/
theorem safe_runGrid (hpoint : point.Tame ours) (groups grid : Uint3) :
    Safe (Sound ours names) Failure.NotOfDevice (runGrid point groups grid) := by
  have hreport : ∀ event, Safe (Sound ours names) Failure.NotOfDevice
      (report event : Action (Bench K) Unit) :=
    fun event => (keeps_report event).safe fun _ _ => ⟨(), rfl⟩
  rw [runGrid]
  split
  next => exact hreport _
  next =>
    refine (hreport _).bind fun _ s hs => ?_
    obtain ⟨hsteady, hfails⟩ :=
      safe_runLanes hpoint groups s.memory ⟨s.dispatcher.kernel, s.memory⟩ (.refl _)
    exact ⟨hs.steady hsteady, hfails⟩

/-- What comes after the lanes never fails. -/
theorem safe_leave (table : Table) :
    Safe (Sound ours names) may (leave entry table : Action (Bench K) Unit) := by
  refine .bind (.forEach fun p _ => Keeps.safe ?_ fun _ _ => ⟨(), rfl⟩) fun _ =>
    .bind ?_ fun _ => ?_
  · exact keeps_sound_changeTexture p.2 (fun _ => ⟨rfl, rfl, rfl⟩) fun t _ => by
      rw [Texture.applyHostChanges, Texture.snapshot_eq, t.size_pixels]
  · exact (keeps_modify fun _ hs => hs.setTable entry (hs.1 entry)).safe fun _ _ => ⟨(), rfl⟩
  · exact (keeps_modify fun _ hs => hs).safe fun _ _ => ⟨(), rfl⟩

/-- **The device refuses nothing to an emulated dispatch.** The textures stay sound. -/
theorem dispatchEmulated_sound (hs : s.Sound ours names)
    (hbodies : ∀ point ∈ s.dispatcher.layout.entries, point.Tame ours) (entry : Nat)
    (groups : Uint3) :
    (dispatchEmulated entry groups s).state.Sound ours names ∧
      ∀ e, (dispatchEmulated entry groups s).result = .error e → e.NotOfDevice := by
  rcases dispatchEmulated_refused_or entry groups s with ⟨e, heq⟩ | ⟨point, grid, hpoint, heq⟩
  · rw [heq]
    refine ⟨hs, ?_⟩
    rintro _ ⟨⟩ error
    exact Failure.noConfusion
  · rw [heq]
    have hpoint := hbodies point (entry_lt hpoint).2
    exact ((safe_enter (fun _ _ => Failure.noConfusion) (hs.1 entry)).bind fun _ =>
      (safe_runGrid hpoint groups grid).bind fun _ => safe_leave entry
      (s.dispatcher.table entry)) s hs

/-! ## Results -/

variable {others : List (Nat × Nat)} {s : Bench K} {d : HostDevice} {entry : Nat}

/-- The machine of a dispatcher whose textures are sound. -/
theorem Sound.machine (hs : s.Sound ours names) (hd : s.device = some (.host d)) :
    (Machine.mk s.memory (.host d)).Sound ours names := by
  obtain ⟨-, device, hdevice, hm⟩ := hs
  cases hd.symm.trans hdevice
  exact hm

/-- All that is bound is presented, and the dispatch is queued. -/
theorem present_succeeds (hready : s.Ready) (hsupplied : s.Supplied names others)
    (hs : s.Sound ours names) (hd : s.device = some (.host d))
    (htable : entry < s.dispatcher.tables.length) (hentry : entry < names.length) (groups : Uint3)
    (e : Event) :
    (submit entry groups e (s.dispatcher.table entry, ⟨s.memory, .host d⟩)).Meets (fun _ _ => True)
      fun _ => False := by
  refine meets_bind (onBuffers_succeeds hsupplied hd (hs.machine hd) htable
    (fun before slot after => walk_present hready htable _ before slot after)
    (fun slot => keeps_sound_present entry slot)
    fun slot b m d hb hentries => BufferBinding.present_stocked hb (hentries ▸ hentry) slot) ?_
  rintro _ ⟨t, m⟩ ⟨hm, htextures⟩
  have ht : ∀ p ∈ t.textures, ours p.2 := by
    rw [htextures]
    exact hs.1 entry
  have hloop : (presentTextures entry (t, m)).Meets (fun _ s => s.2.Sound ours names)
      fun _ => False := by
    show (Table.onMachine (forEach t.textures fun p => Table.presentTexture entry p.1 p.2)
      (t, m)).Meets _ _
    refine meets_zoom (meets_forEach_of_meets (fun p hp m hm => ?_) hm)
    have hok := presentTexture_succeeds hentry p.1 (ht p hp) hm
    exact .of_result hok (keeps_sound_presentTexture entry p.1 (ht p hp) m hm)
  refine meets_bind hloop ?_
  rintro _ ⟨t, ⟨m, device⟩⟩ ⟨d, rfl, hnames, -⟩
  have hok := HostDevice.dispatch_eq_ok (hnames ▸ hentry) groups
  refine meets_bind (M := fun _ s => (t, Machine.mk m (.host d)) = s) rfl ?_
  rintro _ _ rfl
  exact .of_result (I := fun _ => True) hok trivial

/-- The result of a use of the device. -/
theorem result_withDevice {device : Device} (hd : s.device = some device)
    (a : Action (Dispatcher K × Machine) α) :
    (withDevice a s).result = (a (s.dispatcher, ⟨s.memory, device⟩)).result := by
  simp only [withDevice, hd]

/-- A device agrees on an entry point under its ordinal. -/
theorem agree_eq_ok_iff {device : Device} :
    agree point entry device = .ok () ↔ device.findEntry? point.name = some entry := by
  simp only [agree]
  split
  next hfound => exact iff_of_true rfl hfound
  next hother => exact iff_of_false nofun hother

/-- **A dispatch on the device ends as its checks end.** -/
theorem dispatchHardware_result (hready : s.Ready) (hsupplied : s.Supplied names others)
    (hs : s.Sound ours names) (hd : s.device = some (.host d)) (entry : Nat) (groups : Uint3) :
    (dispatchHardware entry groups s).result =
      (s.dispatcher.layout.entry entry >>= fun point => agree point entry (.host d)).mapError
        .dispatch := by
  rw [dispatchHardware_eq, hd]
  cases hpoint : s.dispatcher.layout.entry entry with
  | error e => rfl
  | ok point =>
    show _ = (agree point entry (.host d)).mapError Failure.dispatch
    dsimp only
    cases hagree : agree point entry (.host d) with
    | error e => rfl
    | ok _ =>
      have htable : entry < s.dispatcher.tables.length := hready.tables ▸ (entry_lt hpoint).1
      have hentry : entry < names.length := by
        obtain ⟨d', hd', rfl, -⟩ := hsupplied.stocked
        cases hd.symm.trans hd'
        exact HostDevice.entry_lt_of_findEntry? (agree_eq_ok_iff.1 hagree)
      obtain ⟨_, hok, -⟩ := (present_succeeds hready hsupplied hs hd htable hentry groups
        (.hardwareDispatch point.name groups .host)).succeeds
      exact (result_withDevice hd _).trans (result_bind_of_ok hok)

/-- It succeeds where kernel and device agree. -/
theorem dispatchHardware_eq_ok_iff (hready : s.Ready) (hsupplied : s.Supplied names others)
    (hs : s.Sound ours names) (entry : Nat) (groups : Uint3) :
    (dispatchHardware entry groups s).result = .ok () ↔ ∃ point device,
      s.dispatcher.layout.entry entry = .ok point ∧ s.device = some device ∧
        device.findEntry? point.name = some entry := by
  obtain ⟨d, hd⟩ := hready.attached
  rw [dispatchHardware_result hready hsupplied hs hd]
  constructor
  · intro hok
    cases hpoint : s.dispatcher.layout.entry entry with
    | error e =>
      rw [hpoint] at hok
      cases hok
    | ok point =>
      rw [hpoint] at hok
      cases hagree : agree point entry (.host d) with
      | error e =>
        simp only [bind, Except.bind, hagree] at hok
        cases hok
      | ok _ => exact ⟨point, _, rfl, hd, agree_eq_ok_iff.1 hagree⟩
  · rintro ⟨point, device, hpoint, hdevice, hfound⟩
    cases hd.symm.trans hdevice
    simp only [hpoint, bind, Except.bind, agree_eq_ok_iff.2 hfound]
    rfl

/-- The ways in which a dispatch on the device can fail. -/
theorem dispatchHardware_error (hready : s.Ready) (hsupplied : s.Supplied names others)
    (hs : s.Sound ours names) {groups : Uint3} {e : Failure}
    (he : (dispatchHardware entry groups s).result = .error e) :
    (∃ ordinal count, e = .dispatch (.unknownEntry ordinal count)) ∨
      ∃ name ordinal kind reported, e = .dispatch (.entryMismatch name ordinal kind reported) := by
  obtain ⟨d, hd⟩ := hready.attached
  rw [dispatchHardware_result hready hsupplied hs hd] at he
  simp only [Layout.entry, agree] at he
  split at he
  next point _ =>
    simp only [bind, Except.bind] at he
    split at he
    next => cases he
    next =>
      cases he
      exact .inr ⟨_, _, _, _, rfl⟩
  next =>
    cases he
    exact .inl ⟨_, _, rfl⟩

/-- **A download ends as its check ends.** -/
theorem downloadBuffers_result (hready : s.Ready) (hsupplied : s.Supplied names others)
    (hs : s.Sound ours names) (hd : s.device = some (.host d)) (entry : Nat) :
    (downloadBuffers entry s).result =
      ((s.dispatcher.layout.entry entry).map fun _ => ()).mapError .dispatch := by
  rw [downloadBuffers, check_bind]
  cases hpoint : s.dispatcher.layout.entry entry with
  | error e => rfl
  | ok point =>
    have htable : entry < s.dispatcher.tables.length := hready.tables ▸ (entry_lt hpoint).1
    have hdownload := onBuffers_succeeds hsupplied hd (hs.machine hd) htable
      (fun before slot after => walk_transfer hready htable BufferBinding.transferred_toHost _
        before slot after)
      (fun slot => keeps_sound_transfer BufferBinding.transferred_toHost)
      fun slot b m d hb _ => BufferBinding.toHost_stocked hb
    obtain ⟨_, hok, -⟩ := hdownload.succeeds
    show (withDevice _ s).result = _
    rw [result_withDevice hd]
    exact hok

end Bench

namespace BenchOp

/-- Bound textures are the device's, and surfaces are left. -/
def Apt (ours : TextureRef → Prop) (m : Memory) : BenchOp → Prop
  | .setTexture _ _ r => ours r
  | .caller change => m.Steady ours (change m)
  | _ => True

/-- **Every operation keeps the textures sound.** -/
theorem run_sound {s : Bench K} (hs : s.Sound ours names)
    (hbodies : ∀ point ∈ s.dispatcher.layout.entries, point.Tame ours) (op : BenchOp)
    (hop : op.Apt ours s.memory) :
    (op.run s).Sound ours names := by
  cases op with
  | setBuffer entry slot r => exact keeps_sound_setBuffer entry slot r s hs
  | setTexture entry slot r => exact keeps_sound_setTexture entry slot hop s hs
  | invalidate entry => exact keeps_sound_invalidateBuffers entry s hs
  | hardware entry groups => exact keeps_sound_dispatchHardware entry groups s hs
  | emulated entry groups => exact (dispatchEmulated_sound hs hbodies entry groups).1
  | download entry => exact keeps_sound_downloadBuffers entry s hs
  | dispose => exact keeps_sound_dispose s hs
  | caller change => exact hs.steady hop

end BenchOp

end ComputeKernel
