import ComputeKernel.Proofs.Dispatch.Release
import ComputeKernel.Proofs.Dispatch.SingleCopy

/-!
# One side of a texture is behind at most

Two flags say which side of a texture is behind, the host or the device, and they are meant to
exclude each other. `TextureUse` has all the uses: those of `TextureOp`, which heed what the device
has written, and those that do not, the hints, a commit and a release among them, and a dispatcher
that goes. A use is `Careless` when it commits the host's texels, or releases the surface, while the
device is the newer side: it marks the device as behind and leaves the mark of the host. Nothing
else sets the second flag (`TextureUse.run_bothStale`). `flags_exclusive_iff_careful` is the run.
What dispatches and transfers keep of one texture is `Machine.Has` and `Bench.Has`.
-/

namespace ComputeKernel

open Machine Action.Keeps
open ComputeKernel.Action Texture Memory

variable {K : Type} {r : TextureRef} {P : Texture → Prop}
variable {m : Machine}

/-! ## One texture -/

namespace Texture

variable {t : Texture}

/-- Each side is behind the other. -/
def BothStale (t : Texture) : Prop := t.hostStale = true ∧ t.deviceStale = true

instance (t : Texture) : Decidable t.BothStale := inferInstanceAs (Decidable (_ ∧ _))

/-- Not if the host is current. -/
theorem not_bothStale_of_host (h : t.hostStale = false) : ¬ t.BothStale :=
  fun hboth => absurd (h.symm.trans hboth.1) Bool.false_ne_true

/-- Not if the device is current. -/
theorem not_bothStale_of_device (h : t.deviceStale = false) : ¬ t.BothStale :=
  fun hboth => absurd (h.symm.trans hboth.2) Bool.false_ne_true

/-- The host is the newer side. -/
def HostNewer (t : Texture) : Prop := t.hostStale = false ∧ t.deviceStale = true

/-- Only the flags matter. -/
theorem bothStale_congr {t t' : Texture} (hhost : t'.hostStale = t.hostStale)
    (hdevice : t'.deviceStale = t.deviceStale) : t'.BothStale ↔ t.BothStale := by
  rw [BothStale, BothStale, hhost, hdevice]

/-- A texture with a property, beside a device in host memory. -/
def OnHost (P : Texture → Prop) (s : Texture × Device) : Prop := ∃ d, s.2 = .host d ∧ P s.1

/-- A change that keeps the property. -/
theorem keeps_onHost_change {f : Texture → Texture} (hf : ∀ t, P t → P (f t)) :
    Keeps (OnHost P) (change f) := by
  rintro s ⟨d, hd, ht⟩
  exact ⟨d, hd, hf s.1 ht⟩

/-- A transfer to the device sets no flag. -/
theorem keeps_clear_toDevice : Keeps (OnHost fun t => ¬ t.BothStale) toDevice := by
  rintro ⟨t, device⟩ ⟨d, rfl, ht⟩
  refine ((toDevice_spec t d).mono ?_ ?_).state
  · rintro h _ ⟨u, d', rfl, -, -, -, hdevice⟩
    exact ⟨d', rfl, not_bothStale_of_device hdevice⟩
  · rintro _ ⟨u, d', rfl, -, hhost, hdevice⟩
    exact ⟨d', rfl, fun hboth => ht ((bothStale_congr hhost hdevice).1 hboth)⟩

/-- A transfer keeps what holds while the host is current. -/
theorem keeps_onHost_toHost (hP : ∀ t : Texture, t.hostStale = false → P t) :
    Keeps (OnHost P) toHost := by
  rintro ⟨t, device⟩ ⟨d, rfl, ht⟩
  refine ((toHost_spec t d).mono ?_ ?_).state
  · rintro _ _ ⟨u, d', rfl, -, -, hhost, -⟩
    exact ⟨d', rfl, hP u hhost⟩
  · rintro _ rfl
    exact ⟨d, rfl, ht⟩

/-- A transfer to the host sets no flag. -/
theorem keeps_clear_toHost : Keeps (OnHost fun t => ¬ t.BothStale) toHost :=
  keeps_onHost_toHost fun _ => not_bothStale_of_host

/-- Nothing comes over while the host is the newer side. -/
theorem keeps_newer_toHost : Keeps (OnHost HostNewer) toHost := by
  rintro ⟨t, device⟩ ⟨d, rfl, ht⟩
  refine ((toHost_spec t d).mono ?_ ?_).state
  · rintro _ _ ⟨u, d', rfl, -, -, hhost, hdevice⟩
    exact ⟨d', rfl, hhost, hdevice.trans ht.2⟩
  · rintro _ rfl
    exact ⟨d, rfl, ht⟩

/-- Writing a texel makes the host the newer side. -/
theorem set_cases (t : Texture) (uv : Uint2) (value : Float4) :
    (∃ u, t.set uv value = .ok u ∧ u.hostStale = false) ∨ ∃ e, t.set uv value = .error e := by
  rw [set, checkTexel]
  split
  next => exact .inl ⟨_, rfl, rfl⟩
  next => exact .inr ⟨_, rfl⟩

/-- Writing a texel sets one at most. -/
theorem keeps_clear_writePixel (uv : Uint2) (value : Float4) :
    Keeps (OnHost fun t => ¬ t.BothStale) (writePixel uv value) := by
  refine keeps_clear_toHost.bind fun _ => ?_
  rintro ⟨t, device⟩ ⟨d, rfl, ht⟩
  rcases t.set_cases uv value with ⟨u, heq, hhost⟩ | ⟨e, heq⟩
  · simp only [step, heq]
    exact ⟨d, rfl, not_bothStale_of_host hhost⟩
  · simp only [step, heq]
    exact ⟨d, rfl, ht⟩

/-- Reading a texel sets none. -/
theorem keeps_clear_readPixel (uv : Uint2) :
    Keeps (OnHost fun t => ¬ t.BothStale) (readPixel uv) := by
  refine keeps_clear_toHost.bind fun _ => ?_
  rintro ⟨t, device⟩ ⟨d, rfl, ht⟩
  cases heq : t.get uv with
  | ok p =>
    simp only [step, heq]
    exact ⟨d, rfl, ht⟩
  | error e =>
    simp only [step, heq]
    exact ⟨d, rfl, ht⟩

/-- A release leaves both sides behind, if the device was newer. -/
theorem released_bothStale (ht : ¬ t.BothStale) :
    t.released.BothStale ↔ t.hostStale = true ∧ t.surface ≠ none := by
  rcases Option.eq_none_or_eq_some t.surface with hs | ⟨h, hs⟩
  · rw [released_of_none hs, hs]
    simpa using ht
  · simp [released, hs, BothStale]

end Texture

/-! ## The machine -/

namespace Machine

variable {α : Type}

/-- A texture has a property, beside a device in host memory. -/
def Has (r : TextureRef) (P : Texture → Prop) (m : Machine) : Prop :=
  ∃ d, m.device = .host d ∧ P (m.memory.texture r)

/-- A use of the texture itself keeps what it keeps. -/
theorem keeps_has_onTexture_self {a : Action (Texture × Device) α}
    (hown : Keeps (OnHost P) a) : Keeps (Has r P) (onTexture r a) := by
  rintro ⟨m, device⟩ ⟨d, rfl, ht⟩
  obtain ⟨d', hd', hP⟩ := hown (m.texture r, .host d) ⟨d, rfl, ht⟩
  refine ⟨d', hd', ?_⟩
  show P ((m.setTexture r _).texture r)
  rw [texture_setTexture]
  split
  next => exact hP
  next => exact ht

/-- An exchange of any texture keeps a property of one. -/
theorem keeps_has_onTexture {a : Action (Texture × Device) α} (r' : TextureRef)
    (hown : Keeps (OnHost P) a) (hothers : ∀ t d, Exchanged t d (a (t, .host d)).state) :
    Keeps (Has r P) (onTexture r' a) := by
  by_cases hr : r = r'
  · exact hr ▸ keeps_has_onTexture_self hown
  · rintro ⟨m, device⟩ ⟨d, rfl, ht⟩
    obtain ⟨t', d', hstate, -⟩ := hothers (m.texture r') d
    simp only [onTexture, zoom, hstate]
    refine ⟨d', rfl, ?_⟩
    show P ((m.setTexture r' t').texture r)
    rw [texture_setTexture, if_neg fun h => hr h.1]
    exact ht

/-- A quiet use of the device touches no texture. -/
theorem keeps_has_onDevice {a : Action Device α} (ha : Device.IsQuiet a) :
    Keeps (Has r P) (onDevice a) := by
  rintro ⟨m, device⟩ ⟨d, rfl, ht⟩
  obtain ⟨d', hstate, -⟩ := ha d
  exact ⟨d', hstate, ht⟩

end Machine

/-- A transfer of a buffer touches no texture. -/
theorem BufferBinding.keeps_has {α : Type} {a : Action (BufferBinding × Machine) α}
    (ha : ∀ b m d, Transferred b m d (a (b, ⟨m, .host d⟩)).state) :
    Keeps (fun s : BufferBinding × Machine => s.2.Has r P) a := by
  rintro ⟨b, ⟨m, device⟩⟩ ⟨d, rfl, ht⟩
  obtain ⟨b', m', d', hstate, htransfer⟩ := ha b m d
  rw [hstate]
  refine ⟨d', rfl, ?_⟩
  rw [texture_congr htransfer.textures]
  exact ht

/-! ## The dispatch on the device -/

namespace Bench

/-- The same, with the device attached. -/
def Has (r : TextureRef) (P : Texture → Prop) (s : Bench K) : Prop :=
  ∃ d, s.device = some (.host d) ∧ P (s.memory.texture r)

/-- A weaker property holds, too. -/
theorem Has.mono {Q : Texture → Prop} {s : Bench K} (h : s.Has r P) (hPQ : ∀ t, P t → Q t) :
    s.Has r Q := by
  obtain ⟨d, hd, ht⟩ := h
  exact ⟨d, hd, hPQ _ ht⟩

/-- A use of the device keeps it. -/
theorem keeps_has_withDevice {α : Type} {a : Action (Dispatcher K × Machine) α}
    (ha : Keeps (fun s : Dispatcher K × Machine => s.2.Has r P) a) :
    Keeps (Has r P) (withDevice a) := by
  rintro ⟨d, m, device⟩ ⟨host, rfl, ht⟩
  obtain ⟨host', hhost', ht'⟩ := ha (d, ⟨m, .host host⟩) ⟨host, rfl, ht⟩
  exact ⟨host', congrArg some hhost', ht'⟩

/-- Presenting a texture makes the device the newer side of it. -/
theorem keeps_clear_presentTexture (entry : Nat) (slot : String) (r' : TextureRef) :
    Keeps (Machine.Has r fun t => ¬ t.BothStale) (Table.presentTexture entry slot r') := by
  refine bind
    (keeps_has_onTexture r' keeps_clear_toDevice exchanged_toDevice) fun h => ?_
  refine (keeps_has_onDevice (Device.isQuiet_bindTexture entry slot h)).bind fun _ => ?_
  refine keeps_has_onTexture r' ?_ (exchanged_change fun _ => ⟨rfl, rfl, rfl⟩)
  exact keeps_onHost_change fun _ _ => not_bothStale_of_device rfl

/-- A dispatch on the device leaves one side behind at most. -/
theorem keeps_clear_dispatchHardware (entry : Nat) (groups : Uint3) :
    Keeps (Has r fun t => ¬ t.BothStale)
    (dispatchHardware entry groups : Action (Bench K) Unit) := by
  refine (keeps_examine _).bind fun point => keeps_has_withDevice ?_
  refine Action.keeps_get.bind fun s => (keeps_ofExcept _).bind fun _ => bind ?_ fun _ => ?_
  · rintro ⟨d, m⟩ hm
    refine bind (I := fun s : Table × Machine => s.2.Has r fun t => ¬ t.BothStale)
      (Table.keeps_presentBuffers fun slot => ?_)
      (fun _ => (Table.keeps_presentTextures (keeps_clear_presentTexture entry)).bind fun _ =>
        (keeps_report _).bind fun _ => ?_) (d.table entry, m) hm
    · refine (BufferBinding.keeps_has BufferBinding.transferred_toDevice).bind fun h => ?_
      exact fun s hs => keeps_has_onDevice (Device.isQuiet_bindBuffer entry slot h) s.2 hs
    · exact fun s hs => keeps_has_onDevice (Device.isQuiet_dispatch entry groups) s.2 hs
  · exact keeps_modify fun s hs => hs

end Bench

/-! ## The emulated dispatch -/

/-- A body runs on the host: it leaves the flags of a texture, or makes the host the newer side. -/
def EntryPoint.OnHost (point : EntryPoint K) : Prop :=
  ∀ id (s : Scene K) r,
    ((point.body id s).state.memory.texture r).hostStale = (s.memory.texture r).hostStale ∧
      ((point.body id s).state.memory.texture r).deviceStale = (s.memory.texture r).deviceStale ∨
    ((point.body id s).state.memory.texture r).hostStale = false

/-- A body that writes texels runs on the host. -/
theorem EntryPoint.Writes.onHost {point : EntryPoint K} {writes : Uint3 → Scene K → List TexelWrite}
    (h : point.Writes writes) : point.OnHost := by
  intro id s r
  rw [texture_congr (h.textures id s)]
  refine List.foldlRecOn (writes id s) Memory.write (motive := fun m =>
    (m.texture r).hostStale = (s.memory.texture r).hostStale ∧
      (m.texture r).deviceStale = (s.memory.texture r).deviceStale ∨
      (m.texture r).hostStale = false)
    (.inl ⟨rfl, rfl⟩) fun m hm w _ => ?_
  rw [Memory.write, modifyTexture_eq, texture_setTexture]
  split
  next => exact .inr rfl
  next => exact hm

namespace Bench

variable {s : Bench K}

/-- A texture may be changed if that keeps the property. -/
theorem keeps_has_changeTexture {r' : TextureRef} {f : Texture → Texture}
    (hf : r = r' → ∀ t, P t → P (f t)) :
    Keeps (Has r P) (changeTexture r' f : Action (Bench K) Unit) := by
  rintro s ⟨d, hd, ht⟩
  refine ⟨d, hd, ?_⟩
  show P ((s.memory.modifyTexture r' f).texture r)
  rw [modifyTexture_eq, texture_setTexture]
  split
  next h => exact h.1 ▸ hf h.1 _ ht
  next => exact ht

/-- A texture that was changed has what that gives. -/
theorem has_changeTexture {f : Texture → Texture} {Q : Texture → Prop} (hf : ∀ t, Q (f t))
    (hdefault : Q default) (hs : s.Has r P) : (changeTexture r f s).state.Has r Q := by
  obtain ⟨d, hd, -⟩ := hs
  refine ⟨d, hd, ?_⟩
  show Q ((s.memory.modifyTexture r f).texture r)
  rw [modifyTexture_eq, texture_setTexture]
  split
  next => exact hf _
  next h =>
    rw [texture_of_le (Nat.le_of_not_lt fun hlt => h ⟨rfl, hlt⟩)]
    exact hdefault

/-- Fetching keeps what a transfer keeps. -/
theorem keeps_has_fetchTexture (hown : Keeps (OnHost P) Texture.toHost) (r' : TextureRef) :
    Keeps (Has r P) (fetchTexture r' : Action (Bench K) Unit) := by
  rintro ⟨d, m, device⟩ ⟨host, rfl, ht⟩
  obtain ⟨host', hhost', ht'⟩ := keeps_has_onTexture r' hown exchanged_toHost ⟨m, .host host⟩
    ⟨host, rfl, ht⟩
  exact ⟨host', congrArg some hhost', ht'⟩

/-- Making a texture ready for the lanes keeps a property. -/
theorem keeps_has_enterTexture (hown : Keeps (OnHost P) Texture.toHost)
    (hP : ∀ t : Texture, t.HostNewer → P t) (slot : String) (r' : TextureRef) :
    Keeps (Has r P) (enterTexture slot r' : Action (Bench K) Unit) :=
  (keeps_bindTextureField (fun _ _ h => h) slot r').bind fun _ =>
      (keeps_has_fetchTexture hown r').bind fun _ =>
    keeps_has_changeTexture fun _ t _ => hP t.hintHost ⟨rfl, rfl⟩

/-- Making the texture ready makes the host newer. -/
theorem enterTexture_newer (hown : Keeps (OnHost P) Texture.toHost) (slot : String)
    (hs : s.Has r P) :
    (enterTexture slot r s).Meets (fun _ s => s.Has r HostNewer) (fun s => s.Has r P) := by
  refine meets_bind ((keeps_bindTextureField (fun _ _ h => h) slot r).meets hs) fun _ s hs => ?_
  refine meets_bind ((keeps_has_fetchTexture hown r).meets hs) fun _ s hs => ?_
  exact has_changeTexture (f := Texture.hintHost) (Q := HostNewer) (fun _ => ⟨rfl, rfl⟩)
    ⟨rfl, rfl⟩ hs

/-- Then the host is the newer side of what is bound. -/
theorem enter_newer (hown : Keeps (OnHost P) Texture.toHost) (hP : ∀ t : Texture, t.HostNewer → P t)
    {table : Table} (hr : r ∈ table.refs) (hs : s.Has r P) :
    (enter table s).Meets (fun _ s => s.Has r HostNewer) (fun s => s.Has r P) := by
  obtain ⟨⟨slot, r⟩, hmem, rfl⟩ := List.mem_map.1 hr
  refine meets_bind ((Keeps.forEach fun p _ =>
    keeps_bindBufferField (fun _ _ h => h) p.1 p.2.buffer).meets hs) fun _ s hs => ?_
  refine meets_forEach hmem (fun p _ => keeps_has_enterTexture hown hP p.1 p.2) (fun p _ s hs => ?_)
    (fun s hs => enterTexture_newer hown slot hs) hs
  have hkeeps := keeps_has_enterTexture (r := r) (K := K) keeps_newer_toHost (fun _ h => h) p.1 p.2
  exact (hkeeps.meets hs).mono_broken fun _ h => h.mono hP

/-- The lanes keep what each call of the body keeps. -/
theorem keeps_has_lanes {point : EntryPoint K}
    (hbody : ∀ id (s : Scene K), P (s.memory.texture r) →
    P ((point.body id s).state.memory.texture r)) (groups grid : Uint3) :
    Keeps (Has r P) (runGrid point groups grid) := by
  have hlanes : Keeps (fun s : Scene K => P (s.memory.texture r)) (runLanes point groups) :=
    .forEach fun v _ => (keeps_ofExcept _).bind hbody
  rw [runGrid]
  split
  next => exact keeps_report _
  next =>
    refine (keeps_report _).bind fun _ => ?_
    rintro s ⟨d, hd, ht⟩
    exact ⟨d, hd, hlanes ⟨s.dispatcher.kernel, s.memory⟩ ht⟩

/-- The lanes keep what holds while the host is not behind. -/
theorem keeps_has_runGrid {point : EntryPoint K} (hbody : point.OnHost) (groups grid : Uint3)
    (hP : ∀ t : Texture, t.hostStale = false → P t)
    (hflags : ∀ t t' : Texture, P t → t'.hostStale = t.hostStale →
    t'.deviceStale = t.deviceStale → P t') :
    Keeps (Has r P) (runGrid point groups grid) :=
  keeps_has_lanes (fun id s hs => (hbody id s r).elim (fun h => hflags _ _ hs h.1 h.2)
    (hP _)) groups grid

/-- What comes after keeps what committing keeps. -/
theorem keeps_has_leave {table : Table} (hcommit : r ∈ table.refs → ∀ t, P t → P t.applyHostChanges)
    (entry : Nat) :
    Keeps (Has r P) (leave entry table : Action (Bench K) Unit) := by
  refine bind (.forEach fun p hp => keeps_has_changeTexture fun hr => ?_) fun _ =>
    bind (keeps_modify fun _ hs => hs) fun _ => keeps_modify fun _ hs => hs
  exact hcommit (hr ▸ List.mem_map.2 ⟨p, hp, rfl⟩)

/-- An emulated dispatch leaves one side behind at most. -/
theorem clear_dispatchEmulated {entry : Nat} (groups : Uint3) (hs : s.Has r fun t => ¬ t.BothStale)
    (hbody : ∀ point, s.dispatcher.layout.entry entry = .ok point → point.OnHost) :
    (dispatchEmulated entry groups s).state.Has r fun t => ¬ t.BothStale := by
  have hnewer : ∀ t : Texture, t.HostNewer → ¬ t.BothStale := fun _ ht => not_bothStale_of_host ht.1
  rcases dispatchEmulated_refused_or entry groups s with ⟨e, heq⟩ | ⟨point, grid, hpoint, heq⟩
  · rw [heq]
    exact hs
  · rw [heq]
    have hbody := hbody point hpoint
    refine Outcome.Meets.state (I := Has r fun t => ¬ t.BothStale) ?_
    by_cases hr : r ∈ (s.dispatcher.table entry).refs
    · -- The host of a bound texture is not behind from the first lane on, so committing its texels
      -- does no harm.
      have hrun := keeps_has_runGrid (r := r) (P := fun t => t.hostStale = false) hbody groups grid
        (fun _ h => h) fun _ _ ht hhost _ => hhost.trans ht
      refine meets_bind (enter_newer keeps_clear_toHost hnewer hr hs) fun _ s hs => ?_
      have hs := hs.mono fun _ ht => ht.1
      refine (Outcome.Meets.of_state (bind hrun (fun _ => keeps_has_leave ?_ entry) s hs)).mono
        (fun _ _ h => h.mono fun _ => not_bothStale_of_host)
        fun _ h => h.mono fun _ => not_bothStale_of_host
      exact fun _ t ht => ht
    · have henter : Keeps (Has r fun t => ¬ t.BothStale)
          (enter (s.dispatcher.table entry) : Action (Bench K) Unit) := by
        refine bind (.forEach fun p _ => keeps_bindBufferField (fun _ _ h => h)
            p.1 p.2.buffer) fun _ =>
          .forEach fun p _ => keeps_has_enterTexture keeps_clear_toHost hnewer p.1 p.2
      have hrun := keeps_has_runGrid (r := r) (P := fun t => ¬ t.BothStale) hbody groups grid
        (fun _ => not_bothStale_of_host)
        fun _ _ ht hhost hdevice => (not_congr (bothStale_congr hhost hdevice)).2 ht
      refine .of_state (bind henter (fun _ => hrun.bind fun _ => keeps_has_leave ?_ entry) s hs)
      exact fun hbound => absurd hbound hr

end Bench

/-! ## Uses of a texture -/

/-- A use of a texture, also a careless one. -/
inductive TextureUse : Type 1 where
  | heeding (op : TextureOp)
  /-- A texel is written on the host. -/
  | set (uv : Uint2) (value : Float4)
  | hintHost
  | hintDevice
  /-- The texels of the host are committed. -/
  | commit
  | release
  /-- A dispatcher is disposed of, in whatever state it is. -/
  | dispose {K : Type} (dispatcher : Dispatcher K)

namespace TextureUse

/-- The machine after a use of the texture. -/
def run (r : TextureRef) : TextureUse → Machine → Machine
  | .heeding op, m => op.run r m
  | .set uv value, m =>
    match (m.memory.texture r).set uv value with
    | .ok t => { m with memory := m.memory.setTexture r t }
    | .error _ => m
  | .hintHost, m => (Machine.onTexture r (Texture.change Texture.hintHost) m).state
  | .hintDevice, m => (Machine.onTexture r (Texture.change Texture.hintDevice) m).state
  | .commit, m => (Machine.onTexture r (Texture.change applyHostChanges) m).state
  | .release, m => (Machine.onTexture r Texture.release m).state
  | .dispose d, m => (Bench.dispose (d.on m)).state.machine

/-- The machine after a list of uses. -/
def runAll (r : TextureRef) (uses : List TextureUse) (m : Machine) : Machine :=
  uses.foldl (fun m use => use.run r m) m

/-- The body of an emulated dispatch runs on the host. -/
def Lawful : TextureUse → Prop
  | .heeding (.emulated d entry _ _) => ∀ point, d.layout.entry entry = .ok point → point.OnHost
  | _ => True

/-- A commit or release while the device is newer. -/
def Careless (r : TextureRef) : TextureUse → Machine → Prop
  | .commit, m => (m.memory.texture r).hostStale = true
  | .release, m => (m.memory.texture r).hostStale = true ∧ (m.memory.texture r).surface ≠ none
  | .dispose d, m =>
    d.Binds r ∧ (m.memory.texture r).hostStale = true ∧ (m.memory.texture r).surface ≠ none
  | _, _ => False

end TextureUse

/-! ## The step and the run -/

/-- A machine has what the dispatcher left there. -/
theorem Bench.Has.machine {s : Bench K} (hs : s.Has r P) : s.machine.Has r P := by
  obtain ⟨d, hd, ht⟩ := hs
  exact ⟨d, by rw [Bench.machine, hd]; rfl, ht⟩

/-- A dispatcher works on such a machine. -/
theorem Machine.Has.on (hm : m.Has r P) (d : Dispatcher K) : (d.on m).Has r P := by
  obtain ⟨host, hhost, ht⟩ := hm
  exact ⟨host, congrArg some hhost, ht⟩

/-- A kernel's write to the surface changes no flag. -/
theorem Machine.Has.writeSurface (hm : m.Has r P) (w : Uint2 × Float4) :
    (m.writeSurface r w).Has r P := by
  obtain ⟨d, hd, ht⟩ := hm
  rw [Machine.writeSurface]
  split
  next =>
    split
    next => exact ⟨_, rfl, ht⟩
    next => exact ⟨d, hd, ht⟩
  next => exact ⟨d, hd, ht⟩

/-- A use that is not careless leaves one side behind at most. -/
theorem TextureOp.run_clear (hm : m.Has r fun t => ¬ t.BothStale) (op : TextureOp)
    (hop : (TextureUse.heeding op).Lawful) : (op.run r m).Has r fun t => ¬ t.BothStale := by
  cases op with
  | write uv value => exact keeps_has_onTexture_self (keeps_clear_writePixel uv value) m hm
  | read uv => exact keeps_has_onTexture_self (keeps_clear_readPixel uv) m hm
  | toDevice => exact keeps_has_onTexture_self keeps_clear_toDevice m hm
  | toHost => exact keeps_has_onTexture_self keeps_clear_toHost m hm
  | hardware d entry groups kernel =>
    have hdispatch := (Bench.keeps_clear_dispatchHardware entry groups _ (hm.on d)).machine
    simp only [run]
    split
    next => exact List.foldlRecOn kernel _ hdispatch fun _ h w _ => h.writeSurface w
    next => exact hdispatch
  | emulated d entry groups writes =>
    exact (Bench.clear_dispatchEmulated groups (hm.on d) hop).machine

namespace TextureUse

/-- **The step.** From one side behind at most, a use leads to both exactly when it was careless. -/
theorem run_bothStale {m : Machine} (hm : m.Has r fun t => ¬ t.BothStale) (use : TextureUse)
    (huse : use.Lawful) :
    (∃ d, (use.run r m).device = .host d) ∧
      (((use.run r m).memory.texture r).BothStale ↔ use.Careless r m) := by
  have hclear : ∀ {m' : Machine}, (m'.Has r fun t => ¬ t.BothStale) →
      (∃ d, m'.device = .host d) ∧ ((m'.memory.texture r).BothStale ↔ False) := by
    rintro m' ⟨d, hd, ht⟩
    exact ⟨⟨d, hd⟩, iff_of_false ht id⟩
  cases use with
  | heeding op => exact hclear (op.run_clear hm huse)
  | set uv value =>
    refine hclear ?_
    obtain ⟨d, hd, ht⟩ := hm
    rcases (m.memory.texture r).set_cases uv value with ⟨t, heq, hhost⟩ | ⟨e, heq⟩
    · simp only [run, heq]
      refine ⟨d, hd, ?_⟩
      show ¬ ((m.memory.setTexture r t).texture r).BothStale
      rw [texture_setTexture]
      split
      next => exact not_bothStale_of_host hhost
      next => exact ht
    · simp only [run, heq]
      exact ⟨d, hd, ht⟩
  | hintHost =>
    refine hclear (keeps_has_onTexture_self (keeps_onHost_change fun _ _ => ?_) m hm)
    exact not_bothStale_of_host rfl
  | hintDevice =>
    refine hclear (keeps_has_onTexture_self (keeps_onHost_change fun _ _ => ?_) m hm)
    exact not_bothStale_of_device rfl
  | commit =>
    obtain ⟨d, hd, ht⟩ := hm
    refine ⟨⟨d, hd⟩, ?_⟩
    show ((m.memory.setTexture r _).texture r).BothStale ↔ (m.memory.texture r).hostStale = true
    rw [texture_setTexture]
    split
    next => exact and_iff_left rfl
    next hnot =>
      -- There is no such texture, and none is behind.
      rw [texture_of_le (Nat.le_of_not_lt fun hlt => hnot ⟨rfl, hlt⟩)]
      decide
  | release =>
    obtain ⟨memory, device⟩ := m
    obtain ⟨d, rfl, ht⟩ := hm
    obtain ⟨d', heq, -⟩ := release_eq (memory.texture r) d
    simp only [run, Machine.onTexture, zoom, heq]
    refine ⟨⟨d', rfl⟩, ?_⟩
    rw [texture_setTexture_released, if_pos rfl]
    exact released_bothStale ht
  | dispose dispatcher =>
    obtain ⟨d, hd, ht⟩ := hm.on dispatcher
    obtain ⟨d', -, hd', -, hbound, hothers⟩ := Bench.dispose_spec hd
    have hdevice : (Bench.dispose (dispatcher.on m)).state.machine.device = .host d' := by
      rw [Bench.machine, hd']
      rfl
    refine ⟨⟨d', hdevice⟩, ?_⟩
    show ((Bench.dispose (dispatcher.on m)).state.memory.texture r).BothStale ↔
      dispatcher.Binds r ∧ _
    by_cases hr : dispatcher.Binds r
    · rw [hbound r hr, released_bothStale ht]
      exact (and_iff_right hr).symm
    · rw [hothers r hr]
      exact iff_of_false ht fun h => hr h.1

end TextureUse

/-- Whatever is done with a texture, by whichever dispatchers: at no time are both sides behind,
exactly when no use commits the host's texels or releases the surface while the device is the newer
side. -/
theorem flags_exclusive_iff_careful {m : Machine} {d : HostDevice} (hd : m.device = .host d)
    (hm : ¬ (m.memory.texture r).BothStale) (uses : List TextureUse)
    (huses : ∀ use ∈ uses, use.Lawful) :
    (∀ n, ¬ ((TextureUse.runAll r (uses.take n) m).memory.texture r).BothStale) ↔
      ∀ (n : Nat) (use : TextureUse), uses[n]? = some use →
        ¬ use.Careless r (TextureUse.runAll r (uses.take n) m) := by
  induction uses generalizing m d with
  | nil =>
    refine iff_of_true (fun n => ?_) fun n use huse => nomatch huse
    rw [List.take_nil]
    exact hm
  | cons use uses ih =>
    obtain ⟨⟨d', hd'⟩, hstep⟩ := TextureUse.run_bothStale ⟨d, hd, hm⟩ use (huses use (.head _))
    refine Nat.and_forall_add_one.symm.trans (Iff.trans ?_ Nat.and_forall_add_one)
    by_cases hfirst : ((use.run r m).memory.texture r).BothStale
    · -- The first use was careless, and its mark shows before the second one.
      exact iff_of_false (fun h => h.2 0 hfirst) fun h => h.1 use rfl (hstep.1 hfirst)
    · refine and_congr (iff_of_true hm ?_)
        (ih hd' hfirst fun use' hmem => huses use' (.tail _ hmem))
      rintro _ ⟨rfl⟩ hcareless
      exact hfirst (hstep.2 hcareless)

namespace Easel

/-- A kernel paints the canvas, and the dispatcher goes. -/
def abandoned : List TextureUse :=
  [.heeding (.hardware dispatcher 0 ⟨1, 1, 1⟩ []), .dispose dispatcher]

/-- The same, with a kernel on the host, and a read. -/
def collected : List TextureUse :=
  [.heeding (.emulated dispatcher 0 ⟨1, 1, 1⟩ Workbench.Body.brighten.writes), .commit,
    .heeding (.hardware dispatcher 0 ⟨1, 1, 1⟩ []), .heeding (.read ⟨0, 0⟩), .dispose dispatcher]

end Easel

/-- Both sides are behind when a dispatcher goes right after its dispatch. -/
theorem abandoned_canvas_bothStale :
    ((TextureUse.runAll ⟨0⟩ Easel.abandoned Easel.machine).memory.texture ⟨0⟩).BothStale := by
  decide +kernel

/-- Where the host reads what the device has painted, the dispatcher may go. -/
theorem collected_canvas_exclusive :
    ¬ Easel.canvas.BothStale ∧
      ∀ n, ¬ ((TextureUse.runAll ⟨0⟩ (Easel.collected.take n) Easel.machine).memory.texture
        ⟨0⟩).BothStale := by
  have huses : ∀ use ∈ Easel.collected, use.Lawful := by
    intro use huse
    simp only [Easel.collected, List.mem_cons, List.not_mem_nil, or_false] at huse
    rcases huse with rfl | rfl | rfl | rfl | rfl
    · intro point hpoint
      cases hpoint
      exact (Workbench.Body.run_writes .brighten rfl).onHost
    all_goals exact trivial
  have hcanvas : ¬ Easel.canvas.BothStale := by decide
  have hiff := flags_exclusive_iff_careful (r := ⟨0⟩) (m := Easel.machine)
    rfl hcanvas Easel.collected huses
  refine ⟨hcanvas, hiff.2 ?_⟩
  rintro (_ | _ | _ | _ | _ | n) use huse <;> cases huse
  · exact id
  · exact fun h : hostStale _ = true => absurd h (by decide +kernel)
  · exact id
  · exact id
  · exact fun h => absurd h.2.1 (by decide +kernel)

end ComputeKernel
