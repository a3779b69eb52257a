import ComputeKernel.Proofs.Dispatch.Listing

/-!
# What a dispatch on the device does

A dispatch on the device first presents what is bound to its entry point. A copy that is behind is
sent, and this is counted; any other copy is left as it is, with what a kernel has written to it
(`BufferBinding.Refreshed`, `HostDevice.Sends`). Then textures get their surfaces, which touches no
buffer and no texel on the host (`HostDevice.Paints`). At last the device records the dispatch with
all that it has bound for the entry point. That this is what stands in the table rests on what was
bound in all dispatches before (`Bench.Alone.tidy`).
-/

namespace ComputeKernel

open HostDevice Table Dispatcher
open ComputeKernel.Action Machine Texture Keyed BenchOp

variable {K : Type}

/-- A success is all that matters. -/
theorem Outcome.meets_iff {σ α : Type} {o : Outcome σ α} {post : α → σ → Prop} :
    (o.Meets post fun _ => True) ↔ ∀ a, o.result = .ok a → post a o.state := by
  constructor
  · exact fun h a ha => h.of_ok ha
  · intro h
    unfold Outcome.Meets
    cases hr : o.result with
    | ok a => exact h a hr
    | error e => trivial

/-! ## Buffers -/

namespace BufferBinding

/-- The binding after its copy was made current, with no mark. -/
structure Refreshed (m : Memory) (b b' : BufferBinding) : Prop where
  buffer : b'.buffer = b.buffer
  clean : b'.dirty = false
  same : ¬ b.Behind m → b' = b

/-- What presenting a buffer sends. -/
theorem present_sends (entry : Nat) (slot : String) (b : BufferBinding) (m : Memory)
    (d : HostDevice) :
    (present entry slot (b, ⟨m, .host d⟩)).Meets
      (fun _ s => ∃ b' d', s = (b', ⟨m, .host d'⟩) ∧ b.Refreshed m b' ∧
      d.Sends (if b.Behind m then 1 else 0) d')
      fun _ => True := by
  refine meets_bind ((toDevice_spec b m d).mono_broken fun _ _ => trivial) ?_
  rintro h _ ⟨b', d', rfl, htransfer, -, hclean, hcases⟩
  have hsent : b.Refreshed m b' ∧ d.Sends (if b.Behind m then 1 else 0) d' := by
    rcases hcases with ⟨hbehind, hsends, -⟩ | ⟨hnot, rfl, rfl⟩
    · exact ⟨⟨htransfer.buffer, hclean, absurd hbehind⟩, by rwa [if_pos hbehind]⟩
    · exact ⟨⟨rfl, hclean, fun _ => rfl⟩, by rw [if_neg hnot]; exact .refl _⟩
  obtain ⟨hrefreshed, hsends⟩ := hsent
  rcases d'.bindBuffer_cases entry slot h with ⟨-, -, heq⟩ | ⟨e, heq⟩
  · simp only [onDevice_apply, heq]
    exact ⟨b', _, rfl, hrefreshed, hsends.trans (.setBindings d' entry _)⟩
  · simp only [onDevice_apply, heq]
    trivial

/-- **Presenting all buffers** sends those that are behind. -/
theorem presentAll_sends (entry : Nat) (m : Memory) :
    ∀ (entries : List (String × BufferBinding)) (d : HostDevice),
    (onValues (present entry) entries ⟨m, .host d⟩).Meets
      (fun _ s => ∃ d', s.2 = ⟨m, .host d'⟩ ∧ d.Sends (entries.countP fun p => p.2.Behind m) d' ∧
        List.Forall₂ (fun p p' => p'.1 = p.1 ∧ p.2.Refreshed m p'.2) entries s.1)
      fun _ => True
  | [], d => ⟨d, rfl, .refl d, .nil⟩
  | (slot, b) :: rest, d => by
    refine meets_onValues_cons ((present_sends entry slot b m d).mono ?_ fun _ _ => trivial)
    rintro _ _ ⟨b', d', rfl, hrefreshed, hsends⟩
    refine (presentAll_sends entry m rest d').mono ?_ fun _ _ => trivial
    rintro _ ⟨rest', _⟩ ⟨d'', rfl, hsends', hall⟩
    refine ⟨d'', rfl, ?_, .cons ⟨rfl, hrefreshed⟩ hall⟩
    rw [List.countP_cons, Nat.add_comm]
    simpa using hsends.trans hsends'

end BufferBinding

/-! ## Textures -/

/-- Surfaces were made and written, and nothing else was done. -/
structure HostDevice.Paints (d d' : HostDevice) : Prop where
  buffers : d'.buffers = d.buffers
  bound : d'.bound = d.bound
  log : d'.log = d.log
  uploads : d'.stats.uploads = d.stats.uploads

/-- And so for two steps. -/
theorem HostDevice.Paints.trans {d d' d'' : HostDevice} (h : d.Paints d') (h' : d'.Paints d'') :
    d.Paints d'' :=
  ⟨h'.buffers.trans h.buffers, h'.bound.trans h.bound, h'.log.trans h.log,
    h'.uploads.trans h.uploads⟩

namespace Texture

variable (t : Texture)
variable (d : HostDevice)

/-- A texture after its surface was made current: the host's texels are as they were, and so is a
surface that was there. -/
def Painted (s : Texture × Device) : Prop :=
  ∃ u d', s = (u, .host d') ∧ d.Paints d' ∧ u.pixels = t.pixels ∧
    ∀ h, t.surface = some h → u.surface = some h

/-- A change that keeps texels and surface. -/
theorem painted_change {f : Texture → Texture}
    (hf : ∀ u, (f u).pixels = u.pixels ∧ (f u).surface = u.surface) (t : Texture) (d : HostDevice) :
    Painted t d (change f (t, .host d)).state :=
  ⟨f t, d, rfl, ⟨rfl, rfl, rfl, rfl⟩, (hf t).1, fun _ hs => (hf t).2.trans hs⟩

/-- A surface is made or was there. -/
theorem ensureSurface_painted :
    (ensureSurface (t, .host d)).Meets (fun h s => Painted t d s ∧ s.1.surface = some h)
      (Painted t d) := by
  cases hs : t.surface with
  | some h =>
    rw [ensureSurface_of_some hs]
    exact ⟨⟨t, d, rfl, ⟨rfl, rfl, rfl, rfl⟩, rfl, fun _ h => h⟩, hs⟩
  | none =>
    rw [ensureSurface_of_none d hs]
    exact ⟨⟨_, _, rfl, ⟨rfl, rfl, rfl, rfl⟩, rfl, fun _ h => by cases hs.symm.trans h⟩, rfl⟩

/-- A change keeps what is painted. -/
theorem keeps_painted_change {f : Texture → Texture}
    (hf : ∀ u, (f u).pixels = u.pixels ∧ (f u).surface = u.surface) {t : Texture} {d : HostDevice}
    {h : SurfaceHandle} :
    Keeps (fun s => Painted t d s ∧ s.1.surface = some h) (change f) := by
  rintro _ ⟨⟨u, d', rfl, hpaints, hpixels, hsurface⟩, hs⟩
  exact ⟨⟨f u, d', rfl, hpaints, (hf u).1.trans hpixels,
    fun h hh => (hf u).2.trans (hsurface h hh)⟩, (hf u).2.trans hs⟩

/-- So does sending texels. -/
theorem keeps_painted_blit {t : Texture} {d : HostDevice} {h : SurfaceHandle}
    (pixels : Array Float4) :
    Keeps (fun s => Painted t d s ∧ s.1.surface = some h) (onDevice (Device.blit h pixels)) := by
  rintro _ ⟨⟨u, d', rfl, hpaints, hpixels, hsurface⟩, hs⟩
  rcases d'.blit_cases h pixels with ⟨surface, -, hblit⟩ | ⟨-, e, hblit⟩
  · simp only [onDevice, zoom, hblit]
    exact ⟨⟨u, _, rfl, hpaints.trans ⟨rfl, rfl, rfl, rfl⟩, hpixels, hsurface⟩, hs⟩
  · simp only [onDevice, zoom, hblit]
    exact ⟨⟨u, d', rfl, hpaints, hpixels, hsurface⟩, hs⟩

/-- Making the surface current paints it. -/
theorem toDevice_painted :
    (toDevice (t, .host d)).Meets (fun h s => Painted t d s ∧ s.1.surface = some h)
      (Painted t d) := by
  refine meets_bind (ensureSurface_painted t d) ?_
  rintro h ⟨u, device⟩ hs
  have hmeets : ∀ (a : Action (Texture × Device) Unit), Keeps (fun s => Painted t d s ∧
    s.1.surface = some h) a →
      ∀ s, Painted t d s ∧ s.1.surface = some h →
        (a s).Meets (fun _ s => Painted t d s ∧ s.1.surface = some h) (Painted t d) :=
    fun a ha s hs => (ha.meets hs).mono_broken fun _ h => h.1
  rw [get_bind]
  dsimp only
  split
  · refine meets_bind (hmeets _ (keeps_painted_change fun _ => by exact ⟨rfl, rfl⟩) _ hs)
      fun _ s hs => ?_
    refine meets_bind (hmeets _ (keeps_report _) s hs) fun _ s hs => ?_
    refine meets_bind (hmeets _ (keeps_painted_blit u.snapshot) s hs) fun _ s hs => ?_
    exact meets_bind (hmeets _ (keeps_painted_change fun _ => by exact ⟨rfl, rfl⟩) s hs)
      fun _ s hs => hs
  · exact hs

/-- It is painted however that ends. -/
theorem painted_toDevice : Painted t d (toDevice (t, .host d)).state :=
  ((toDevice_painted t d).mono (fun _ _ h => h.1) fun _ h => h).state

end Texture

namespace Machine

variable {α : Type} {m₀ : Memory} {d₀ : HostDevice} {entry : Nat} {slot : String} {r : TextureRef}

/-- What presenting textures leaves: buffers and how they are bound, the host's texels, and what was
recorded and sent. -/
structure Undisturbed (m₀ : Memory) (d₀ : HostDevice) (m : Machine) : Prop where
  buffers : m.memory.buffers = m₀.buffers
  size : m.memory.textures.size = m₀.textures.size
  pixels : ∀ r, (m.memory.texture r).pixels = (m₀.texture r).pixels
  device : ∃ d, m.device = .host d ∧ d.buffers = d₀.buffers ∧
    (∀ entry, (d.bindings entry).buffers = (d₀.bindings entry).buffers) ∧
      d.bound.length = d₀.bound.length ∧
    d.log = d₀.log ∧ d.stats.uploads = d₀.stats.uploads

/-- A slot has the surface that the texture has. -/
def ShowsSurface (entry : Nat) (slot : String) (r : TextureRef) (m : Machine) : Prop :=
  ∃ d h, m.device = .host d ∧ (d.bindings entry).textures.get? slot = some h ∧
    (m.memory.texture r).surface = some h

/-- Painting leaves all of this. -/
theorem keeps_undisturbed_onTexture {a : Action (Texture × Device) α} (r : TextureRef)
    (ha : ∀ t d, Painted t d (a (t, .host d)).state) :
    Keeps (Undisturbed m₀ d₀) (onTexture r a) := by
  rintro ⟨m, device⟩ ⟨hbuffers, hsize, hpixels, d, rfl, hblocks, hbound, hlength, hlog, huploads⟩
  obtain ⟨u, d', hstate, hpaints, hsame, -⟩ := ha (m.texture r) d
  simp only [onTexture, zoom, hstate]
  refine ⟨hbuffers, (Array.size_setIfInBounds ..).trans hsize, fun r' => ?_, d', rfl,
    hpaints.buffers.trans hblocks,
    fun entry => ?_, ?_, hpaints.log.trans hlog, hpaints.uploads.trans huploads⟩
  · rw [Memory.texture_setTexture]
    split
    next hr =>
      obtain ⟨rfl, -⟩ := hr
      exact hsame.trans (hpixels r')
    next => exact hpixels r'
  · rw [HostDevice.bindings, hpaints.bound]
    exact hbound entry
  · rw [hpaints.bound, hlength]

/-- Binding a texture leaves it, too. -/
theorem keeps_undisturbed_bindTexture (entry : Nat) (slot : String) (h : SurfaceHandle) :
    Keeps (Undisturbed m₀ d₀) (onDevice (Device.bindTexture entry slot h)) := by
  rintro ⟨m, device⟩ ⟨hbuffers, hsize, hpixels, d, rfl, hblocks, hbound, hlength, hlog, huploads⟩
  rcases d.bindTexture_cases entry slot h with heq | ⟨e, heq⟩
  · simp only [onDevice, zoom, heq]
    refine ⟨hbuffers, hsize, hpixels, _, rfl, hblocks, fun entry' => ?_,
      List.length_set.trans hlength, hlog, huploads⟩
    rw [bindings_setBindings]
    split
    next hentry => exact hentry.1 ▸ hbound entry
    next => exact hbound entry'
  · simp only [onDevice, zoom, heq]
    exact ⟨hbuffers, hsize, hpixels, d, rfl, hblocks, hbound, hlength, hlog, huploads⟩

/-- Presenting a texture leaves buffers and texels. -/
theorem keeps_undisturbed_presentTexture (entry : Nat) (slot : String) (r : TextureRef) :
    Keeps (Undisturbed m₀ d₀) (Table.presentTexture entry slot r) :=
  (keeps_undisturbed_onTexture r painted_toDevice).bind fun h =>
    (keeps_undisturbed_bindTexture entry slot h).bind fun _ =>
      keeps_undisturbed_onTexture r (painted_change fun _ => by exact ⟨rfl, rfl⟩)

/-- Painting leaves what a slot shows. -/
theorem keeps_showsSurface_onTexture {a : Action (Texture × Device) α} (r' : TextureRef)
    (ha : ∀ t d, Painted t d (a (t, .host d)).state) :
    Keeps (ShowsSurface entry slot r) (onTexture r' a) := by
  rintro ⟨m, device⟩ ⟨d, h, rfl, hbound, hsurface⟩
  obtain ⟨u, d', hstate, hpaints, -, hsame⟩ := ha (m.texture r') d
  simp only [onTexture, zoom, hstate]
  refine ⟨d', h, rfl, ?_, ?_⟩
  · rw [HostDevice.bindings, hpaints.bound]
    exact hbound
  · rw [Memory.texture_setTexture]
    split
    next hr =>
      obtain ⟨rfl, -⟩ := hr
      exact hsame h hsurface
    next => exact hsurface

/-- Presenting a texture to another slot leaves the slot. -/
theorem keeps_showsSurface_presentTexture {slot' : String} (hne : slot' ≠ slot) (r' : TextureRef) :
    Keeps (ShowsSurface entry slot r) (Table.presentTexture entry slot' r') := by
  refine (keeps_showsSurface_onTexture r' painted_toDevice).bind fun h' => Keeps.bind ?_ fun _ =>
    keeps_showsSurface_onTexture r' (painted_change fun _ => by exact ⟨rfl, rfl⟩)
  rintro ⟨m, device⟩ ⟨d, h, rfl, hbound, hsurface⟩
  rcases d.bindTexture_cases entry slot' h' with heq | ⟨e, heq⟩
  · simp only [onDevice, zoom, heq]
    refine ⟨_, h, rfl, ?_, hsurface⟩
    rw [bindings_setBindings]
    split
    next => rw [get?_put_string, if_neg hne.symm, hbound]
    next => exact hbound
  · simp only [onDevice, zoom, heq]
    exact ⟨d, h, rfl, hbound, hsurface⟩

/-- A texture is shown in the slot that it is presented to. -/
theorem presentTexture_showsSurface {m : Machine} (hm : Undisturbed m₀ d₀ m)
    (hentry : entry < d₀.bound.length) (hr : r.index < m₀.textures.size) (slot : String) :
    (Table.presentTexture entry slot r m).Meets (fun _ => ShowsSurface entry slot r)
      fun _ => True := by
  obtain ⟨m, device⟩ := m
  obtain ⟨d, rfl, -, -, hlength, -⟩ := hm.device
  have hlt : r.index < m.textures.size := hm.size ▸ hr
  refine meets_bind (M := fun h m => ∃ d, m.device = .host d ∧ entry < d.bound.length ∧
    (m.memory.texture r).surface = some h) (meets_zoom ?_) ?_
  · refine (toDevice_painted (m.texture r) d).mono ?_ fun _ _ => trivial
    rintro h _ ⟨⟨u, d', rfl, hpaints, -⟩, hsurface⟩
    refine ⟨d', rfl, ?_, ?_⟩
    · rw [hpaints.bound, hlength]
      exact hentry
    · exact (congrArg Texture.surface (Memory.texture_setTexture_self hlt u)).trans hsurface
  · rintro h ⟨m, device⟩ ⟨d, rfl, hbound, hsurface⟩
    refine meets_bind (M := fun _ => ShowsSurface entry slot r) ?_ fun _ m hshows => ?_
    · rcases d.bindTexture_cases entry slot h with heq | ⟨e, heq⟩
      · simp only [onDevice, zoom, heq]
        refine ⟨_, h, rfl, ?_, hsurface⟩
        rw [bindings_setBindings, if_pos ⟨rfl, hbound⟩, get?_put_string, if_pos rfl]
      · simp only [onDevice, zoom, heq]
        trivial
    · refine ((keeps_showsSurface_onTexture r ?_).meets hshows).mono_broken fun _ _ => trivial
      exact painted_change fun _ => by exact ⟨rfl, rfl⟩

end Machine

namespace Table

/-- **Presenting all textures** leaves buffers and texels, and shows each in its slot. -/
theorem presentTextures_shows {entry : Nat} {t : Table} {m : Memory} {d : HostDevice}
    (hordered : Ordered t.textures) (hpresent : ∀ p ∈ t.textures, p.2.index < m.textures.size)
    (hentry : entry < d.bound.length) :
    (presentTextures entry (t, ⟨m, .host d⟩)).Meets
      (fun _ s => s.1 = t ∧ s.2.Undisturbed m d ∧ ∀ p ∈ t.textures, s.2.ShowsSurface entry p.1 p.2)
      fun _ => True := by
  have hstart : Undisturbed m d ⟨m, .host d⟩ :=
    ⟨rfl, rfl, fun _ => rfl, d, rfl, rfl, fun _ => rfl, rfl, rfl, rfl⟩
  rw [Outcome.meets_iff]
  intro u hu
  have hloop : (forEach t.textures (fun p => presentTexture entry p.1 p.2) ⟨m, .host d⟩).result =
    .ok u := hu
  have hkeeps : ∀ p ∈ t.textures, Keeps (Undisturbed m d) (presentTexture entry p.1 p.2) :=
    fun p _ => keeps_undisturbed_presentTexture entry p.1 p.2
  refine ⟨rfl, Keeps.forEach hkeeps _ hstart, ?_⟩
  rintro ⟨slot, r⟩ hp
  have hshown : ∀ s, Undisturbed m d s → (presentTexture entry slot r s).Meets
      (fun _ s => s.Undisturbed m d ∧ s.ShowsSurface entry slot r) (Undisturbed m d) := by
    intro s hs
    have hmeets := (presentTexture_showsSurface hs hentry (hpresent _ hp) slot).and_state
      (I := Undisturbed m d) (hkeeps _ hp s hs)
    exact hmeets.mono (fun _ _ h => ⟨h.2, h.1⟩) fun _ h => h.2
  refine (meets_forEach (J := fun s => s.Undisturbed m d ∧ s.ShowsSurface entry slot r)
    hp hkeeps ?_ hshown hstart).of_ok hloop |>.2
  rintro ⟨slot', r'⟩ hp' s ⟨hs, hshows⟩
  by_cases hslot : slot' = slot
  · -- The texture is presented to the slot again.
    subst hslot
    obtain rfl : r' = r :=
      Option.some.inj ((hordered.mem_iff.1 hp').symm.trans (hordered.mem_iff.1 hp))
    exact hshown s hs
  · have hboth : Keeps (fun s => s.Undisturbed m d ∧ s.ShowsSurface entry slot r)
        (presentTexture entry slot' r') :=
      fun s h => ⟨hkeeps _ hp' s h.1, keeps_showsSurface_presentTexture hslot r' s h.2⟩
    exact (hboth.meets ⟨hs, hshows⟩).mono_broken fun _ h => h.1

end Table

/-! ## The dispatch -/

namespace Dispatcher

variable {d : Dispatcher K} {entry other : Nat}

/-- The other tables are as they were. -/
theorem table_setTable_of_ne (hne : other ≠ entry) (t : Table) :
    (d.setTable entry t).table other = d.table other := by
  rw [table, setTable, List.getElem?_set_ne hne.symm, table]

/-- How other entry points last ran is as it was. -/
theorem lastDispatch_ran_of_ne (hne : other ≠ entry) (path : DispatchPath) :
    (d.ran entry path).lastDispatch other = d.lastDispatch other := by
  rw [lastDispatch, ran, List.getElem?_set_ne hne.symm, lastDispatch]

end Dispatcher

/-- The device after it has recorded a dispatch. -/
def HostDevice.recorded (d : HostDevice) (entry : Nat) (groups : Uint3) : HostDevice :=
  { d with
    log := d.log ++ [{ entry, groups, bindings := d.bindings entry }]
    stats.dispatches := d.stats.dispatches + 1 }

namespace Bench

variable {s : Bench K} {d : HostDevice} {entry : Nat}

/-- Presenting the buffers led to the device `d₁`. -/
structure BuffersPresented (s : Bench K) (d : HostDevice) (entry : Nat) (t : Table)
    (d₁ : HostDevice) : Prop where
  presented : ∀ slot b, (s.dispatcher.table entry).buffers.get? slot = some b →
    Presented s d entry slot b t.buffers ⟨s.memory, .host d₁⟩
  sends : d.Sends ((s.dispatcher.table entry).buffers.countP fun p => p.2.Behind s.memory) d₁
  refreshed : List.Forall₂ (fun p p' => p'.1 = p.1 ∧ p.2.Refreshed s.memory p'.2)
    (s.dispatcher.table entry).buffers t.buffers
  textures : t.textures = (s.dispatcher.table entry).textures

/-- Presenting the textures led to memory `m` and device `d₂`. -/
structure AllPresented (s : Bench K) (d : HostDevice) (entry : Nat) (t : Table) (d₁ : HostDevice)
    (m : Memory) (d₂ : HostDevice) : Prop extends BuffersPresented s d entry t d₁ where
  undisturbed : Undisturbed s.memory d₁ ⟨m, .host d₂⟩
  shown : ∀ p ∈ t.textures, ShowsSurface entry p.1 p.2 ⟨m, .host d₂⟩

/-- What presenting the buffers leads to. -/
theorem presentBuffers_meets (hready : s.Ready) (hkept : s.Kept) (hd : s.device = some (.host d))
    (htable : entry < s.dispatcher.tables.length) :
    (presentBuffers entry (s.dispatcher.table entry, ⟨s.memory, .host d⟩)).Meets
      (fun _ u => ∃ t d₁, u = (t, ⟨s.memory, .host d₁⟩) ∧ s.BuffersPresented d entry t d₁)
        fun _ => True := by
  rw [Outcome.meets_iff]
  intro u hu
  obtain ⟨d₁, hd₁, hsends, hrefreshed⟩ :=
    (BufferBinding.presentAll_sends entry s.memory (s.dispatcher.table entry).buffers d).of_ok hu
  refine ⟨_, d₁, Prod.ext rfl hd₁, fun slot b hb => ?_, hsends, hrefreshed, rfl⟩
  rw [← hd₁]
  exact (meets_presentBuffers hkept hready hd htable hb).of_ok hu

/-- All is presented, and then the dispatch is recorded. -/
theorem presentTable_meets (hready : s.Ready) (hkept : s.Kept) (htidy : s.Tidy)
    (hd : s.device = some (.host d)) (htable : entry < s.dispatcher.tables.length)
    (hentry : entry < d.bound.length) (groups : Uint3) (e : Event) :
    (submit entry groups e (s.dispatcher.table entry, ⟨s.memory, .host d⟩)).Meets
      (fun _ u => ∃ t d₁ m d₂, u = (t, ⟨m, .host (d₂.recorded entry groups)⟩) ∧
      s.AllPresented d entry t d₁ m d₂)
      fun _ => True := by
  refine meets_bind (presentBuffers_meets hready hkept hd htable) ?_
  rintro _ _ ⟨t, d₁, rfl, hbuffers⟩
  have hlength : entry < d₁.bound.length := hbuffers.sends.length ▸ hentry
  refine meets_bind (presentTextures_shows (hbuffers.textures ▸ htidy.ordered entry)
    (hbuffers.textures ▸ htidy.present entry) hlength) ?_
  rintro _ ⟨_, m, device⟩ ⟨ht, hundisturbed, hshown⟩
  rw [← ht] at hbuffers hshown
  obtain ⟨d₂, hd₂, -⟩ := hundisturbed.device
  cases hd₂
  refine meets_bind (M := fun _ u => ((_, ⟨m, .host d₂⟩) : Table × Machine) = u) rfl ?_
  rintro _ _ rfl
  rcases d₂.dispatch_cases entry groups with heq | ⟨e, heq⟩
  · simp only [onMachine, Machine.onDevice, zoom, heq]
    exact ⟨_, d₁, m, d₂, rfl, hbuffers, hundisturbed, hshown⟩
  · simp only [onMachine, Machine.onDevice, zoom, heq]
    trivial

/-- What a dispatch on the device leads to, part by part. -/
theorem dispatchHardware_presents (hready : s.Ready) (hkept : s.Kept) (htidy : s.Tidy)
    (hd : s.device = some (.host d)) (entry : Nat) (groups : Uint3) :
    (dispatchHardware entry groups s).Meets
      (fun _ s' => entry < s.dispatcher.tables.length ∧ ∃ t d₁ m d₂,
        s' = ⟨(s.dispatcher.setTable entry t).ran entry .hardware, m,
        some (.host (d₂.recorded entry groups))⟩ ∧
          s.AllPresented d entry t d₁ m d₂)
      fun _ => True := by
  refine meets_dispatchHardware hd trivial fun point hentry hagree => ?_
  have htable : entry < s.dispatcher.tables.length := hready.tables ▸ (entry_lt hentry).1
  obtain ⟨_, heq, hlength, -⟩ := hkept.apart
  cases hd.symm.trans heq
  have hlt : entry < d.bound.length := hlength ▸ entry_lt_of_findEntry? (agree_eq_ok_iff.1 hagree)
  refine (presentTable_meets hready hkept htidy hd htable hlt groups _).mono ?_ fun _ _ => trivial
  rintro _ _ ⟨t, d₁, m, d₂, rfl, hpresented⟩
  exact ⟨htable, t, d₁, m, d₂, rfl, hpresented⟩

end Bench

/-! ## What was done -/

namespace Bench

variable {s : Bench K} {d d₁ d₂ : HostDevice} {entry : Nat} {t : Table} {m : Memory}

/-- What a dispatch on the device has done. -/
structure Dispatched (entry : Nat) (groups : Uint3) (s s' : Bench K) : Prop where
  /-- Every buffer has a copy that is not marked. It holds the elements of the host if it was
  behind, and else it is the copy that was there, with the bytes that it had. -/
  copies : ∀ slot b, (s.dispatcher.table entry).buffers.get? slot = some b →
    ∃ b' bytes, (s'.dispatcher.table entry).buffers.get? slot = some b' ∧ b'.buffer = b.buffer ∧
      b'.dirty = false ∧ s'.copyBytes? b' = some bytes ∧
        (b.Behind s.memory → bytes = (s.memory.buffer b.buffer).bytes) ∧
      (¬ b.Behind s.memory → b'.copy = b.copy ∧ s.copyBytes? b = some bytes)
  /-- The same resources are bound to the same slots. -/
  bound : (s'.dispatcher.table entry).bound = (s.dispatcher.table entry).bound
  /-- The host keeps its elements and texels. -/
  buffers : s'.memory.buffers = s.memory.buffers
  pixels : ∀ r, (s'.memory.texture r).pixels = (s.memory.texture r).pixels
  /-- The device has counted what was behind, and has recorded what is bound to the entry point,
  slot by slot. -/
  device : ∃ (d d' : HostDevice) (bindings : HostBindings), s.device = some (.host d) ∧
    s'.device = some (.host d') ∧
    d'.stats.uploads =
      d.stats.uploads + (s.dispatcher.table entry).buffers.countP (fun p => p.2.Behind s.memory) ∧
    d'.log = d.log ++ [⟨entry, groups, bindings⟩] ∧ Ordered bindings.buffers ∧
      Ordered bindings.textures ∧
    bindings.buffers.map (fun p => (p.1, some p.2))
      = (s'.dispatcher.table entry).buffers.map (fun p => (p.1, p.2.copy.map DeviceCopy.handle)) ∧
    bindings.textures.map (fun p => (p.1, some p.2))
      = (s'.dispatcher.table entry).textures.map fun p => (p.1, (s'.memory.texture p.2).surface)
  /-- Other entry points are as they were. -/
  others : ∀ other, other ≠ entry → s'.dispatcher.table other = s.dispatcher.table other ∧
    s'.dispatcher.lastDispatch other = s.dispatcher.lastDispatch other

/-- The copy of a buffer after everything was presented. -/
theorem AllPresented.copy (h : s.AllPresented d entry t d₁ m d₂) (hd : s.device = some (.host d))
    (groups : Uint3) {d' : Dispatcher K} {slot : String} {b : BufferBinding}
    (hb : (s.dispatcher.table entry).buffers.get? slot = some b) :
    ∃ b' bytes, t.buffers.get? slot = some b' ∧ b'.buffer = b.buffer ∧ b'.dirty = false ∧
      copyBytes? ⟨d', m, some (.host (d₂.recorded entry groups))⟩ b' = some bytes ∧
      (b.Behind s.memory → bytes = (s.memory.buffer b.buffer).bytes) ∧
      (¬ b.Behind s.memory → b'.copy = b.copy ∧ s.copyBytes? b = some bytes) := by
  obtain ⟨b', hb', hrefreshed⟩ :=
    get?_of_forall₂ (R := BufferBinding.Refreshed s.memory) h.refreshed hb
  obtain ⟨-, -, _, b'', c, block, heq, hb'', hc, -, hblock, hleaves⟩ := h.presented slot b hb
  cases heq
  obtain rfl : b'' = b' := Option.some.inj (hb''.symm.trans hb')
  obtain ⟨_, heq, hblocks, -⟩ := h.undisturbed.device
  cases heq
  have hbytes : (d₂.recorded entry groups).buffers.get? c.handle.id = some block := by
    show d₂.buffers.get? c.handle.id = some block
    rw [hblocks, hblock]
  refine ⟨b'', block.bytes, hb', hrefreshed.buffer, hrefreshed.clean, ?_, fun hbehind => ?_,
    fun hnot => ?_⟩
  · simp [copyBytes?, host?, hc, hbytes]
  · rcases hleaves with ⟨-, rfl⟩ | ⟨hnot, -⟩
    · rfl
    · exact absurd hbehind hnot
  · rcases hleaves with ⟨hbehind, -⟩ | ⟨-, c', hc', hblock'⟩
    · exact absurd hbehind hnot
    · refine ⟨by rw [hrefreshed.same hnot], ?_⟩
      simp [copyBytes?, host?, hd, hc', hblock']

/-- What the device has bound after everything was presented. -/
theorem AllPresented.listed (h : s.AllPresented d entry t d₁ m d₂) (hbuffers : Ordered t.buffers)
    (htextures : Ordered t.textures) (hlisted : (d₂.bindings entry).Listed t.bound) :
    (d₂.bindings entry).buffers.map (fun p => (p.1, some p.2))
        = t.buffers.map (fun p => (p.1, p.2.copy.map DeviceCopy.handle)) ∧
      (d₂.bindings entry).textures.map (fun p => (p.1, some p.2))
        = t.textures.map fun p => (p.1, (m.texture p.2).surface) := by
  constructor
  · refine hlisted.buffersOrdered.map_some_eq hbuffers (f := fun b => b.copy.map DeviceCopy.handle)
      (fun p hp => ?_)
      fun p hp => ?_
    · obtain ⟨r, hr⟩ := hlisted.buffers p hp
      obtain ⟨b, hb, -⟩ := mem_bound_buffer.1 hr
      exact ⟨_, hb, rfl⟩
    · -- A slot of the table had a binding before, and this was presented.
      have hp' := hbuffers.mem_iff.1 hp
      obtain ⟨b, hb, -⟩ := get?_of_forall₂ (R := flip (BufferBinding.Refreshed s.memory))
        (h.refreshed.flip.imp fun _ _ h => ⟨h.1.symm, h.2⟩) hp'
      obtain ⟨-, -, _, b', c, -, heq, hb', hc, hbound, -⟩ := h.presented p.1 b hb
      cases heq
      obtain ⟨_, heq, -, hsame, -⟩ := h.undisturbed.device
      cases heq
      obtain rfl : b' = p.2 := Option.some.inj (hb'.symm.trans hp')
      exact ⟨c.handle, by rw [hsame, hbound], by rw [hc, Option.map_some]⟩
  · refine hlisted.texturesOrdered.map_some_eq htextures (f := fun r => (m.texture r).surface)
      (fun p hp => ?_)
      fun p hp => ?_
    · obtain ⟨r, hr⟩ := hlisted.textures p hp
      exact ⟨_, mem_bound_texture.1 hr, rfl⟩
    · obtain ⟨_, surface, heq, hbound, hsurface⟩ := h.shown p hp
      cases heq
      exact ⟨surface, hbound, hsurface⟩

end Bench

/-- **What a dispatch on the device does**, when it succeeds, in every state of a dispatcher that is
alone on its device. It sends the copies that are behind, leaves the others with what kernels have
written to them, keeps host memory, records exactly what the table of its entry point has bound, and
does nothing for other entry points. -/
theorem hardware_dispatch_effect {s : Bench K} (hs : s.Alone) {entry : Nat} {groups : Uint3}
    (h : (Bench.dispatchHardware entry groups s).result = .ok ()) :
    Bench.Dispatched entry groups s (Bench.dispatchHardware entry groups s).state := by
  obtain ⟨hready, hkept⟩ := hs.reachable.kept
  obtain ⟨d, hd, -⟩ := hkept.apart
  obtain ⟨htable, t, d₁, m, d₂, hstate, hpresented⟩ :=
    (Bench.dispatchHardware_presents hready hkept hs.tidy hd entry groups).of_ok h
  -- What the device has bound afterwards is bound to slots of the tables.
  have halone : (Bench.dispatchHardware entry groups s).state.Alone :=
    hs.run (.hardware entry groups) trivial
  have hordered := (halone.reachable.kept.2.wellBound entry).ordered
  obtain ⟨-, htextures, hlisted⟩ := halone.tidy
  have hrests := Bench.keeps_rests_dispatchHardware Device.stable_any
    (Bench.presentable_any s entry groups) s
    (.refl fun _ _ => trivial)
  rw [hstate] at hordered htextures hlisted hrests ⊢
  have htable' : ((s.dispatcher.setTable entry t).ran entry .hardware).table entry = t :=
    table_setTable_self htable t
  obtain ⟨_, heq, -, -, -, hlog, huploads⟩ := hpresented.undisturbed.device
  cases heq
  constructor
  case copies =>
    intro slot b hb
    obtain ⟨b', bytes, hb', hcopy⟩ := hpresented.copy hd groups hb
    exact ⟨b', bytes, by rw [htable', hb'], hcopy⟩
  case bound => exact hrests.bound entry
  case buffers => exact hpresented.undisturbed.buffers
  case pixels => exact hpresented.undisturbed.pixels
  case device =>
    have hbound : (d₂.bindings entry).Listed t.bound := by
      rw [← htable']
      exact hlisted _ rfl entry
    have htextures : Ordered t.textures := by
      rw [← htable']
      exact htextures entry
    rw [htable'] at hordered ⊢
    obtain ⟨hbuffers, hsurfaces⟩ := hpresented.listed hordered htextures hbound
    refine ⟨d, d₂.recorded entry groups, d₂.bindings entry, hd, rfl,
      huploads.trans hpresented.sends.uploads, ?_, hbound.buffersOrdered, hbound.texturesOrdered,
      hbuffers, hsurfaces⟩
    show d₂.log ++ _ = _
    rw [hlog, hpresented.sends.log]
  case others =>
    exact fun other hne => ⟨table_setTable_of_ne hne t, lastDispatch_ran_of_ne hne .hardware⟩

namespace Bench

/-- A kernel on the device writes a buffer there. -/
def deviceWrites (s : Bench K) (h : BufferHandle) (bytes : Bytes) : Bench K :=
  match s.device with
  | some (.host d) => { s with device := some (.host (d.writeBuffer h bytes).2) }
  | _ => s

/-- A dispatcher is still alone after that. -/
theorem Alone.deviceWrites {s : Bench K} (hs : s.Alone) (h : BufferHandle) (bytes : Bytes) :
    (s.deviceWrites h bytes).Alone := by
  obtain ⟨d, hd⟩ := hs.reachable.kept.1.attached
  have hwrite : ∃ buffers, (d.writeBuffer h bytes).2 = { d with buffers } := by
    rw [writeBuffer]
    split
    · split
      · exact ⟨_, rfl⟩
      · exact ⟨d.buffers, rfl⟩
    · exact ⟨d.buffers, rfl⟩
  obtain ⟨buffers, hwrite⟩ := hwrite
  simp only [Bench.deviceWrites, hd, hwrite]
  refine hs.meanwhile ⟨rfl, rfl, le_rfl, fun _ _ => rfl, fun d' hd' => ?_⟩
    le_rfl fun d' d'' hd' hd'' => ?_
  · cases hd.symm.trans hd'
    exact ⟨_, rfl, le_rfl, rfl, rfl⟩
  · cases hd.symm.trans hd'
    cases hd''
    rfl

/-- It is alone after all operations. -/
theorem Alone.runAll (ops : List BenchOp) :
    ∀ {s : Bench K}, s.Alone → LawfulAll ops s → (runAll ops s).Alone := by
  induction ops with
  | nil => exact fun hs _ => hs
  | cons op ops ih => exact fun hs hops => ih (hs.run op hops.1) hops.2

end Bench

namespace Foundry

/-- Its entry point. -/
def entries : List (EntryDecl Workbench) := [Workbench.entry "Copy" ⟨2, 1, 1⟩ .copy]

/-- An entry point for two buffers and a texture. -/
def dispatcher : Dispatcher Workbench where
  kernel := {}
  layout :=
    { entries := Layout.numbered entries
      slots := [WorkbenchField.u0.slot "source", WorkbenchField.u1.slot "target",
        WorkbenchField.t0.slot "wall"] }
  tables := [{}]
  last := [none]

/-- Two buffers and a canvas. -/
def memory : Memory := { Mill.memory with textures := #[Easel.canvas] }

/-- It is given a new device. -/
def bench : Bench Workbench := dispatcher.on ⟨memory, .host (.ofEntries ["Copy"])⟩

/-- Everything is sent to the device once. -/
def ops : List BenchOp :=
  [.setBuffer 0 "target" ⟨1⟩, .setBuffer 0 "source" ⟨0⟩, .setTexture 0 "wall" ⟨0⟩,
    .hardware 0 ⟨1, 1, 1⟩]

/-- A kernel writes the second buffer, and the first is bound. -/
def rebound : Bench Workbench :=
  (setBuffer 0 "source" ⟨0⟩).run
    ((runAll ops bench).deviceWrites ⟨2⟩ [7, 0, 0, 0, 7, 0, 0, 0, 7, 0, 0, 0])

/-- It is alone on its device. -/
theorem alone : rebound.Alone := by
  have hmade : ofKernel? {} entries [WorkbenchField.u0.slot "source",
    WorkbenchField.u1.slot "target",
      WorkbenchField.t0.slot "wall"] = .ok (dispatcher, [.kernelRegistered 1 3]) := rfl
  have hunbound := unbound_of_ofKernel? hmade
  have hbodies : dispatcher.layout.Preserves := by
    intro point hpoint
    cases List.mem_singleton.1 hpoint
    exact Workbench.Body.run_preserved .copy
  have hstart : bench.Alone := by
    refine .attached ["Copy"] (hunbound.detached memory) hbodies (fun entry => ?_)
      fun entry p hp => ?_
    · rw [hunbound.table]
      exact .nil
    · rw [hunbound.table] at hp
      cases hp
  have hops : LawfulAll ops bench := by
    simp only [ops, LawfulAll, Lawful]
    decide +kernel
  refine ((hstart.runAll ops hops).deviceWrites ⟨2⟩ _).run (.setBuffer 0 "source" ⟨0⟩) ?_
  show 0 < Array.size _
  decide +kernel

end Foundry

/-- The buffer that was bound again is sent, and what the kernel has written to the other one
stays. -/
theorem foundry_dispatch_effect :
    let s' := (Bench.dispatchHardware 0 ⟨2, 1, 1⟩ Foundry.rebound).state
    Bench.Dispatched 0 ⟨2, 1, 1⟩ Foundry.rebound s' ∧ s'.boundBytes? 0 "source" =
      some [1, 0, 0, 0, 2, 0, 0, 0] ∧
      s'.boundBytes? 0 "target" = some [7, 0, 0, 0, 7, 0, 0, 0, 7, 0, 0, 0] := by
  have hok : (Bench.dispatchHardware 0 ⟨2, 1, 1⟩ Foundry.rebound).result = .ok () := by
    decide +kernel
  exact ⟨hardware_dispatch_effect Foundry.alone hok, by decide +kernel⟩

end ComputeKernel
