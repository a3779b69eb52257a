import Mathlib.Logic.Function.Basic
import ComputeKernel.Proofs.Dispatch.Refusal
import ComputeKernel.Proofs.Dispatch.Surfaces

/-!
# Dispatchers that share a device

Some dispatchers, each with a kernel class of its own, work on the same memory and the same device
in host memory, in any order (`Workshop`). In between, textures of the device are presented, fetched
and released by others, who may also write resources, make new ones, and use the device, as long as
they release nothing that is not theirs (`Machine.Beside`). The copies that all dispatchers hold lie
apart on the device (`Workshop.Sound.stocked`), so what one does keeps all of them supplied
(`Sound.dispatcher`). Therefore the device refuses nothing to any of them
(`device_refuses_nothing`).
-/

namespace ComputeKernel

open Texture
open Bench Workbench

variable {ours : TextureRef → Prop} {names : List String}
variable {K : Type}

/-! ## What others do -/

/-- Buffers may be written and made, but keep their types. -/
structure Memory.Typed (m m' : Memory) : Prop where
  buffers : m.buffers.size ≤ m'.buffers.size
  elements : ∀ r, r.index < m.buffers.size → (m'.buffer r).element = (m.buffer r).element

namespace Memory.Typed

/-- Nothing has changed. -/
theorem refl (m : Memory) : Typed m m := ⟨le_rfl, fun _ _ => rfl⟩

/-- One change after another. -/
theorem trans {m m' m'' : Memory} (h : Typed m m') (h' : Typed m' m'') : Typed m m'' where
  buffers := h.buffers.trans h'.buffers
  elements r hr := (h'.elements r (hr.trans_le h.buffers)).trans (h.elements r hr)

end Memory.Typed

/-- A step of a dispatcher keeps the types of all buffers. -/
theorem Bench.Step.typed {s s' : Bench K} (h : Step s s') : s.memory.Typed s'.memory := by
  cases h with
  | aside _ _ _ _ hm => exact ⟨hm.buffers, hm.elements⟩
  | transfer _ _ htransfer => exact ⟨htransfer.count.ge, fun r _ => htransfer.elements r⟩
  | exchange => exact ⟨le_rfl, fun _ _ => rfl⟩
  | bindBuffer | bindTexture | markDirty => exact .refl _

/-- So does a walk. -/
theorem Bench.Walk.typed {s s' : Bench K} (h : Walk s s') : s.memory.Typed s'.memory := by
  induction h with
  | refl => exact .refl _
  | tail _ hstep ih => exact ih.trans hstep.typed

/-- The device may make and overwrite things, but not release. -/
structure HostDevice.Grows (d d' : HostDevice) : Prop where
  issued : d.issued ≤ d'.issued
  entries : d'.entries = d.entries
  buffers : ∀ k b, d.buffers.get? k = some b → ∃ b', d'.buffers.get? k = some b' ∧ b'.size = b.size
  surfaces : ∀ k s, d.surfaces.get? k = some s → ∃ s', d'.surfaces.get? k = some s' ∧
    s'.pixels.size = s.pixels.size

/-- What others do: they keep the types of buffers and the surfaces of textures, and release
nothing. -/
structure Machine.Beside (ours : TextureRef → Prop) (m m' : Machine) : Prop where
  typed : m.memory.Typed m'.memory
  steady : m.memory.Steady ours m'.memory
  device : ∀ d, m.device = .host d → ∃ d', m'.device = .host d' ∧ d.Grows d'

/-- A dispatcher that is fit, with sound textures. -/
structure Bench.Fit {K : Type} (ours : TextureRef → Prop) (names : List String)
    (s : Bench K) : Prop where
  ready : s.Ready
  wellBound : s.WellBound
  bodies : ∀ point ∈ s.dispatcher.layout.entries, point.Tame ours
  sound : s.Sound ours names

/-- A dispatcher stays fit while others use the machine. -/
theorem Bench.Fit.machine {d : Dispatcher K} {m m' : Machine} (h : (d.on m).Fit ours names)
    (htyped : m.memory.Typed m'.memory) (htextures : m'.Sound ours names) :
    (d.on m').Fit ours names := by
  obtain ⟨host, hhost, -⟩ := id htextures
  refine ⟨⟨⟨host, congrArg some hhost⟩, h.ready.tables, h.ready.bodies⟩, ?_, h.bodies, h.sound.1, _,
    rfl, htextures⟩
  exact fun entry => (h.wellBound entry).congr htyped.buffers htyped.elements rfl

/-! ## Workshops -/

/-- Dispatchers that share memory and a device. -/
structure Workshop {ι : Type} (K : ι → Type) where
  dispatcher : ∀ i, Dispatcher (K i)
  machine : Machine

/-- What may be done in a workshop. -/
inductive WorkshopOp (ι : Type) where
  | dispatcher (i : ι) (op : BenchOp)
  /-- A texture is brought to the device. -/
  | present (r : TextureRef)
  /-- A texture is brought to the host, to read or write it there. -/
  | fetch (r : TextureRef)
  | release (r : TextureRef)
  | others (change : Machine → Machine)

namespace Workshop

variable {ι : Type} {K : ι → Type} [DecidableEq ι]

/-- A dispatcher at work. -/
def bench (w : Workshop K) (i : ι) : Bench (K i) := (w.dispatcher i).on w.machine

/-- The workshop after a dispatcher has worked. -/
def put (w : Workshop K) (i : ι) (s : Bench (K i)) : Workshop K where
  dispatcher := Function.update w.dispatcher i s.dispatcher
  machine := ⟨s.memory, s.device.getD w.machine.device⟩

section put

variable (w : Workshop K) (i : ι) (s : Bench (K i)) {device : Device}

/-- The dispatcher that has worked. -/
theorem dispatcher_put_self : (w.put i s).dispatcher i = s.dispatcher := Function.update_self ..

/-- The other dispatchers. -/
theorem dispatcher_put_of_ne {j : ι} (hj : j ≠ i) : (w.put i s).dispatcher j = w.dispatcher j :=
  Function.update_of_ne hj ..

variable {s}

/-- The machine it has worked on. -/
theorem machine_put (hdevice : s.device = some device) :
    (w.put i s).machine = ⟨s.memory, device⟩ := by
  rw [put, hdevice, Option.getD_some]

/-- What has worked is at work. -/
theorem bench_put_self (hdevice : s.device = some device) : (w.put i s).bench i = s := by
  rw [bench, machine_put w i hdevice, dispatcher_put_self, Dispatcher.on, ← hdevice]

/-- The others are on the new machine. -/
theorem bench_put_of_ne (hdevice : s.device = some device) {j : ι} (hj : j ≠ i) :
    (w.put i s).bench j = (w.dispatcher j).on ⟨s.memory, device⟩ := by
  rw [bench, machine_put w i hdevice, dispatcher_put_of_ne w i s hj]

end put

end Workshop

namespace WorkshopOp

variable {ι : Type} {K : ι → Type} [DecidableEq ι]

/-- The workshop after an operation. -/
def run : WorkshopOp ι → Workshop K → Workshop K
  | .dispatcher i op, w => w.put i (op.run (w.bench i))
  | .present r, w => { w with machine := (Machine.onTexture r toDevice w.machine).state }
  | .fetch r, w => { w with machine := (Machine.onTexture r toHost w.machine).state }
  | .release r, w => { w with machine := (Machine.onTexture r Texture.release w.machine).state }
  | .others change, w => { w with machine := change w.machine }

/-- The workshop after operations. -/
def runAll (ops : List (WorkshopOp ι)) (w : Workshop K) : Workshop K :=
  ops.foldl (fun w op => op.run w) w

/-- Dispatchers bind what is there, of the device. -/
def Lawful (ours : TextureRef → Prop) (m : Machine) : WorkshopOp ι → Prop
  | .dispatcher _ op => op.Lawful m.memory ∧ op.Apt ours m.memory
  | .present r | .fetch r | .release r => ours r
  | .others change => m.Beside ours (change m)

/-- Each operation of a list is lawful when its turn comes. -/
def LawfulAll (ours : TextureRef → Prop) : List (WorkshopOp ι) → Workshop K → Prop
  | [], _ => True
  | op :: ops, w => op.Lawful ours w.machine ∧ LawfulAll ours ops (op.run w)

end WorkshopOp

namespace Workshop

variable {ι : Type} {K : ι → Type}

/-- Nothing is on the device yet. Resources may be bound already. -/
structure Fresh (ours : TextureRef → Prop) (w : Workshop K) : Prop where
  attached : ∃ d, w.machine.device = .host d
  detached : ∀ i, (w.dispatcher i).Detached w.machine.memory
  bound : ∀ i entry, ∀ p ∈ ((w.dispatcher i).table entry).textures, ours p.2
  surface : ∀ r, ours r → (w.machine.memory.texture r).surface = none
  image : ∀ r, ours r → (w.machine.memory.texture r).image.size =
    (w.machine.memory.texture r).width.toNat * (w.machine.memory.texture r).height.toNat

/-- Bodies keep what is on the device, and fail by own faults. -/
def Tame (ours : TextureRef → Prop) (w : Workshop K) : Prop :=
  ∀ i, (w.dispatcher i).layout.Preserves ∧ ∀ point ∈ (w.dispatcher i).layout.entries,
    point.Tame ours

/-- What some of the dispatchers hold. -/
def copies (w : Workshop K) (js : List ι) : List (Nat × Nat) :=
  js.flatMap fun j => (w.dispatcher j).copies

/-- All dispatchers are fit, and their copies on the device. -/
structure Sound (ours : TextureRef → Prop) (names : List String) (w : Workshop K) : Prop where
  fit : ∀ i, (w.bench i).Fit ours names
  textures : w.machine.Sound ours names
  stocked : ∀ d, w.machine.device = .host d → ∀ js : List ι, js.Nodup →
    Stocked MemoryBlock.size d.issued d.buffers (w.copies js)

/-- A workshop is sound at the start. -/
theorem Fresh.sound {w : Workshop K} (hw : w.Fresh ours) (hbodies : w.Tame ours) :
    ∃ names, w.Sound ours names := by
  obtain ⟨d, hd⟩ := hw.attached
  have htextures : w.machine.Sound ours d.entries := by
    refine ⟨d, hd, rfl, fun r hr => ⟨hw.image r hr, fun h hh => ?_⟩, fun r h hr hh => ?_,
      fun r r' h hr _ hh => ?_⟩
    · cases (hw.surface r hr).symm.trans hh
    · cases (hw.surface r hr).symm.trans hh
    · cases (hw.surface r hr).symm.trans hh
  refine ⟨d.entries, fun i => ?_, htextures, fun d _ js _ => ?_⟩
  · exact ⟨⟨⟨d, congrArg some hd⟩, (hw.detached i).tables, (hbodies i).1⟩,
      (hw.detached i).wellBound, (hbodies i).2, hw.bound i, _, rfl, htextures⟩
  · rw [copies, List.flatMap_eq_nil_iff.2 fun i _ => (hw.detached i).copies]
    exact .nil _ _ _

namespace Sound

variable {w : Workshop K}

/-- A dispatcher is supplied, and so are any others. -/
theorem supplied (hw : w.Sound ours names) {i : ι} {js : List ι} (hnodup : (i :: js).Nodup) :
    (w.bench i).Supplied names (w.copies js) := by
  obtain ⟨d, hd, hnames, -⟩ := hw.textures
  exact ⟨(hw.fit i).wellBound, d, congrArg some hd, hnames, hw.stocked d hd (i :: js) hnodup⟩

/-- The machine may change, if copies and textures stay. -/
theorem machine (hw : w.Sound ours names) {m' : Machine} (htyped : w.machine.memory.Typed m'.memory)
    (htextures : m'.Sound ours names)
    (hbuffers : ∀ d d', w.machine.device = .host d → m'.device = .host d' → d.issued ≤ d'.issued ∧
      ∀ k b, d.buffers.get? k = some b → ∃ b', d'.buffers.get? k = some b' ∧ b'.size = b.size) :
    ({ w with machine := m' } : Workshop K).Sound ours names where
  fit i := (hw.fit i).machine htyped htextures
  textures := htextures
  stocked d' hd' js hnodup := by
    obtain ⟨d, hd, -⟩ := hw.textures
    obtain ⟨hissued, hstore⟩ := hbuffers d d' hd hd'
    exact (hw.stocked d hd js hnodup).grow hissued hstore

/-- A texture of the device may be used. -/
theorem onTexture {α : Type} (hw : w.Sound ours names) {r : TextureRef} (hr : ours r)
    {a : Action (Texture × Device) α} (ha : Texture.Tidy a) :
    ({ w with machine := (Machine.onTexture r a w.machine).state } : Workshop K).Sound
      ours names := by
  refine hw.machine ⟨le_rfl, fun _ _ => rfl⟩ (Machine.keeps_sound_onTexture hr ha _ hw.textures) ?_
  intro d d' hd hd'
  obtain ⟨_, hhost, -, hsound⟩ := hw.textures
  cases hd.symm.trans hhost
  obtain ⟨u, d'', hstate, hexchange, -⟩ := ha _ d (hsound.sized r hr)
  simp only [Machine.onTexture, Action.zoom, hd, hstate] at hd'
  cases hd'
  exact ⟨hexchange.moves.issued_le, fun k b hget => ⟨b, by rw [hexchange.buffers, hget], rfl⟩⟩

/-- What others do beside the dispatchers. -/
theorem beside (hw : w.Sound ours names) {m' : Machine} (hm : w.machine.Beside ours m') :
    ({ w with machine := m' } : Workshop K).Sound ours names := by
  obtain ⟨d, hd, hnames, hsound⟩ := hw.textures
  obtain ⟨d', hd', hgrows⟩ := hm.device d hd
  refine hw.machine hm.typed ⟨d', hd', hgrows.entries.trans hnames, ?_⟩ fun d₁ d₂ hd₁ hd₂ => ?_
  · exact (hsound.steady hm.steady).grow hgrows.issued hgrows.surfaces
  · cases hd.symm.trans hd₁
    cases hd'.symm.trans hd₂
    exact ⟨hgrows.issued, hgrows.buffers⟩

variable [DecidableEq ι]

/-- What one has done and what others hold lie apart. -/
theorem stocked_put (hw : w.Sound ours names) {i : ι} {s : Bench (K i)} (hwalk : Walk (w.bench i) s)
    {d : HostDevice} (hd : s.device = some (.host d)) {js : List ι} (hnodup : (i :: js).Nodup) :
    Stocked MemoryBlock.size d.issued d.buffers ((w.put i s).copies (i :: js)) := by
  obtain ⟨d', hd', -, hstocked⟩ := (hwalk.supplied (hw.supplied hnodup)).stocked
  cases hd.symm.trans hd'
  have hothers : (w.put i s).copies js = w.copies js := by
    refine List.flatMap_congr fun j hj => ?_
    rw [dispatcher_put_of_ne w i s (ne_of_mem_of_not_mem hj (List.nodup_cons.1 hnodup).1)]
  rw [← hothers] at hstocked
  rw [copies, List.flatMap_cons, dispatcher_put_self]
  exact hstocked

/-- **What one dispatcher does keeps all of them supplied.** -/
theorem put (hw : w.Sound ours names) (i : ι) {s : Bench (K i)} (hwalk : Walk (w.bench i) s)
    (hs : s.Sound ours names) : (w.put i s).Sound ours names := by
  obtain ⟨-, device, hdevice, htextures⟩ := id hs
  have hfit := hw.fit i
  have hself := bench_put_self w i hdevice
  refine ⟨fun j => ?_, ?_, fun d hd js hnodup => ?_⟩
  · by_cases hj : j = i
    · subst hj
      have hsupplied := hwalk.supplied (hw.supplied (List.nodup_singleton j))
      rw [hself]
      exact ⟨hwalk.ready hfit.ready, hsupplied.wellBound, hwalk.layout ▸ hfit.bodies, hs⟩
    · rw [bench_put_of_ne w i hdevice hj]
      exact (hw.fit j).machine hwalk.typed htextures
  · rw [machine_put w i hdevice]
    exact htextures
  · rw [machine_put w i hdevice] at hd
    have hd : s.device = some (.host d) := hdevice.trans (congrArg some hd)
    by_cases hi : i ∈ js
    · have hperm := List.perm_cons_erase hi
      have hstocked := hw.stocked_put hwalk hd (hperm.nodup_iff.1 hnodup)
      exact hstocked.perm (hperm.symm.flatMap_right _)
    · exact (hw.stocked_put hwalk hd (List.nodup_cons.2 ⟨hi, hnodup⟩)).append_right

end Sound

end Workshop

namespace WorkshopOp

variable {ι : Type} {K : ι → Type} [DecidableEq ι] {w : Workshop K}

/-- **Every operation keeps a workshop sound.** -/
theorem run_sound (hw : w.Sound ours names) (op : WorkshopOp ι) (hop : op.Lawful ours w.machine) :
    (op.run w).Sound ours names := by
  cases op with
  | dispatcher i op =>
    have hfit := hw.fit i
    exact hw.put i (op.walks hfit.ready hop.1) (op.run_sound hfit.sound hfit.bodies hop.2)
  | present r => exact hw.onTexture hop tidy_toDevice
  | fetch r => exact hw.onTexture hop tidy_toHost
  | release r => exact hw.onTexture hop tidy_release
  | others change => exact hw.beside hop

/-- **The run.** A workshop stays sound. -/
theorem runAll_sound (ops : List (WorkshopOp ι)) :
    ∀ {w : Workshop K}, w.Sound ours names → LawfulAll ours ops w →
    (runAll ops w).Sound ours names := by
  induction ops with
  | nil => exact fun hw _ => hw
  | cons op ops ih => exact fun hw hops => ih (run_sound hw op hops.1) hops.2

end WorkshopOp

/-- **The device refuses nothing.** Dispatchers share a device in host memory, and textures that are
used with no other device. Whatever is done in the workshop, as long as nobody releases what belongs
to others, a dispatch on the device succeeds if the kernel has the entry point and the device has it
under the same ordinal. Otherwise it fails because the kernel has no such entry point, or no device
is attached, or the device numbers the entry point in another way. No download and no emulated
dispatch fails because the device refuses something. -/
theorem device_refuses_nothing {ι : Type} {K : ι → Type} [DecidableEq ι] {w : Workshop K}
    (hw : w.Fresh ours) (hbodies : w.Tame ours) (ops : List (WorkshopOp ι))
    (hops : WorkshopOp.LawfulAll ours ops w) (i : ι) (entry : Nat) (groups : Uint3) :
    let s := (WorkshopOp.runAll ops w).bench i
    ((dispatchHardware entry groups s).result = .ok () ↔ ∃ point device,
      s.dispatcher.layout.entry entry = .ok point ∧ s.device = some device ∧
        device.findEntry? point.name = some entry) ∧
    (∀ e, (dispatchHardware entry groups s).result = .error e →
      (∃ ordinal count, e = .dispatch (.unknownEntry ordinal count)) ∨ e = .dispatch .noDevice ∨
        ∃ name ordinal kind reported, e = .dispatch (.entryMismatch name ordinal kind reported)) ∧
    (∀ error, (downloadBuffers entry s).result ≠ .error (.device error)) ∧
    ∀ error, (dispatchEmulated entry groups s).result ≠ .error (.device error) := by
  intro s
  obtain ⟨names, hsound⟩ := hw.sound hbodies
  have hrun := WorkshopOp.runAll_sound ops hsound hops
  have hfit : s.Fit ours names := hrun.fit i
  have hsupplied : s.Supplied names [] := hrun.supplied (List.nodup_singleton i)
  obtain ⟨d, hd⟩ := hfit.ready.attached
  refine ⟨dispatchHardware_eq_ok_iff hfit.ready hsupplied hfit.sound entry groups, fun e he => ?_,
    fun error he => ?_, fun error he => ?_⟩
  · exact (dispatchHardware_error hfit.ready hsupplied hfit.sound he).imp_right .inr
  · rw [downloadBuffers_result hfit.ready hsupplied hfit.sound hd] at he
    cases hpoint : s.dispatcher.layout.entry entry with
    | ok point =>
      rw [hpoint] at he
      cases he
    | error e =>
      rw [hpoint] at he
      cases he
  · exact (dispatchEmulated_sound hfit.sound hfit.bodies entry groups).2 _ he error rfl

/-- The bodies of the workbench are tame. -/
theorem Workbench.Body.run_tame (body : Body) {point : EntryPoint Workbench}
    (hbody : point.body = body.run) :
    point.Tame ours where
  steady id s := by
    rw [hbody]
    refine keeps_run (I := s.memory.Steady ours) body id
      (fun m r i value h => h.trans (.of_textures rfl))
      (fun _ m w h => h.trans ?_) s (.refl s.memory)
    exact .modifyTexture m w.texture (fun _ => ⟨rfl, rfl, rfl⟩) fun _ h => h
  faults id s e he := by
    rw [hbody] at he
    exact (faults_run body id s trivial).2 e he

namespace Studio

/-- A mill and a gallery on one device. -/
def workshop : Workshop fun _ : Bool => Workbench where
  dispatcher gallery := if gallery then Gallery.dispatcher else Mill.dispatcher
  machine :=
    { memory := { buffers := Mill.memory.buffers, textures := Gallery.memory.textures }
      device := .host (.ofEntries ["Double", "Brighten"]) }

/-- Both work in turn. In between the texture loses its surface, and the mill all that it holds. -/
def ops : List (WorkshopOp Bool) :=
  [.dispatcher false (.setBuffer 0 "numbers" ⟨0⟩), .dispatcher true (.setTexture 1 "wall" ⟨0⟩),
    .dispatcher false (.hardware 0 ⟨1, 1, 1⟩), .dispatcher true (.hardware 1 ⟨1, 1, 1⟩),
    .release ⟨0⟩, .dispatcher true (.emulated 1 ⟨1, 1, 1⟩), .dispatcher false .dispose,
    .present ⟨0⟩, .dispatcher false (.hardware 0 ⟨1, 1, 1⟩), .dispatcher false (.download 0)]

/-- Nothing is on the device yet. -/
theorem fresh : workshop.Fresh fun _ => True where
  attached := ⟨_, rfl⟩
  detached gallery := by
    cases gallery with
    | false => exact Mill.unbound.detached _
    | true => exact Dispatcher.Unbound.detached (d := Gallery.dispatcher) rfl _
  bound _ _ _ _ := trivial
  surface r _ := by
    obtain ⟨_ | _ | i⟩ := r
    · rfl
    · rfl
    · exact Memory.surface_of_le (Nat.le_add_left 2 i)
  image r _ := by
    obtain ⟨_ | _ | i⟩ := r
    · rfl
    · rfl
    · have hnone : workshop.machine.memory.texture ⟨i + 2⟩ = default :=
        Memory.texture_of_le (Nat.le_add_left 2 i)
      rw [hnone]
      rfl

/-- The bodies are tame. -/
theorem tame : workshop.Tame fun _ => True := by
  intro gallery
  cases gallery with
  | false =>
    refine ⟨Mill.preserves, fun point hpoint => ?_⟩
    rcases List.mem_pair.1 hpoint with rfl | rfl
    · exact Body.run_tame .double rfl
    · exact Body.run_tame .trace rfl
  | true =>
    refine ⟨fun point hpoint => ?_, fun point hpoint => ?_⟩
    · rcases List.mem_pair.1 hpoint with rfl | rfl
      · exact Body.run_preserved .fill
      · exact Body.run_preserved .brighten
    · rcases List.mem_pair.1 hpoint with rfl | rfl
      · exact Body.run_tame .fill rfl
      · exact Body.run_tame .brighten rfl

end Studio

/-- A gallery that shares a device with a mill is served by it. -/
theorem studio_served :
    let s := (WorkshopOp.runAll Studio.ops Studio.workshop).bench true
    WorkshopOp.LawfulAll (fun _ => True) Studio.ops Studio.workshop ∧
      (dispatchHardware 1 ⟨1, 1, 1⟩ s).result = .ok () ∧
      ∀ error, (dispatchEmulated 1 ⟨1, 1, 1⟩ s).result ≠ .error (.device error) := by
  intro s
  have hops : WorkshopOp.LawfulAll (fun _ => True) Studio.ops Studio.workshop := by
    simp only [Studio.ops, WorkshopOp.LawfulAll, WorkshopOp.Lawful, BenchOp.Lawful, BenchOp.Apt]
    decide +kernel
  obtain ⟨hok, -, -, hemulated⟩ :=
    device_refuses_nothing Studio.fresh Studio.tame Studio.ops hops true 1 ⟨1, 1, 1⟩
  have hname : s.dispatcher.layout.entries[1]?.map (·.name) = some "Brighten" := by decide +kernel
  have hfound : s.device.bind (fun device => device.findEntry? "Brighten") = some 1 := by
    decide +kernel
  obtain ⟨point, hpoint, hname⟩ := Option.map_eq_some_iff.1 hname
  obtain ⟨device, hdevice, hfound⟩ := Option.bind_eq_some_iff.1 hfound
  refine ⟨hops, hok.2 ⟨point, device, ?_, hdevice, hname ▸ hfound⟩, hemulated⟩
  rw [Layout.entry, hpoint]

end ComputeKernel
