import ComputeKernel.Dispatch.Hardware
import ComputeKernel.Proofs.Buffer.Transfer
import ComputeKernel.Proofs.Texture.Machine

/-!
# A texture through a dispatch on a device

A dispatch on a device presents everything that is bound to its entry point: the buffers, which
touch no surface, and then the textures in the order of the slots. A texture that is bound keeps its
image through all of this, also when the dispatch is refused half way, and after a dispatch that was
queued the device is the newer side (`Bench.dispatchHardware_holds`).
-/

namespace ComputeKernel

open Device
open ComputeKernel.Action Machine Texture

variable {r : TextureRef} {size : Uint2} {image : Array Float4} {P : Texture → Prop} {K : Type}

/-- A transfer of a buffer touches no texture and no surface. -/
theorem Machine.Holds.transfer {m m' : Memory} {d d' : HostDevice} {b b' : BufferBinding}
    (hm : (mk m (.host d)).Holds r size image P) (ht : b.Transfer m d b' m' d') :
    (mk m' (.host d')).Holds r size image P := by
  obtain ⟨_, heq, hs, hP⟩ := hm
  cases heq
  refine ⟨d', rfl, (hs.congr ht.textures).spared ht.moves.issued_le ht.surfaces, ?_⟩
  rw [Memory.texture_congr ht.textures]
  exact hP

/-- Sending a buffer touches no texture and no surface. -/
theorem BufferBinding.keeps_holds_toDevice :
    Keeps (fun s : BufferBinding × Machine => s.2.Holds r size image P) toDevice := by
  rintro ⟨b, ⟨m, _⟩⟩ ⟨d, rfl, hs⟩
  obtain ⟨b', m', d', hstate, htransfer⟩ := transferred_toDevice b m d
  rw [hstate]
  exact Holds.transfer ⟨d, rfl, hs⟩ htransfer

/-- Make the device copy of one buffer current and bind it. -/
def BufferBinding.present (entry : Nat) (slot : String) :
    Action (BufferBinding × Machine) Unit := do
  let h ← toDevice
  onDevice (bindBuffer entry slot h)

namespace Table

variable {s : Table × Machine}
variable (entry : Nat)
variable (slot : String)

/-- What each buffer keeps is kept by all. -/
theorem keeps_presentBuffers {I : Machine → Prop} {entry : Nat}
    (hI : ∀ slot, Keeps (fun s : BufferBinding × Machine => I s.2)
      (BufferBinding.present entry slot)) :
    Keeps (fun s : Table × Machine => I s.2) (presentBuffers entry) := by
  rintro ⟨t, m⟩ hm
  exact keeps_onValues hI t.buffers hm

/-- Presenting the buffers keeps the image of a texture. -/
theorem presentBuffers_holds (hs : s.2.Holds r size image P) :
    (presentBuffers entry s).state.2.Holds r size image P ∧
      (presentBuffers entry s).state.1.textures = s.1.textures := by
  refine ⟨keeps_presentBuffers (I := Holds r size image P) (fun slot => ?_) s hs, rfl⟩
  exact BufferBinding.keeps_holds_toDevice.bind fun h s hs =>
    keeps_onDevice (isQuiet_bindBuffer entry slot h).spares s.2 hs

/-- Make the surface of one texture current and bind it. -/
def presentTexture (r : TextureRef) : Action Machine Unit := do
  let h ← onTexture r Texture.toDevice
  Machine.onDevice (Device.bindTexture entry slot h)
  onTexture r (change hintDevice)

/-- What each texture keeps is kept by all. -/
theorem keeps_presentTextures {I : Machine → Prop} {entry : Nat}
    (hI : ∀ slot r, Keeps I (presentTexture entry slot r)) :
    Keeps (fun s : Table × Machine => I s.2) (presentTextures entry) := by
  rintro ⟨t, m⟩ hm
  exact Keeps.forEach (I := I) (fun p _ => hI p.1 p.2) m hm

/-- Presenting another texture keeps the texture. -/
theorem keeps_presentTexture_of_ne {r' : TextureRef} (hr : r' ≠ r) :
    Keeps (Holds r size image P) (presentTexture entry slot r') := by
  refine (keeps_onTexture_of_ne hr fun _ _ => keeps_toDevice).bind fun h => ?_
  refine (keeps_onDevice (isQuiet_bindTexture entry slot h).spares).bind fun _ => ?_
  exact keeps_onTexture_of_ne hr fun _ _ => keeps_change fun _ => ⟨rfl, rfl, rfl⟩

/-- Presenting the texture makes the device newer. -/
theorem presentTexture_holds {m : Machine} (hm : m.Holds r size image P) :
    (presentTexture entry slot r m).Meets
      (fun _ m => m.Holds r size image fun t => t.hostStale = true)
      (fun m => m.Holds r size image fun _ => True) := by
  have hpresent := meets_onTexture (a := Texture.toDevice)
    (R := fun h t => t.surface = some h ∧ t.deviceStale = false) hm (fun _ _ => keeps_toDevice)
    fun t d hc _ _ _ => toDevice_coherent hc
  refine meets_bind (hpresent.mono_broken fun _ h => h.elim) fun h m hm => ?_
  refine (keeps_onDevice (isQuiet_bindTexture entry slot h).spares).meets_bind hm
    (fun _ hm => hm.mono fun _ _ => trivial) fun _ m hm => ?_
  refine (meets_change (f := hintDevice) hm (fun _ => ⟨rfl, rfl, rfl⟩) ?_).mono_broken
    fun _ h => h.elim
  exact fun t d hc hP => ⟨hc.hintDevice hP.1 hP.2, rfl⟩

/-- Presenting all textures keeps the image of one, and makes the device the newer side. -/
theorem presentTextures_holds (hs : s.2.Holds r size image P)
    (hr : r ∈ s.1.textures.map Prod.snd) :
    (presentTextures entry s).Meets
      (fun _ s => s.2.Holds r size image fun t => t.hostStale = true)
      (fun s => s.2.Holds r size image fun _ => True) := by
  obtain ⟨⟨slot, r⟩, hmem, rfl⟩ := List.mem_map.1 hr
  have hown : ∀ slot m (Q : Texture → Prop), m.Holds r size image Q →
    (presentTexture entry slot r m).Meets
      (fun _ m => m.Holds r size image fun t => t.hostStale = true)
      (fun m => m.Holds r size image fun _ => True) :=
        fun slot m Q hm => presentTexture_holds entry slot hm
  show (onMachine (forEach s.1.textures fun b => presentTexture entry b.1 b.2) s).Meets _ _
  refine meets_zoom (meets_forEach hmem ?_ ?_ (fun m hm => hown slot m _ hm)
    (hs.mono fun _ _ => trivial))
  · rintro ⟨slot', r'⟩ -
    by_cases hr' : r' = r
    · subst hr'
      intro m hm
      exact ((hown slot' m _ hm).mono (fun _ _ hm => hm.mono fun _ _ => trivial) fun _ h => h).state
    · exact keeps_presentTexture_of_ne entry slot' hr'
  · rintro ⟨slot', r'⟩ - m hm
    by_cases hr' : r' = r
    · subst hr'
      exact hown slot' m _ hm
    · exact ((keeps_presentTexture_of_ne entry slot' hr').meets hm).mono_broken fun _ hm =>
        hm.mono fun _ _ => trivial

/-- What a dispatch does with the table. -/
def submit (groups : Uint3) (e : Event) : Action (Table × Machine) Unit := do
  presentBuffers entry
  presentTextures entry
  report e
  onMachine (Machine.onDevice (dispatch entry groups))

/-- Presenting and queueing keeps the image of a bound texture, and makes the device the newer
side. -/
theorem submit_holds (groups : Uint3) (e : Event)
    (hs : s.2.Holds r size image P) (hr : r ∈ s.1.textures.map Prod.snd) :
    (submit entry groups e s).Meets (fun _ s => s.2.Holds r size image fun t => t.hostStale = true)
      (fun s => s.2.Holds r size image fun _ => True) := by
  have hkeeps : Keeps (fun s' : Table × Machine => s'.2.Holds r size image P ∧
    s'.1.textures = s.1.textures)
      (presentBuffers entry) := by
    rintro s' ⟨hs', htextures⟩
    obtain ⟨hholds, hsame⟩ := presentBuffers_holds entry hs'
    exact ⟨hholds, hsame.trans htextures⟩
  refine hkeeps.meets_bind ⟨hs, rfl⟩ (fun _ h => h.1.mono fun _ _ => trivial) ?_
  rintro _ s' ⟨hs', htextures⟩
  refine meets_bind (presentTextures_holds entry hs' (htextures ▸ hr)) fun _ s' hs' => ?_
  refine meets_bind (M := fun _ s'' => s' = s'') rfl ?_
  rintro _ _ rfl
  refine meets_zoom (((keeps_onDevice ?_).meets hs').mono_broken fun _ h =>
    h.mono fun _ _ => trivial)
  exact (isQuiet_dispatch entry groups).spares

end Table

/-! ## The dispatcher -/

/-- A dispatcher at work on a machine. -/
def Dispatcher.on {K : Type} (d : Dispatcher K) (m : Machine) : Bench K :=
  { dispatcher := d, memory := m.memory, device := some m.device }

namespace Bench

variable {s : Bench K} {α : Type}

/-- A texture stands for an image, with a device attached. -/
def Holds (r : TextureRef) (size : Uint2) (image : Array Float4) (P : Texture → Prop)
    (s : Bench K) : Prop :=
  ∃ device, s.device = some device ∧ ({ memory := s.memory, device } : Machine).Holds r size image P

/-- A weaker property holds, too. -/
theorem Holds.mono {Q : Texture → Prop} (h : s.Holds r size image P) (hPQ : ∀ t, P t → Q t) :
    s.Holds r size image Q := by
  obtain ⟨device, hdevice, hm⟩ := h
  exact ⟨device, hdevice, hm.mono hPQ⟩

/-- An action on the machine, while a device is attached. -/
theorem meets_withDevice {a : Action (Dispatcher K × Machine) α} {device : Device}
    {post : α → Bench K → Prop} {broken : Bench K → Prop} (hdevice : s.device = some device)
    (h : (a (s.dispatcher, { memory := s.memory, device })).Meets
      (fun x t => post x { dispatcher := t.1, memory := t.2.memory, device := some t.2.device })
      (fun t => broken { dispatcher := t.1, memory := t.2.memory, device := some t.2.device })) :
    (withDevice a s).Meets post broken := by
  unfold Outcome.Meets withDevice at *
  rw [hdevice]
  exact h

/-- What was checked of the dispatcher. -/
theorem check_meets {f : Dispatcher K → Except DispatchError α} {I : Bench K → Prop}
    (hs : I s) : (check f s).Meets (fun a t => s = t ∧ f s.dispatcher = .ok a) I := by
  refine (meets_examine hs).mono ?_ fun _ h => h
  rintro a _ ⟨rfl, hok⟩
  refine ⟨rfl, ?_⟩
  cases hf : f s.dispatcher with
  | error e =>
    rw [hf] at hok
    cases hok
  | ok x =>
    rw [hf] at hok
    cases hok
    rfl

/-- A check stops what follows, or does nothing. -/
theorem check_bind {α β : Type} (f : Dispatcher K → Except DispatchError α)
    (g : α → Action (Bench K) β) (s : Bench K) :
    (check f >>= g) s = match f s.dispatcher with
      | .ok a => g a s
      | .error e => { result := .error (.dispatch e), state := s } := by
  cases hf : f s.dispatcher with
  | ok a => exact bind_of_ok (by simp only [check, examine, hf]; rfl)
  | error e => simp only [bind_eq, check, examine, hf, Except.mapError]

/-- What a dispatch on the device does after its checks. -/
def present (point : EntryPoint K) (entry : Nat) (groups : Uint3) (kind : DeviceKind) :
    Action (Dispatcher K × Machine) Unit := do
  Dispatcher.onTable entry do
    Table.presentBuffers entry
    Table.presentTextures entry
    report (.hardwareDispatch point.name groups kind)
    Table.onMachine (Machine.onDevice (dispatch entry groups))
  Action.modify fun (d, m) => (d.ran entry .hardware, m)

/-- A dispatch: its checks, and what comes after. -/
theorem dispatchHardware_eq (entry : Nat) (groups : Uint3) (s : Bench K) :
    dispatchHardware entry groups s = match s.dispatcher.layout.entry entry, s.device with
      | .error e, _ => { result := .error (.dispatch e), state := s }
      | .ok _, none => { result := .error (.dispatch .noDevice), state := s }
      | .ok point, some device =>
        match agree point entry device with
        | .error e => { result := .error (.dispatch e), state := s }
        | .ok _ => withDevice (present point entry groups device.kind) s := by
  rw [dispatchHardware, check_bind]
  cases s.dispatcher.layout.entry entry with
  | error e => rfl
  | ok point =>
    obtain ⟨d, m, device⟩ := s
    cases device with
    | none => rfl
    | some device =>
      cases hagree : agree point entry device with
      | error e => simp only [withDevice, get_bind, hagree]; rfl
      | ok _ => simp only [withDevice, get_bind, hagree]; rfl

/-- **What a dispatch on a device leads to.** It changes nothing if its checks fail. Then what is
bound is presented, and the dispatch is queued. -/
theorem meets_dispatchHardware {entry : Nat} {groups : Uint3} {device : Device}
    {post : Unit → Bench K → Prop} {broken : Bench K → Prop} (hdevice : s.device = some device)
    (hs : broken s) (h : ∀ point, s.dispatcher.layout.entry entry = .ok point →
    agree point entry device = .ok () →
      (Table.submit entry groups (.hardwareDispatch point.name groups device.kind)
        (s.dispatcher.table entry, ⟨s.memory, device⟩)).Meets
        (fun _ t => post () (((s.dispatcher.setTable entry t.1).ran entry .hardware).on t.2))
        fun t => broken ((s.dispatcher.setTable entry t.1).on t.2)) :
    (dispatchHardware entry groups s).Meets post broken := by
  rw [dispatchHardware_eq, hdevice]
  cases hpoint : s.dispatcher.layout.entry entry with
  | error e => exact hs
  | ok point =>
    dsimp only
    cases hagree : agree point entry device with
    | error e => exact hs
    | ok _ =>
      exact meets_withDevice hdevice (meets_bind
        (M := fun _ (t : Dispatcher K × Machine) => post () ((t.1.ran entry .hardware).on t.2))
        (meets_zoom (h point hpoint hagree)) fun _ _ ht => ht)

/-- A dispatch on a device keeps the image of a bound texture, and makes the device the newer
side. -/
theorem dispatchHardware_holds {entry : Nat} (groups : Uint3) (hs : s.Holds r size image P)
    (hr : r ∈ (s.dispatcher.table entry).textures.map Prod.snd) :
    (dispatchHardware entry groups s).Meets
      (fun _ s => s.Holds r size image fun t => t.hostStale = true)
      (fun s => s.Holds r size image fun _ => True) := by
  obtain ⟨device, hdevice, hm⟩ := hs
  have hany : s.Holds r size image fun _ => True := ⟨device, hdevice, hm.mono fun _ _ => trivial⟩
  refine meets_dispatchHardware hdevice hany fun point _ _ => ?_
  exact (Table.submit_holds entry groups _ hm hr).mono (fun _ _ ht => ⟨_, rfl, ht⟩) fun _ ht =>
    ⟨_, rfl, ht⟩

end Bench

end ComputeKernel
