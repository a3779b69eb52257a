import ComputeKernel.Proofs.Dispatch.Fields
import ComputeKernel.Proofs.Dispatch.Workshop

/-!
# What the operations of a dispatcher leave

Dispatches, transfers and releases go through the device, resources and tables, and fail there by
faults and by refusals of the device. They never find a mistake in binding or dispatch, and they
leave three things (`Bench.Rests`): the same resources stay bound to the same slots, buffers keep
the type of their elements, and the device keeps every property that is kept by whatever is made,
sent, read and released (`Device.Stable`).

One predicate for each kind of state (`Aloof`) says both how an action fails and what it keeps, and
has one lemma for each way of putting actions together.
-/

namespace ComputeKernel

open Bench
open Device Failure

variable {σ τ α β κ K : Type}

/-- The failure is not a mistake in binding or dispatch. -/
def Failure.NotOfDispatch (e : Failure) : Prop := ∀ error, e ≠ .dispatch error

/-- A result that is not a mistake in binding or dispatch. -/
def NoMistake (r : Except Failure α) : Prop := ∀ e, r = .error e → e.NotOfDispatch

namespace NoMistake

/-- A success is no mistake. -/
theorem ok (x : α) : NoMistake (.ok x) := fun _ he => by cases he

/-- A fault is no mistake. -/
theorem fault (r : Except Fault α) : NoMistake (r.mapError .fault) := by
  cases r with
  | ok x => exact ok x
  | error e =>
    rintro _ ⟨⟩ _ he
    cases he

/-- A refusal of the device is no mistake. -/
theorem device (r : Except DeviceError α) : NoMistake (r.mapError .device) := by
  cases r with
  | ok x => exact ok x
  | error e =>
    rintro _ ⟨⟩ _ he
    cases he

/-- One step after another finds no mistake if neither does. -/
theorem bind {r : Except Failure α} {f : α → Except Failure β} (hr : NoMistake r)
    (hf : ∀ x, NoMistake (f x)) :
    NoMistake (r >>= f) := by
  cases r with
  | ok x => exact hf x
  | error e => exact fun _ he => hr _ (by cases he; rfl)

end NoMistake

/-! ## Safe actions -/

namespace Action

variable {I : σ → Prop} {may : Failure → Prop}

/-- Doing nothing is safe. -/
theorem safe_pure (x : α) : Safe I may (Pure.pure x : Action σ α) :=
  (keeps_pure x).safe fun _ _ => ⟨x, rfl⟩

/-- Reading the state is safe. -/
theorem safe_get : Safe I may (get : Action σ σ) := keeps_get.safe fun s _ => ⟨s, rfl⟩

/-- Reporting is safe. -/
theorem safe_report (e : Event) : Safe I may (report e : Action σ Unit) :=
  (keeps_report e).safe fun _ _ => ⟨(), rfl⟩

/-- A change that keeps the property is safe. -/
theorem safe_modify {f : σ → σ} (h : ∀ s, I s → I (f s)) : Safe I may (modify f) :=
  (keeps_modify h).safe fun _ _ => ⟨(), rfl⟩

/-- A result that is no mistake may be passed on. -/
theorem safe_ofExcept {r : Except Failure α} (h : NoMistake r) :
    Safe I NotOfDispatch (ofExcept r : Action σ α) :=
  fun _ hs => ⟨hs, h⟩

/-- What is safe keeps the property. -/
theorem Safe.keeps {a : Action σ α} (h : Safe I may a) : Keeps I a := fun s hs => (h s hs).1

/-- An action on a part of the state. -/
theorem Safe.zoom {J : τ → Prop} {part : σ → τ} {replace : τ → σ → σ} {a : Action τ α}
    (ha : Safe J may a) (hpart : ∀ s, I s → J (part s))
    (hreplace : ∀ s t, I s → J t → I (replace t s)) :
    Safe I may (zoom part replace a) := by
  intro s hs
  obtain ⟨hstate, hfails⟩ := ha (part s) (hpart s hs)
  exact ⟨hreplace s _ hs hstate, hfails⟩

/-- It keeps what its steps keep, and fails as they fail. -/
theorem onValues_safe {J : List (κ × α) → τ → Prop} {f : κ → Action (α × τ) Unit}
    (h : ∀ before k after, Safe (fun s => J (before ++ (k, s.1) :: after) s.2) may (f k)) :
    ∀ (entries before : List (κ × α)) {t : τ}, J (before ++ entries) t →
      J (before ++ (onValues f entries t).state.1) (onValues f entries t).state.2 ∧
        ∀ e, (onValues f entries t).result = .error e → may e
  | [], _, _, ht => ⟨ht, fun _ he => by cases he⟩
  | (k, a) :: rest, before, t, ht => by
    -- `before` is what the loop has passed, so that `J` is about the whole list at every step.
    obtain ⟨hstep, hfails⟩ := h before k rest (a, t) ht
    rw [onValues]
    generalize f k (a, t) = o at hstep hfails
    obtain ⟨result, ⟨a', t'⟩, events⟩ := o
    cases result with
    | error e => exact ⟨hstep, hfails⟩
    | ok u =>
      have hrest := onValues_safe h rest (before ++ [(k, a')]) (t := t') (by simpa using hstep)
      simpa using hrest

end Action

open ComputeKernel.Action (Keeps Safe safe_pure safe_get safe_report safe_modify safe_ofExcept)

/-! ## Devices -/

namespace Device

variable {I : Device → Prop}
variable {entry : Nat}

/-- What is kept by whatever is made, sent, read and released. -/
structure Stable (I : Device → Prop) : Prop where
  createBuffer : ∀ count stride, Keeps I (createBuffer count stride)
  upload : ∀ h bytes, Keeps I (upload h bytes)
  download : ∀ h size, Keeps I (download h size)
  releaseBuffer : ∀ h, Keeps I (releaseBuffer h)
  createSurface : ∀ width height format, Keeps I (createSurface width height format)
  blit : ∀ h pixels, Keeps I (blit h pixels)
  readBack : ∀ h out, Keeps I (readBack h out)
  releaseSurface : ∀ h, Keeps I (releaseSurface h)

/-- Nothing is asked of the device. -/
def Any : Device → Prop := fun _ => True

/-- Every action keeps nothing. -/
theorem keeps_any (a : Action Device α) : Keeps Any a := fun _ _ => trivial

/-- So this is stable. -/
theorem stable_any : Stable Any :=
  ⟨fun _ _ => keeps_any _, fun _ _ => keeps_any _, fun _ _ => keeps_any _, fun _ => keeps_any _,
    fun _ _ _ => keeps_any _, fun _ _ => keeps_any _, fun _ _ => keeps_any _, fun _ => keeps_any _⟩

/-- A use of the device finds no mistake, and keeps a property. -/
def Aloof (I : Device → Prop) (a : Action Device α) : Prop := Safe I NotOfDispatch a

/-- It is so if it is on either kind of device. -/
theorem aloof_of_keeps {a : Action Device α} (ha : Keeps I a)
    (hhost : ∀ d, NoMistake (a (.host d)).result) (hgpu : ∀ d, NoMistake (a (.gpu d)).result) :
    Aloof I a := by
  rintro (d | d) hd
  · exact ⟨ha _ hd, hhost d⟩
  · exact ⟨ha _ hd, hgpu d⟩

/-- A step in host memory finds no mistake. -/
theorem hostStep_result (d : HostDevice) (r : Except DeviceError (α × HostDevice)) :
    NoMistake (hostStep d r).result := by
  cases r with
  | ok x => exact .ok x.1
  | error e => exact .device (.error e)

/-- A step there finds none if its result is none. -/
theorem gpuStep_result (d : GpuDevice) {r : Except Failure (α × GpuDevice)} (hr : NoMistake r) :
    NoMistake (gpuStep d r).result := by
  cases r with
  | ok x => exact .ok x.1
  | error e => exact fun _ he => hr _ (by cases he; rfl)

/-- A change of a graphics device finds none. -/
theorem gpuChange_result (d : GpuDevice) (r : Except DeviceError GpuDevice) :
    NoMistake (gpuChange d r).result :=
  gpuStep_result d (.device _)

/-- Making a buffer is aloof. -/
theorem Stable.aloof_createBuffer (hI : Stable I) (count stride : Nat) :
    Aloof I (Device.createBuffer count stride) := by
  refine aloof_of_keeps (hI.createBuffer count stride) (fun d => ?_) fun d => gpuStep_result d ?_
  · have hsafe : Safe (fun _ => True) NotOfDispatch (HostDevice.createBuffer count stride) := by
      rw [HostDevice.createBuffer]
      split
      · refine .bind (fun _ _ => ⟨trivial, NoMistake.ok _⟩) fun id =>
          (safe_ofExcept (.fault _)).bind fun _ => ?_
        exact (safe_modify fun _ _ => trivial).bind fun _ => safe_pure _
      · exact safe_ofExcept (.device _)
    exact (hsafe d trivial).2
  · rw [GpuDevice.createBuffer]
    split
    · exact (NoMistake.fault _).bind fun _ => .ok _
    · exact .device _

/-- Sending to a buffer is aloof. -/
theorem Stable.aloof_upload (hI : Stable I) (h : BufferHandle) (bytes : Bytes) :
    Aloof I (Device.upload h bytes) :=
  aloof_of_keeps (hI.upload h bytes) (fun d => hostStep_result d _) fun d => gpuChange_result d _

/-- Reading a buffer is aloof. -/
theorem Stable.aloof_download (hI : Stable I) (h : BufferHandle) (size : Nat) :
    Aloof I (Device.download h size) :=
  aloof_of_keeps (hI.download h size) (fun d => hostStep_result d _) fun d =>
    gpuStep_result d (.device _)

/-- Releasing a buffer is aloof. -/
theorem Stable.aloof_releaseBuffer (hI : Stable I) (h : BufferHandle) :
    Aloof I (Device.releaseBuffer h) :=
  aloof_of_keeps (hI.releaseBuffer h) (fun _ => .ok ()) fun _ => .ok ()

/-- Making a surface is aloof. -/
theorem Stable.aloof_createSurface (hI : Stable I) (width height : UInt32) (format : TexelFormat) :
    Aloof I (Device.createSurface width height format) := by
  refine aloof_of_keeps (hI.createSurface width height format) (fun d => ?_) fun d =>
    gpuStep_result d ?_
  · have hsafe : Safe (fun _ => True) NotOfDispatch
      (HostDevice.createSurface width height format) := by
      refine .bind (fun _ _ => ⟨trivial, NoMistake.ok _⟩) fun id =>
        (safe_ofExcept (.fault _)).bind fun _ => ?_
      exact (safe_modify fun _ _ => trivial).bind fun _ => safe_pure _
    exact (hsafe d trivial).2
  · rw [GpuDevice.createSurface]
    split
    · exact .device _
    · exact (NoMistake.fault _).bind fun _ => (NoMistake.fault _).bind fun _ => .ok _

/-- Sending to a surface is aloof. -/
theorem Stable.aloof_blit (hI : Stable I) (h : SurfaceHandle) (pixels : Array Float4) :
    Aloof I (Device.blit h pixels) :=
  aloof_of_keeps (hI.blit h pixels) (fun d => hostStep_result d _) fun d => gpuChange_result d _

/-- Reading a surface is aloof. -/
theorem Stable.aloof_readBack (hI : Stable I) (h : SurfaceHandle) (out : Array Float4) :
    Aloof I (Device.readBack h out) := by
  refine aloof_of_keeps (hI.readBack h out) (fun d => hostStep_result d _) fun d => ?_
  show NoMistake (d.readBack h out)
  rw [GpuDevice.readBack]
  split
  · exact .device _
  · exact (NoMistake.fault _).bind fun _ => (NoMistake.fault _).bind fun _ => .ok _

/-- Releasing a surface is aloof. -/
theorem Stable.aloof_releaseSurface (hI : Stable I) (h : SurfaceHandle) :
    Aloof I (Device.releaseSurface h) :=
  aloof_of_keeps (hI.releaseSurface h) (fun _ => .ok ()) fun _ => .ok ()

/-- Binding a buffer is aloof if it keeps the property. -/
theorem aloof_bindBuffer {slot : String} {h : BufferHandle}
    (hI : Keeps I (bindBuffer entry slot h)) : Aloof I (bindBuffer entry slot h) :=
  aloof_of_keeps hI (fun d => hostStep_result d _) fun d => gpuChange_result d _

/-- So is binding a texture. -/
theorem aloof_bindTexture {slot : String} {h : SurfaceHandle}
    (hI : Keeps I (bindTexture entry slot h)) : Aloof I (bindTexture entry slot h) :=
  aloof_of_keeps hI (fun d => hostStep_result d _) fun d => gpuChange_result d _

/-- So is a dispatch. -/
theorem aloof_dispatch {groups : Uint3} (hI : Keeps I (dispatch entry groups)) :
    Aloof I (dispatch entry groups) := by
  refine aloof_of_keeps hI (fun d => hostStep_result d _) fun d => ?_
  simp only [dispatch]
  cases d.dispatch entry groups with
  | ok name => exact .ok ()
  | error e => exact .device (.error e)

end Device

/-! ## Transfers -/

variable {I : Device → Prop}

namespace Texture

/-- An exchange of a texture fails by a fault or a refusal, and the device keeps a property. -/
def Aloof (I : Device → Prop) (a : Action (Texture × Device) α) : Prop :=
  Safe (fun s : Texture × Device => I s.2) NotOfDispatch a

/-- A texture is aloof where its device is. -/
theorem aloof_onDevice {a : Action Device α} (ha : Device.Aloof I a) : Aloof I (onDevice a) :=
  ha.zoom (fun _ hs => hs) fun _ _ _ hd => hd

/-- Changing the texture alone is aloof. -/
theorem aloof_change (f : Texture → Texture) : Aloof I (change f) := safe_modify fun _ hs => hs

/-- Making its surface is aloof. -/
theorem aloof_ensureSurface (hI : Stable I) : Aloof I ensureSurface := by
  refine safe_get.bind ?_
  rintro ⟨t, d⟩
  dsimp only
  cases t.surface with
  | some h => exact safe_pure h
  | none =>
    exact (aloof_onDevice (hI.aloof_createSurface _ _ _)).bind fun h =>
        (aloof_change _).bind fun _ =>
      safe_pure h

/-- Sending a texture is aloof. -/
theorem aloof_toDevice (hI : Stable I) : Aloof I toDevice := by
  refine Safe.bind (aloof_ensureSurface hI) fun h => safe_get.bind ?_
  rintro ⟨t, d⟩
  dsimp only
  split
  · exact (aloof_change _).bind fun _ => (safe_report _).bind fun _ =>
      (aloof_onDevice (hI.aloof_blit h _)).bind fun _ => (aloof_change _).bind fun _ => safe_pure h
  · exact safe_pure h

/-- Receiving it is aloof. -/
theorem aloof_toHost (hI : Stable I) : Aloof I toHost := by
  refine safe_get.bind ?_
  rintro ⟨t, d⟩
  dsimp only
  split
  · cases t.surface with
    | some h =>
      exact (safe_report _).bind fun _ => (aloof_onDevice (hI.aloof_readBack h _)).bind fun image =>
        (aloof_change _).bind fun _ => aloof_change _
    | none => exact aloof_change _
  · exact safe_pure ()

/-- Releasing its surface is aloof. -/
theorem aloof_release (hI : Stable I) : Aloof I release := by
  refine safe_get.bind ?_
  rintro ⟨t, d⟩
  dsimp only
  cases t.surface with
  | some h => exact (aloof_onDevice (hI.aloof_releaseSurface h)).bind fun _ => aloof_change _
  | none => exact safe_pure ()

end Texture

namespace Machine

variable {m₀ : Memory}

/-- A use of the machine fails by a fault or a refusal. Buffers keep their types, and the device a
property. -/
def Aloof (I : Device → Prop) (m₀ : Memory) (a : Action Machine α) : Prop :=
  Safe (fun m : Machine => Memory.Typed m₀ m.memory ∧ I m.device) NotOfDispatch a

/-- A machine is aloof where its device is. -/
theorem aloof_onDevice {a : Action Device α} (ha : Device.Aloof I a) : Aloof I m₀ (onDevice a) :=
  ha.zoom (fun _ hs => hs.2) fun _ _ hs hd => ⟨hs.1, hd⟩

/-- It is so where a texture is. -/
theorem aloof_onTexture (r : TextureRef) {a : Action (Texture × Device) α}
    (ha : Texture.Aloof I a) :
    Aloof I m₀ (onTexture r a) :=
  ha.zoom (fun _ hs => hs.2) fun _ _ hs hd => ⟨⟨hs.1.buffers, hs.1.elements⟩, hd⟩

end Machine

namespace BufferBinding

variable {r : BufferRef} {m₀ : Memory}

/-- A use of a bound buffer fails by a fault or a refusal. It stays bound, buffers keep their types,
and the device a property. -/
def Aloof (I : Device → Prop) (r : BufferRef) (m₀ : Memory)
    (a : Action (BufferBinding × Machine) α) : Prop :=
  Safe (fun s : BufferBinding × Machine => s.1.buffer = r ∧ Memory.Typed m₀ s.2.memory ∧
    I s.2.device)
    NotOfDispatch a

/-- A bound buffer is aloof where the device is. -/
theorem aloof_onDevice {a : Action Device α} (ha : Device.Aloof I a) : Aloof I r m₀ (onDevice a) :=
  Safe.zoom (Machine.aloof_onDevice ha) (fun _ hs => hs.2) fun _ _ hs hm => ⟨hs.1, hm⟩

/-- A change that leaves the buffer bound is aloof. -/
theorem aloof_change {f : BufferBinding → BufferBinding} (hf : ∀ b, (f b).buffer = b.buffer) :
    Aloof I r m₀ (change f) :=
  safe_modify fun s hs => ⟨(hf s.1).trans hs.1, hs.2⟩

/-- Reading its elements is aloof. -/
theorem aloof_contents : Aloof I r m₀ contents := safe_get.bind fun _ => safe_pure _

/-- Making a copy is aloof. -/
theorem aloof_makeCopy (hI : Stable I) (host : Buffer) : Aloof I r m₀ (makeCopy host) :=
  Safe.bind (aloof_onDevice (hI.aloof_createBuffer _ _)) fun _ =>
    (aloof_change (fun _ => by rfl)).bind fun _ => safe_pure _

/-- So is making one when it is needed. -/
theorem aloof_ensureCopy (hI : Stable I) : Aloof I r m₀ ensureCopy := by
  refine Safe.bind aloof_contents fun host => safe_get.bind ?_
  rintro ⟨b, m⟩
  dsimp only
  cases b.copy with
  | none => exact aloof_makeCopy hI host
  | some copy =>
    dsimp only
    split
    · exact safe_pure _
    · exact (safe_report _).bind fun _ =>
        (aloof_onDevice (hI.aloof_releaseBuffer copy.handle)).bind fun _ => aloof_makeCopy hI host

/-- Sending the elements is aloof. -/
theorem aloof_toDevice (hI : Stable I) : Aloof I r m₀ toDevice := by
  refine Safe.bind (aloof_ensureCopy hI) fun handle => aloof_contents.bind fun host =>
    safe_get.bind ?_
  rintro ⟨b, m⟩
  dsimp only
  split
  · exact (safe_report _).bind fun _ => (aloof_onDevice (hI.aloof_upload handle _)).bind fun _ =>
      (aloof_change (fun _ => by rfl)).bind fun _ => safe_pure _
  · exact safe_pure _

/-- Storing bytes that were read is aloof. -/
theorem aloof_receive (bytes : Bytes) : Aloof I r m₀ (receive bytes) := by
  rintro ⟨b, m⟩ ⟨hr, hm, hI⟩
  simp only [receive, Action.step]
  cases hwrite : (m.memory.buffer b.buffer).writeBytes bytes with
  | error e => exact ⟨⟨hr, hm, hI⟩, NoMistake.fault (.error e : Except Fault Unit)⟩
  | ok host =>
    refine ⟨⟨hr, ?_, hI⟩, NoMistake.ok ()⟩
    have helement : host.element = (m.memory.buffer b.buffer).element := by
      rw [Buffer.writeBytes] at hwrite
      split at hwrite
      · cases hwrite
        rfl
      · cases hwrite
    refine ⟨hm.buffers.trans (Array.size_setIfInBounds ..).ge, fun r' hr' => ?_⟩
    rw [Memory.buffer_setBuffer, ← hm.elements r' hr']
    split
    next heq => rw [helement, heq.1]
    next => rfl

/-- Receiving the elements is aloof. -/
theorem aloof_toHost (hI : Stable I) : Aloof I r m₀ toHost := by
  refine Safe.bind aloof_contents fun host => safe_get.bind ?_
  rintro ⟨b, m⟩
  dsimp only
  cases b.copy with
  | none => exact safe_pure ()
  | some copy =>
    dsimp only
    split
    · exact (aloof_onDevice (hI.aloof_download copy.handle _)).bind fun bytes =>
        (safe_report _).bind fun _ => (aloof_receive bytes).bind fun _ =>
          aloof_change (fun _ => by rfl)
    · exact safe_report _

/-- Releasing the copy is aloof. -/
theorem aloof_release (hI : Stable I) : Aloof I r m₀ release := by
  refine safe_get.bind ?_
  rintro ⟨b, m⟩
  dsimp only
  cases b.copy with
  | none => exact aloof_change (fun _ => by rfl)
  | some copy =>
    exact (aloof_onDevice (hI.aloof_releaseBuffer copy.handle)).bind fun _ =>
      aloof_change (fun _ => by rfl)

end BufferBinding

/-! ## Tables -/

namespace Table

variable {slot : String} {t : Table}

/-- The buffers that are bound, in the table. -/
theorem mem_bound_buffer {r : BufferRef} :
    (slot, .buffer r) ∈ t.bound ↔ ∃ b, (slot, b) ∈ t.buffers ∧ b.buffer = r := by
  simp [Table.bound]

/-- The textures that are bound, in the table. -/
theorem mem_bound_texture {r : TextureRef} :
    (slot, .texture r) ∈ t.bound ↔ (slot, r) ∈ t.textures := by
  simp [Table.bound]

/-- Binding a buffer adds this one at most. -/
theorem mem_bound_bindBuffer {r : BufferRef} {p : String × Resource}
    (hp : p ∈ (t.bindBuffer slot r).bound) : p = (slot, .buffer r) ∨ p ∈ t.bound := by
  rcases List.mem_append.1 hp with hp | hp
  · obtain ⟨q, hq, rfl⟩ := List.mem_map.1 hp
    rcases Keyed.mem_put hq with rfl | hq
    · refine .inl ?_
      cases t.buffers.get? slot <;> rfl
    · exact .inr (List.mem_append_left _ (List.mem_map_of_mem hq))
  · exact .inr (List.mem_append_right _ hp)

/-- Binding a texture adds this one at most. -/
theorem mem_bound_bindTexture {r : TextureRef} {p : String × Resource}
    (hp : p ∈ (t.bindTexture slot r).bound) : p = (slot, .texture r) ∨ p ∈ t.bound := by
  rcases List.mem_append.1 hp with hp | hp
  · exact .inr (List.mem_append_left _ hp)
  · obtain ⟨q, hq, rfl⟩ := List.mem_map.1 hp
    rcases Keyed.mem_put hq with rfl | hq
    · exact .inl rfl
    · exact .inr (List.mem_append_right _ (List.mem_map_of_mem hq))

variable {bound : List (String × Resource)} {m₀ : Memory}

/-- A use of a table fails by a fault or a refusal. The same resources stay bound, buffers keep
their types, and the device a property. -/
def Aloof (I : Device → Prop) (bound : List (String × Resource)) (m₀ : Memory)
    (a : Action (Table × Machine) α) : Prop :=
  Safe (fun s : Table × Machine => s.1.bound = bound ∧ Memory.Typed m₀ s.2.memory ∧ I s.2.device)
    NotOfDispatch a

/-- A table is aloof where the machine is. -/
theorem aloof_onMachine {a : Action Machine α} (ha : Machine.Aloof I m₀ a) :
    Aloof I bound m₀ (onMachine a) :=
  Safe.zoom ha (fun _ hs => hs.2) fun _ _ hs hm => ⟨hs.1, hm⟩

/-- It is so where each of its textures is. -/
theorem aloof_onTextures {f : String → TextureRef → Action Machine Unit}
    (hf : ∀ slot r, (slot, .texture r) ∈ bound → Machine.Aloof I m₀ (f slot r)) :
    Aloof I bound m₀ (onTextures f) := by
  rintro ⟨t, m⟩ ⟨rfl, hm⟩
  have hloop : Machine.Aloof I m₀ (Action.forEach t.textures fun p => f p.1 p.2) :=
    .forEach fun p hp => hf p.1 p.2 (List.mem_append_right _ (List.mem_map_of_mem hp))
  exact aloof_onMachine hloop (t, m) ⟨rfl, hm⟩

/-- It is so where each of its buffers is. -/
theorem aloof_onBuffers {f : String → Action (BufferBinding × Machine) Unit}
    (hf : ∀ slot r, (slot, .buffer r) ∈ bound → BufferBinding.Aloof I r m₀ (f slot)) :
    Aloof I bound m₀ (onBuffers f) := by
  rintro ⟨t, m⟩ ht
  refine Action.onValues_safe (J := fun buffers (m : Machine) =>
    ({ t with buffers } : Table).bound = bound ∧
    Memory.Typed m₀ m.memory ∧ I m.device) (fun before slot after s hs => ?_) t.buffers [] ht
  clear ht
  obtain ⟨rfl, hs⟩ := hs
  have hmem : (slot, .buffer s.1.buffer) ∈
    ({ t with buffers := before ++ (slot, s.1) :: after } : Table).bound :=
    mem_bound_buffer.2 ⟨s.1, List.mem_append_right _ (.head _), rfl⟩
  obtain ⟨⟨hbuffer, hs'⟩, hfails⟩ := hf slot s.1.buffer hmem s ⟨rfl, hs⟩
  refine ⟨⟨?_, hs'⟩, hfails⟩
  -- Of the binding that the step has changed only the buffer counts for what is bound.
  simp only [Table.bound, List.map_append, List.map_cons, hbuffer]

/-- Presenting buffers is aloof. -/
theorem aloof_presentBuffers (hI : Stable I) {entry : Nat}
    (hbind : ∀ slot r, (slot, Resource.buffer r) ∈ bound →
    ∀ h, Keeps I (Device.bindBuffer entry slot h)) :
    Aloof I bound m₀ (presentBuffers entry) :=
  aloof_onBuffers fun slot r hmem => (BufferBinding.aloof_toDevice hI).bind fun h =>
    BufferBinding.aloof_onDevice (aloof_bindBuffer (hbind slot r hmem h))

/-- Presenting textures is aloof. -/
theorem aloof_presentTextures (hI : Stable I) {entry : Nat}
    (hbind : ∀ slot r, (slot, Resource.texture r) ∈ bound →
    ∀ h, Keeps I (Device.bindTexture entry slot h)) :
    Aloof I bound m₀ (presentTextures entry) :=
  aloof_onTextures fun slot r hmem =>
      (Machine.aloof_onTexture r (Texture.aloof_toDevice hI)).bind fun h =>
    (Machine.aloof_onDevice (aloof_bindTexture (hbind slot r hmem h))).bind fun _ =>
      Machine.aloof_onTexture r (Texture.aloof_change _)

/-- Releasing a table is aloof. -/
theorem aloof_release (hI : Stable I) : Aloof I bound m₀ release :=
  (aloof_onBuffers fun _ _ _ => BufferBinding.aloof_release hI).bind fun _ =>
    aloof_onTextures fun _ r _ => Machine.aloof_onTexture r (Texture.aloof_release hI)

/-- Marking copies leaves what is bound. -/
theorem bound_markDirty (t : Table) : t.markDirty.bound = t.bound := by
  simp [Table.bound, markDirty, BufferBinding.markDirty, Function.comp_def]

end Table

/-! ## What rests -/

/-- Kernel class and bound resources are the same, buffers keep their types, and the device has a
property. -/
structure Bench.Rests (I : Device → Prop) (s₀ s : Bench K) : Prop where
  layout : s.dispatcher.layout = s₀.dispatcher.layout
  bound : ∀ entry, (s.dispatcher.table entry).bound = (s₀.dispatcher.table entry).bound
  typed : s₀.memory.Typed s.memory
  device : ∀ device, s.device = some device → I device

namespace Bench

variable {s₀ s : Bench K} {entry : Nat}

/-- At the start, all of this holds. -/
theorem Rests.refl (h : ∀ device, s.device = some device → I device) : Rests I s s :=
  ⟨rfl, fun _ => rfl, .refl _, h⟩

/-- A table may change as long as the same resources are bound. -/
theorem Rests.setTable (h : Rests I s₀ s) {t : Table}
    (ht : t.bound = (s.dispatcher.table entry).bound) :
    Rests I s₀ { s with dispatcher := s.dispatcher.setTable entry t } := by
  refine ⟨h.layout, fun entry' => ?_, h.typed, h.device⟩
  rcases s.dispatcher.table_setTable_cases entry t entry' with ⟨rfl, heq⟩ | heq
  · exact (congrArg Table.bound heq).trans (ht.trans (h.bound entry'))
  · exact (congrArg Table.bound heq).trans (h.bound entry')

/-- The memory may change while buffers keep their types. -/
theorem Rests.memory (h : Rests I s₀ s) {m : Memory} (hm : s.memory.Typed m) :
    Rests I s₀ { s with memory := m } :=
  ⟨h.layout, h.bound, h.typed.trans hm, h.device⟩

/-- What is aloof on a table is so on the dispatcher. -/
theorem safe_onTable {a : Action (Table × Machine) α}
    (ha : Table.Aloof I (s₀.dispatcher.table entry).bound s₀.memory a) :
    Safe (fun s : Dispatcher K × Machine => Rests I s₀ (s.1.on s.2)) NotOfDispatch
      (Dispatcher.onTable entry a) := by
  rintro ⟨d, m⟩ hs
  obtain ⟨⟨hbound, htyped, hdevice⟩, hfails⟩ :=
    ha (d.table entry, m) ⟨hs.bound entry, hs.typed, hs.device _ rfl⟩
  have hrests : Rests I s₀ (d.on (a (d.table entry, m)).state.2) := by
    refine ⟨hs.layout, hs.bound, htyped, ?_⟩
    rintro _ ⟨⟩
    exact hdevice
  exact ⟨hrests.setTable (hbound.trans (hs.bound entry).symm), hfails⟩

/-- What is left on a device is left when there may be none. -/
theorem keeps_rests_withDevice {a : Action (Dispatcher K × Machine) α}
    (ha : Keeps (fun s : Dispatcher K × Machine => Rests I s₀ (s.1.on s.2)) a) :
    Keeps (Rests I s₀) (withDevice a) := by
  rintro ⟨d, m, device⟩ hs
  cases device with
  | none => exact hs
  | some device =>
    obtain ⟨hlayout, hbound, htyped, hdevice⟩ :=
      ha (d, ⟨m, device⟩) ⟨hs.layout, hs.bound, hs.typed, hs.device⟩
    exact ⟨hlayout, hbound, htyped, hdevice⟩

/-! ## Dispatches on the device -/

/-- The device keeps a property when the bound slots are bound on it, and when the dispatch is
recorded. -/
structure Presentable (I : Device → Prop) (s₀ : Bench K) (entry : Nat) (groups : Uint3) : Prop where
  buffers : ∀ slot r, (slot, .buffer r) ∈ (s₀.dispatcher.table entry).bound →
    ∀ h, Keeps I (Device.bindBuffer entry slot h)
  textures : ∀ slot r, (slot, .texture r) ∈ (s₀.dispatcher.table entry).bound →
    ∀ h, Keeps I (Device.bindTexture entry slot h)
  dispatch : Keeps I (Device.dispatch entry groups)

/-- Nothing is asked of the device when it is presented. -/
theorem presentable_any (s₀ : Bench K) (entry : Nat) (groups : Uint3) :
    Presentable Any s₀ entry groups :=
  ⟨fun _ _ _ _ => keeps_any _, fun _ _ _ _ => keeps_any _, keeps_any _⟩

/-- After its checks a dispatch on the device finds no mistake. -/
theorem safe_present (hI : Stable I) {groups : Uint3} (hpresent : Presentable I s₀ entry groups)
    (point : EntryPoint K) (kind : DeviceKind) :
    Safe (fun s : Dispatcher K × Machine => Rests I s₀ (s.1.on s.2)) NotOfDispatch
      (present point entry groups kind) := by
  refine .bind (safe_onTable ?_) fun _ => safe_modify fun s hs =>
    ⟨hs.layout, hs.bound, hs.typed, hs.device⟩
  exact (Table.aloof_presentBuffers hI hpresent.buffers).bind fun _ =>
    (Table.aloof_presentTextures hI hpresent.textures).bind fun _ => (safe_report _).bind fun _ =>
      Table.aloof_onMachine (Machine.aloof_onDevice (aloof_dispatch hpresent.dispatch))

/-- A dispatch on the device leaves what is bound. -/
theorem keeps_rests_dispatchHardware (hI : Stable I) {groups : Uint3}
    (hpresent : Presentable I s₀ entry groups) :
    Keeps (Rests I s₀) (dispatchHardware entry groups) := by
  intro s hs
  rw [dispatchHardware_eq]
  cases s.dispatcher.layout.entry entry with
  | error e => exact hs
  | ok point =>
    cases hdevice : s.device with
    | none => exact hs
    | some device =>
      dsimp only
      cases agree point entry device with
      | error e => exact hs
      | ok _ => exact keeps_rests_withDevice (safe_present hI hpresent point _).keeps s hs

/-! ## Downloads and releases -/

/-- Downloading a table finds no mistake. -/
theorem safe_download (hI : Stable I) (entry : Nat) :
    Safe (fun s : Dispatcher K × Machine => Rests I s₀ (s.1.on s.2)) NotOfDispatch
      (Dispatcher.onTable entry (Table.onBuffers fun _ => BufferBinding.toHost)) :=
  safe_onTable (Table.aloof_onBuffers fun _ _ _ => BufferBinding.aloof_toHost hI)

/-- A download leaves what is bound. -/
theorem keeps_rests_downloadBuffers (hI : Stable I) (entry : Nat) :
    Keeps (Rests I s₀) (downloadBuffers entry) :=
  (Action.keeps_examine _).bind fun _ => keeps_rests_withDevice (safe_download hI entry).keeps

/-- Releasing all tables finds no mistake. -/
theorem safe_releaseAll (hI : Stable I) :
    Safe (fun s : Dispatcher K × Machine => Rests I s₀ (s.1.on s.2)) NotOfDispatch releaseAll := by
  refine safe_get.bind fun _ => Safe.bind ?_ fun _ => safe_report _
  exact .forEach fun entry _ => safe_onTable (Table.aloof_release hI)

/-- Disposing leaves what is bound. -/
theorem keeps_rests_dispose (hI : Stable I) : Keeps (Rests I s₀) dispose := by
  refine Action.keeps_get.bind fun s => ?_
  cases s.device.isSome with
  | false => exact Action.keeps_pure ()
  | true => exact keeps_rests_withDevice (safe_releaseAll hI).keeps

/-- Marking buffers leaves what is bound. -/
theorem keeps_rests_invalidateBuffers (entry : Nat) :
    Keeps (Rests I s₀) (invalidateBuffers entry) :=
  (Action.keeps_examine _).bind fun _ => Action.keeps_modify fun _ hs =>
    hs.setTable (Table.bound_markDirty _)

/-! ## Emulated dispatches -/

/-- Fetching a texture finds no mistake. -/
theorem safe_fetch (hI : Stable I) (r : TextureRef) :
    Safe (Rests I s₀) NotOfDispatch (fetchTexture r : Action (Bench K) Unit) := by
  rintro ⟨d, m, device⟩ hs
  cases device with
  | none => exact ⟨hs, NoMistake.ok ()⟩
  | some device =>
    obtain ⟨⟨htyped, hdevice⟩, hfails⟩ :=
      Machine.aloof_onTexture r (Texture.aloof_toHost hI) ⟨m, device⟩ ⟨hs.typed, hs.device _ rfl⟩
    refine ⟨⟨hs.layout, hs.bound, htyped, ?_⟩, hfails⟩
    rintro _ ⟨⟩
    exact hdevice

/-- Changing a texture finds none. -/
theorem safe_change (r : TextureRef) (f : Texture → Texture) :
    Safe (Rests I s₀) NotOfDispatch (changeTexture r f : Action (Bench K) Unit) :=
  safe_modify fun _ hs => hs.memory ⟨le_rfl, fun _ _ => rfl⟩

/-- What is bound is put into the fields of the kernel. -/
theorem keeps_rests_enter (hI : Stable I) (table : Table) : Keeps (Rests I s₀) (enter table) := by
  have hkernel (t : Bench K) (kernel : K) (ht : Rests I s₀ t) :
      Rests I s₀ { t with dispatcher := { t.dispatcher with kernel } } :=
        ⟨ht.layout, ht.bound, ht.typed, ht.device⟩
  rw [enter_eq]
  refine .forEach fun p _ => ?_
  obtain ⟨slot, r | r⟩ := p
  · exact keeps_bindBufferField hkernel slot r
  · exact (keeps_bindTextureField hkernel slot r).bind fun _ =>
      (safe_fetch hI r).keeps.bind fun _ =>
      (safe_change r Texture.hintHost).keeps

/-- Bodies that keep the types of buffers leave what is bound. -/
theorem keeps_rests_runGrid {point : EntryPoint K}
    (hbody : ∀ id (t : Scene K), t.memory.Typed (point.body id t).state.memory)
    (groups grid : Uint3) :
    Keeps (Rests I s₀) (runGrid point groups grid) := by
  rw [runGrid]
  split
  · exact Action.keeps_report _
  · refine (Action.keeps_report _).bind fun _ s hs => ?_
    have hlanes : Keeps (fun t : Scene K => s.memory.Typed t.memory) (runLanes point groups) :=
      .forEach fun v _ => (Action.keeps_ofExcept _).bind fun id t ht => ht.trans (hbody id t)
    exact ⟨hs.layout, hs.bound,
      hs.typed.trans (hlanes ⟨s.dispatcher.kernel, s.memory⟩ (.refl _)), hs.device⟩

/-- Leaving the fields of the kernel finds no mistake. -/
theorem safe_leaveBound (entry : Nat) (table : Table) :
    Safe (Rests I s₀) NotOfDispatch (leave entry table : Action (Bench K) Unit) := by
  refine .bind (.forEach fun p _ => safe_change p.2 Texture.applyHostChanges) fun _ =>
    .bind ?_ fun _ => ?_
  · exact safe_modify fun _ hs => hs.setTable (Table.bound_markDirty _)
  · exact safe_modify fun _ hs => ⟨hs.layout, hs.bound, hs.typed, hs.device⟩

/-- An emulated dispatch leaves what is bound. -/
theorem keeps_rests_dispatchEmulated (hI : Stable I)
    (hbodies : ∀ point ∈ s₀.dispatcher.layout.entries, ∀ id (t : Scene K),
      t.memory.Typed (point.body id t).state.memory) (entry : Nat) (groups : Uint3) :
    Keeps (Rests I s₀) (dispatchEmulated entry groups) := by
  intro s hs
  rw [dispatchEmulated_eq, emulation]
  cases hentry : s.dispatcher.layout.entry entry with
  | error e => exact hs
  | ok point =>
    dsimp only
    cases Grid.grid? point.extent groups with
    | none => exact hs
    | some grid =>
      have hbody := hbodies point (hs.layout ▸ (entry_lt hentry).2)
      exact ((keeps_rests_enter hI _).bind fun _ =>
          (keeps_rests_runGrid hbody groups grid).bind fun _ =>
        (safe_leaveBound entry _).keeps) s hs

end Bench

/-! ## Operations -/

namespace BenchOp

/-- Bound buffers are there, and the caller keeps their types. -/
def Proper (m : Memory) : BenchOp → Prop
  | .setBuffer _ _ r => r.index < m.buffers.size
  | .caller change => m.Typed (change m)
  | _ => True

/-- The operation binds a resource to a slot. -/
def Binds : BenchOp → Prop
  | .setBuffer _ _ _ => True
  | .setTexture _ _ _ => True
  | _ => False

/-- **All but binding** leaves what is bound. -/
theorem run_rests {s : Bench K} {op : BenchOp} (hbinds : ¬ op.Binds) (hop : op.Proper s.memory)
    (hbodies : ∀ point ∈ s.dispatcher.layout.entries, ∀ id (t : Scene K),
      t.memory.Typed (point.body id t).state.memory) (hI : Stable I)
    (hpresent : ∀ entry groups, Presentable I s entry groups)
    (hs : ∀ device, s.device = some device → I device) : Rests I s (op.run s) := by
  have hrests : Rests I s s := .refl hs
  cases op with
  | setBuffer | setTexture => exact absurd trivial hbinds
  | invalidate entry => exact keeps_rests_invalidateBuffers entry s hrests
  | hardware entry groups => exact keeps_rests_dispatchHardware hI (hpresent entry groups) s hrests
  | emulated entry groups => exact keeps_rests_dispatchEmulated hI hbodies entry groups s hrests
  | download entry => exact keeps_rests_downloadBuffers hI entry s hrests
  | dispose => exact keeps_rests_dispose hI s hrests
  | caller change => exact hrests.memory hop

end BenchOp

end ComputeKernel
