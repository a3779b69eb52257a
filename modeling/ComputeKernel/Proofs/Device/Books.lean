import ComputeKernel.Proofs.Buffer.Transfer
import ComputeKernel.Proofs.Texture.Exchange

/-!
# The books of the device in host memory

The device in host memory keeps its stores, what is bound, its counts and its log apart from each
other. `Booked` says how they fit together, whoever makes which calls in which order: things are
stored under numbers that were given out, no number is that of a buffer and of a surface, what was
made is there or was released, what is bound is there, a surface has as many texels as its size
says, and every dispatch is on record.

A store with the counts that belong to it is `Tallied`; the four things that can happen to it have a
lemma each. There is one lemma for each operation of the device, `booked_run` is the step, and
`books_balance` the run. No number is given out twice, because each is larger than all before it
(`increasing_numbers`).
-/

namespace ComputeKernel

open HostDevice Keyed

/-! ## A store and its counts -/

namespace Keyed

variable {α : Type}
variable {m : Keyed Nat α}

/-- What is held after something was put there. -/
theorem has_put (m : Keyed Nat α) (k k' : Nat) (a : α) :
    (m.put k a).has k' = (decide (k' = k) || m.has k') := by
  rw [has, get?_put_nat]
  split
  next h => simp [h]
  next h => simp [h, has]

/-- What is held after something was taken away. -/
theorem has_erase (m : Keyed Nat α) (k k' : Nat) :
    (m.erase k).has k' = (decide (k' ≠ k) && m.has k') := by
  rw [has, get?_erase]
  split
  next h => simp [h]
  next h => simp [h, has]

/-- What is held stays held. -/
theorem has_put_of_has {k : Nat} (hk : m.has k = true) (a : α) : (m.put k a).has = m.has := by
  funext k'
  rw [has_put]
  by_cases h : k' = k
  · simp [h, hk]
  · simp [h]

/-- What is new is counted. -/
theorem Ordered.length_put (hm : m.Ordered) (k : Nat) (a : α) :
    (m.put k a).length = m.length + if m.has k then 0 else 1 := by
  rcases hm.put_eq k a with ⟨pre, old, post, rfl, hput⟩ | ⟨pre, post, rfl, hnone, hput⟩
  · have hget : get? (pre ++ (k, old) :: post) k = some old := hm.mem_iff.1 (by simp)
    simp [hput, has, hget]
  · simp only [hput, has, hnone, List.length_append, List.length_cons, Option.isSome_none,
      Bool.false_eq_true, if_false]
    omega

/-- What is taken away is counted. -/
theorem Ordered.length_erase (hm : m.Ordered) (k : Nat) :
    (m.erase k).length + (if m.has k then 1 else 0) = m.length := by
  induction m with
  | nil => rfl
  | cons entry rest ih =>
    obtain ⟨key, value⟩ := entry
    obtain ⟨hlt, hrest⟩ := List.pairwise_cons.1 hm
    have ih := ih hrest
    rw [has, get?_cons]
    by_cases hk : k = key
    · subst hk
      have hnone : get? rest k = none :=
        get?_eq_none_iff.2 fun p hp heq => Nat.lt_irrefl _ (heq ▸ hlt p hp)
      rw [has, hnone] at ih
      simpa [erase] using ih
    · rw [if_neg hk]
      have hkeep : erase ((key, value) :: rest) k = (key, value) :: erase rest k := by
        simp [erase, Ne.symm hk]
      rw [hkeep, List.length_cons, List.length_cons, ← ih, has]
      omega

/-- Things in a store have numbers that were given out. Of those that were made, some were released,
and the others are there. -/
structure Tallied (issued created released : Nat) (store : Keyed Nat α) : Prop where
  ordered : store.Ordered
  issued : ∀ k, store.has k = true → k ≤ issued
  balance : created = released + store.length

namespace Tallied

variable {issued created released : Nat} {store : Keyed Nat α}

/-- A number may pass. -/
theorem pass (h : Tallied issued created released store) :
    Tallied (issued + 1) created released store :=
  { h with issued := fun k hk => (h.issued k hk).trans (Nat.le_succ _) }

/-- The next number is free. -/
theorem not_has_next (h : Tallied issued created released store) : store.has (issued + 1) = false :=
  Bool.eq_false_iff.2 fun hk => Nat.not_succ_le_self _ (h.issued _ hk)

/-- A thing may be made. -/
theorem make (h : Tallied issued created released store) (a : α) :
    Tallied (issued + 1) (created + 1) released (store.put (issued + 1) a) where
  ordered := h.ordered.put _ _
  issued k hk := by
    rw [has_put, Bool.or_eq_true, decide_eq_true_iff] at hk
    rcases hk with rfl | hk
    · exact le_rfl
    · exact (h.issued k hk).trans (Nat.le_succ _)
  balance := by
    rw [h.ordered.length_put, h.not_has_next, h.balance]
    rfl

/-- A thing may be overwritten. -/
theorem overwrite (h : Tallied issued created released store) {k : Nat}
    (hk : store.has k = true) (a : α) :
    Tallied issued created released (store.put k a) where
  ordered := h.ordered.put _ _
  issued k' hk' := h.issued k' (has_put_of_has hk a ▸ hk')
  balance := by
    rw [h.ordered.length_put, if_pos hk, h.balance]
    rfl

/-- A thing may be released. -/
theorem release (h : Tallied issued created released store) (k : Nat) :
    Tallied issued created (released + if store.has k then 1 else 0) (store.erase k) where
  ordered := h.ordered.sublist List.filter_sublist
  issued k' hk' := by
    rw [has_erase, Bool.and_eq_true] at hk'
    exact h.issued k' hk'.2
  balance := by
    have hlength := h.ordered.length_erase k
    have hbalance := h.balance
    omega

/-- What was made less what was released is what there is. -/
theorem counts (h : Tallied issued created released store) :
    store.keys.Nodup ∧ released ≤ created ∧ created - released = store.length := by
  have hbalance := h.balance
  exact ⟨h.ordered.nodup_keys, by omega, by omega⟩

end Tallied

end Keyed

/-! ## The books -/

/-- All that is bound is in the stores. -/
structure HostBindings.Live (buffers : Keyed Nat MemoryBlock) (surfaces : Keyed Nat HostSurface)
    (b : HostBindings) :
    Prop where
  buffers : ∀ p ∈ b.buffers, buffers.has p.2.id = true
  textures : ∀ p ∈ b.textures, surfaces.has p.2.id = true

/-- A surface with as many texels as its size says. -/
def HostSurface.Full (s : HostSurface) : Prop := s.pixels.size = s.width.toNat * s.height.toNat

namespace HostDevice

/-- How what the device keeps fits together. -/
structure Booked (d : HostDevice) : Prop where
  buffers : Tallied d.issued d.stats.buffersCreated d.stats.buffersReleased d.buffers
  surfaces : Tallied d.issued d.stats.surfacesCreated d.stats.surfacesReleased d.surfaces
  apart : ∀ k, d.buffers.has k = true → d.surfaces.has k = false
  /-- There is one place for what is bound for each entry point. -/
  places : d.bound.length = d.entries.length
  live : ∀ b ∈ d.bound, b.Live d.buffers d.surfaces
  full : ∀ k, ∀ s ∈ d.surfaces.get? k, s.Full
  logged : d.stats.dispatches = d.log.length

namespace Booked

variable {d d' : HostDevice}

/-- The books of a new device balance. -/
theorem ofEntries (entries : List String) : (ofEntries entries).Booked where
  buffers := ⟨.nil, fun _ hk => (nomatch hk), rfl⟩
  surfaces := ⟨.nil, fun _ hk => (nomatch hk), rfl⟩
  apart _ hk := nomatch hk
  places := List.length_map _
  live b hb := by
    obtain ⟨_, -, rfl⟩ := List.mem_map.1 hb
    exact ⟨fun _ hp => (nomatch hp), fun _ hp => (nomatch hp)⟩
  full _ _ hs := nomatch hs
  logged := rfl

/-- What is bound for an entry point of the device is there. -/
theorem bindings_cases (h : d.Booked) (entry : Nat) :
    d.bindings entry = {} ∨ entry < d.entries.length ∧
    (d.bindings entry).Live d.buffers d.surfaces := by
  rw [bindings]
  cases hrow : d.bound[entry]? with
  | none => exact .inl rfl
  | some b =>
    exact .inr ⟨h.places ▸ (List.getElem?_eq_some_iff.1 hrow).1,
      h.live b (List.mem_of_getElem? hrow)⟩

/-- What is bound for an entry point is there. -/
theorem live_bindings (h : d.Booked) (entry : Nat) :
    (d.bindings entry).Live d.buffers d.surfaces := by
  rcases h.bindings_cases entry with hnone | ⟨-, hlive⟩
  · rw [hnone]
    exact ⟨fun _ hp => (nomatch hp), fun _ hp => (nomatch hp)⟩
  · exact hlive

/-- A number may pass. -/
theorem pass (h : d.Booked) : Booked { d with issued := d.issued + 1 } :=
  ⟨h.buffers.pass, h.surfaces.pass, h.apart, h.places, h.live, h.full, h.logged⟩

/-! ### Buffers -/

/-- A buffer may be made. -/
theorem withBuffer (h : d.Booked) (size : Nat) : (d.withBuffer size).Booked where
  buffers := h.buffers.make _
  surfaces := h.surfaces.pass
  apart k hk := by
    rw [HostDevice.withBuffer, has_put, Bool.or_eq_true, decide_eq_true_iff] at hk
    rcases hk with rfl | hk
    · exact h.surfaces.not_has_next
    · exact h.apart k hk
  places := h.places
  live b hb := by
    obtain ⟨hbuffers, htextures⟩ := h.live b hb
    exact ⟨fun p hp => by rw [HostDevice.withBuffer, has_put, hbuffers p hp,
      Bool.or_true], htextures⟩
  full := h.full
  logged := h.logged

/-- A buffer may be overwritten. -/
theorem overwriteBuffer (h : d.Booked) {k : Nat} (hk : d.buffers.has k = true)
    (block : MemoryBlock) :
    Booked { d with buffers := d.buffers.put k block } where
  buffers := h.buffers.overwrite hk _
  surfaces := h.surfaces
  apart k' hk' := h.apart k' (has_put_of_has hk block ▸ hk')
  places := h.places
  live b hb := ⟨fun p hp => has_put_of_has hk block ▸ (h.live b hb).buffers p hp,
    (h.live b hb).textures⟩
  full := h.full
  logged := h.logged

/-- A release takes away what is bound, too. -/
theorem releaseBuffer (h : d.Booked) (handle : BufferHandle) : (d.releaseBuffer handle).Booked where
  buffers := h.buffers.release _
  surfaces := h.surfaces
  apart k hk := by
    rw [HostDevice.releaseBuffer, has_erase, Bool.and_eq_true] at hk
    exact h.apart k hk.2
  places := (List.length_map _).trans h.places
  live b hb := by
    obtain ⟨old, hold, rfl⟩ := List.mem_map.1 hb
    refine ⟨fun p hp => ?_, (h.live old hold).textures⟩
    obtain ⟨hmem, hother⟩ := List.mem_filter.1 hp
    have hne : p.2.id ≠ handle.id :=
      fun heq => of_decide_eq_true hother (congrArg BufferHandle.mk heq)
    rw [HostDevice.releaseBuffer, has_erase, (h.live old hold).buffers p hmem, Bool.and_true]
    exact decide_eq_true hne
  full := h.full
  logged := h.logged

/-! ### Surfaces -/

/-- A surface may be made. -/
theorem withSurface (h : d.Booked) (width height : UInt32) (format : TexelFormat) :
    (d.withSurface width height format).Booked where
  buffers := h.buffers.pass
  surfaces := h.surfaces.make _
  apart k hk := by
    have hne : k ≠ d.issued + 1 := fun heq => Nat.not_succ_le_self _ (heq ▸ h.buffers.issued k hk)
    rw [HostDevice.withSurface, has_put, h.apart k hk, decide_eq_false hne]
    rfl
  places := h.places
  live b hb := by
    obtain ⟨hbuffers, htextures⟩ := h.live b hb
    exact ⟨hbuffers, fun p hp => by rw [HostDevice.withSurface, has_put, htextures p hp,
      Bool.or_true]⟩
  full k s hs := by
    rw [HostDevice.withSurface, get?_put_nat] at hs
    split at hs
    next =>
      cases hs
      exact Array.size_replicate
    next => exact h.full k s hs
  logged := h.logged

/-- A surface may be overwritten by a full one. -/
theorem overwriteSurface (h : d.Booked) {k : Nat} (hk : d.surfaces.has k = true) {s : HostSurface}
    (hs : s.Full) :
    Booked { d with surfaces := d.surfaces.put k s } where
  buffers := h.buffers
  surfaces := h.surfaces.overwrite hk _
  apart k' hk' := has_put_of_has hk s ▸ h.apart k' hk'
  places := h.places
  live b hb := ⟨(h.live b hb).buffers, fun p hp => has_put_of_has hk s ▸
    (h.live b hb).textures p hp⟩
  full k' s' hs' := by
    rw [get?_put_nat] at hs'
    split at hs'
    next =>
      cases hs'
      exact hs
    next => exact h.full k' s' hs'
  logged := h.logged

/-- A release takes away what is bound, too. -/
theorem releaseSurface (h : d.Booked) (handle : SurfaceHandle) :
    (d.releaseSurface handle).Booked where
  buffers := h.buffers
  surfaces := h.surfaces.release _
  apart k hk := by
    rw [HostDevice.releaseSurface, has_erase, h.apart k hk, Bool.and_false]
  places := (List.length_map _).trans h.places
  live b hb := by
    obtain ⟨old, hold, rfl⟩ := List.mem_map.1 hb
    refine ⟨(h.live old hold).buffers, fun p hp => ?_⟩
    obtain ⟨hmem, hother⟩ := List.mem_filter.1 hp
    have hne : p.2.id ≠ handle.id :=
      fun heq => of_decide_eq_true hother (congrArg SurfaceHandle.mk heq)
    rw [HostDevice.releaseSurface, has_erase, (h.live old hold).textures p hmem, Bool.and_true]
    exact decide_eq_true hne
  full k s hs := by
    rw [HostDevice.releaseSurface, get?_erase] at hs
    split at hs
    next => cases hs
    next => exact h.full k s hs
  logged := h.logged

/-! ### Bindings, counts and the log -/

/-- What is there may be bound. -/
theorem setBindings (h : d.Booked) (entry : Nat) {b : HostBindings}
    (hb : b.Live d.buffers d.surfaces) :
    (d.setBindings entry b).Booked where
  buffers := h.buffers
  surfaces := h.surfaces
  apart := h.apart
  places := List.length_set.trans h.places
  live b' hb' := by
    rcases List.mem_or_eq_of_mem_set hb' with hb' | rfl
    · exact h.live b' hb'
    · exact hb
  full := h.full
  logged := h.logged

/-- How often something was transferred is not in the books. -/
theorem transferred (h : d.Booked) (uploads downloads blits readBacks : Nat) :
    Booked { d with stats := { d.stats with uploads, downloads, blits, readBacks } } :=
  ⟨h.buffers, h.surfaces, h.apart, h.places, h.live, h.full, h.logged⟩

/-- A dispatch may be recorded. -/
theorem log (h : d.Booked) (record : DispatchRecord) :
    Booked { d with log := d.log ++ [record], stats.dispatches := d.stats.dispatches + 1 } :=
  ⟨h.buffers, h.surfaces, h.apart, h.places, h.live, h.full,
    by rw [List.length_append, h.logged]; rfl⟩

end Booked

end HostDevice

/-! ## Calls -/

/-- A call of the device in host memory. -/
inductive HostCall where
  | createBuffer (count stride : Nat)
  | upload (handle : BufferHandle) (bytes : Bytes)
  | download (handle : BufferHandle) (size : Nat)
  | releaseBuffer (handle : BufferHandle)
  | createSurface (width height : UInt32) (format : TexelFormat)
  | blit (handle : SurfaceHandle) (pixels : Array Float4)
  /-- The texels are read into the place of others. -/
  | readBack (handle : SurfaceHandle) (out : Array Float4)
  | releaseSurface (handle : SurfaceHandle)
  | bindBuffer (entry : Nat) (slot : String) (handle : BufferHandle)
  | bindTexture (entry : Nat) (slot : String) (handle : SurfaceHandle)
  | dispatch (entry : Nat) (groups : Uint3)
  /-- A buffer is written as a kernel would do. -/
  | writeBuffer (handle : BufferHandle) (bytes : Bytes)
  /-- A texel is written as a kernel would do. -/
  | writePixel (handle : SurfaceHandle) (x y : UInt32) (value : Float4)

/-- What the device in host memory answers. -/
inductive HostAnswer where
  | buffer (handle : BufferHandle)
  | surface (handle : SurfaceHandle)
  | bytes (bytes : Bytes)
  | texels (texels : Array Float4)
  /-- Whether there was something to write to. -/
  | written (found : Bool)
  | done
deriving DecidableEq

/-- The number that is given out with an answer. -/
def HostAnswer.number? : HostAnswer → Option Nat
  | .buffer h => some h.id
  | .surface h => some h.id
  | .bytes _ | .texels _ | .written _ | .done => none

namespace HostCall

/-- A step of the device, and how its end is told. -/
def step {α ε : Type} (answer : α → HostAnswer) (failure : ε → Failure)
    (f : HostDevice → Except ε (α × HostDevice)) : Action HostDevice HostAnswer :=
  .step fun d => ((f d).map fun (a, next) => (answer a, next)).mapError failure

/-- A change that the device may refuse. -/
def change (f : HostDevice → Except DeviceError HostDevice) : Action HostDevice HostAnswer :=
  step (fun () => .done) .device fun d => (f d).map fun next => ((), next)

/-- What the device does for a call. -/
def run : HostCall → Action HostDevice HostAnswer
  | .createBuffer count stride => HostDevice.createBuffer count stride >>= fun h => pure (.buffer h)
  | .upload h bytes => change fun d => d.upload h bytes
  | .download h size => step .bytes .device fun d => d.download h size
  | .releaseBuffer h => change fun d => .ok (d.releaseBuffer h)
  | .createSurface width height format =>
    HostDevice.createSurface width height format >>= fun h => pure (.surface h)
  | .blit h pixels => change fun d => d.blit h pixels
  | .readBack h out => step .texels .device fun d => d.readBack h out
  | .releaseSurface h => change fun d => .ok (d.releaseSurface h)
  | .bindBuffer entry slot h => change fun d => d.bindBuffer entry slot h
  | .bindTexture entry slot h => change fun d => d.bindTexture entry slot h
  | .dispatch entry groups => change fun d => d.dispatch entry groups
  | .writeBuffer h bytes => step .written Failure.fault fun d => .ok (d.writeBuffer h bytes)
  | .writePixel h x y value => step .written .fault fun d => d.writePixel h x y value

/-- The device after calls, some of which may have failed. -/
def runAll (calls : List HostCall) (d : HostDevice) : HostDevice :=
  calls.foldl (fun d c => (c.run d).state) d

/-- The answers to calls that are made one after the other. -/
def answers : List HostCall → HostDevice → List (Except Failure HostAnswer)
  | [], _ => []
  | c :: calls, d => (c.run d).result :: answers calls (c.run d).state

/-- The numbers that are given out by calls, in order. -/
def numbers (calls : List HostCall) (d : HostDevice) : List Nat :=
  (answers calls d).filterMap fun
    | .ok a => a.number?
    | .error _ => none

end HostCall

/-- A call that came to nothing. -/
def Outcome.Refused (o : Outcome HostDevice HostAnswer) : Prop :=
  (∃ e, o.result = .error (.device e)) ∨ o.result = .ok (.written false)

/-- What is true of every call of the device. -/
structure HostDevice.Answers (d : HostDevice) (o : Outcome HostDevice HostAnswer) : Prop where
  booked : d.Booked → o.state.Booked
  refused : o.Refused → o.state = d
  /-- A fault uses up a number at most. -/
  fault : ∀ e, o.result = .error e → o.state = { d with issued := o.state.issued }
  issued : d.issued ≤ o.state.issued
  number : ∀ a, o.result = .ok a → ∀ n ∈ a.number?, d.issued < n ∧ n ≤ o.state.issued

namespace HostDevice.Answers

variable {d d' : HostDevice}

/-- A call may fail. -/
theorem failed (failure : Failure) : d.Answers ⟨.error failure, d, []⟩ where
  booked h := h
  refused _ := rfl
  fault _ _ := rfl
  issued := le_rfl
  number _ ha := nomatch ha

/-- A call may fault with a number passed. -/
theorem passed (fault : Fault) :
    d.Answers ⟨.error (.fault fault), { d with issued := d.issued + 1 }, []⟩ where
  booked h := h.pass
  refused
    | .inl ⟨_, he⟩ => nomatch he
    | .inr he => nomatch he
  fault _ _ := rfl
  issued := Nat.le_succ _
  number _ ha := nomatch ha

/-- A call may give out the next number. -/
theorem made {a : HostAnswer} (ha : a.number? = some (d.issued + 1))
    (hissued : d'.issued = d.issued + 1) (hbooked : d.Booked → d'.Booked) :
    d.Answers ⟨.ok a, d', []⟩ where
  booked := hbooked
  refused
    | .inl ⟨_, he⟩ => nomatch he
    | .inr he => by
      cases he
      cases ha
  fault _ he := nomatch he
  issued := hissued ▸ Nat.le_succ _
  number a' ha' n hn := by
    cases ha'
    rw [ha] at hn
    cases hn
    exact ⟨Nat.lt_succ_self _, hissued.ge⟩

/-- A step gives out no number. -/
theorem step {α ε : Type} {answer : α → HostAnswer} {failure : ε → Failure}
    {f : HostDevice → Except ε (α × HostDevice)} (hanswer : ∀ a, (answer a).number? = none)
    (hbooked : ∀ a d', f d = .ok (a, d') → d'.issued = d.issued ∧ (d.Booked → d'.Booked))
    (hwritten : ∀ a d', f d = .ok (a, d') → answer a = .written false → d' = d) :
    d.Answers (HostCall.step answer failure f d) := by
  rw [HostCall.step, Action.step]
  cases hf : f d with
  | error e => exact failed _
  | ok r =>
    obtain ⟨a, d'⟩ := r
    obtain ⟨hissued, hbooked⟩ := hbooked a d' hf
    exact {
      booked := hbooked
      refused := fun hrefused => by
        rcases hrefused with ⟨_, he⟩ | he
        · cases he
        · exact hwritten a d' hf (Except.ok.inj he)
      fault := fun _ he => by cases he
      issued := hissued.ge
      number := fun a' ha' n hn => by
        cases ha'
        rw [hanswer] at hn
        cases hn }

/-- A change gives out no number. -/
theorem change {f : HostDevice → Except DeviceError HostDevice}
    (hbooked : ∀ d', f d = .ok d' → d'.issued = d.issued ∧ (d.Booked → d'.Booked)) :
    d.Answers (HostCall.change f d) := by
  refine step (fun _ => rfl) (fun a d' h => ?_) fun _ _ _ h => (nomatch h)
  cases hf : f d with
  | error e =>
    rw [hf] at h
    cases h
  | ok next =>
    rw [hf] at h
    cases h
    exact hbooked d' hf

end HostDevice.Answers

/-! ### One lemma for each operation -/

namespace HostDevice

variable {d d' : HostDevice}
variable {entry : Nat} {h : SurfaceHandle}

/-- Making a buffer answers so. -/
theorem answers_createBuffer (d : HostDevice) (count stride : Nat) :
    d.Answers ((createBuffer count stride >>= fun h => pure (.buffer h)) d) := by
  by_cases hword : count * stride < UInt64.size
  · by_cases hfits : count * stride ≤ Size.maxBlock
    · have hmade : createBuffer count stride d =
          { result := .ok ⟨d.issued + 1⟩, state := d.withBuffer (count * stride) } := by
        simp only [createBuffer, if_pos hword, Size.checkBlock, if_pos hfits]
        rfl
      rw [Action.bind_of_ok hmade]
      exact .made rfl rfl fun h => h.withBuffer _
    · have hpassed : createBuffer count stride d =
          { result := .error (.fault .capacity), state := { d with issued := d.issued + 1 } } := by
        simp only [createBuffer, if_pos hword, Size.checkBlock, if_neg hfits]
        rfl
      rw [Action.bind_eq, hpassed]
      exact .passed _
  · rw [createBuffer, if_neg hword]
    exact .failed _

/-- Making a surface answers so. -/
theorem answers_createSurface (d : HostDevice) (width height : UInt32) (format : TexelFormat) :
    d.Answers ((createSurface width height format >>= fun h => pure (.surface h)) d) := by
  rw [Action.bind_eq, createSurface_eq_ite]
  split_ifs
  · exact .made rfl rfl fun h => h.withSurface _ _ _
  · exact .passed _

/-- Sending to a buffer keeps the books. -/
theorem booked_upload {h : BufferHandle} {bytes : Bytes} (hd : d.upload h bytes = .ok d') :
    d'.issued = d.issued ∧ (d.Booked → d'.Booked) := by
  rw [upload] at hd
  split at hd
  next => cases hd
  next data hdata =>
    split at hd
    next =>
      cases hd
      have hhas : d.buffers.has h.id = true := by rw [Keyed.has, hdata]; rfl
      exact ⟨rfl, fun hbooked => (hbooked.overwriteBuffer hhas _).transferred _ _ _ _⟩
    next => cases hd

/-- Reading a buffer keeps them. -/
theorem booked_download {h : BufferHandle} {size : Nat} {bytes : Bytes}
    (hd : d.download h size = .ok (bytes, d')) :
    d'.issued = d.issued ∧ (d.Booked → d'.Booked) := by
  rw [download] at hd
  split at hd
  next => cases hd
  next =>
    split at hd
    next =>
      cases hd
      exact ⟨rfl, fun hbooked => hbooked.transferred _ _ _ _⟩
    next => cases hd

/-- Sending to a surface keeps them. -/
theorem booked_blit {pixels : Array Float4} (hd : d.blit h pixels = .ok d') :
    d'.issued = d.issued ∧ (d.Booked → d'.Booked) := by
  rw [blit] at hd
  split at hd
  next => cases hd
  next s hs =>
    split at hd
    next hsize =>
      cases hd
      have hhas : d.surfaces.has h.id = true := by rw [Keyed.has, hs]; rfl
      refine ⟨rfl, fun hbooked => (hbooked.overwriteSurface hhas ?_).transferred _ _ _ _⟩
      exact hsize.symm.trans (hbooked.full _ s hs)
    next => cases hd

/-- Reading a surface keeps them. -/
theorem booked_readBack {out image : Array Float4} (hd : d.readBack h out = .ok (image, d')) :
    d'.issued = d.issued ∧ (d.Booked → d'.Booked) := by
  rw [readBack] at hd
  split at hd
  next => cases hd
  next =>
    split at hd
    next =>
      cases hd
      exact ⟨rfl, fun hbooked => hbooked.transferred _ _ _ _⟩
    next => cases hd

/-- Binding a buffer keeps them. -/
theorem booked_bindBuffer {slot : String} {h : BufferHandle}
    (hd : d.bindBuffer entry slot h = .ok d') :
    d'.issued = d.issued ∧ (d.Booked → d'.Booked) := by
  rw [bindBuffer] at hd
  split at hd
  next =>
    split at hd
    next hhas =>
      cases hd
      refine ⟨rfl, fun hbooked => hbooked.setBindings entry ⟨fun p hp => ?_,
        (hbooked.live_bindings entry).textures⟩⟩
      rcases mem_put hp with rfl | hp
      · exact hhas
      · exact (hbooked.live_bindings entry).buffers p hp
    next => cases hd
  next => cases hd

/-- Binding a texture keeps them. -/
theorem booked_bindTexture {slot : String}
    (hd : d.bindTexture entry slot h = .ok d') : d'.issued = d.issued ∧ (d.Booked → d'.Booked) := by
  rw [bindTexture] at hd
  split at hd
  next =>
    split at hd
    next hhas =>
      cases hd
      refine ⟨rfl, fun hbooked => hbooked.setBindings entry ⟨(hbooked.live_bindings entry).buffers,
        fun p hp => ?_⟩⟩
      rcases mem_put hp with rfl | hp
      · exact hhas
      · exact (hbooked.live_bindings entry).textures p hp
    next => cases hd
  next => cases hd

/-- A dispatch keeps them. -/
theorem booked_dispatch {groups : Uint3} (hd : d.dispatch entry groups = .ok d') :
    d'.issued = d.issued ∧ (d.Booked → d'.Booked) := by
  rw [dispatch] at hd
  split at hd
  next =>
    cases hd
    exact ⟨rfl, fun hbooked => hbooked.log _⟩
  next => cases hd

/-- A buffer is overwritten, or nothing is. -/
theorem writeBuffer_cases (d : HostDevice) (h : BufferHandle) (bytes : Bytes) :
    (d.buffers.has h.id = true ∧
      d.writeBuffer h bytes = (true, { d with buffers := d.buffers.put h.id (.written bytes) })) ∨
    d.writeBuffer h bytes = (false, d) := by
  rw [writeBuffer]
  split
  next data hdata =>
    split
    next =>
      refine .inl ⟨?_, rfl⟩
      rw [Keyed.has, hdata]
      rfl
    next => exact .inr rfl
  next => exact .inr rfl

/-- A texel is overwritten, or nothing is. -/
theorem writePixel_cases {x y : UInt32} {value : Float4} {found : Bool}
    (hd : d.writePixel h x y value = .ok (found, d')) :
    (found = true ∧ ∃ s position, d.surfaces.get? h.id = some s ∧ d' = { d with
      surfaces := d.surfaces.put h.id { s with
        pixels := s.pixels.setIfInBounds position value } }) ∨
    found = false ∧ d' = d := by
  rw [writePixel_eq] at hd
  split at hd
  next s hs =>
    split_ifs at hd
    · cases hd
      exact .inl ⟨rfl, s, _, hs, rfl⟩
    · cases hd
      exact .inr ⟨rfl, rfl⟩
  next =>
    cases hd
    exact .inr ⟨rfl, rfl⟩

end HostDevice

namespace HostCall

variable {d : HostDevice}

/-- Writing a buffer answers so. -/
theorem answers_writeBuffer (d : HostDevice) (h : BufferHandle) (bytes : Bytes) :
    d.Answers (run (.writeBuffer h bytes) d) := by
  refine .step (fun _ => rfl) (fun found d' hd => ?_) fun found d' hd hfound => ?_
  · rcases d.writeBuffer_cases h bytes with ⟨hhas, heq⟩ | heq
    · cases (Except.ok.inj hd).symm.trans heq
      exact ⟨rfl, fun hbooked => hbooked.overwriteBuffer hhas _⟩
    · cases (Except.ok.inj hd).symm.trans heq
      exact ⟨rfl, id⟩
  · cases hfound
    rcases d.writeBuffer_cases h bytes with ⟨-, heq⟩ | heq
    · cases (Except.ok.inj hd).symm.trans heq
    · cases (Except.ok.inj hd).symm.trans heq
      rfl

/-- Writing a texel answers so. -/
theorem answers_writePixel (d : HostDevice) (h : SurfaceHandle) (x y : UInt32) (value : Float4) :
    d.Answers (run (.writePixel h x y value) d) := by
  refine .step (fun _ => rfl) (fun found d' hd => ?_) fun found d' hd hfound => ?_
  · rcases writePixel_cases hd with ⟨-, s, position, hs, rfl⟩ | ⟨-, rfl⟩
    · have hhas : d.surfaces.has h.id = true := by rw [Keyed.has, hs]; rfl
      refine ⟨rfl, fun hbooked => hbooked.overwriteSurface hhas ?_⟩
      exact Array.size_setIfInBounds.trans (hbooked.full _ s hs)
    · exact ⟨rfl, id⟩
  · cases hfound
    rcases writePixel_cases hd with ⟨hfound, -⟩ | ⟨-, rfl⟩
    · cases hfound
    · rfl

/-- **What one call does.** -/
theorem answers_run (call : HostCall) (d : HostDevice) : d.Answers (call.run d) := by
  cases call with
  | createBuffer count stride => exact d.answers_createBuffer count stride
  | upload h bytes => exact .change fun _ => booked_upload
  | download h size =>
    exact .step (fun _ => rfl) (fun _ _ => booked_download) fun _ _ _ hfalse => (nomatch hfalse)
  | releaseBuffer h =>
    refine .change fun d' hd => ?_
    cases hd
    exact ⟨rfl, fun hbooked => hbooked.releaseBuffer h⟩
  | createSurface width height format => exact d.answers_createSurface width height format
  | blit h pixels => exact .change fun _ => booked_blit
  | readBack h out =>
    exact .step (fun _ => rfl) (fun _ _ => booked_readBack) fun _ _ _ hfalse => (nomatch hfalse)
  | releaseSurface h =>
    refine .change fun d' hd => ?_
    cases hd
    exact ⟨rfl, fun hbooked => hbooked.releaseSurface h⟩
  | bindBuffer entry slot h => exact .change fun _ => booked_bindBuffer
  | bindTexture entry slot h => exact .change fun _ => booked_bindTexture
  | dispatch entry groups => exact .change fun _ => booked_dispatch
  | writeBuffer h bytes => exact answers_writeBuffer d h bytes
  | writePixel h x y value => exact answers_writePixel d h x y value

/-! ## Runs -/

/-- **The run.** The books balance after all calls. -/
theorem booked_runAll (calls : List HostCall) (hd : d.Booked) : (runAll calls d).Booked := by
  induction calls generalizing d with
  | nil => exact hd
  | cons call calls ih => exact ih ((call.answers_run d).booked hd)

/-- Numbers are given out in increasing order. -/
theorem increasing_numbers (calls : List HostCall) (d : HostDevice) :
    (numbers calls d).Pairwise (· < ·) ∧ ∀ n ∈ numbers calls d, d.issued < n := by
  induction calls generalizing d with
  | nil => exact ⟨.nil, fun _ hn => (nomatch hn)⟩
  | cons call calls ih =>
    obtain ⟨hrest, hlater⟩ := ih (call.run d).state
    have hanswers := call.answers_run d
    have hlater' : ∀ n ∈ numbers calls (call.run d).state, d.issued < n :=
      fun n hn => hanswers.issued.trans_lt (hlater n hn)
    rw [numbers, answers, List.filterMap_cons, ← numbers]
    cases hresult : (call.run d).result with
    | error e => exact ⟨hrest, hlater'⟩
    | ok a =>
      dsimp only
      cases hnumber : a.number? with
      | none => exact ⟨hrest, hlater'⟩
      | some n =>
        obtain ⟨hfirst, hle⟩ := hanswers.number a hresult n hnumber
        exact ⟨.cons (fun n' hn' => hle.trans_lt (hlater n' hn')) hrest,
          List.forall_mem_cons.2 ⟨hfirst, hlater'⟩⟩

end HostCall

/-- **The books of the device balance.** Whatever calls were made of a new device, with whatever
arguments and whether or not they succeeded: no number was given out twice, and none is that of a
buffer and of a surface; the buffers that are there are those made less those released, and so for
surfaces; what is bound for a slot is there, and the entry point is one that the device has; every
surface has the texels of its size; and there are as many dispatches as records of them. A call that
is refused next changes nothing, and one that faults uses up a number at most. -/
theorem books_balance (entries : List String) (calls : List HostCall) :
    let d := HostCall.runAll calls (.ofEntries entries)
    (HostCall.numbers calls (.ofEntries entries)).Nodup ∧
      (∀ k, ¬ (d.buffers.has k = true ∧ d.surfaces.has k = true)) ∧
      (d.buffers.keys.Nodup ∧ d.stats.buffersReleased ≤ d.stats.buffersCreated ∧
        d.stats.buffersCreated - d.stats.buffersReleased = d.buffers.length) ∧
      (d.surfaces.keys.Nodup ∧ d.stats.surfacesReleased ≤ d.stats.surfacesCreated ∧
        d.stats.surfacesCreated - d.stats.surfacesReleased = d.surfaces.length) ∧
      (∀ entry, ∀ p ∈ (d.bindings entry).buffers, entry < d.entries.length ∧
        d.buffers.has p.2.id = true) ∧
      (∀ entry, ∀ p ∈ (d.bindings entry).textures, entry < d.entries.length ∧
        d.surfaces.has p.2.id = true) ∧
      (∀ k s, d.surfaces.get? k = some s → s.pixels.size = s.width.toNat * s.height.toNat) ∧
      d.stats.dispatches = d.log.length ∧
      ∀ call : HostCall, ((call.run d).Refused → (call.run d).state = d) ∧
        ∀ e, (call.run d).result = .error e →
          (call.run d).state = { d with issued := (call.run d).state.issued } := by
  intro d
  have hd : d.Booked := HostCall.booked_runAll calls (.ofEntries entries)
  have hnumbers := (HostCall.increasing_numbers calls (.ofEntries entries)).1
  refine ⟨hnumbers.imp Nat.ne_of_lt, fun k hk => ?_, hd.buffers.counts, hd.surfaces.counts,
    fun entry p hp => ?_, fun entry p hp => ?_, hd.full, hd.logged, fun call => ?_⟩
  · exact Bool.noConfusion ((hd.apart k hk.1).symm.trans hk.2)
  · rcases hd.bindings_cases entry with hnone | ⟨hlt, hlive⟩
    · rw [hnone] at hp
      cases hp
    · exact ⟨hlt, hlive.buffers p hp⟩
  · rcases hd.bindings_cases entry with hnone | ⟨hlt, hlive⟩
    · rw [hnone] at hp
      cases hp
    · exact ⟨hlt, hlive.textures p hp⟩
  · exact ⟨(call.answers_run d).refused, (call.answers_run d).fault⟩

end ComputeKernel
