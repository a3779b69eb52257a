import ComputeKernel.Proofs.Dispatch.Supply

/-!
# A buffer and its copy agree

A buffer has its elements twice, on the host and in the copy on the device, and one flag says that
the copy is behind. The host writes elements and marks the copy, and kernels write the copy and mark
nothing. `BufferBinding.Coherent` is what the flag means then: a copy that is not marked is there
and has as many elements as the buffer, and the same bytes unless a kernel has written to it since
the last transfer. `Watched.coherent_take` is the step and `unmarked_copy_agrees` the run.

All arrays have elements of one type here: one of another type may have as many elements and other
bytes.
-/

namespace ComputeKernel

open Buffer
open ComputeKernel.Action Memory

namespace BufferBinding

/-! ## What is done to a buffer -/

/-- Write an element on the host, if the array has it. -/
def write (r : BufferRef) (i : Nat) (value : List UInt32) : Action (BufferBinding × Machine) Unit :=
  .step fun (b, m) =>
    match (m.memory.buffer r).set i value with
    | .ok host => .ok ((), b, { m with memory := m.memory.setBuffer r host })
    | .error e => .error (.fault e)

/-- A kernel overwrites the copy, if there is one of that size on a device in host memory. -/
def kernelWrite (bytes : Bytes) : Action (BufferBinding × Machine) Bool := fun (b, m) =>
  match b.copy, m.device with
  | some c, .host d =>
    { result := .ok (d.writeBuffer c.handle bytes).1
      state := (b, { m with device := .host (d.writeBuffer c.handle bytes).2 }) }
  | _, _ => { result := .ok false, state := (b, m) }

end BufferBinding

/-- What may be done with a bound buffer and around it. -/
inductive BufferStep where
  /-- A new array is made in host memory. -/
  | make (host : Buffer)
  /-- An array of host memory takes the place of the bound one. -/
  | update (r : BufferRef)
  /-- An element of an array is written, and then the copy is marked as behind. -/
  | write (r : BufferRef) (i : Nat) (value : List UInt32)
  | markDirty
  | toDevice
  | toHost
  | release
  | kernel (bytes : Bytes)

/-- A bound buffer, with what is around it. -/
structure Watched where
  binding : BufferBinding
  machine : Machine
  /-- A kernel has written to the copy since the last transfer. -/
  written : Bool := false

/-- An upload or a download of a buffer. -/
def Event.isTransfer : Event → Bool
  | .bufferUploaded .. | .bufferDownloaded .. => true
  | _ => false

namespace Watched

/-- The binding and the machine. -/
def state (w : Watched) : BufferBinding × Machine := (w.binding, w.machine)

/-- What an action leaves. A transfer makes both sides one. -/
def after {α : Type} (w : Watched) (a : Action (BufferBinding × Machine) α) : Watched where
  binding := (a w.state).state.1
  machine := (a w.state).state.2
  written := w.written && !(a w.state).events.any Event.isTransfer

open BufferBinding in
/-- What a step leaves. -/
def take (w : Watched) : BufferStep → Watched
  | .make host => { w with machine.memory := (w.machine.memory.addBuffer host).2 }
  | .update r =>
    if r.index < w.machine.memory.buffers.size then { w with binding := w.binding.rebind r } else w
  | .write r i value => w.after (write r i value >>= fun _ => change markDirty)
  | .markDirty => w.after (change markDirty)
  | .toDevice => w.after toDevice
  | .toHost => w.after toHost
  | .release => w.after release
  | .kernel bytes =>
    { w.after (kernelWrite bytes) with
      written := w.written || (kernelWrite bytes w.state).result matches .ok true }

/-- What steps leave. -/
def run (steps : List BufferStep) (w : Watched) : Watched := steps.foldl take w

end Watched

/-- Writing an element keeps the type of the elements. -/
theorem Buffer.element_of_set {b b' : Buffer} {i : Nat} {value : List UInt32}
    (h : b.set i value = .ok b') :
    b'.element = b.element := by
  rw [set] at h
  cases hcheck : b.checkIndex i with
  | error e =>
    rw [hcheck] at h
    cases h
  | ok =>
    rw [hcheck] at h
    cases h
    rfl

namespace Memory

/-- A buffer that is there is one of the memory. -/
theorem buffer_mem {m : Memory} {r : BufferRef} (h : r.index < m.buffers.size) :
    m.buffer r ∈ m.buffers := by
  rw [buffer, Array.getElem?_eq_getElem h]
  exact Array.getElem_mem h

/-- There are as many buffers as before. -/
theorem size_setBuffer (m : Memory) (r : BufferRef) (host : Buffer) :
    (m.setBuffer r host).buffers.size = m.buffers.size := Array.size_setIfInBounds

/-- A new buffer leaves the others. -/
theorem buffer_addBuffer {m : Memory} {r : BufferRef} (h : r.index < m.buffers.size)
    (host : Buffer) :
    (m.addBuffer host).2.buffer r = m.buffer r := by
  rw [buffer, buffer, addBuffer, Array.getElem?_push, if_neg h.ne]

end Memory

namespace BufferBinding

/-! ## The invariant -/

/-- The bytes that the copy has on the device. -/
def copyBytes? (b : BufferBinding) (d : HostDevice) : Option Bytes := do
  let c ← b.copy
  let block ← d.buffers.get? c.handle.id
  return block.bytes

/-- What the flag means while all arrays have one type. -/
structure Coherent (element : Element) (b : BufferBinding) (m : Memory) (d : HostDevice)
    (written : Bool) : Prop where
  arrays : ∀ host ∈ m.buffers, host.element = element
  bound : b.buffer.index < m.buffers.size
  /-- The copy is on the device with the bytes of its elements, be it behind or not. -/
  stored : ∀ c, b.copy = some c →
    ∃ block, d.buffers.get? c.handle.id = some block ∧ block.size = c.count * element.stride
  fits : b.dirty = false → b.Fits m
  agrees : b.dirty = false → written = false → b.copyBytes? d = some (m.buffer b.buffer).bytes

variable {element : Element} {b b' : BufferBinding} {m m' : Memory} {d d' : HostDevice}
    {written written' : Bool}

/-- The bytes of a copy that is there. -/
theorem copyBytes?_eq {c : DeviceCopy} {block : MemoryBlock} (hc : b.copy = some c)
    (hblock : d.buffers.get? c.handle.id = some block) : b.copyBytes? d = some block.bytes := by
  simp [copyBytes?, hc, hblock]

/-! ## Sending a marked copy -/

/-- A copy with as many elements as the buffer takes its bytes. -/
def Ready (b : BufferBinding) (m : Memory) (d : HostDevice) : Prop :=
  ∀ c, b.copy = some c → c.count = (m.buffer b.buffer).length →
    ∃ block, d.buffers.get? c.handle.id = some block ∧ block.size = (m.buffer b.buffer).bytes.length

/-- A copy that is marked has room before it is sent. -/
theorem ensureCopy_of_ready (hdirty : b.dirty = true) (h : b.Ready m d) :
    ∃ handle d' events block, ensureCopy (b, ⟨m, .host d⟩) =
        ⟨.ok handle, (b.withCopy handle (m.buffer b.buffer).length, ⟨m, .host d'⟩), events⟩ ∧
      d'.buffers.get? handle.id = some block ∧ block.size = (m.buffer b.buffer).bytes.length := by
  have hmade : ∀ d : HostDevice,
      (d.withBuffer ((m.buffer b.buffer).length * (m.buffer b.buffer).stride)).buffers.get?
        (d.issued + 1) =
        some (.blank ((m.buffer b.buffer).length * (m.buffer b.buffer).stride)) := fun d =>
    Keyed.get?_put_self _ _ _
  have hsize : (MemoryBlock.blank ((m.buffer b.buffer).length * (m.buffer b.buffer).stride)).size =
      (m.buffer b.buffer).bytes.length := (length_bytes _).symm
  cases hcopy : b.copy with
  | none =>
    rw [ensureCopy_of_none d hcopy, makeCopy_eq]
    exact ⟨_, _, _, _, rfl, hmade d, hsize⟩
  | some c =>
    by_cases hcount : c.count = (m.buffer b.buffer).length
    · obtain ⟨block, hblock, hblocksize⟩ := h c hcopy hcount
      refine ⟨c.handle, d, [], block, ?_, hblock, hblocksize⟩
      rw [ensureCopy_of_fits _ hcopy hcount, withCopy, ← hcount, ← hdirty, ← hcopy]
    · rw [ensureCopy_of_count_ne d hcopy hcount, makeCopy_eq]
      exact ⟨_, _, _, _, rfl, hmade _, hsize⟩

/-- A copy that is marked is sent. -/
theorem toDevice_of_ready (hdirty : b.dirty = true) (h : b.Ready m d) :
    ∃ handle d' events, toDevice (b, ⟨m, .host d⟩) =
        ⟨.ok handle, ({ b with copy := some ⟨handle, (m.buffer b.buffer).length⟩, dirty := false },
        ⟨m, .host d'⟩),
          events⟩ ∧
      d'.buffers.get? handle.id = some (.written (m.buffer b.buffer).bytes) := by
  obtain ⟨handle, d', events, block, hensure, hblock, hsize⟩ := ensureCopy_of_ready hdirty h
  refine ⟨handle, { d' with
    buffers := d'.buffers.put handle.id (.written (m.buffer b.buffer).bytes)
    stats.uploads := d'.stats.uploads + 1 },
    events ++ [.bufferUploaded (m.buffer b.buffer).length (m.buffer b.buffer).element.typeName], ?_,
    Keyed.get?_put_self _ _ _⟩
  rw [toDevice, bind_eq, hensure]
  dsimp only
  rw [contents_bind, get_bind]
  simp only [withCopy, reduceIte, bind_eq, report, onDevice_apply,
    HostDevice.upload_eq_ok hblock hsize]
  rfl

namespace Coherent

/-- The elements have the size of the type. -/
theorem stride_eq (h : Coherent element b m d written) :
    (m.buffer b.buffer).stride = element.stride := by
  rw [stride, h.arrays _ (buffer_mem h.bound)]

/-- An array may be replaced by one of the same type. -/
theorem arrays_setBuffer (h : Coherent element b m d written) {r : BufferRef} {host : Buffer}
    (hhost : host.element = (m.buffer r).element) :
    ∀ host' ∈ (m.setBuffer r host).buffers, host'.element = element := by
  intro host' hmem
  by_cases hr : r.index < m.buffers.size
  · rcases Array.mem_or_eq_of_mem_setIfInBounds hmem with hold | rfl
    · exact h.arrays host' hold
    · exact hhost.trans (h.arrays _ (buffer_mem hr))
  · rw [setBuffer, Array.setIfInBounds_eq_of_size_le (Nat.le_of_not_lt hr)] at hmem
    exact h.arrays host' hmem

/-- What marks the copy as behind may change the arrays. -/
theorem of_dirty (h : Coherent element b m d written) (hcopy : b'.copy = b.copy)
    (hdirty : b'.dirty = true) (hbound : b'.buffer.index < m'.buffers.size)
    (harrays : ∀ host ∈ m'.buffers, host.element = element) :
    Coherent element b' m' d written' where
  arrays := harrays
  bound := hbound
  stored c hc := h.stored c (hcopy ▸ hc)
  fits hclean := absurd (hclean.symm.trans hdirty) Bool.false_ne_true
  agrees hclean := absurd (hclean.symm.trans hdirty) Bool.false_ne_true

/-- A binding that no device has used. -/
theorem start (harrays : ∀ host ∈ m.buffers, host.element = element) {r : BufferRef}
    (hr : r.index < m.buffers.size) (d : HostDevice) :
    Coherent element { buffer := r } m d written where
  arrays := harrays
  bound := hr
  stored _ hc := nomatch hc
  fits hclean := nomatch hclean
  agrees hclean := nomatch hclean

/-- A new array of the type may be made. -/
theorem make (h : Coherent element b m d written) {host : Buffer} (hhost : host.element = element) :
    Coherent element b (m.addBuffer host).2 d written where
  arrays host' hmem := by
    rcases Array.mem_push.1 hmem with hold | rfl
    · exact h.arrays host' hold
    · exact hhost
  bound := h.bound.trans_le (by simp [Memory.addBuffer])
  stored := h.stored
  fits hclean := by
    rw [Fits, buffer_addBuffer h.bound]
    exact h.fits hclean
  agrees hclean hseen := by
    rw [buffer_addBuffer h.bound]
    exact h.agrees hclean hseen

/-! ## Transfers -/

/-- A copy that is marked is sent, as it has the size. -/
theorem toDevice_of_dirty (h : Coherent element b m d written) (hdirty : b.dirty = true) :
    ∃ handle d' events, toDevice (b, ⟨m, .host d⟩) =
        ⟨.ok handle, ({ b with copy := some ⟨handle, (m.buffer b.buffer).length⟩, dirty := false },
        ⟨m, .host d'⟩),
          events⟩ ∧
      d'.buffers.get? handle.id = some (.written (m.buffer b.buffer).bytes) := by
  refine toDevice_of_ready hdirty fun c hc hcount => ?_
  obtain ⟨block, hblock, hsize⟩ := h.stored c hc
  exact ⟨block, hblock, by rw [hsize, length_bytes, h.stride_eq, hcount]⟩

/-- A copy that is not marked is used as it is. -/
theorem toDevice_of_clean (h : Coherent element b m d written) (hclean : b.dirty = false) :
    ∃ handle, toDevice (b, ⟨m, .host d⟩) =
      { result := .ok handle, state := (b, ⟨m, .host d⟩) } := by
  obtain ⟨c, hc, hcount⟩ := h.fits hclean
  refine ⟨c.handle, ?_⟩
  rw [toDevice, bind_of_ok (ensureCopy_of_fits (.host d) hc hcount), contents_bind, get_bind]
  simp only [hclean]
  rfl

/-- After a transfer the copy is there and current. -/
theorem toDevice (h : Coherent element b m d written) :
    ∃ handle b' d' events, BufferBinding.toDevice (b, ⟨m, .host d⟩) =
      ⟨.ok handle, (b', ⟨m, .host d'⟩), events⟩ ∧
      Coherent element b' m d' (written && !events.any Event.isTransfer) := by
  cases hdirty : b.dirty with
  | false =>
    obtain ⟨handle, heq⟩ := h.toDevice_of_clean hdirty
    refine ⟨handle, b, d, [], heq, ?_⟩
    rw [List.any_nil, Bool.not_false, Bool.and_true]
    exact h
  | true =>
    obtain ⟨handle, d', events, heq, hblock⟩ := h.toDevice_of_dirty hdirty
    refine ⟨handle, _, d', events, heq, h.arrays, h.bound, ?_, fun _ => ⟨_, rfl, rfl⟩,
      fun _ _ => ?_⟩
    · rintro c ⟨⟩
      refine ⟨_, hblock, ?_⟩
      rw [← h.stride_eq]
      exact length_bytes _
    · rw [copyBytes?_eq rfl hblock]
      rfl

/-- A transfer gives the bytes of the copy to the buffer. -/
theorem toHost_of_fits (h : Coherent element b m d written) (hfits : b.Fits m) :
    ∃ b' m' d' events, BufferBinding.toHost (b, ⟨m, .host d⟩) =
      ⟨.ok (), (b', ⟨m', .host d'⟩), events⟩ ∧
      b'.copyBytes? d' = b.copyBytes? d ∧ b'.copyBytes? d' = some (m'.buffer b'.buffer).bytes ∧
      ∀ written', Coherent element b' m' d' written' := by
  obtain ⟨c, hc, hcount⟩ := hfits
  obtain ⟨block, hblock, hsize⟩ := h.stored c hc
  obtain ⟨host, heq, helement, hlength, hbytes⟩ :=
    toHost_eq_of_offer (offer?_of_get? hc hcount hblock (h.stride_eq ▸ hsize))
  have hbuffer : (m.setBuffer b.buffer host).buffer b.buffer = host :=
    (buffer_setBuffer m b.buffer b.buffer host).trans (if_pos ⟨rfl, h.bound⟩)
  have hcopy : copyBytes? { b with dirty := false } { d with
    stats.downloads := d.stats.downloads + 1 } =
      some block.bytes := copyBytes?_eq hc hblock
  refine ⟨_, _, _, _, heq, hcopy.trans (copyBytes?_eq hc hblock).symm, ?_, ?_⟩
  · rw [hcopy, hbuffer, hbytes]
  · intro written'
    refine ⟨h.arrays_setBuffer helement, ?_, h.stored, fun _ => ⟨c, hc, ?_⟩, fun _ _ => ?_⟩
    · rw [size_setBuffer]
      exact h.bound
    · rw [hbuffer, hlength, hcount]
    · rw [hcopy, hbuffer, hbytes]

/-- A transfer to the host keeps the invariant. -/
theorem toHost (h : Coherent element b m d written) :
    ∃ b' m' d' events, BufferBinding.toHost (b, ⟨m, .host d⟩) =
      ⟨.ok (), (b', ⟨m', .host d'⟩), events⟩ ∧
      Coherent element b' m' d' (written && !events.any Event.isTransfer) := by
  by_cases hfits : b.Fits m
  · obtain ⟨b', m', d', events, heq, -, -, h'⟩ := h.toHost_of_fits hfits
    exact ⟨b', m', d', events, heq, h' _⟩
  · obtain ⟨events, heq⟩ := toHost_of_not_fits hfits (.host d)
    have hdirty : b.dirty = true := Bool.eq_true_of_not_eq_false fun hclean => hfits (h.fits hclean)
    exact ⟨b, m, d, events, heq, h.of_dirty rfl hdirty h.bound h.arrays⟩

/-- The release of the copy keeps the invariant. -/
theorem release (h : Coherent element b m d written) :
    ∃ b' d' events, BufferBinding.release (b, ⟨m, .host d⟩) =
      ⟨.ok (), (b', ⟨m, .host d'⟩), events⟩ ∧ ∀ written', Coherent element b' m d' written' := by
  obtain ⟨d', heq, -⟩ := release_eq b m d
  refine ⟨_, d', _, heq, fun written' => ⟨h.arrays, h.bound, fun _ hc => ?_, fun hclean => ?_,
    fun hclean => ?_⟩⟩
  · cases hc
  · cases hclean
  · cases hclean

/-! ## Writes -/

/-- A write on the host is followed by the mark, or refused. -/
theorem write (h : Coherent element b m d written) (r : BufferRef) (i : Nat) (value : List UInt32) :
    ∃ result b' m', (BufferBinding.write r i value >>= fun _ => change markDirty)
      (b, ⟨m, .host d⟩) =
        { result, state := (b', ⟨m', .host d⟩) } ∧ Coherent element b' m' d written := by
  cases hset : (m.buffer r).set i value with
  | error e =>
    exact ⟨.error (.fault e), b, m, by simp only [bind_eq, BufferBinding.write,
      Action.step, hset], h⟩
  | ok host =>
    refine ⟨.ok (), _, _, by simp only [bind_eq, BufferBinding.write, Action.step, hset]; rfl, ?_⟩
    refine h.of_dirty rfl rfl ?_ (h.arrays_setBuffer (element_of_set hset))
    rw [size_setBuffer]
    exact h.bound

/-- A write of a kernel is done, or refused. -/
theorem kernelWrite (h : Coherent element b m d written) (bytes : Bytes) :
    ∃ done d', BufferBinding.kernelWrite bytes (b, ⟨m, .host d⟩) =
        { result := .ok done, state := (b, ⟨m, .host d'⟩) } ∧
        Coherent element b m d' (written || done) := by
  cases hc : b.copy with
  | none =>
    refine ⟨false, d, by simp only [BufferBinding.kernelWrite, hc], ?_⟩
    rw [Bool.or_false]
    exact h
  | some c =>
    refine ⟨(d.writeBuffer c.handle bytes).1, (d.writeBuffer c.handle bytes).2, by
      simp only [BufferBinding.kernelWrite, hc], ?_⟩
    obtain ⟨block, hblock, hsize⟩ := h.stored c hc
    simp only [HostDevice.writeBuffer, hblock]
    split_ifs with hbytes
    · refine ⟨h.arrays, h.bound, fun c' hc' => ?_, h.fits, fun _ hseen => ?_⟩
      · obtain rfl : c = c' := Option.some.inj (hc.symm.trans hc')
        exact ⟨_, Keyed.get?_put_self _ _ _, hbytes.symm.trans hsize⟩
      · simp at hseen
    · rw [Bool.or_false]
      exact h

end Coherent

end BufferBinding

/-! ## Steps and runs -/

/-- A step that makes no array of another type. -/
def BufferStep.OfElement (element : Element) : BufferStep → Prop
  | .make host => host.element = element
  | _ => True

namespace Watched

variable {element : Element} {w : Watched}

/-- The invariant, beside a device in host memory. -/
def Coherent (element : Element) (w : Watched) : Prop :=
  ∃ d, w.machine.device = .host d ∧ w.binding.Coherent element w.machine.memory d w.written

/-- What an action leaves is coherent if its outcome is. -/
theorem coherent_after {α : Type} {a : Action (BufferBinding × Machine) α}
    {result : Except Failure α} {b : BufferBinding} {m : Memory} {d : HostDevice}
    {events : List Event} (ha : a w.state = ⟨result, (b, ⟨m, .host d⟩), events⟩)
    (h : b.Coherent element m d (w.written && !events.any Event.isTransfer)) :
    (w.after a).Coherent element := by
  rw [after, ha]
  exact ⟨d, rfl, h⟩

/-- **The step.** Whatever is done, the invariant holds afterwards. -/
theorem coherent_take (h : w.Coherent element) {step : BufferStep}
    (hstep : step.OfElement element) :
    (w.take step).Coherent element := by
  obtain ⟨b, ⟨m, device⟩, written⟩ := w
  obtain ⟨d, rfl, h⟩ := h
  cases step with
  | make host => exact ⟨d, rfl, h.make hstep⟩
  | update r =>
    rw [take]
    split_ifs with hr
    · exact ⟨d, rfl, h.of_dirty rfl rfl hr h.arrays⟩
    · exact ⟨d, rfl, h⟩
  | write r i value =>
    obtain ⟨result, b', m', heq, h'⟩ := h.write r i value
    exact coherent_after heq (by simpa using h')
  | markDirty =>
    exact coherent_after rfl (h.of_dirty rfl rfl h.bound h.arrays)
  | toDevice =>
    obtain ⟨handle, b', d', events, heq, h'⟩ := h.toDevice
    exact coherent_after heq h'
  | toHost =>
    obtain ⟨b', m', d', events, heq, h'⟩ := h.toHost
    exact coherent_after heq h'
  | release =>
    obtain ⟨b', d', events, heq, h'⟩ := h.release
    exact coherent_after heq (h' _)
  | kernel bytes =>
    obtain ⟨done, d', heq, h'⟩ := h.kernelWrite bytes
    rw [take, after, state, heq]
    refine ⟨d', rfl, ?_⟩
    cases done with
    | false => exact h'
    | true => exact h'

/-- **The run.** The invariant holds after all steps. -/
theorem coherent_run (h : w.Coherent element) {steps : List BufferStep}
    (hsteps : ∀ step ∈ steps, step.OfElement element) : (run steps w).Coherent element :=
  List.foldlRecOn steps take h fun _ hw step hmem => coherent_take hw (hsteps step hmem)

end Watched

/-- **A copy that is not marked agrees with its buffer.** Whatever was done with a bound buffer and
one device in host memory, in any order and whether it succeeded or not, where all arrays have
elements of one type: while the copy is not marked as behind it is on the device, was made for as
many elements as the buffer has, and has the bytes of the buffer unless a kernel has written to it
since the last transfer. And a transfer to the host from there succeeds, and gives the buffer the
bytes of the copy, unless there is no copy with as many elements. -/
theorem unmarked_copy_agrees {element : Element} {m : Memory}
    (hm : ∀ host ∈ m.buffers, host.element = element) {r : BufferRef}
    (hr : r.index < m.buffers.size) (d : HostDevice) {steps : List BufferStep}
    (hsteps : ∀ step ∈ steps, step.OfElement element) :
    ∃ b m' d' written,
      Watched.run steps { binding := { buffer := r }, machine := ⟨m, .host d⟩ } =
        ⟨b, ⟨m', .host d'⟩, written⟩ ∧
      (b.dirty = false → b.Fits m' ∧ (b.copyBytes? d').isSome ∧
        (written = false → b.copyBytes? d' = some (m'.buffer b.buffer).bytes)) ∧
      (b.Fits m' → ∃ b'' m'' d'' events,
        BufferBinding.toHost (b, ⟨m', .host d'⟩) = ⟨.ok (), (b'', ⟨m'', .host d''⟩), events⟩ ∧
          b''.copyBytes? d'' = b.copyBytes? d' ∧ b''.copyBytes? d'' =
            some (m''.buffer b''.buffer).bytes) := by
  have hrun := Watched.coherent_run (w := { binding := { buffer := r }, machine := ⟨m, .host d⟩ })
    ⟨d, rfl, .start hm hr d⟩ hsteps
  rcases hstate : Watched.run steps { binding := { buffer := r }, machine := ⟨m, .host d⟩ } with
    ⟨b, ⟨m', device⟩, written⟩
  rw [hstate] at hrun
  obtain ⟨d', rfl, h⟩ := hrun
  refine ⟨b, m', d', written, rfl, fun hclean => ⟨h.fits hclean, ?_, h.agrees hclean⟩,
    fun hfits => ?_⟩
  · obtain ⟨c, hc, -⟩ := h.fits hclean
    obtain ⟨block, hblock, -⟩ := h.stored c hc
    rw [BufferBinding.copyBytes?_eq hc hblock]
    rfl
  · obtain ⟨b'', m'', d'', events, heq, hkept, hequal, -⟩ := h.toHost_of_fits hfits
    exact ⟨b'', m'', d'', events, heq, hkept, hequal⟩

namespace Tray

/-- Two numbers. -/
def pair : Buffer := .ofNumbers #[7, 8] (by decide)

/-- Three numbers. -/
def triple : Buffer := .ofNumbers #[1, 2, 3] (by decide)

/-- A kernel overwrites the copy of two numbers, and three others take their place before it is
read. One of those is then written, and sent. -/
def steps : List BufferStep :=
  [.toDevice, .kernel [5, 0, 0, 0, 6, 0, 0, 0], .make triple, .update ⟨1⟩, .toHost, .toDevice,
    .write ⟨1⟩ 1 [9], .toDevice]

/-- What the steps leave. -/
def result : Watched :=
  Watched.run steps { binding := { buffer := ⟨0⟩ },
                      machine := ⟨{ buffers := #[pair] }, .host (.ofEntries ["Fill"])⟩ }

end Tray

/-- The copy is the one of the three numbers then. -/
theorem tray_copy_agrees :
    Tray.result.binding.dirty = false ∧ Tray.result.written = false ∧
      ∃ d, Tray.result.machine.device = .host d ∧
        Tray.result.binding.copyBytes? d = some [1, 0, 0, 0, 9, 0, 0, 0, 3, 0, 0, 0] := by
  have hclean : Tray.result.binding.dirty = false ∧ Tray.result.written = false ∧
      (Tray.result.machine.memory.buffer Tray.result.binding.buffer).bytes =
          [1, 0, 0, 0, 9, 0, 0, 0, 3, 0, 0, 0] := by
    decide +kernel
  obtain ⟨hdirty, hwritten, hbytes⟩ := hclean
  have harrays : ∀ host ∈ #[Tray.pair], host.element = .uint := by decide
  have hsteps : ∀ step ∈ Tray.steps, step.OfElement .uint := by
    simp [Tray.steps, BufferStep.OfElement, Tray.triple, ofNumbers]
  obtain ⟨b, m, d, written, hstate, hagrees, -⟩ :=
    unmarked_copy_agrees (m := { buffers := #[Tray.pair] }) harrays
    (r := ⟨0⟩) (by decide) (.ofEntries ["Fill"]) hsteps
  rw [Tray.result, hstate] at hdirty hwritten hbytes ⊢
  exact ⟨hdirty, hwritten, d, rfl, ((hagrees hdirty).2.2 hwritten).trans (congrArg some hbytes)⟩

end ComputeKernel
