import ComputeKernel.Transfer.Buffer
import ComputeKernel.Proofs.Device.Account
import ComputeKernel.Proofs.Run.Spec

/-!
# Transfers between a buffer and the device in host memory

A bound buffer uses the device through its copy alone, and `BufferBinding.Transfer` says all that it
may do: the binding keeps its buffer, on the device it moves within its own account, and what is
bound to the buffers of others stays bound. Transfers of either direction and the release of the
copy are of this kind, whether they succeed or fail. Whether the elements of the host go over is
decided by `Behind`: the copy is marked, or has another number of elements. `toDevice_spec` says
what the copy holds afterwards.
-/

namespace ComputeKernel

open ComputeKernel.Action

/-- A buffer fits in a block of memory. -/
theorem Buffer.fits_block (b : Buffer) : b.length * b.stride ≤ Size.maxBlock :=
  b.fits.trans (by decide)

/-! ## Buffers of the device -/

namespace HostDevice

variable (d : HostDevice)
variable (h : BufferHandle)

/-- The device after it has made a buffer of zeros. -/
def withBuffer (size : Nat) : HostDevice :=
  { d with
    issued := d.issued + 1
    buffers := d.buffers.put (d.issued + 1) (.blank size)
    stats.buffersCreated := d.stats.buffersCreated + 1 }

/-- A buffer that fits in a block of memory is made. -/
theorem createBuffer_eq {count stride : Nat} (hfits : count * stride ≤ Size.maxBlock) :
    Device.createBuffer count stride (.host d)
      = { result := .ok ⟨d.issued + 1⟩, state := .host (d.withBuffer (count * stride)) } := by
  have hword : count * stride < UInt64.size := hfits.trans_lt (by decide)
  have hcheck : Size.checkBlock (count * stride) = .ok () := by
    rw [Size.checkBlock, if_pos hfits]
  simp only [Device.createBuffer, Device.onHost, createBuffer, if_pos hword, issue, bind_eq, hcheck]
  rfl

/-- An upload of bytes of its size, or a refusal. -/
theorem upload_cases (bytes : Bytes) :
    (∃ old, d.buffers.get? h.id = some old ∧ bytes.length = old.size ∧
      Device.upload h bytes (.host d) = { result := .ok (), state := .host { d with
        buffers := d.buffers.put h.id (.written bytes), stats.uploads := d.stats.uploads + 1 } }) ∨
    ∃ e, Device.upload h bytes (.host d) = { result := .error e, state := .host d } := by
  simp only [Device.upload, upload]
  cases d.buffers.get? h.id with
  | none => exact .inr ⟨_, rfl⟩
  | some old =>
    by_cases hsize : old.size = bytes.length
    · exact .inl ⟨old, rfl, hsize.symm, by simp only [if_pos hsize]; rfl⟩
    · exact .inr ⟨_, by simp only [if_neg hsize]; rfl⟩

/-- A download is counted, or refused. -/
theorem download_cases (size : Nat) :
    (∃ bytes, Device.download h size (.host d) =
      { result := .ok bytes, state := .host { d with stats.downloads := d.stats.downloads + 1 } }) ∨
    ∃ e, Device.download h size (.host d) = { result := .error e, state := .host d } := by
  simp only [Device.download, download]
  cases d.buffers.get? h.id with
  | none => exact .inr ⟨_, rfl⟩
  | some block =>
    by_cases hsize : block.size = size
    · exact .inl ⟨block.bytes, by simp only [if_pos hsize]; rfl⟩
    · exact .inr ⟨_, by simp only [if_neg hsize]; rfl⟩

/-- What is bound after a buffer was released. -/
theorem bindings_releaseBuffer (entry : Nat) :
    (d.releaseBuffer h).bindings entry =
      { d.bindings entry with buffers := (d.bindings entry).buffers.filter fun p => p.2 ≠ h } := by
  simp only [bindings, releaseBuffer, List.getElem?_map]
  cases d.bound[entry]? with
  | none => rfl
  | some b => rfl

end HostDevice

/-- Bytes were sent a number of times, and nothing was recorded. -/
structure HostDevice.Sends (n : Nat) (d d' : HostDevice) : Prop where
  uploads : d'.stats.uploads = d.stats.uploads + n
  log : d'.log = d.log
  length : d'.bound.length = d.bound.length

namespace HostDevice.Sends

variable {n k : Nat} {d d' d'' : HostDevice}

/-- Nothing was sent. -/
theorem refl (d : HostDevice) : Sends 0 d d := ⟨rfl, rfl, rfl⟩

/-- What was sent is counted together. -/
theorem trans (h : Sends n d d') (h' : Sends k d' d'') : Sends (n + k) d d'' where
  uploads := by rw [h'.uploads, h.uploads, Nat.add_assoc]
  log := h'.log.trans h.log
  length := h'.length.trans h.length

/-- Binding sends nothing. -/
theorem setBindings (d : HostDevice) (entry : Nat) (b : HostBindings) :
    Sends 0 d (d.setBindings entry b) :=
  ⟨rfl, rfl, List.length_set⟩

end HostDevice.Sends

namespace BufferBinding

variable {c : DeviceCopy}

/-! ## What a transfer may touch -/

/-- What a binding holds: the number of its copy, and its bytes. -/
def own (stride : Nat) (b : BufferBinding) : Option (Nat × Nat) :=
  b.copy.map fun c => (c.handle.id, c.count * stride)

/-- How a binding, memory and the device may change together. -/
structure Transfer (b : BufferBinding) (m : Memory) (d : HostDevice) (b' : BufferBinding)
    (m' : Memory) (d' : HostDevice) : Prop where
  buffer : b'.buffer = b.buffer
  textures : m'.textures = m.textures
  count : m'.buffers.size = m.buffers.size
  elements : ∀ r, (m'.buffer r).element = (m.buffer r).element
  surfaces : d'.surfaces = d.surfaces
  entries : d'.entries = d.entries ∧ d'.bound.length = d.bound.length
  /-- The binding deals with its own copy only. -/
  moves : Account.Moves MemoryBlock.size ⟨d.issued, d.buffers, b.own (m.buffer b.buffer).stride⟩
    ⟨d'.issued, d'.buffers, b'.own (m.buffer b.buffer).stride⟩
  /-- The buffers of others stay bound. -/
  bound : ∀ entry slot h, h.id ≤ d.issued → (∀ c, b.copy = some c → c.handle ≠ h) →
    (d.bindings entry).buffers.get? slot = some h → (d'.bindings entry).buffers.get? slot = some h

namespace Transfer

variable {b b' b'' : BufferBinding} {m m' m'' : Memory} {d d' d'' : HostDevice}

/-- Nothing may happen. -/
theorem refl (b : BufferBinding) (m : Memory) (d : HostDevice) : Transfer b m d b m d :=
  ⟨rfl, rfl, rfl, fun _ => rfl, rfl, ⟨rfl, rfl⟩, .refl, fun _ _ _ _ _ h => h⟩

/-- The binding goes on to have elements of the same size. -/
theorem stride_eq (t : Transfer b m d b' m' d') :
    (m'.buffer b'.buffer).stride = (m.buffer b.buffer).stride := by
  rw [Buffer.stride, t.elements, t.buffer, Buffer.stride]

/-- A buffer of others stays as it is, and theirs. -/
theorem others (t : Transfer b m d b' m' d') {h : BufferHandle} (hh : h.id ≤ d.issued)
    (hne : ∀ c, b.copy = some c → c.handle ≠ h) :
    d'.buffers.get? h.id = d.buffers.get? h.id ∧ ∀ c, b'.copy = some c → c.handle ≠ h := by
  obtain ⟨hget, hother⟩ := t.moves.others hh (fun size heq => by
    obtain ⟨c, hc, hpair⟩ := Option.map_eq_some_iff.1 heq
    exact hne c hc (congrArg BufferHandle.mk (congrArg Prod.fst hpair)))
  refine ⟨hget, fun c hc heq => hother (c.count * (m.buffer b.buffer).stride) ?_⟩
  show b'.own _ = _
  rw [own, hc, ← heq]
  rfl

/-- One change may follow another. -/
theorem trans (t : Transfer b m d b' m' d') (t' : Transfer b' m' d' b'' m'' d'') :
    Transfer b m d b'' m'' d'' where
  buffer := t'.buffer.trans t.buffer
  textures := t'.textures.trans t.textures
  count := t'.count.trans t.count
  elements r := (t'.elements r).trans (t.elements r)
  surfaces := t'.surfaces.trans t.surfaces
  entries := ⟨t'.entries.1.trans t.entries.1, t'.entries.2.trans t.entries.2⟩
  moves := t.moves.trans (t.stride_eq ▸ t'.moves)
  bound entry slot h hh hne hget :=
    t'.bound entry slot h (hh.trans t.moves.issued_le) (t.others hh hne).2
      (t.bound entry slot h hh hne hget)

/-- The binding may change while it keeps its buffer and copy. -/
theorem of_binding (hbuffer : b'.buffer = b.buffer) (hcopy : b'.copy = b.copy) :
    Transfer b m d b' m d where
  buffer := hbuffer
  textures := rfl
  count := rfl
  elements _ := rfl
  surfaces := rfl
  entries := ⟨rfl, rfl⟩
  moves := by rw [own, own, hcopy]
  bound _ _ _ _ _ h := h

/-- The copy may be made when there is none. -/
theorem make (hcopy : b.copy = none) (dirty : Bool) :
    Transfer b m d { b with copy := some ⟨⟨d.issued + 1⟩, (m.buffer b.buffer).length⟩, dirty } m
      (d.withBuffer ((m.buffer b.buffer).length * (m.buffer b.buffer).stride)) where
  buffer := rfl
  textures := rfl
  count := rfl
  elements _ := rfl
  surfaces := rfl
  entries := ⟨rfl, rfl⟩
  moves := by
    rw [own, hcopy]
    exact .single (.make (MemoryBlock.blank _) rfl)
  bound _ _ _ _ _ h := h

/-- The copy may be released, and is unbound then. -/
theorem drop {c : DeviceCopy} (hcopy : b.copy = some c) (dirty : Bool) :
    Transfer b m d { b with copy := none, dirty } m (d.releaseBuffer c.handle) where
  buffer := rfl
  textures := rfl
  count := rfl
  elements _ := rfl
  surfaces := rfl
  entries := ⟨rfl, List.length_map _⟩
  moves := by
    rw [own, hcopy]
    exact .single (.drop rfl)
  bound entry slot h _ hne hget := by
    rw [HostDevice.bindings_releaseBuffer]
    exact Keyed.get?_filter hget (by simpa using (hne c hcopy).symm)

/-- The copy may be overwritten by bytes of its size. -/
theorem write {c : DeviceCopy} {old : MemoryBlock} {bytes : Bytes} (hcopy : b.copy = some c)
    (hold : d.buffers.get? c.handle.id = some old) (hsize : bytes.length = old.size) :
    Transfer b m d b m { d with
      buffers := d.buffers.put c.handle.id (.written bytes),
      stats.uploads := d.stats.uploads + 1 } where
  buffer := rfl
  textures := rfl
  count := rfl
  elements _ := rfl
  surfaces := rfl
  entries := ⟨rfl, rfl⟩
  moves := by
    rw [own, hcopy]
    exact .single (.write rfl hold hsize)
  bound _ _ _ _ _ h := h

/-- The elements of the host may change. -/
theorem of_memory (htextures : m'.textures = m.textures) (hcount : m'.buffers.size = m.buffers.size)
    (helements : ∀ r, (m'.buffer r).element = (m.buffer r).element)
    (hdevice : d' = { d with stats := d'.stats }) : Transfer b m d b m' d' := by
  rw [hdevice]
  exact ⟨rfl, htextures, hcount, helements, rfl, ⟨rfl, rfl⟩, .refl, fun _ _ _ _ _ h => h⟩

end Transfer

/-- A binding and a machine that a transfer may lead to. -/
def Transferred (b : BufferBinding) (m : Memory) (d : HostDevice) (s : BufferBinding × Machine) :
    Prop :=
  ∃ b' m' d', s = (b', ⟨m', .host d'⟩) ∧ Transfer b m d b' m' d'

/-- The start is such a state. -/
theorem transferred_self (b : BufferBinding) (m : Memory) (d : HostDevice) :
    Transferred b m d (b, ⟨m, .host d⟩) :=
  ⟨b, m, d, rfl, .refl b m d⟩

variable {b : BufferBinding} {m : Memory} {d : HostDevice}

/-! ## The copy -/

/-- The copy was made for as many elements as the buffer has. -/
def Fits (b : BufferBinding) (m : Memory) : Prop :=
  ∃ c, b.copy = some c ∧ c.count = (m.buffer b.buffer).length

instance (b : BufferBinding) (m : Memory) : Decidable (b.Fits m) :=
  match h : b.copy with
  | none => .isFalse fun ⟨_, hc, _⟩ => nomatch h.symm.trans hc
  | some c =>
    if hcount : c.count = (m.buffer b.buffer).length then .isTrue ⟨c, h, hcount⟩
    else .isFalse fun ⟨_, hc, hcount'⟩ => hcount (Option.some.inj (h.symm.trans hc) ▸ hcount')

/-- The host's elements have to go over before the copy is used. -/
def Behind (b : BufferBinding) (m : Memory) : Prop := b.dirty = true ∨ ¬ b.Fits m

instance (b : BufferBinding) (m : Memory) : Decidable (b.Behind m) :=
  inferInstanceAs (Decidable (_ ∨ ¬ _))

/-- The binding after a copy was made for its buffer. -/
def withCopy (b : BufferBinding) (handle : BufferHandle) (count : Nat) : BufferBinding :=
  { b with copy := some { handle, count }, dirty := true }

/-- What an action on the device leaves. -/
theorem onDevice_apply {α : Type} (a : Action Device α) (b : BufferBinding) (m : Machine) :
    onDevice a (b, m) =
      ⟨(a m.device).result, (b, { m with device := (a m.device).state }), (a m.device).events⟩ :=
        rfl

/-- A copy is made for a buffer of the host, and is behind. -/
theorem makeCopy_eq (b : BufferBinding) (m : Memory) (d : HostDevice) (host : Buffer) :
    makeCopy host (b, ⟨m, .host d⟩) =
      { result := .ok ⟨d.issued + 1⟩
        state := (b.withCopy ⟨d.issued + 1⟩ host.length,
          ⟨m, .host (d.withBuffer (host.length * host.stride))⟩) } := by
  simp only [makeCopy, bind_eq, onDevice_apply,
    HostDevice.createBuffer_eq d host.fits_block]
  rfl

/-- Reading the bound buffer first changes nothing. -/
theorem contents_bind {α : Type} (f : Buffer → Action (BufferBinding × Machine) α)
    (s : BufferBinding × Machine) :
    (contents >>= f) s = f (s.2.memory.buffer s.1.buffer) s := rfl

/-- A copy that fits is used. -/
theorem ensureCopy_of_fits (device : Device) (hcopy : b.copy = some c)
    (hcount : c.count = (m.buffer b.buffer).length) :
    ensureCopy (b, ⟨m, device⟩) = { result := .ok c.handle, state := (b, ⟨m, device⟩) } := by
  rw [ensureCopy, contents_bind, get_bind]
  simp only [hcopy, if_pos hcount]
  rfl

/-- Without a copy, one is made. -/
theorem ensureCopy_of_none (d : HostDevice) (hcopy : b.copy = none) :
    ensureCopy (b, ⟨m, .host d⟩) = makeCopy (m.buffer b.buffer) (b, ⟨m, .host d⟩) := by
  rw [ensureCopy, contents_bind, get_bind]
  simp only [hcopy]

/-- A copy with another number of elements is made anew. -/
theorem ensureCopy_of_count_ne (d : HostDevice) (hcopy : b.copy = some c)
    (hcount : c.count ≠ (m.buffer b.buffer).length) :
    ensureCopy (b, ⟨m, .host d⟩) =
      { makeCopy (m.buffer b.buffer) (b, ⟨m, .host (d.releaseBuffer c.handle)⟩) with
        events := [.bufferRemade c.count (m.buffer b.buffer).length] } := by
  rw [ensureCopy, contents_bind, get_bind]
  simp only [hcopy, if_neg hcount]
  rw [makeCopy_eq, bind_eq]
  simp only [report, bind_eq, onDevice_apply,
    Device.releaseBuffer, makeCopy_eq]
  rfl

/-- The binding has a copy that fits then. A new one is behind. -/
theorem ensureCopy_spec (b : BufferBinding) (m : Memory) (d : HostDevice) :
    (ensureCopy (b, ⟨m, .host d⟩)).Meets
      (fun h s => ∃ b' d', s = (b', ⟨m, .host d'⟩) ∧ Transfer b m d b' m d' ∧ d.Sends 0 d' ∧
        b'.copy = some ⟨h, (m.buffer b.buffer).length⟩ ∧
        (b.Fits m ∧ b' = b ∧ d' = d ∨ ¬ b.Fits m ∧ b'.dirty = true))
      fun _ => False := by
  cases hcopy : b.copy with
  | none =>
    rw [ensureCopy_of_none d hcopy, makeCopy_eq]
    refine ⟨_, _, rfl, Transfer.make hcopy true, ⟨rfl, rfl, rfl⟩, rfl, .inr ⟨?_, rfl⟩⟩
    rintro ⟨c, hc, -⟩
    rw [hcopy] at hc
    cases hc
  | some c =>
    by_cases hcount : c.count = (m.buffer b.buffer).length
    · rw [ensureCopy_of_fits _ hcopy hcount]
      refine ⟨b, d, rfl, .refl b m d, .refl d, ?_, .inl ⟨⟨c, hcopy, hcount⟩, rfl, rfl⟩⟩
      rw [hcopy, ← hcount]
    · rw [ensureCopy_of_count_ne d hcopy hcount, makeCopy_eq]
      refine ⟨_, _, rfl, (Transfer.drop hcopy b.dirty).trans (Transfer.make rfl true),
        ⟨rfl, rfl, List.length_map _⟩, rfl, .inr ⟨?_, rfl⟩⟩
      rintro ⟨c', hc', hcount'⟩
      rw [hcopy] at hc'
      cases hc'
      exact hcount hcount'

/-! ## The transfers -/

/-- Sending bytes to a copy, as the last part of a transfer. -/
theorem upload_spec (hcopy : b.copy = some c) (bytes : Bytes) :
    (onDevice (Device.upload c.handle bytes) (b, ⟨m, .host d⟩)).Meets
      (fun _ s => ∃ d', s = (b, ⟨m, .host d'⟩) ∧ Transfer b m d b m d' ∧ d.Sends 1 d' ∧
        d'.buffers.get? c.handle.id = some (.written bytes))
      fun s => s = (b, ⟨m, .host d⟩) := by
  rcases d.upload_cases c.handle bytes with ⟨old, hold, hsize, hupload⟩ | ⟨e, hupload⟩
  · simp only [onDevice_apply, hupload]
    exact ⟨_, rfl, Transfer.write hcopy hold hsize, ⟨rfl, rfl, rfl⟩, Keyed.get?_put_self _ _ _⟩
  · simp only [onDevice_apply, hupload]
    rfl

/-- **What a transfer to the device does.** It keeps host memory. If it succeeds the copy fits, and
holds the elements of the host, which were sent once, if it was behind. -/
theorem toDevice_spec (b : BufferBinding) (m : Memory) (d : HostDevice) :
    (toDevice (b, ⟨m, .host d⟩)).Meets
      (fun h s => ∃ b' d', s = (b', ⟨m, .host d'⟩) ∧ Transfer b m d b' m d' ∧
        b'.copy = some ⟨h, (m.buffer b.buffer).length⟩ ∧ b'.dirty = false ∧
        (b.Behind m ∧ d.Sends 1 d' ∧ d'.buffers.get? h.id =
          some (.written (m.buffer b.buffer).bytes) ∨ ¬ b.Behind m ∧ b' = b ∧ d' = d))
      (fun s => ∃ b' d', s = (b', ⟨m, .host d'⟩) ∧ Transfer b m d b' m d') := by
  refine meets_bind ((ensureCopy_spec b m d).mono_broken fun _ h => h.elim) ?_
  rintro h _ ⟨b', d', rfl, htransfer, hsends, hcopy, hcases⟩
  rw [contents_bind, get_bind]
  cases hdirty : b'.dirty with
  | false =>
    simp only [hdirty]
    rcases hcases with ⟨hfits, rfl, rfl⟩ | ⟨-, htrue⟩
    · refine ⟨b', d', rfl, htransfer, hcopy, hdirty, .inr ⟨?_, rfl, rfl⟩⟩
      rintro (htrue | hnot)
      · exact absurd (hdirty.symm.trans htrue) Bool.false_ne_true
      · exact hnot hfits
    · exact absurd (hdirty.symm.trans htrue) Bool.false_ne_true
  | true =>
    have hbehind : b.Behind m := by
      rcases hcases with ⟨-, rfl, -⟩ | ⟨hnot, -⟩
      · exact .inl hdirty
      · exact .inr hnot
    simp only [hdirty, if_true, htransfer.buffer]
    refine meets_bind (M := fun _ s => (b', Machine.mk m (.host d')) = s) rfl ?_
    rintro _ _ rfl
    refine meets_bind ((upload_spec hcopy _).mono_broken ?_) ?_
    · rintro _ rfl
      exact ⟨b', d', rfl, htransfer⟩
    · rintro _ _ ⟨d'', rfl, hupload, hsent, hbytes⟩
      exact ⟨_, d'', rfl, (htransfer.trans hupload).trans (.of_binding rfl rfl), hcopy, rfl,
        .inl ⟨hbehind, hsends.trans hsent, hbytes⟩⟩

/-! ## Transfers are transfers, however they end -/

/-- A transfer to the device keeps host memory. -/
theorem toDevice_state (b : BufferBinding) (m : Memory) (d : HostDevice) :
    ∃ b' d', (toDevice (b, ⟨m, .host d⟩)).state = (b', ⟨m, .host d'⟩) ∧ Transfer b m d b' m d' := by
  refine ((toDevice_spec b m d).mono ?_ fun _ h => h).state
  rintro h _ ⟨b', d', rfl, htransfer, -⟩
  exact ⟨b', d', rfl, htransfer⟩

/-- A transfer to the device is of this kind. -/
theorem transferred_toDevice (b : BufferBinding) (m : Memory) (d : HostDevice) :
    Transferred b m d (toDevice (b, ⟨m, .host d⟩)).state := by
  obtain ⟨b', d', hstate, htransfer⟩ := toDevice_state b m d
  exact ⟨b', m, d', hstate, htransfer⟩

/-- The bytes of the device change the bound buffer only. -/
theorem keeps_receive (bytes : Bytes) : Keeps (Transferred b m d) (receive bytes) := by
  rintro _ ⟨b', m', d', rfl, htransfer⟩
  simp only [receive, step, Buffer.writeBytes]
  by_cases hsize : bytes.length = (m'.buffer b'.buffer).words.size * 4
  · simp only [if_pos hsize]
    refine ⟨b', _, d', rfl,
      htransfer.trans (.of_memory rfl (Array.size_setIfInBounds ..) (fun r => ?_) rfl)⟩
    rw [Memory.buffer_setBuffer]
    split
    next h => rw [h.1]
    next => rfl
  · simp only [if_neg hsize]
    exact ⟨b', m', d', rfl, htransfer⟩

/-- Reading the copy is counted at most. -/
theorem keeps_download (h : BufferHandle) (size : Nat) :
    Keeps (Transferred b m d) (onDevice (Device.download h size)) := by
  rintro _ ⟨b', m', d', rfl, htransfer⟩
  rcases d'.download_cases h size with ⟨bytes, hdown⟩ | ⟨e, hdown⟩
  · simp only [onDevice_apply, hdown]
    exact ⟨b', m', _, rfl, htransfer.trans (.of_memory rfl rfl (fun _ => rfl) rfl)⟩
  · simp only [onDevice_apply, hdown]
    exact ⟨b', m', d', rfl, htransfer⟩

/-- So is one to the host. -/
theorem transferred_toHost (b : BufferBinding) (m : Memory) (d : HostDevice) :
    Transferred b m d (toHost (b, ⟨m, .host d⟩)).state := by
  have hclean : Keeps (Transferred b m d) (change fun b => { b with dirty := false }) := by
    rintro _ ⟨b', m', d', rfl, htransfer⟩
    exact ⟨_, m', d', rfl, htransfer.trans (.of_binding rfl rfl)⟩
  rw [toHost, contents_bind, get_bind]
  cases hcopy : b.copy with
  | none =>
    simp only [hcopy]
    exact transferred_self b m d
  | some c =>
    by_cases hcount : c.count = (m.buffer b.buffer).length
    · simp only [hcopy, if_pos hcount]
      refine Keeps.bind (keeps_download _ _) (fun bytes => ?_) _ (transferred_self b m d)
      exact (keeps_report _).bind fun _ => (keeps_receive bytes).bind fun _ => hclean
    · simp only [hcopy, if_neg hcount]
      exact transferred_self b m d

/-- The release of the copy never fails. -/
theorem release_eq (b : BufferBinding) (m : Memory) (d : HostDevice) :
    ∃ d', release (b, ⟨m, .host d⟩) =
        { result := .ok (), state := ({ b with copy := none, dirty := true }, ⟨m, .host d'⟩) } ∧
      Transfer b m d { b with copy := none, dirty := true } m d' := by
  rw [release, get_bind]
  cases hcopy : b.copy with
  | none =>
    refine ⟨d, by simp only [hcopy]; rfl, ?_⟩
    exact Transfer.of_binding rfl hcopy.symm
  | some c =>
    refine ⟨d.releaseBuffer c.handle, by simp only [hcopy]; rfl, ?_⟩
    exact Transfer.drop hcopy true

/-- So is the release of the copy. -/
theorem transferred_release (b : BufferBinding) (m : Memory) (d : HostDevice) :
    Transferred b m d (release (b, ⟨m, .host d⟩)).state := by
  obtain ⟨d', heq, htransfer⟩ := release_eq b m d
  rw [heq]
  exact ⟨_, m, d', rfl, htransfer⟩

end BufferBinding

end ComputeKernel
