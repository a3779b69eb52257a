import ComputeKernel.Proofs.Dispatch.Download
import ComputeKernel.Proofs.Texture.Sound

/-!
# Buffers that are always found

A device refuses to fill, read or bind a buffer that it does not have, or that has another size than
the call takes it to have. A dispatcher is supplied when the copies that its slots hold are on the
device, with the bytes of the elements that they were made for (`Bench.Supplied`). A step of one
dispatcher keeps the others supplied, too (`Bench.Step.supplied`). While a dispatcher is supplied,
all of its buffers are presented and downloaded (`Bench.onBuffers_succeeds`).
-/

namespace ComputeKernel

open Dispatcher ComputeKernel.Action

variable {K : Type} {names : List String} {others : List (Nat × Nat)}

/-! ## What the device does not refuse -/

namespace HostDevice

variable {d : HostDevice} {entry : Nat}

/-- An entry point that is found is one of the device. -/
theorem entry_lt_of_findEntry? {name : String} (h : d.findEntry? name = some entry) :
    entry < d.entries.length :=
  (List.findIdx?_eq_some_iff_findIdx_eq.1 h).1

/-- Bytes of its size are sent to a buffer. -/
theorem upload_eq_ok {h : BufferHandle} {old : MemoryBlock} {bytes : Bytes}
    (hget : d.buffers.get? h.id = some old) (hsize : old.size = bytes.length) :
    Device.upload h bytes (.host d) = { result := .ok (), state := .host { d with
      buffers := d.buffers.put h.id (.written bytes), stats.uploads := d.stats.uploads + 1 } } := by
  simp only [Device.upload, upload, hget, if_pos hsize]
  rfl

/-- A buffer that is there is bound. -/
theorem bindBuffer_eq_ok {h : BufferHandle} (hentry : entry < d.entries.length)
    (hhas : d.buffers.has h.id = true) (slot : String) :
    (Device.bindBuffer entry slot h (.host d)).result = .ok () := by
  simp only [Device.bindBuffer, bindBuffer, if_pos hentry, if_pos hhas]
  rfl

/-- So is a surface. -/
theorem bindTexture_eq_ok {h : SurfaceHandle} (hentry : entry < d.entries.length)
    (hhas : d.surfaces.has h.id = true) (slot : String) :
    (Device.bindTexture entry slot h (.host d)).result = .ok () := by
  simp only [Device.bindTexture, bindTexture, if_pos hentry, if_pos hhas]
  rfl

/-- An entry point is dispatched. -/
theorem dispatch_eq_ok (hentry : entry < d.entries.length) (groups : Uint3) :
    (Device.dispatch entry groups (.host d)).result = .ok () := by
  simp only [Device.dispatch, dispatch, if_pos hentry]
  rfl

end HostDevice

/-! ## One buffer -/

namespace BufferBinding

variable {b : BufferBinding} {m : Memory} {d : HostDevice}

/-- The copy of a binding is on the device with its bytes. -/
def Stocked (b : BufferBinding) (m : Memory) (d : HostDevice) : Prop :=
  ComputeKernel.Stocked MemoryBlock.size d.issued d.buffers
    (b.own (m.buffer b.buffer).stride).toList

/-- A binding that has transferred its copy finds it. -/
theorem Stocked.transfer (h : b.Stocked m d) {b' : BufferBinding} {d' : HostDevice}
    (t : b.Transfer m d b' m d') :
    b'.Stocked m d' := by
  have hown : ComputeKernel.Stocked MemoryBlock.size d.issued d.buffers
      ((b.own (m.buffer b.buffer).stride).toList ++ []) := by
    rw [List.append_nil]
    exact h
  have hmoved := ComputeKernel.Stocked.moves t.moves hown
  rw [List.append_nil] at hmoved
  rw [Stocked, t.buffer]
  exact hmoved

/-- What the copy is. -/
theorem Stocked.get? (h : b.Stocked m d) {c : DeviceCopy} (hc : b.copy = some c) :
    ∃ block, d.buffers.get? c.handle.id = some block ∧
    block.size = c.count * (m.buffer b.buffer).stride :=
  h.live (c.handle.id, _) (by simp [own, hc])

/-- A buffer is sent, and its copy is there afterwards. -/
theorem toDevice_stocked (hs : b.Stocked m d) :
    (toDevice (b, ⟨m, .host d⟩)).Meets
      (fun h s => ∃ b' d', s = (b', ⟨m, .host d'⟩) ∧ d'.buffers.has h.id = true ∧
      d'.entries = d.entries)
      fun _ => False := by
  refine meets_bind ((ensureCopy_spec b m d).mono_broken fun _ h => h.elim) ?_
  rintro h _ ⟨b', d', rfl, htransfer, -, hcopy, -⟩
  obtain ⟨block, hget, hsize⟩ := (hs.transfer htransfer).get? hcopy
  rw [contents_bind, get_bind]
  cases hdirty : b'.dirty with
  | false =>
    simp only [hdirty]
    exact ⟨b', d', rfl, by rw [Keyed.has, hget]; rfl, htransfer.entries.1⟩
  | true =>
    have hbytes : block.size = (m.buffer b'.buffer).bytes.length := by
      rw [hsize, Buffer.length_bytes, htransfer.buffer]
    simp only [hdirty, if_true, bind_eq, report, onDevice_apply,
      HostDevice.upload_eq_ok hget hbytes]
    refine ⟨_, _, rfl, ?_, htransfer.entries.1⟩
    rw [Keyed.has, Keyed.get?_put_nat, if_pos rfl]
    rfl

/-- A buffer is presented for an entry point there is. -/
theorem present_stocked (hs : b.Stocked m d) {entry : Nat} (hentry : entry < d.entries.length)
    (slot : String) :
    (present entry slot (b, ⟨m, .host d⟩)).result = .ok () := by
  have hpresent : (present entry slot (b, ⟨m, .host d⟩)).Meets (fun _ _ => True)
      fun _ => False := by
    refine meets_bind (toDevice_stocked hs) ?_
    rintro h _ ⟨b', d', rfl, hhas, hentries⟩
    have hbound := HostDevice.bindBuffer_eq_ok (hentries ▸ hentry) hhas slot
    exact .of_result hbound trivial
  obtain ⟨_, hok, -⟩ := hpresent.succeeds
  exact hok

/-- A buffer is brought to the host. -/
theorem toHost_stocked (hs : b.Stocked m d) : (toHost (b, ⟨m, .host d⟩)).result = .ok () := by
  by_cases hfits : b.Fits m
  · obtain ⟨c, hc, hcount⟩ := hfits
    obtain ⟨block, hget, hsize⟩ := hs.get? hc
    obtain ⟨host, d', events, heq, -⟩ := toHost_of_offer (offer?_of_get? hc hcount hget hsize)
    rw [heq]
  · obtain ⟨events, heq⟩ := toHost_of_not_fits hfits (.host d)
    rw [heq]

end BufferBinding

/-! ## The buffers of a dispatcher -/

namespace Bench

variable {s s' : Bench K}

/-- The tables are well bound, and the device has the copies of slots, and what others hold,
apart. -/
structure Supplied (names : List String) (others : List (Nat × Nat)) (s : Bench K) : Prop where
  wellBound : s.WellBound
  stocked : ∃ d, s.device = some (.host d) ∧ d.entries = names ∧
    Stocked MemoryBlock.size d.issued d.buffers (s.dispatcher.copies ++ others)

/-- **A step keeps everybody supplied.** -/
theorem Step.supplied (h : Step s s') (hs : s.Supplied names others) :
    s'.Supplied names others := by
  obtain ⟨d, hd, hnames, hstocked⟩ := hs.stocked
  obtain ⟨d', hd', hshift⟩ := h.shift hs.wellBound hd
  exact ⟨h.wellBound hs.wellBound, d', hd', (h.entries hd hd').1.trans hnames,
    hshift.stocked hstocked⟩

/-- So does a walk. -/
theorem Walk.supplied (h : Walk s s') (hs : s.Supplied names others) :
    s'.Supplied names others := by
  induction h with
  | refl => exact hs
  | tail _ hstep ih => exact hstep.supplied ih

/-- The copy of a slot is on the device. -/
theorem Supplied.binding (hs : s.Supplied names others) {entry : Nat} {slot : String}
    {b : BufferBinding} (hb : (slot, b) ∈ (s.dispatcher.table entry).buffers) {d : HostDevice}
    (hd : s.device = some (.host d)) :
    b.Stocked s.memory d := by
  obtain ⟨d', hd', -, hstocked⟩ := hs.stocked
  cases hd.symm.trans hd'
  have hwell := hs.wellBound entry
  cases hc : b.copy with
  | none =>
    rw [BufferBinding.Stocked, BufferBinding.own, hc]
    exact .nil _ _ _
  | some c =>
    have hcopy : s.dispatcher.copy? entry slot = some c := by
      rw [copy?, hwell.ordered.mem_iff.1 hb]
      exact hc
    have hmem := mem_copies hcopy hwell.ordered
    rw [hwell.stride_eq hb] at hmem
    rw [BufferBinding.Stocked, BufferBinding.own, hc]
    exact hstocked.single (List.mem_append_left others hmem)

section walking

variable {s₀ : Bench K} {entry : Nat} {ours : TextureRef → Prop}

/-- The dispatcher has walked to a state with an entry point's buffers and sound textures. -/
def Underway (s₀ : Bench K) (ours : TextureRef → Prop) (names : List String) (entry : Nat)
    (buffers : List (String × BufferBinding)) (m : Machine) : Prop :=
  Walk s₀ (presenting s₀ entry buffers m) ∧ m.Sound ours names

/-- A slot finds its copy on the way. -/
theorem Underway.binding {before after : List (String × BufferBinding)} {slot : String}
    {b : BufferBinding} {m : Memory} {d : HostDevice}
    (hs : Underway s₀ ours names entry (before ++ (slot, b) :: after) ⟨m, .host d⟩)
    (h₀ : s₀.Supplied names others) (hentry : entry < s₀.dispatcher.tables.length) :
    b.Stocked m d := by
  have hmem : (slot, b) ∈
      ((presenting s₀ entry (before ++ (slot, b) :: after) ⟨m, .host d⟩).dispatcher.table
          entry).buffers := by
    rw [presenting, on, table_setTable_self hentry]
    exact List.mem_append_right _ (.head _)
  exact (hs.1.supplied h₀).binding hmem rfl

/-- An action on each buffer succeeds, if it does with a copy. -/
theorem onBuffers_succeeds (h₀ : s₀.Supplied names others) {d₀ : HostDevice}
    (hd₀ : s₀.device = some (.host d₀))
    (hsound : (Machine.mk s₀.memory (.host d₀)).Sound ours names)
    (hentry : entry < s₀.dispatcher.tables.length)
    {f : String → Action (BufferBinding × Machine) Unit} (hwalks : ∀ before slot after, Keeps
      (fun s => Walk s₀ (presenting s₀ entry (before ++ (slot, s.1) :: after) s.2)) (f slot))
    (hkeeps : ∀ slot, Keeps (fun s : BufferBinding × Machine => s.2.Sound ours names) (f slot))
    (hok : ∀ slot b m d, b.Stocked m d → d.entries = names →
    (f slot (b, ⟨m, .host d⟩)).result = .ok ()) :
    (Table.onBuffers f (s₀.dispatcher.table entry, ⟨s₀.memory, .host d₀⟩)).Meets
      (fun _ s => s.2.Sound ours names ∧ s.1.textures = (s₀.dispatcher.table entry).textures)
        fun _ => False := by
  have hstart : Underway s₀ ours names entry (s₀.dispatcher.table entry).buffers ⟨s₀.memory,
      .host d₀⟩ := by
    refine ⟨?_, hsound⟩
    rw [presenting, setTable_table, on, ← hd₀]
  have hloop := onValues_meets (J := Underway s₀ ours names entry) (B := fun _ _ => False)
    (P := fun _ => True) (f := f) ?_ (s₀.dispatcher.table entry).buffers []
      (fun _ _ => trivial) hstart
  · obtain ⟨_, hresult, -, hsound'⟩ := hloop.succeeds
    exact .of_result (I := fun s : Table × Machine => s.2.Sound ours names ∧ s.1.textures = _)
      hresult ⟨hsound', rfl⟩
  · rintro before slot after - ⟨b, ⟨m, device⟩⟩ hs
    obtain ⟨d, rfl, hnames, -⟩ := id hs.2
    refine .of_result (hok slot b m d (hs.binding h₀ hentry) hnames) ?_
    exact ⟨hwalks before slot after _ hs.1, hkeeps slot _ hs.2⟩

end walking

end Bench

end ComputeKernel
