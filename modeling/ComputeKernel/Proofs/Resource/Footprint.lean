import ComputeKernel.Dispatch.Dispatcher
import ComputeKernel.Proofs.Texture.Machine

/-!
# What an action reads and writes

An action touches no more than certain resources when it leaves all others as they are, and does not
depend on them: on a memory in which others differ it does the same (`Action.Touches`). So a
resource that is not touched is neither written nor read. There is one lemma for each way of putting
actions together.
-/

namespace ComputeKernel

/-- A buffer or a texture. -/
inductive Resource where
  | buffer (r : BufferRef)
  | texture (r : TextureRef)
deriving DecidableEq

/-! ## Memories that agree -/

namespace Memory

variable (m : Memory)

/-- Certain resources are the same in both memories, or missing in both. -/
structure Agrees (R : Resource → Prop) (m m' : Memory) : Prop where
  buffers : ∀ r, R (.buffer r) → m'.buffers[r.index]? = m.buffers[r.index]?
  textures : ∀ r, R (.texture r) → m'.textures[r.index]? = m.textures[r.index]?

namespace Agrees

variable {R R' : Resource → Prop} {m m' m'' : Memory}

/-- A memory agrees with itself. -/
theorem refl (R : Resource → Prop) (m : Memory) : Agrees R m m := ⟨fun _ _ => rfl, fun _ _ => rfl⟩

/-- Two steps make one. -/
theorem trans (h : Agrees R m m') (h' : Agrees R m' m'') : Agrees R m m'' where
  buffers r hr := (h'.buffers r hr).trans (h.buffers r hr)
  textures r hr := (h'.textures r hr).trans (h.textures r hr)

/-- It agrees on fewer as well. -/
theorem mono (h : Agrees R m m') (hsub : ∀ x, R' x → R x) : Agrees R' m m' where
  buffers r hr := h.buffers r (hsub _ hr)
  textures r hr := h.textures r (hsub _ hr)

/-- A buffer is the same. -/
theorem buffer (h : Agrees R m m') {r : BufferRef} (hr : R (.buffer r)) :
    m'.buffer r = m.buffer r := by
  rw [Memory.buffer, Memory.buffer, h.buffers r hr]

/-- A texture is the same. -/
theorem texture (h : Agrees R m m') {r : TextureRef} (hr : R (.texture r)) :
    m'.texture r = m.texture r := by
  rw [Memory.texture, Memory.texture, h.textures r hr]

/-- Changing a buffer in both. -/
theorem modifyBuffer (h : Agrees R m m') (r : BufferRef) (f : Buffer → Buffer) :
    Agrees R (m.modifyBuffer r f) (m'.modifyBuffer r f) where
  buffers r' hr' := by
    simp only [Memory.modifyBuffer, Array.getElem?_modify, h.buffers r' hr']
  textures := h.textures

/-- Changing a texture in both. -/
theorem modifyTexture (h : Agrees R m m') (r : TextureRef) (f : Texture → Texture) :
    Agrees R (m.modifyTexture r f) (m'.modifyTexture r f) where
  buffers := h.buffers
  textures r' hr' := by
    simp only [Memory.modifyTexture, Array.getElem?_modify, h.textures r' hr']

/-- Setting a texture in both. -/
theorem setTexture (h : Agrees R m m') (r : TextureRef) (t : Texture) :
    Agrees R (m.setTexture r t) (m'.setTexture r t) := by
  rw [← modifyTexture_eq m r fun _ => t, ← modifyTexture_eq m' r fun _ => t]
  exact h.modifyTexture r _

end Agrees

variable {R : Resource → Prop}

/-- A change of a buffer leaves other resources as they are. -/
theorem agrees_modifyBuffer {r : BufferRef} (hr : R (.buffer r)) (f : Buffer → Buffer) :
    Agrees (fun x => ¬ R x) m (m.modifyBuffer r f) where
  buffers r' hr' := by
    have hne : r.index ≠ r'.index := by
      intro heq
      obtain ⟨i⟩ := r
      obtain rfl : r' = ⟨i⟩ := by rw [show i = r'.index from heq]
      exact hr' hr
    simp only [modifyBuffer, Array.getElem?_modify, if_neg hne]
  textures _ _ := rfl

/-- A change of a texture leaves other resources as they are. -/
theorem agrees_modifyTexture {r : TextureRef} (hr : R (.texture r)) (f : Texture → Texture) :
    Agrees (fun x => ¬ R x) m (m.modifyTexture r f) where
  buffers _ _ := rfl
  textures r' hr' := by
    have hne : r.index ≠ r'.index := by
      intro heq
      obtain ⟨i⟩ := r
      obtain rfl : r' = ⟨i⟩ := by rw [show i = r'.index from heq]
      exact hr' hr
    simp only [modifyTexture, Array.getElem?_modify, if_neg hne]

/-- Setting one leaves the others. -/
theorem agrees_setTexture {r : TextureRef} (hr : R (.texture r)) (t : Texture) :
    Agrees (fun x => ¬ R x) m (m.setTexture r t) := by
  rw [← modifyTexture_eq m r fun _ => t]
  exact m.agrees_modifyTexture hr _

end Memory

/-! ## Footprints -/

/-- A state with a memory in it. -/
class HasMemory (σ : Type) where
  memory : σ → Memory
  withMemory : σ → Memory → σ
  memory_withMemory : ∀ s m, memory (withMemory s m) = m

open HasMemory

instance {K : Type} : HasMemory (Scene K) where
  memory s := s.memory
  withMemory s m := { s with memory := m }
  memory_withMemory _ _ := rfl

instance {K : Type} : HasMemory (Bench K) where
  memory s := s.memory
  withMemory s m := { s with memory := m }
  memory_withMemory _ _ := rfl

namespace Action

variable {σ α β : Type} [HasMemory σ] {R R' : Resource → Prop} {a : Action σ α} {s : σ}

/-- In a state the action reads and writes certain resources only. The others stay, and it would do
the same if they were different. -/
structure Touches (R : Resource → Prop) (a : Action σ α) (s : σ) : Prop where
  frame : (memory s).Agrees (fun x => ¬ R x) (memory (a s).state)
  same : ∀ m, (memory s).Agrees R m → ∃ m', (memory (a s).state).Agrees R m' ∧
    a (withMemory s m) =
      { result := (a s).result, state := withMemory (a s).state m', events := (a s).events }

/-- It matters what an action does in the state, whatever its memory is. -/
theorem Touches.congr {b : Action σ α} (h : Touches R b s) (hs : a s = b s)
    (hall : ∀ m, a (withMemory s m) = b (withMemory s m)) : Touches R a s where
  frame := by
    rw [hs]
    exact h.frame
  same m hm := by
    rw [hs, hall m]
    exact h.same m hm

/-- An action may touch less, in whatever memory. -/
theorem Touches.mono (h : Touches R' a s) (hall : ∀ m, Touches R' a (withMemory s m))
    (hsub : ∀ x, R' x → R x) :
    Touches R a s where
  frame := h.frame.mono fun x hx hx' => hx (hsub x hx')
  same m hm := by
    obtain ⟨m', hm', heq⟩ := h.same m (hm.mono hsub)
    have hframe := (hall m).frame
    rw [heq, memory_withMemory, memory_withMemory] at hframe
    -- What is not touched is not changed in either memory.
    refine ⟨m', ⟨fun r hr => ?_, fun r hr => ?_⟩, heq⟩
    · by_cases hr' : R' (.buffer r)
      · exact hm'.buffers r hr'
      · rw [hframe.buffers r hr', hm.buffers r hr, h.frame.buffers r hr']
    · by_cases hr' : R' (.texture r)
      · exact hm'.textures r hr'
      · rw [hframe.textures r hr', hm.textures r hr, h.frame.textures r hr']

/-- An action that does not deal with memory touches nothing. -/
theorem touches_of_aside (hmemory : memory (a s).state = memory s)
    (h : ∀ m, a (withMemory s m) =
      { result := (a s).result, state := withMemory (a s).state m, events := (a s).events }) :
    Touches R a s where
  frame := by
    rw [hmemory]
    exact .refl _ _
  same m hm := ⟨m, by rw [hmemory]; exact hm, h m⟩

/-- One action after another. -/
theorem Touches.bind {f : α → Action σ β} (ha : Touches R a s)
    (hf : ∀ x, (a s).result = .ok x → Touches R (f x) (a s).state) : Touches R (a >>= f) s := by
  cases hr : (a s).result with
  | error e =>
    refine ⟨?_, fun m hm => ?_⟩
    · rw [state_bind_of_error hr]
      exact ha.frame
    · obtain ⟨m', hm', heq⟩ := ha.same m hm
      refine ⟨m', by rw [state_bind_of_error hr]; exact hm', ?_⟩
      rw [bind_eq, bind_eq, heq, hr]
  | ok x =>
    refine ⟨?_, fun m hm => ?_⟩
    · rw [state_bind_of_ok hr]
      exact ha.frame.trans (hf x hr).frame
    · obtain ⟨m', hm', heq⟩ := ha.same m hm
      obtain ⟨m'', hm'', heq'⟩ := (hf x hr).same m' hm'
      refine ⟨m'', by rw [state_bind_of_ok hr]; exact hm'', ?_⟩
      rw [bind_eq, bind_eq, heq, hr]
      simp only [heq']

/-- A loop touches what its steps touch. -/
theorem touches_forEach {I : σ → Prop} {items : List β} {f : β → Action σ Unit}
    (hkeeps : ∀ c ∈ items, Keeps I (f c)) (h : ∀ c ∈ items, ∀ s, I s → Touches R (f c) s)
    (hs : I s) :
    Touches R (forEach items f) s := by
  induction items generalizing s with
  | nil => exact touches_of_aside rfl fun _ => rfl
  | cons c items ih =>
    refine (h c (.head _) s hs).bind fun _ _ => ?_
    exact ih (fun d hd => hkeeps d (.tail _ hd)) (fun d hd => h d (.tail _ hd))
      (hkeeps c (.head _) s hs)

/-- A check that reads certain resources. -/
theorem touches_examine {f : σ → Except Failure α}
    (h : ∀ m, (memory s).Agrees R m → f (withMemory s m) = f s) :
    Touches R (examine f) s where
  frame := .refl _ _
  same m hm := ⟨m, hm, by simp only [examine, h m hm]⟩

/-- Reading certain resources. -/
theorem touches_gets {f : σ → α} (h : ∀ m, (memory s).Agrees R m → f (withMemory s m) = f s) :
    Touches R (gets f) s where
  frame := .refl _ _
  same m hm := ⟨m, hm, by simp only [gets, h m hm]⟩

/-- A report touches nothing. -/
theorem touches_report (e : Event) : Touches R (report e) s := touches_of_aside rfl fun _ => rfl

end Action

end ComputeKernel
