import ComputeKernel.Resource.Buffer
import ComputeKernel.Resource.Texture

/-!
# Host memory

Buffers and textures are shared: a kernel field, a binding and a variable of the caller may all name
the same one, and a write through one of them is seen through the others. So the contents stand here
once, and everything else holds references. A reference is made by `addBuffer` or `addTexture` and
stays good; one that was made elsewhere reads as an empty resource.
-/

namespace ComputeKernel

/-- A reference to a buffer. -/
structure BufferRef where
  index : Nat
deriving DecidableEq, Repr, Inhabited

/-- A reference to a texture. -/
structure TextureRef where
  index : Nat
deriving DecidableEq, Repr, Inhabited

/-- All buffers and textures. -/
structure Memory where
  buffers : Array Buffer := #[]
  textures : Array Texture := #[]
deriving Inhabited

namespace Memory

variable (m : Memory)
variable (r : BufferRef)

/-- The buffer of a reference. -/
def buffer : Buffer := m.buffers[r.index]?.getD default

/-- The texture of a reference. -/
def texture (r : TextureRef) : Texture := m.textures[r.index]?.getD default

/-- Replace a buffer. -/
def setBuffer (b : Buffer) : Memory :=
  { m with buffers := m.buffers.setIfInBounds r.index b }

/-- Replace a texture. -/
def setTexture (r : TextureRef) (t : Texture) : Memory :=
  { m with textures := m.textures.setIfInBounds r.index t }

/-- What an array holds after one item was replaced, if it was there. -/
theorem getD_setIfInBounds [Inhabited α] (as : Array α) (i j : Nat) (a : α) :
    (as.setIfInBounds i a)[j]?.getD default = if j = i ∧
    i < as.size then a else as[j]?.getD default := by
  rw [Array.getElem?_setIfInBounds]
  by_cases hj : j = i
  · subst hj
    by_cases hlt : j < as.size <;> simp [hlt]
  · simp [hj, Ne.symm hj]

/-- What a memory holds after one buffer was replaced. -/
theorem buffer_setBuffer (r r' : BufferRef) (b : Buffer) :
    (m.setBuffer r b).buffer r' = if r' = r ∧ r.index < m.buffers.size then b else m.buffer r' := by
  simp only [buffer, setBuffer, getD_setIfInBounds, show r' = r ↔
    r'.index = r.index by cases r; cases r'; simp]

/-- What a memory holds after one texture was replaced. -/
theorem texture_setTexture (r r' : TextureRef) (t : Texture) :
    (m.setTexture r t).texture r' = if r' = r ∧ r.index < m.textures.size then
      t else m.texture r' := by
  simp only [texture, setTexture, getD_setIfInBounds, show r' = r ↔
    r'.index = r.index by cases r; cases r'; simp]

/-- Change a buffer. -/
def modifyBuffer (f : Buffer → Buffer) : Memory :=
  { m with buffers := m.buffers.modify r.index f }

/-- Change a texture. -/
def modifyTexture (r : TextureRef) (f : Texture → Texture) : Memory :=
  { m with textures := m.textures.modify r.index f }

/-- A new buffer. -/
def addBuffer (b : Buffer) : BufferRef × Memory :=
  (⟨m.buffers.size⟩, { m with buffers := m.buffers.push b })

/-- A new texture. -/
def addTexture (t : Texture) : TextureRef × Memory :=
  (⟨m.textures.size⟩, { m with textures := m.textures.push t })

end Memory

end ComputeKernel
