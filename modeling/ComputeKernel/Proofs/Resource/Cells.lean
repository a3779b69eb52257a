import ComputeKernel.Proofs.Buffer.Elements
import ComputeKernel.Proofs.Dispatch.SingleCopy

/-!
# Cells of memory

The elements of buffers and the texels of textures are the cells of host memory. Both lie in memory
as arrays of words, so it has to be shown that cells do not overlap: a write to one cell leaves all
others as they were (`SameOn.store`), and writes to different cells may be done in either order
(`Memory.store_comm`). That holds of whole memories, with the flags of the textures.
-/

namespace ComputeKernel

/-- A buffer is told by its index. -/
theorem BufferRef.ext_index {r r' : BufferRef} (h : r.index = r'.index) : r = r' := by
  cases r
  cases r'
  exact congrArg BufferRef.mk h

/-- So is a texture. -/
theorem TextureRef.ext_index {r r' : TextureRef} (h : r.index = r'.index) : r = r' := by
  cases r
  cases r'
  exact congrArg TextureRef.mk h

/-- An element of a buffer or a texel of a texture. -/
inductive Cell where
  | element (r : BufferRef) (i : Nat)
  | texel (r : TextureRef) (uv : Uint2)
deriving DecidableEq

/-- A cell is given a value. -/
inductive CellWrite where
  | element (r : BufferRef) (i : Nat) (value : List UInt32)
  | texel (r : TextureRef) (uv : Uint2) (value : Float4)
deriving DecidableEq

/-- The cell that is written. -/
def CellWrite.cell : CellWrite → Cell
  | .element r i _ => .element r i
  | .texel r uv _ => .texel r uv

/-! ## Elements -/

namespace Buffer

variable (b : Buffer)

/-- All of a buffer but what its elements are. -/
def shape : Element × Nat := (b.element, b.length)

variable {i j : Nat}

/-- Writes of two elements commute. -/
theorem put_comm (hne : i ≠ j) (v v' : List UInt32) :
    (b.put i v).put j v' = (b.put j v').put i v := by
  simp only [put, mk.injEq, true_and]
  refine overwrite_comm _ _ _ ?_
  have hapart := chunks_apart b.element.words hne
  simp only [List.length_take]
  omega

/-- Other elements stay. -/
theorem get_put_of_ne (hne : i ≠ j) (v : List UInt32) : (b.put i v).get j = b.get j := by
  rw [get, get, b.elementAt_put_of_ne hne v]
  rfl

end Buffer

/-! ## Texels -/

namespace Texture

variable (t : Texture)

/-- All of a texture but what its texels are and which side is behind. -/
def shape : UInt32 × UInt32 × TexelFormat × Array Float4 × Option SurfaceHandle :=
  (t.width, t.height, t.format, t.image, t.surface)

variable {uv uv' : Uint2}

/-- Give a texel another value, if the texture has it. -/
def putIfInside (uv : Uint2) (value : Float4) : Texture :=
  if t.contains uv then t.put uv value else t

/-- Different texels may be given other values in either order. -/
theorem putIfInside_comm (hne : uv ≠ uv') (v v' : Float4) :
    (t.putIfInside uv v).putIfInside uv' v' = (t.putIfInside uv' v').putIfInside uv v := by
  have hcontains : ∀ (uv : Uint2) v uv', (t.put uv v).contains uv' = t.contains uv' :=
    fun _ _ _ => rfl
  by_cases h : t.contains uv = true <;> by_cases h' : t.contains uv' = true <;>
    simp only [putIfInside, h, h', hcontains, if_true, if_false, Bool.false_eq_true]
  simp only [put, mk.injEq, true_and]
  exact overwrite_comm _ _ _ (chunks_apart 4 fun heq => hne (position_inj h h' heq))

/-- Other texels stay. -/
theorem get_putIfInside_of_ne (hne : uv ≠ uv') (v : Float4) :
    (t.putIfInside uv v).get uv' = t.get uv' := by
  rw [putIfInside]
  split
  next h => exact (get_put h v uv').trans (if_neg hne.symm)
  next => rfl

end Texture

/-! ## Memories -/

namespace Memory

variable (m : Memory)

/-- Do a write. Nothing happens where there is no such cell. -/
def store : CellWrite → Memory
  | .element r i value => m.modifyBuffer r (·.put i value)
  | .texel r uv value => m.modifyTexture r (·.putIfInside uv value)

/-- Changes of different items commute, or ones that commute. -/
theorem modify_comm {α : Type} (xs : Array α) {i j : Nat} {f g : α → α}
    (h : i = j → ∀ x, g (f x) = f (g x)) :
    (xs.modify i f).modify j g = (xs.modify j g).modify i f := by
  refine Array.ext_getElem? fun k => ?_
  simp only [Array.getElem?_modify]
  by_cases hi : i = k <;> by_cases hj : j = k <;> simp only [hi, hj, if_true, if_false]
  cases xs[k]? with
  | none => rfl
  | some x => exact congrArg some (h (hi.trans hj.symm) x)

/-- What a change of an item does not change. -/
theorem map_modify {α β : Type} (xs : Array α) (i : Nat) {f : α → α} {g : α → β}
    (h : ∀ x, g (f x) = g x) :
    (xs.modify i f).map g = xs.map g := by
  refine Array.ext_getElem? fun k => ?_
  simp only [Array.getElem?_map, Array.getElem?_modify]
  split
  · cases xs[k]? with
    | none => rfl
    | some x => exact congrArg some (h x)
  · rfl

/-- **Writes to different cells** may be done in either order. -/
theorem store_comm {w w' : CellWrite} (hne : w.cell ≠ w'.cell) :
    (m.store w).store w' = (m.store w').store w := by
  cases w with
  | element r i v =>
    cases w' with
    | element r' j v' =>
      simp only [store, modifyBuffer]
      rw [modify_comm]
      intro hr b
      obtain rfl := BufferRef.ext_index hr
      exact b.put_comm (fun hij => hne (by rw [hij]; rfl)) v v'
    | texel r' uv v' => rfl
  | texel r uv v =>
    cases w' with
    | element r' j v' => rfl
    | texel r' uv' v' =>
      simp only [store, modifyTexture]
      rw [modify_comm]
      intro hr t
      obtain rfl := TextureRef.ext_index hr
      exact t.putIfInside_comm (fun huv => hne (by rw [huv]; rfl)) v v'

/-- A write may be done before or after writes to other cells. -/
theorem foldl_store_store {ws : List CellWrite} {w : CellWrite} (h : ∀ w' ∈ ws, w.cell ≠ w'.cell) :
    ws.foldl store (m.store w) = (ws.foldl store m).store w := by
  induction ws generalizing m with
  | nil => rfl
  | cons w' ws ih =>
    rw [List.foldl_cons, List.foldl_cons, m.store_comm (h w' (.head _)),
      ih _ fun v hv => h v (.tail _ hv)]

/-- Writes to some cells may be done before or after writes to others. -/
theorem foldl_store_comm {ws vs : List CellWrite} (h : ∀ w ∈ ws, ∀ v ∈ vs, w.cell ≠ v.cell) :
    vs.foldl store (ws.foldl store m) = ws.foldl store (vs.foldl store m) := by
  induction ws generalizing m with
  | nil => rfl
  | cons w ws ih =>
    rw [List.foldl_cons, List.foldl_cons, ih _ fun w' hw' => h w' (.tail _ hw'),
      foldl_store_store m (h w (.head _))]

/-- Two memories differ at most in cells that do not matter and in which side of a texture is
behind. -/
structure SameOn (C : Cell → Prop) (m m' : Memory) : Prop where
  buffers : m'.buffers.map Buffer.shape = m.buffers.map Buffer.shape
  textures : m'.textures.map Texture.shape = m.textures.map Texture.shape
  elements : ∀ r i, C (.element r i) → (m'.buffer r).get i = (m.buffer r).get i
  texels : ∀ r uv, C (.texel r uv) → (m'.texture r).get uv = (m.texture r).get uv

namespace SameOn

variable {C : Cell → Prop} {m m' m'' : Memory}

/-- A memory is the same as itself. -/
theorem refl (C : Cell → Prop) (m : Memory) : SameOn C m m :=
  ⟨rfl, rfl, fun _ _ _ => rfl, fun _ _ _ => rfl⟩

/-- Two steps make one. -/
theorem trans (h : SameOn C m m') (h' : SameOn C m' m'') : SameOn C m m'' where
  buffers := h'.buffers.trans h.buffers
  textures := h'.textures.trans h.textures
  elements r i hc := (h'.elements r i hc).trans (h.elements r i hc)
  texels r uv hc := (h'.texels r uv hc).trans (h.texels r uv hc)

/-- The shape of a texture is the same. -/
theorem shape_texture (h : SameOn C m m') (r : TextureRef) :
    (m'.texture r).shape = (m.texture r).shape := by
  have hget := congrArg (·[r.index]?) h.textures
  simp only [Array.getElem?_map] at hget
  rw [texture, texture]
  cases hm : m.textures[r.index]? with
  | none =>
    rw [hm] at hget
    rw [Option.map_eq_none_iff.1 hget]
  | some t =>
    rw [hm] at hget
    obtain ⟨t', ht', hshape⟩ := Option.map_eq_some_iff.1 hget
    rw [ht']
    exact hshape

/-- A write to a cell that does not matter. -/
theorem store (m : Memory) {w : CellWrite} (hw : ¬ C w.cell) : SameOn C m (m.store w) := by
  cases w with
  | element r i v =>
    have hshape : (m.buffers.modify r.index (·.put i v)).map Buffer.shape =
      m.buffers.map Buffer.shape :=
      map_modify _ _ fun _ => rfl
    refine ⟨hshape, rfl, fun r' j hc => ?_, fun _ _ _ => rfl⟩
    simp only [Memory.store, buffer, modifyBuffer, Array.getElem?_modify]
    split
    next hr =>
      obtain rfl := BufferRef.ext_index hr
      cases m.buffers[r.index]? with
      | none => rfl
      | some b => exact b.get_put_of_ne (fun hij => hw (by rw [CellWrite.cell, hij]; exact hc)) v
    next => rfl
  | texel r uv v =>
    have hshape : (m.textures.modify r.index (·.putIfInside uv v)).map Texture.shape
        = m.textures.map Texture.shape := by
      refine map_modify _ _ fun t => ?_
      rw [Texture.putIfInside]
      split <;> rfl
    refine ⟨rfl, hshape, fun _ _ _ => rfl, fun r' uv' hc => ?_⟩
    simp only [Memory.store, texture, modifyTexture, Array.getElem?_modify]
    split
    next hr =>
      obtain rfl := TextureRef.ext_index hr
      cases m.textures[r.index]? with
      | none => rfl
      | some t =>
        exact t.get_putIfInside_of_ne (fun huv => hw (by rw [CellWrite.cell, huv]; exact hc)) v
    next => rfl

/-- Writes to cells that do not matter. -/
theorem foldl_store (m : Memory) {ws : List CellWrite} (hws : ∀ w ∈ ws, ¬ C w.cell) :
    SameOn C m (ws.foldl Memory.store m) := by
  induction ws generalizing m with
  | nil => exact refl C m
  | cons w ws ih =>
    exact (store m (hws w (.head _))).trans (ih _ fun w hw => hws w (.tail _ hw))

end SameOn

end Memory

end ComputeKernel
