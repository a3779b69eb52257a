import ComputeKernel.Sample.Workbench
import ComputeKernel.Proofs.Dispatch.Step

/-!
# What the workbench writes to textures

Each body of the workbench changes textures by writing texels that are there, and `Body.writes` says
which ones: three of the bodies write one texel, and the others write none (`Body.run_writes`).
-/

namespace ComputeKernel.Workbench

open Memory
open ComputeKernel.Action

/-! ## Texels -/

/-- The write of a texel to the texture in a field, when it has the texel. -/
def texelWrites (f : WorkbenchField) (uv : Uint2) (value : Float4) (s : Scene Workbench) :
    List TexelWrite :=
  match s.kernel.textures f with
  | some r => if (s.memory.texture r).contains uv then [⟨r, uv, value⟩] else []
  | none => []

/-- The write is to a texel that is there. -/
theorem texelWrites_inside {f : WorkbenchField} {uv : Uint2} {value : Float4} {s : Scene Workbench}
    {w : TexelWrite} (hw : w ∈ texelWrites f uv value s) :
    (s.memory.texture w.texture).contains w.uv = true := by
  unfold texelWrites at hw
  split at hw
  · split at hw
    · next hcontains => rwa [List.mem_singleton.1 hw]
    · cases hw
  · cases hw

/-- Setting a texel does that write. -/
theorem setTexel_memory (f : WorkbenchField) (uv : Uint2) (value : Float4) (s : Scene Workbench) :
    (setTexel f uv value s).state.memory = (texelWrites f uv value s).foldl write s.memory := by
  rw [setTexel, texelWrites]
  cases hf : s.kernel.textures f with
  | none =>
    rw [state_bind_of_error (e := .fault (.texel uv.x uv.y 0 0))]
    · rfl
    · simp only [examine, texture, hf, Texture.checkTexel]
      rfl
  | some r =>
    cases hcontains : (s.memory.texture r).contains uv with
    | false =>
      have hcheck :
          (examine (fun s => ((texture f s).checkTexel uv).mapError Failure.fault) s).result =
            .error (.fault
              (.texel uv.x uv.y (s.memory.texture r).width (s.memory.texture r).height)) := by
        simp only [examine, texture, hf, Texture.checkTexel, hcontains]
        rfl
      rw [state_bind_of_error hcheck]
      simp only [hcontains]
      rfl
    | true =>
      have hcheck :
          (examine (fun s => ((texture f s).checkTexel uv).mapError Failure.fault) s).result =
            .ok () := by
        simp only [examine, texture, hf, Texture.checkTexel, hcontains, if_true]
        rfl
      rw [state_bind_of_ok hcheck]
      simp only [examine, Action.modify, changeTexture, hf, hcontains]
      rfl

namespace Body

variable (body : Body)
variable (id : Uint3)

/-- The write of a texel that depends on one that is read, if there is one. -/
def texelWritesFrom (f g : WorkbenchField) (uv : Uint2) (value : Float4 → Float4)
    (s : Scene Workbench) :
    List TexelWrite :=
  match texel? f uv s with
  | some p => texelWrites g uv (value p) s
  | none => []

/-- Setting a texel from one that is read does that write. -/
theorem withTexel_memory (f g : WorkbenchField) (uv : Uint2) (value : Float4 → Float4)
    (s : Scene Workbench) :
    (withTexel f uv (fun p => setTexel g uv (value p)) s).state.memory
      = (texelWritesFrom f g uv value s).foldl write s.memory := by
  rw [withTexel, state_bind_of_ok (x := texel? f uv s) rfl, texelWritesFrom]
  cases texel? f uv s with
  | some p => exact setTexel_memory g uv (value p) s
  | none => rfl

/-- What a body writes to textures. -/
def writes : Scene Workbench → List TexelWrite :=
  match body with
  | .fill =>
    texelWritesFrom .t0 .t0 id.xy fun _ => ⟨Single.ofWord id.x, Single.ofWord id.y, 0, Single.one⟩
  | .brighten => texelWritesFrom .t0 .t0 id.xy fun p => { p with x := Single.double p.x }
  | .blend => texelWritesFrom .t0 .t1 id.xy fun p => ⟨p.w, p.z, p.y, p.x⟩
  | _ => fun _ => []

/-! ## What bodies keep -/

section keeps

variable {I : Memory → Prop}

/-- Setting an element keeps it. -/
theorem keeps_setElement (hbuffers : ∀ m r i value, I m → I (m.modifyBuffer r (·.put i value)))
    (f : WorkbenchField) (i : Nat) (value : List UInt32) :
    Keeps (fun s => I s.memory) (setElement f i value) := by
  refine (keeps_examine _).bind fun _ => keeps_modify fun s hs => ?_
  unfold changeBuffer
  split
  · exact hbuffers _ _ _ _ hs
  · exact hs

/-- So does what is done if there is one. -/
theorem keeps_guarded {f : WorkbenchField} {i : Nat} {a : Action (Scene Workbench) Unit}
    (ha : Keeps (fun s => I s.memory) a) : Keeps (fun s => I s.memory) (guarded f i a) := by
  refine (keeps_gets _).bind fun length => ?_
  by_cases h : i < length
  · rw [if_pos h]
    exact ha
  · rw [if_neg h]
    exact keeps_pure ()

/-- So does counting. -/
theorem keeps_countHit (i : Nat) : Keeps (fun s => I s.memory) (countHit i) :=
  keeps_modify fun _ hs => hs

/-- So does mixing an id. -/
theorem keeps_mixId (hbuffers : ∀ m r i value, I m → I (m.modifyBuffer r (·.put i value)))
    (id : Uint3) :
    Keeps (fun s => I s.memory) (mixId id) := by
  refine (keeps_gets _).bind fun size => ?_
  cases hempty : size.isEmpty with
  | true =>
    simp only [if_true]
    exact keeps_pure ()
  | false =>
    simp only [Bool.false_eq_true, if_false]
    exact keeps_guarded ((keeps_gets _).bind fun w => keeps_setElement hbuffers _ _ _)

/-- What a write of a texel keeps is kept by setting one from another. -/
theorem keeps_withTexel (htextures : ∀ m w, I m → I (write m w)) (f g : WorkbenchField) (uv : Uint2)
    (value : Float4 → Float4) :
    Keeps (fun s => I s.memory) (withTexel f uv fun p => setTexel g uv (value p)) := by
  intro s hs
  show I _
  rw [withTexel_memory]
  exact List.foldlRecOn _ write hs fun m hm w _ => htextures m w hm

/-- **What a body keeps.** A body keeps what writes of elements keep, if it writes no texels or if
writes of texels keep it too. -/
theorem keeps_run (body : Body) (id : Uint3)
    (hbuffers : ∀ m r i value, I m → I (m.modifyBuffer r (·.put i value)))
    (htextures : body = .fill ∨ body = .brighten ∨ body = .blend → ∀ m w, I m → I (write m w)) :
    Keeps (fun s => I s.memory) (body.run id) := by
  have hset := keeps_setElement hbuffers
  cases body with
  | fill | brighten | blend => exact keeps_withTexel (htextures (by simp)) _ _ _ _
  | nop => exact keeps_pure ()
  | double => exact hset _ _ _
  | doubleGuarded => exact keeps_guarded (hset _ _ _)
  | copy => exact keeps_guarded (keeps_guarded ((keeps_gets _).bind fun w => hset _ _ _))
  | ids => exact (keeps_examine _).bind fun place => keeps_guarded (hset _ _ _)
  | count => exact (keeps_examine _).bind fun place => keeps_countHit place
  | trace => exact keeps_mixId hbuffers id
  | fault =>
    by_cases h : id = ⟨3, 0, 0⟩
    · rw [run, if_pos h]
      exact keeps_of_state fun _ => rfl
    · rw [run, if_neg h]
      exact keeps_pure ()

end keeps

/-! ## How bodies fail -/

section faults

open Failure (IsFault)

variable {α : Type}
variable (f : WorkbenchField)

/-- What always succeeds has no failure. -/
theorem faults_of_ok {a : Action (Scene Workbench) α} (h : ∀ s, ∃ x, (a s).result = .ok x) :
    Safe (fun _ => True) IsFault a :=
  Keeps.safe (fun _ _ => trivial) fun s _ => h s

/-- A check fails by a fault. -/
theorem faults_examine (f : Scene Workbench → Except Fault α) :
    Safe (fun _ => True) IsFault (examine fun s => (f s).mapError Failure.fault) := by
  refine fun s _ => ⟨trivial, fun e he => ?_⟩
  cases hf : f s with
  | ok a => simp [examine, hf, Except.mapError] at he
  | error fault =>
    simp only [examine, hf, Except.mapError, Except.error.injEq] at he
    exact ⟨fault, he.symm⟩

/-- So does setting an element. -/
theorem faults_setElement (i : Nat) (value : List UInt32) :
    Safe (fun _ => True) IsFault (setElement f i value) :=
  (faults_examine _).bind fun _ => faults_of_ok fun _ => ⟨(), rfl⟩

/-- So does what is done if there is one. -/
theorem faults_guarded (i : Nat) {a : Action (Scene Workbench) Unit}
    (ha : Safe (fun _ => True) IsFault a) : Safe (fun _ => True) IsFault (guarded f i a) := by
  refine (faults_of_ok fun _ => ⟨_, rfl⟩).bind fun length => ?_
  by_cases h : i < length
  · rw [if_pos h]
    exact ha
  · rw [if_neg h]
    exact faults_of_ok fun _ => ⟨(), rfl⟩

/-- So does setting a texel. -/
theorem faults_withTexel (f g : WorkbenchField) (uv : Uint2) (value : Float4 → Float4) :
    Safe (fun _ => True) IsFault (withTexel f uv fun p => setTexel g uv (value p)) := by
  refine (faults_of_ok fun _ => ⟨_, rfl⟩).bind fun p? => ?_
  cases p? with
  | none => exact faults_of_ok fun _ => ⟨(), rfl⟩
  | some p => exact (faults_examine _).bind fun _ => faults_of_ok fun _ => ⟨(), rfl⟩

/-- So does mixing an id. -/
theorem faults_mixId (id : Uint3) : Safe (fun _ => True) IsFault (mixId id) := by
  refine (faults_of_ok fun _ => ⟨_, rfl⟩).bind fun size => ?_
  cases size.isEmpty with
  | true => exact faults_of_ok fun _ => ⟨(), rfl⟩
  | false =>
    exact faults_guarded _ _ ((faults_of_ok fun _ => ⟨_, rfl⟩).bind fun w =>
      faults_setElement _ _ _)

/-- **How a body fails.** A body fails by a fault only. -/
theorem faults_run (body : Body) (id : Uint3) : Safe (fun _ => True) IsFault (body.run id) := by
  cases body with
  | fill | brighten | blend => exact faults_withTexel _ _ _ _
  | nop => exact faults_of_ok fun _ => ⟨(), rfl⟩
  | double => exact faults_setElement _ _ _
  | doubleGuarded => exact faults_guarded _ _ (faults_setElement _ _ _)
  | copy =>
    exact faults_guarded _ _ (faults_guarded _ _ ((faults_of_ok fun _ => ⟨_, rfl⟩).bind fun w =>
      faults_setElement _ _ _))
  | ids => exact (faults_examine _).bind fun place => faults_guarded _ _ (faults_setElement _ _ _)
  | count => exact (faults_examine _).bind fun place => faults_of_ok fun _ => ⟨(), rfl⟩
  | trace => exact faults_mixId id
  | fault =>
    by_cases h : id = ⟨3, 0, 0⟩
    · rw [run, if_pos h]
      exact fun s _ => ⟨trivial, by rintro _ ⟨⟩; exact ⟨_, rfl⟩⟩
    · rw [run, if_neg h]
      exact faults_of_ok fun _ => ⟨(), rfl⟩

end faults

/-- A body changes textures by its writes. -/
theorem run_textures (s : Scene Workbench) :
    (body.run id s).state.memory.textures = ((body.writes id s).foldl write s.memory).textures := by
  cases body with
  | fill => exact congrArg Memory.textures (withTexel_memory .t0 .t0 id.xy _ s)
  | brighten => exact congrArg Memory.textures (withTexel_memory .t0 .t0 id.xy _ s)
  | blend => exact congrArg Memory.textures (withTexel_memory .t0 .t1 id.xy _ s)
  | nop | double | doubleGuarded | copy | ids | count | trace | fault =>
    exact keeps_run (I := fun m => m.textures = s.memory.textures) _ id (fun _ _ _ _ h => h)
      (by simp) s rfl

/-- A body writes elements and texels, and preserves the rest. -/
theorem run_preserved (s : Scene Workbench) :
    s.memory.Preserved (body.run id s).state.memory := by
  refine keeps_run (I := s.memory.Preserved) body id (fun m r i value h => h.trans ?_)
    (fun _ m w h => h.trans ?_) s
    (.refl s.memory)
  · exact .modifyBuffer m r fun _ => rfl
  · exact .modifyTexture m w.texture fun _ => rfl

/-- A body writes to texels that are there. -/
theorem writes_inside (s : Scene Workbench) {w : TexelWrite}
    (hw : w ∈ body.writes id s) : (s.memory.texture w.texture).contains w.uv = true := by
  have hfrom : ∀ f g uv value, w ∈ texelWritesFrom f g uv value s →
      (s.memory.texture w.texture).contains w.uv = true := by
    intro f g uv value hw
    unfold texelWritesFrom at hw
    split at hw
    · exact texelWrites_inside hw
    · cases hw
  cases body with
  | fill | brighten | blend => exact hfrom _ _ _ _ hw
  | nop | double | doubleGuarded | copy | ids | count | trace | fault => cases hw

/-- **The bodies of the workbench write texels.** They change textures by these writes alone. -/
theorem run_writes {point : EntryPoint Workbench} (hbody : point.body = body.run) :
    point.Writes body.writes where
  textures id s := by
    rw [hbody]
    exact run_textures body id s
  inside id s _ hw := writes_inside body id s hw

end Body

end ComputeKernel.Workbench
