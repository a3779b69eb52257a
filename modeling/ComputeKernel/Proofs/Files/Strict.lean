import ComputeKernel.Files.Disk

/-!
# Disks on which nothing fails

`Disk.Strict` is a disk that gives up at the first change that is refused. That something is not
there to be read is an answer like any other. What comes to its end there runs on the disk as it is
in the same way (`Disk.Agrees`), and what tells of a refusal comes to its end there exactly if it
succeeds (`Disk.Insists`).
-/

namespace ComputeKernel.Disk

/-- Actions on a disk that end where a change is refused. -/
abbrev Strict := StateT Disk Option

/-- An action that nothing can stop. -/
def Strict.lift {α : Type} (x : StateM Disk α) : Strict α := fun d => some (x d)

/-- An action that is to succeed. -/
def Strict.insist (x : StateM Disk (Except FileError Unit)) :
    Strict (Except FileError Unit) := fun d =>
  match x d with
  | (.ok _, next) => some (.ok (), next)
  | (.error _, _) => none

instance : FileAccess Strict where
  read path := .lift (FileAccess.read path)
  write path text := .insist (FileAccess.write path text)
  makeDirs path := .insist (FileAccess.makeDirs path)
  remove path := .insist (FileAccess.remove path)
  has path := .lift (FileAccess.has path)
  isDirectory path := .lift (FileAccess.isDirectory path)
  fileNames path := .lift (FileAccess.fileNames path)
  filesBelow path := .lift (FileAccess.filesBelow path)
  canonical? path := .lift (FileAccess.canonical? path)

variable {α β : Type}

namespace Strict

variable {d d' : Disk} {path : String}

/-- One step ends after the other. -/
theorem bind_eq_some_iff {x : Strict α} {f : α → Strict β} {b : β} :
    (x >>= f) d = some (b, d') ↔ ∃ a between, x d = some (a, between) ∧
    f a between = some (b, d') := by
  refine Option.bind_eq_some_iff.trans ?_
  constructor
  · rintro ⟨⟨a, between⟩, hx, hf⟩
    exact ⟨a, between, hx, hf⟩
  · rintro ⟨a, between, hx, hf⟩
    exact ⟨(a, between), hx, hf⟩

/-- A first step of known outcome. -/
theorem bind_of_eq_some {x : Strict α} {a : α} (h : x d = some (a, d')) (f : α → Strict β) :
    (x >>= f) d = f a d' := by
  have hbind : (x >>= f) d = (x d).bind fun r => f r.1 r.2 := rfl
  rw [hbind, h]
  rfl

/-- A choice of values. -/
theorem ite_pure (c : Prop) [Decidable c] (a b : α) (d : Disk) :
    (if c then pure a else pure b : Strict α) d = some (if c then a else b, d) := by
  split
  · rfl
  · rfl

/-- Reading never ends it. -/
theorem read_bind (f : Except FileError String → Strict β) :
    (FileAccess.read path >>= f) d = f (d.read path) d := rfl

end Strict

/-- What ends on a strict disk does the same on any. -/
def Agrees (x : Strict α) (y : StateM Disk α) : Prop := ∀ d r, x d = some r → y d = r

/-- A value agrees. -/
theorem agrees_pure (a : α) : Agrees (pure a) (pure a) := by
  intro d r h
  cases h
  rfl

/-- One step after another agrees. -/
theorem Agrees.bind {x : Strict α} {y : StateM Disk α} {f : α → Strict β} {g : α → StateM Disk β}
    (h : Agrees x y) (hf : ∀ a, Agrees (f a) (g a)) : Agrees (x >>= f) (y >>= g) := by
  rintro d ⟨b, d'⟩ hr
  obtain ⟨a, between, hx, hfa⟩ := Strict.bind_eq_some_iff.1 hr
  have hy : y d = (a, between) := h d _ hx
  have hbind : (y >>= g) d = g (y d).1 (y d).2 := rfl
  rw [hbind, hy]
  exact hf a between _ hfa

/-- A choice agrees. -/
theorem Agrees.ite {c : Prop} [Decidable c] {x x' : Strict α} {y y' : StateM Disk α}
    (h : Agrees x y) (h' : Agrees x' y') : Agrees (if c then x else x') (if c then y else y') := by
  split
  · exact h
  · exact h'

/-- What nothing can stop agrees. -/
theorem agrees_lift (x : StateM Disk α) : Agrees (.lift x) x := by
  intro d r h
  cases h
  rfl

variable {ε : Type}

/-- Exactly what succeeds ends on a strict disk, alike. -/
def Insists (x : Strict (Except ε α)) (y : StateM Disk (Except ε α)) : Prop :=
  ∀ d, x d =
    match y d with
    | (.ok a, next) => some (.ok a, next)
    | (.error _, _) => none

/-- A value is a success. -/
theorem insists_ok (a : α) : Insists (pure (.ok a)) (pure (.ok a) : StateM Disk (Except ε α)) :=
  fun _ => rfl

/-- What nothing can stop may come first. -/
theorem insists_lift_bind (y : StateM Disk β) {f : β → Strict (Except ε α)}
    {g : β → StateM Disk (Except ε α)} (h : ∀ b, Insists (f b) (g b)) :
    Insists (.lift y >>= f) (y >>= g) :=
  fun d => h (y d).1 (y d).2

/-- A change that is refused is told. -/
theorem insists_bind (y : StateM Disk (Except FileError Unit))
    {f : Except FileError Unit → Strict (Except ε α)}
    {g : Except FileError Unit → StateM Disk (Except ε α)} (h : Insists (f (.ok ())) (g (.ok ())))
    (hrefused : ∀ e d, ∃ e' next, g (.error e) d = (.error e', next)) :
    Insists (.insist y >>= f) (y >>= g) := by
  intro d
  have hx : (Strict.insist y >>= f) d = (Strict.insist y d).bind fun r => f r.1 r.2 := rfl
  have hy : (y >>= g) d = g (y d).1 (y d).2 := rfl
  rw [hx, hy, Strict.insist]
  rcases y d with ⟨e | u, next⟩
  · obtain ⟨e', next', heq⟩ := hrefused e next
    simp only [heq]
    rfl
  · exact h next

/-- When it ends. -/
theorem Insists.eq_some_iff {x : Strict (Except ε α)} {y : StateM Disk (Except ε α)}
    (h : Insists x y) {d d' : Disk} {r : Except ε α} :
    x d = some (r, d') ↔ ∃ a, r = .ok a ∧ y d = (.ok a, d') := by
  rw [h d]
  rcases y d with ⟨e | a, next⟩
  · exact iff_of_false (fun hr => nomatch hr) fun ⟨_, _, hy⟩ => nomatch hy
  · constructor
    · intro hr
      cases hr
      exact ⟨a, rfl, rfl⟩
    · rintro ⟨_, rfl, hy⟩
      cases hy
      rfl

/-- What insists agrees. -/
theorem Insists.agrees {x : Strict (Except ε α)} {y : StateM Disk (Except ε α)} (h : Insists x y) :
    Agrees x y := by
  rintro d ⟨r, d'⟩ hr
  obtain ⟨a, rfl, hy⟩ := h.eq_some_iff.1 hr
  exact hy

end ComputeKernel.Disk
