import ComputeKernel.Project.Project
import ComputeKernel.Proofs.Files.Disk

/-!
# Finding and loading projects

Neither finding a project nor loading it changes the disk. What is found is a project file
(`Project.exists_of_findFrom`), and what it loads as is told by its text (`Project.exists_of_load`).
-/

namespace ComputeKernel.Project

open ComputeKernel.Path

variable {project : Project} {d : Disk} {dir path : String}
variable {text : String}

/-! ## Finding projects -/

/-- One step of the search. -/
theorem findFrom_succ (fuel : Nat) (dir : String) (d : Disk) :
    (findFrom (fuel + 1) dir : StateM Disk _) d =
      if d.has (join dir fileName) = true then (some (join dir fileName), d)
      else match parent? dir with
        | some above => (findFrom fuel above : StateM Disk _) d
        | none => (none, d) := by
  have hrun : (findFrom (fuel + 1) dir : StateM Disk _) d =
      (if d.has (join dir fileName) = true then pure (some (join dir fileName))
      else match parent? dir with
        | some above => findFrom fuel above
        | none => pure none : StateM Disk _) d := rfl
  rw [hrun]
  split
  next => rfl
  next =>
    cases parent? dir with
    | some above => rfl
    | none => rfl

/-- What is found is a project file. -/
theorem exists_of_findFrom {fuel : Nat}
    (h : (findFrom fuel dir : StateM Disk _) d = (some path, d)) :
    ∃ base, path = join base fileName := by
  induction fuel generalizing dir with
  | zero => cases h
  | succ fuel ih =>
    rw [findFrom_succ] at h
    split at h
    next =>
      cases h
      exact ⟨dir, rfl⟩
    next =>
      cases hparent : parent? dir with
      | some above =>
        rw [hparent] at h
        exact ih h
      | none =>
        rw [hparent] at h
        cases h

/-- The project file in a directory is found there. -/
theorem find?_of_has (h : d.has (join dir fileName) = true) :
    (find? dir : StateM Disk _) d = (some (join dir fileName), d) := by
  rw [find?, findFrom_succ, if_pos h]

/-! ## Loading projects -/

/-- Loading reads one file. -/
theorem load_eq (path : String) (d : Disk) :
    (load path : StateM Disk _) d =
      match d.read path with
      | .ok text => (ofText path text, d)
      | .error e => (.error (fileDiagnostic "read" path e), d) := by
  have hrun : (load path : StateM Disk _) d =
      (match d.read path with
      | .ok text => pure (ofText path text)
      | .error e => pure (.error (fileDiagnostic "read" path e)) : StateM Disk _) d := rfl
  rw [hrun]
  cases d.read path with
  | ok text => rfl
  | error e => rfl

/-- A project is what the text of its file says. -/
theorem exists_of_load (h : (load path : StateM Disk _) d = (.ok project, d)) :
    ∃ text, d.read path = .ok text ∧ ofText path text = .ok project := by
  rw [load_eq] at h
  cases hread : d.read path with
  | error e =>
    rw [hread] at h
    cases h
  | ok text =>
    rw [hread] at h
    exact ⟨text, rfl, congrArg Prod.fst h⟩

/-- A text makes a project if its settings can be read and have a name. -/
theorem ofText_eq_ok_iff :
    ofText path text = .ok project ↔ ∃ s, Settings.read text = .ok s ∧ s.name ≠ "" ∧
    project = ofSettings path s := by
  unfold ofText
  cases Settings.read text with
  | error e => simp
  | ok s =>
    dsimp only
    split
    next hname => simp [String.isEmpty_iff.1 hname]
    next hname =>
      constructor
      · intro h
        exact ⟨s, rfl, fun hempty => hname (String.isEmpty_iff.2 hempty), (Except.ok.inj h).symm⟩
      · rintro ⟨t, ht, -, rfl⟩
        rw [Except.ok.inj ht]

/-- When a project is loaded. -/
theorem load_eq_ok_iff (h : d.read path = .ok text) :
    (load path : StateM Disk _) d = (.ok project, d) ↔
      ∃ s, Settings.read text = .ok s ∧ s.name ≠ "" ∧ project = ofSettings path s := by
  rw [load_eq, h, ← ofText_eq_ok_iff]
  constructor
  · intro hload
    exact congrArg Prod.fst hload
  · intro htext
    exact congrArg (·, d) htext

/-- A project comes from settings. -/
theorem exists_of_ofText (h : ofText path text = .ok project) :
    ∃ s, project = ofSettings path s := by
  obtain ⟨s, -, -, hproject⟩ := ofText_eq_ok_iff.1 h
  exact ⟨s, hproject⟩

/-! ## Disks with one file -/

/-- A disk with nothing but a project file. -/
def diskWith (text : String) : Disk where
  nodes := [([fileName], .file (.text text))]

/-- The project file is read. -/
theorem read_diskWith (text : String) : (diskWith text).read "/rspu.toml" = .ok text := by
  have hstart : (diskWith text).start "/rspu.toml" = [] := by
    rw [Disk.start]
    split <;> rfl
  have hparts : segments "/rspu.toml" = ["", fileName] := by decide +kernel
  have hwalk : (diskWith text).walk [] ["", fileName] = .ok [fileName] := rfl
  have htarget : (diskWith text).target "/rspu.toml" = [fileName] := by
    rw [Disk.target, hstart, hparts]
    rfl
  rw [Disk.read_eq_ok_iff, Disk.find_eq_ok_iff, hstart, hparts, htarget]
  exact ⟨by decide +kernel, hwalk, rfl⟩

end ComputeKernel.Project
