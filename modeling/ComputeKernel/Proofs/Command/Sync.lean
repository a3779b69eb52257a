import ComputeKernel.Command.Run
import ComputeKernel.Proofs.Project.KernelFiles

/-!
# Writing the kernels of a project

What `Command.syncProject` does on a disk where no file operation fails. The trees are read in the
order of their paths and are not touched by what is written, so all writing comes to the kernels of
all classes one after another (`Command.syncFiles_spec`); then the kernel files of classes that are
not declared are removed. `Command.Tally` says what is counted on the way.
-/

namespace ComputeKernel

open List
open Disk.Strict Project

/-! ## Kernels of classes -/

namespace Shader

variable {c : ClassDecl}
variable (path : String)

/-- A class with its kernel text, if it has both name and text. -/
def kernel? (c : ClassDecl) : Option (String × String) := (translateNamed "" c).toOption

/-- A problem is told as an error. -/
theorem isError_diagnostic (path className : String) (p : Problem) :
    (p.diagnostic path className).isError = true := rfl

/-- There are errors where there are problems. -/
theorem hasErrors_translateLossy (c : ClassDecl) :
    (translateLossy path c).hasErrors = !(classOutput c).problems.isEmpty := by
  rw [KernelText.hasErrors, translateLossy]
  cases (classOutput c).problems with
  | nil => rfl
  | cons p ps => rw [map_cons, any_cons, isError_diagnostic, Bool.true_or]; rfl

/-- A kernel does not depend on where its class lies. -/
theorem toOption_translateNamed (c : ClassDecl) : (translateNamed path c).toOption = kernel? c := by
  rw [kernel?, translateNamed, translateNamed]
  split
  · rfl
  · rw [translate?, translate?, hasErrors_translateLossy, hasErrors_translateLossy]
    split
    · rfl
    · rfl

/-- When a class has a kernel. -/
theorem kernel?_eq_some_iff {name text : String} :
    kernel? c = some (name, text) ↔ c.name.node ≠ "" ∧ c.name.node = name ∧
    translate? "" c = .ok text := by
  rw [kernel?, translateNamed]
  split
  next hempty => simp [Except.toOption, String.isEmpty_iff.1 hempty]
  next hne =>
    rw [String.isEmpty_iff] at hne
    cases translate? "" c with
    | error ds => simp [Except.toOption, Except.map]
    | ok source => simp [Except.toOption, Except.map, hne]

/-- When there is one. -/
theorem isSome_kernel?_iff :
    (kernel? c).isSome = true ↔ c.name.node ≠ "" ∧ ∃ text, translate? "" c = .ok text := by
  rw [Option.isSome_iff_exists]
  constructor
  · rintro ⟨⟨name, text⟩, hkernel⟩
    obtain ⟨hne, -, htext⟩ := kernel?_eq_some_iff.1 hkernel
    exact ⟨hne, text, htext⟩
  · rintro ⟨hne, text, htext⟩
    exact ⟨_, kernel?_eq_some_iff.2 ⟨hne, rfl, htext⟩⟩

/-- The kernels of a file are those of its classes. -/
theorem kernels_translateFile (file : SourceFile) (root : Option String) :
    (translateFile file root).kernels = file.classes.filterMap kernel? := by
  have hkernel : (fun r => r.toOption) ∘ translateNamed (shownPath root file.path) = kernel? := by
    funext c
    exact toOption_translateNamed _ c
  rw [translateFile, filterMap_map, hkernel]

/-- A refused class is told about. -/
theorem ne_nil_of_translateNamed {path : String} {ds : List Diagnostic}
    (h : translateNamed path c = .error ds) : ds ≠ [] := by
  rw [translateNamed] at h
  split at h
  next =>
    cases h
    exact cons_ne_nil _ _
  next =>
    rw [translate?] at h
    split at h
    next herrors =>
      cases h
      rintro hnil
      rw [KernelText.hasErrors, hnil] at herrors
      cases herrors
    next => cases h

/-- Nothing is told exactly if all classes have kernels. -/
theorem diagnostics_translateFile (file : SourceFile) (root : Option String) :
    (translateFile file root).diagnostics = [] ↔ ∀ c ∈ file.classes, (kernel? c).isSome = true := by
  rw [translateFile, flatMap_eq_nil_iff, forall_mem_map]
  refine forall₂_congr fun c _ => ?_
  rw [← toOption_translateNamed (shownPath root file.path) c]
  cases htranslated : translateNamed (shownPath root file.path) c with
  | ok kernel => simp [Except.toOption]
  | error ds => simp [Except.toOption, ne_nil_of_translateNamed htranslated]

end Shader

/-! ## Trees -/

/-- The syntax tree in a file, if there is one. -/
def Disk.tree? (d : Disk) (path : String) : Option SourceFile :=
  match d.read path with
  | .ok text => (SourceFile.load? text).toOption
  | .error _ => none

/-- The paths of the syntax trees of a project, in order. -/
def Project.treePaths (project : Project) (d : Disk) : List String :=
  Path.sort (((d.filesBelow project.sourceDir).map fun names =>
    names.foldl Path.join project.sourceDir).filter fun path => Path.extension? path = some "json")

/-- When a file holds a tree. -/
theorem Disk.tree?_eq_some_iff {d : Disk} {path : String} {file : SourceFile} :
    d.tree? path = some file ↔ ∃ text, d.read path = .ok text ∧ SourceFile.load? text =
      .ok file := by
  unfold tree?
  cases d.read path with
  | error e => simp
  | ok text =>
    cases hload : SourceFile.load? text with
    | error e => simp [Except.toOption, hload]
    | ok other => simp [Except.toOption, hload]

/-- The trees of files that all hold one. -/
theorem Disk.forall₂_tree? {d : Disk} {paths : List String}
    (h : ∀ path ∈ paths, (d.tree? path).isSome = true) :
    Forall₂ (fun path file => d.tree? path = some file) paths (paths.filterMap d.tree?) := by
  induction paths with
  | nil => exact .nil
  | cons path paths ih =>
    obtain ⟨file, hfile⟩ := Option.isSome_iff_exists.1 (h path (.head _))
    rw [filterMap_cons_some hfile]
    exact .cons hfile (ih fun other hother => h other (.tail _ hother))

namespace Command

open Disk (Strict)
variable (project : Project)
variable (path : String)

/-! ## Counting -/

/-- The names in a list that are not empty. -/
def named (names : List String) : List String := names.filter (· ≠ "")

/-- The names that are not empty, one by one. -/
theorem mem_named {name : String} {names : List String} :
    name ∈ named names ↔ name ∈ names ∧ name ≠ "" := by
  simp [named]

/-- They are taken apart. -/
theorem named_append (names others : List String) :
    named (names ++ others) = named names ++ named others :=
  filter_append names others

/-- A name that is declared lives, unless it is empty. -/
theorem mem_live_declare (p : Progress) (name other : String) :
    other ∈ (declare project path p name).live ↔ other ∈ p.live ∨ other ∈ named [name] := by
  rw [mem_named, mem_singleton, declare]
  by_cases hempty : name = ""
  · rw [if_pos (String.isEmpty_iff.2 hempty)]
    exact (or_iff_left fun h => h.2 (h.1.trans hempty)).symm
  · rw [if_neg (mt String.isEmpty_iff.1 hempty)]
    by_cases hknown : name ∈ p.live
    · rw [if_pos (contains_iff_mem.2 hknown)]
      exact (or_iff_left_of_imp fun h => h.1 ▸ hknown).symm
    · rw [if_neg (mt contains_iff_mem.1 hknown), mem_append, mem_singleton]
      exact or_congr_right (iff_self_and.2 fun h => h ▸ hempty)

/-- It is a failure to declare a name that lives already. -/
theorem failed_declare (p : Progress) (name : String) :
    (declare project path p name).failed = 0 ↔ p.failed = 0 ∧ ∀ other ∈ named [name],
    other ∉ p.live := by
  have hnamed : (∀ other ∈ named [name], other ∉ p.live) ↔ (name ≠ "" → name ∉ p.live) := by
    simp only [mem_named, mem_singleton, and_imp, forall_eq]
  rw [hnamed, declare]
  by_cases hempty : name = ""
  · rw [if_pos (String.isEmpty_iff.2 hempty)]
    exact (and_iff_left (absurd hempty)).symm
  · rw [if_neg (mt String.isEmpty_iff.1 hempty)]
    by_cases hknown : name ∈ p.live
    · rw [if_pos (contains_iff_mem.2 hknown)]
      exact iff_of_false (Nat.succ_ne_zero _) fun h => h.2 hempty hknown
    · rw [if_neg (mt contains_iff_mem.1 hknown)]
      exact (and_iff_left fun _ => hknown).symm

/-- One name is not repeated. -/
theorem nodup_named_singleton (name : String) : (named [name]).Nodup :=
  (nodup_singleton name).filter _

/-- After declaring names, those not empty live, each once. -/
theorem foldl_declare (names : List String) (p : Progress) :
    (∀ name, name ∈ (names.foldl (declare project path) p).live ↔ name ∈ p.live ∨
    name ∈ named names) ∧
      ((names.foldl (declare project path) p).failed = 0 ↔
        p.failed = 0 ∧ (named names).Nodup ∧ ∀ name ∈ named names, name ∉ p.live) := by
  induction names generalizing p with
  | nil => simp [named]
  | cons name names ih =>
    obtain ⟨hlive, hfailed⟩ := ih (declare project path p name)
    have hnamed : named (name :: names) = named [name] ++ named names := named_append [name] names
    rw [foldl_cons, hnamed]
    refine ⟨fun other => ?_, ?_⟩
    · rw [hlive, mem_live_declare, mem_append, or_assoc]
    · rw [hfailed, failed_declare, nodup_append', forall_mem_append]
      simp only [mem_live_declare, not_or]
      constructor
      · rintro ⟨⟨hzero, hfirst⟩, hnodup, hrest⟩
        exact ⟨hzero, ⟨nodup_named_singleton name, hnodup,
          fun other hother hagain => (hrest other hagain).2 hother⟩, hfirst,
            fun other hother => (hrest other hother).1⟩
      · rintro ⟨hzero, ⟨-, hnodup, hnew⟩, hfirst, hrest⟩
        exact ⟨⟨hzero, hfirst⟩, hnodup,
          fun other hother => ⟨hrest other hother, fun hagain => hnew hagain hother⟩⟩

/-- What the progress says about classes so far. -/
structure Tally (classes : List ClassDecl) (p : Progress) : Prop where
  live : ∀ name, name ∈ p.live ↔ name ∈ named (classes.map (·.name.node))
  failed : p.failed = 0 ↔
    (named (classes.map (·.name.node))).Nodup ∧ ∀ c ∈ classes, (Shader.kernel? c).isSome = true

/-- Nothing was looked at yet. -/
theorem tally_nil : Tally [] {} := by
  constructor
  · intro name
    exact Iff.rfl
  · simp [named]

/-- The progress before anything is written for a file. -/
def noted (root path : String) (file : SourceFile) (p : Progress) : Progress :=
  let p := (file.classes.map (·.name.node)).foldl (declare project path) p
  let t := Shader.translateFile file (some root)
  if t.diagnostics.isEmpty then p else p.fail (t.diagnostics.map Diagnostic.render)

/-- A file is noted, and then its kernels are written. -/
theorem syncFile_eq {m : Type → Type} [Monad m] [FileAccess m] (project : Project)
    (root path : String) (file : SourceFile) (p : Progress) :
    (syncFile project root path file p : m Progress) =
      writeKernels project (noted project root path file p)
        (file.classes.filterMap Shader.kernel?) := by
  rw [← Shader.kernels_translateFile file (some root)]
  rfl

/-- What is noted is counted. -/
theorem Tally.noted {classes : List ClassDecl} {p : Progress} (h : Tally classes p)
    (project : Project) (root path : String) (file : SourceFile) :
    Tally (classes ++ file.classes) (noted project root path file p) := by
  obtain ⟨hlive, hfailed⟩ := foldl_declare project path (file.classes.map (·.name.node)) p
  have hnames : named ((classes ++ file.classes).map (·.name.node)) =
      named (classes.map (·.name.node)) ++ named (file.classes.map (·.name.node)) := by
    rw [map_append, named_append]
  have hclean := Shader.diagnostics_translateFile file (some root)
  constructor
  · intro name
    rw [hnames, mem_append, ← h.live, ← hlive]
    simp only [Command.noted]
    split
    · exact Iff.rfl
    · exact Iff.rfl
  · have hnoted : (Command.noted project root path file p).failed = 0 ↔
        ((file.classes.map (·.name.node)).foldl (declare project path) p).failed = 0 ∧
          ∀ c ∈ file.classes, (Shader.kernel? c).isSome = true := by
      simp only [Command.noted, ← hclean]
      split
      next hempty => simp [List.isEmpty_iff.1 hempty]
      next hsome => simp [Progress.fail, mt List.isEmpty_iff.2 hsome]
    rw [hnoted, hfailed, h.failed, hnames, nodup_append', forall_mem_append]
    simp only [h.live, List.Disjoint]
    constructor
    · rintro ⟨⟨⟨hnodup, hold⟩, hnodup', hnew⟩, hfile⟩
      exact ⟨⟨hnodup, hnodup', fun name hname hname' => hnew name hname' hname⟩, hold, hfile⟩
    · rintro ⟨⟨hnodup, hnodup', hnew⟩, hold, hfile⟩
      exact ⟨⟨⟨hnodup, hold⟩, hnodup', fun name hname hname' => hnew hname' hname⟩, hfile⟩

/-! ## Writing -/

variable {project : Project} {d d' : Disk} {p p' : Progress} {kernels : List (String × String)}

/-- Where all kernels are written, nothing fails. -/
theorem writeKernels_spec (hd : d.Sound) (hout : project.outputDir ≠ "")
    (hnames : ∀ k ∈ kernels, '/' ∉ (project.kernelFileName k.1).toList)
    (h : (writeKernels project p kernels : Strict _) d = some (p', d')) :
    p'.live = p.live ∧ p'.failed = p.failed ∧ project.Writes kernels d d' := by
  induction kernels generalizing p d with
  | nil =>
    cases h
    exact ⟨rfl, rfl, .nil project hd⟩
  | cons k kernels ih =>
    obtain ⟨hname, hrest⟩ := forall_mem_cons.1 hnames
    obtain ⟨r, between, hwrite, h⟩ := bind_eq_some_iff.1 h
    obtain ⟨rfl, hwrites⟩ := writes_of_writeKernel hd hout hname hwrite
    obtain ⟨hlive, hfailed, hwrites'⟩ := ih hwrites.sound hrest h
    exact ⟨hlive, hfailed, hwrites.append hwrites'⟩

/-- Kernels whose files are there can be written again. -/
theorem exists_writeKernels (hd : d.Sound) (hready : ∀ k ∈ kernels, project.Ready d k.1)
    (p : Progress) :
    ∃ p' d', (writeKernels project p kernels : Strict _) d = some (p', d') := by
  induction kernels generalizing p d with
  | nil => exact ⟨p, d, rfl⟩
  | cons k kernels ih =>
    obtain ⟨hk, hrest⟩ := forall_mem_cons.1 hready
    obtain ⟨between, hwrite⟩ := hk.writeKernel k.2
    obtain ⟨-, hwrites⟩ :=
      writes_of_writeKernel hd (Disk.ne_empty_of_isDirectory hk.holds.directory)
      hk.holds.isName.1 hwrite
    obtain ⟨p', d', hkernels⟩ := ih hwrites.sound (fun k' hk' => (hrest k' hk').writes hwrites)
      { p with written := p.written + 1 }
    exact ⟨p', d', bind_eq_some_iff.2 ⟨_, between, hwrite, hkernels⟩⟩

/-! ## Reading trees -/

variable {path : String} {file : SourceFile}

/-- Loading a tree that is there. -/
theorem loadInput_bind {α : Type} (hpath : Path.extension? path = some "json")
    (h : d.tree? path = some file) (f : Except String SourceFile → Strict α) :
    (loadInput path >>= f) d = f (.ok file) d := by
  obtain ⟨text, hread, hload⟩ := Disk.tree?_eq_some_iff.1 h
  have htree : (loadTree path : Strict _) d = some (.ok file, d) := by
    rw [loadTree, Strict.read_bind, hread]
    dsimp only
    rw [hload]
    rfl
  refine bind_of_eq_some ?_ f
  rw [loadInput, if_pos hpath, bind_of_eq_some htree]
  rfl

/-- A tree to be written from, which is no kernel file. -/
structure Loads (project : Project) (d : Disk) (path : String) (file : SourceFile) : Prop where
  extension : Path.extension? path = some "json"
  apart : ∀ cls, d.target path ≠ project.kernelPlace d cls
  tree : d.tree? path = some file
  names : ∀ c ∈ file.classes, '/' ∉ (project.kernelFileName c.name.node).toList

/-- A tree is read again as long as its file is as it was. -/
theorem Loads.keeps (h : Loads project d path file) (hkeeps : d.Keeps d')
    (hfile : d'.file? (d.target path) = d.file? (d.target path)) : Loads project d' path file where
  extension := h.extension
  apart := by
    intro cls
    rw [hkeeps.target, kernelPlace_of_keeps project hkeeps]
    exact h.apart cls
  tree := by
    obtain ⟨text, hread, hload⟩ := Disk.tree?_eq_some_iff.1 h.tree
    exact Disk.tree?_eq_some_iff.2 ⟨text,
      hkeeps.read hread (hfile.trans (Disk.file?_of_read hread)), hload⟩
  names := h.names

/-- Writing kernels leaves the trees as they are. -/
theorem Loads.writes {kernels : List (String × String)} (h : Loads project d path file)
    (hwrites : project.Writes kernels d d') : Loads project d' path file :=
  h.keeps hwrites.keeps (hwrites.file _ fun k _ => h.apart k.1)

/-- Kernel files of a tree can be named. -/
theorem Loads.kernelNames (h : Loads project d path file) :
    ∀ k ∈ file.classes.filterMap Shader.kernel?, '/' ∉ (project.kernelFileName k.1).toList := by
  intro k hk
  obtain ⟨c, hc, hkernel⟩ := mem_filterMap.1 hk
  obtain ⟨-, hname, -⟩ := Shader.kernel?_eq_some_iff.1 hkernel
  exact hname ▸ h.names c hc

variable {root : String} {paths : List String} {trees : List SourceFile}

/-- All trees are read, and their kernels written in turn. -/
theorem syncFiles_spec {classes : List ClassDecl} {r : Progress × Option String} (hd : d.Sound)
    (hout : project.outputDir ≠ "") (hloads : Forall₂ (Loads project d) paths trees)
    (htally : Tally classes p) (h : (syncFiles project root p paths : Strict _) d = some (r, d')) :
    ∃ p', r = (p', none) ∧ Tally (classes ++ trees.flatMap (·.classes)) p' ∧
      project.Writes ((trees.flatMap (·.classes)).filterMap Shader.kernel?) d d' := by
  induction paths generalizing trees classes p d with
  | nil =>
    cases hloads
    cases h
    refine ⟨p, rfl, ?_, .nil project hd⟩
    rwa [flatMap_nil, append_nil]
  | cons path paths ih =>
    obtain ⟨file, trees', hfile, hrest, rfl⟩ := forall₂_cons_left_iff.1 hloads
    rw [syncFiles, loadInput_bind hfile.extension hfile.tree] at h
    obtain ⟨p₁, between, hsync, h⟩ := bind_eq_some_iff.1 h
    rw [syncFile_eq] at hsync
    obtain ⟨hlive, hfailed, hwrites⟩ := writeKernels_spec hd hout hfile.kernelNames hsync
    have hnoted := htally.noted project root path file
    have htally₁ : Tally (classes ++ file.classes) p₁ :=
      ⟨fun name => hlive ▸ hnoted.live name, hfailed ▸ hnoted.failed⟩
    obtain ⟨p', rfl, htally', hwrites'⟩ :=
      ih hwrites.sound (hrest.imp fun _ _ h => h.writes hwrites) htally₁ h
    refine ⟨p', rfl, ?_, ?_⟩
    · rwa [flatMap_cons, ← append_assoc]
    · rw [flatMap_cons, filterMap_append]
      exact hwrites.append hwrites'

/-- Trees whose kernel files are there are written again. -/
theorem exists_syncFiles (root : String) (hd : d.Sound) (hout : project.outputDir ≠ "")
    (hloads : Forall₂ (Loads project d) paths trees)
    (hready : ∀ k ∈ (trees.flatMap (·.classes)).filterMap Shader.kernel?, project.Ready d k.1)
    (p : Progress) :
    ∃ r d', (syncFiles project root p paths : Strict _) d = some (r, d') := by
  induction paths generalizing trees p d with
  | nil => exact ⟨_, d, rfl⟩
  | cons path paths ih =>
    obtain ⟨file, trees', hfile, hrest, rfl⟩ := forall₂_cons_left_iff.1 hloads
    rw [flatMap_cons, filterMap_append, forall_mem_append] at hready
    obtain ⟨hfirst, hothers⟩ := hready
    obtain ⟨p₁, between, hsync⟩ := exists_writeKernels hd hfirst (noted project root path file p)
    obtain ⟨-, -, hwrites⟩ := writeKernels_spec hd hout hfile.kernelNames hsync
    rw [syncFiles, loadInput_bind hfile.extension hfile.tree]
    dsimp only
    rw [syncFile_eq, bind_of_eq_some hsync]
    exact ih hwrites.sound (hrest.imp fun _ _ h => h.writes hwrites)
      (fun k hk => (hothers k hk).writes hwrites) p₁

/-! ## Whole projects -/

/-- Telling counts no failure. -/
theorem failed_foldl_tell (text : String → String) (paths : List String) (p : Progress) :
    (paths.foldl (fun (p : Progress) path => p.tell (text path)) p).failed = p.failed := by
  induction paths generalizing p with
  | nil => rfl
  | cons path paths ih => exact ih (p.tell (text path))

/-- A failed command has no exit code 0. -/
theorem code_failed (messages : List String) : (Finish.failed messages).code ≠ 0 := by
  have hone : (Finish.failed messages).code = 1 := rfl
  rw [hone]
  decide

/-- Pruning ends the run, and what was counted tells how. -/
theorem finishSync_spec {f : Finish} (hd : d.Sound)
    (h : (finishSync project p : Strict _) d = some (f, d')) :
    project.Prunes p.live d d' ∧ (f.code = 0 ↔ p.failed = 0) := by
  obtain ⟨r, between, hprune, h⟩ := bind_eq_some_iff.1 h
  obtain ⟨rfl, hprunes⟩ := prunes_of_prune hd hprune
  rw [ite_pure] at h
  cases h
  have hfailed := failed_foldl_tell (fun path => "Removed stale " ++ project.relative path)
    (project.stalePaths p.live d) p
  refine ⟨hprunes, ?_⟩
  dsimp only
  split
  next hzero => exact iff_of_true rfl (hfailed ▸ hzero)
  next hsome => exact iff_of_false (code_failed _) (hfailed ▸ hsome)

/-- The root of a project as diagnostics show it. -/
def shownRoot (project : Project) (d : Disk) : String :=
  (d.canonical? project.rootDir).getD project.rootDir

/-- The trees are read, and then comes the end. -/
theorem syncProject_eq (hsource : d.isDirectory project.sourceDir = true) :
    (syncProject project : Strict Finish) d =
      (syncFiles project (shownRoot project d) {} (project.treePaths d) >>= fun
        | (p, none) => finishSync project p
        | (p, some text) => pure (.failed (p.messages ++ [text])) : Strict Finish) d := by
  unfold syncProject
  have hthere : (FileAccess.isDirectory project.sourceDir : Strict Bool) d = some (true, d) := by
    rw [← hsource]
    rfl
  rw [bind_of_eq_some hthere, if_pos rfl]
  rfl

/-- A run writes the kernels of all classes, and then prunes. -/
theorem syncProject_spec {f : Finish} (hd : d.Sound) (hout : project.outputDir ≠ "")
    (hsource : d.isDirectory project.sourceDir = true)
    (hloads : Forall₂ (Loads project d) (project.treePaths d) trees)
    (h : (syncProject project : Strict _) d = some (f, d')) :
    ∃ p between, Tally (trees.flatMap (·.classes)) p ∧ (f.code = 0 ↔ p.failed = 0) ∧
      project.Writes ((trees.flatMap (·.classes)).filterMap Shader.kernel?) d between ∧
      project.Prunes p.live between d' := by
  rw [syncProject_eq hsource] at h
  obtain ⟨r, between, hfiles, h⟩ := bind_eq_some_iff.1 h
  obtain ⟨p, rfl, htally, hwrites⟩ := syncFiles_spec hd hout hloads tally_nil hfiles
  obtain ⟨hprunes, hcode⟩ := finishSync_spec hwrites.sound h
  exact ⟨p, between, htally, hcode, hwrites, hprunes⟩

/-- Where all is there and nothing stale, a run changes nothing. -/
theorem exists_syncProject (hd : d.Sound) (hout : project.outputDir ≠ "")
    (hsource : d.isDirectory project.sourceDir = true)
    (hloads : Forall₂ (Loads project d) (project.treePaths d) trees)
    (hready : ∀ k ∈ (trees.flatMap (·.classes)).filterMap Shader.kernel?, project.Ready d k.1)
    (hheld : ∀ cls text, lastText? ((trees.flatMap (·.classes)).filterMap Shader.kernel?)
      cls = some text → d.file? (project.kernelPlace d cls) = some (.text text))
    (hgone : d.isDirectory project.outputDir = true → ∀ cls, cls ≠ "" →
      cls ∉ named ((trees.flatMap (·.classes)).map (·.name.node)) →
      d.file? (project.kernelPlace d cls) = none) :
    ∃ f, (syncProject project : Strict _) d = some (f, d) := by
  obtain ⟨r, d', hfiles⟩ := exists_syncFiles (shownRoot project d) hd hout hloads hready {}
  obtain ⟨p, rfl, htally, hwrites⟩ := syncFiles_spec hd hout hloads tally_nil hfiles
  obtain rfl := hwrites.eq_self hd hready hheld
  have hstale : project.stalePaths p.live d' = [] :=
    stalePaths_eq_nil hd fun hthere cls hne hlive =>
      hgone hthere cls hne (mt (htally.live cls).2 hlive)
  rw [syncProject_eq hsource, bind_of_eq_some hfiles]
  dsimp only
  rw [finishSync, bind_of_eq_some (prune_eq hstale)]
  exact ⟨_, ite_pure _ _ _ _⟩

end Command

end ComputeKernel
