import ComputeKernel.Proofs.Command.Strict
import ComputeKernel.Proofs.Command.Sync
import ComputeKernel.Proofs.Project.Search

/-!
# The result of a run

`Command.sync_result` says what `Command.sync` leaves behind when no file operation fails. That
another run changes nothing needs that it finds the same project. The directory that it starts from
may be reached through a directory that only the first run made, and then the search ends elsewhere
(`Command.Annex.sync_again_removes`).
-/

namespace ComputeKernel

open ComputeKernel.Path
open Project

namespace Project

variable {project : Project} {d : Disk} {path : String}

/-! ## Projects whose files are apart -/

/-- The files of a project keep out of each other's way: no part of a kernel file's name has a
separator, and the output directory has neither the project file nor trees. -/
structure Clear (project : Project) (d : Disk) (trees : List SourceFile) : Prop where
  lead : '/' ∉ project.lead.toList
  extension : '/' ∉ project.extension.toList
  classes : ∀ file ∈ trees, ∀ c ∈ file.classes, '/' ∉ c.name.node.toList
  root : d.target project.outputDir ≠ d.target project.rootDir
  source : ¬ d.target project.sourceDir <+: d.target project.outputDir

variable {trees : List SourceFile}

/-- Nor has the whole name. -/
theorem Clear.kernelFileName (h : project.Clear d trees) {cls : String} (hcls : '/' ∉ cls.toList) :
    '/' ∉ (project.kernelFileName cls).toList := by
  simp [Project.kernelFileName, h.lead, h.extension, hcls]

/-- What lies below the source directory is no kernel file. -/
theorem Clear.apart (h : project.Clear d trees) {names : Place} (hne : names ≠ []) (cls : String) :
    d.target project.sourceDir ++ names ≠ project.kernelPlace d cls := by
  intro heq
  rw [← List.dropLast_append_getLast hne, ← List.append_assoc, kernelPlace] at heq
  exact h.source ⟨_, (List.append_inj' heq rfl).1⟩

/-- The output directory has a name. -/
theorem Clear.outputDir (h : project.Clear d trees) {text : String}
    (hproject : ofText path text = .ok project) :
    project.outputDir ≠ "" := by
  intro hempty
  obtain ⟨s, rfl⟩ := exists_of_ofText hproject
  have hroot : (ofSettings path s).rootDir = "" := join_eq_empty hempty
  exact h.root (by rw [hempty, hroot])

/-- The trees lie below the source directory. -/
theorem mem_treePaths (hd : d.Sound) (hsource : d.isDirectory project.sourceDir = true)
    {path : String} (h : path ∈ project.treePaths d) :
    extension? path = some "json" ∧ ∃ names, names ≠ [] ∧
    d.target path = d.target project.sourceDir ++ names := by
  simp only [treePaths, mem_sort, List.mem_filter, List.mem_map, decide_eq_true_eq,
    Disk.filesBelow_of_isDirectory hsource] at h
  obtain ⟨⟨names, hnames, rfl⟩, hjson⟩ := h
  obtain ⟨hne, contents, hfile⟩ := (Disk.mem_filesFrom hd).1 hnames
  have hall := (hd.node (Disk.file?_eq_some_iff.1 hfile)).1
  exact ⟨hjson, names, hne, Disk.target_foldl_join d _ fun name hname => hall name
    (List.mem_append_right _ hname)⟩

/-- The trees of a project stay where they are. -/
theorem Clear.loads (h : project.Clear d trees) (hd : d.Sound)
    (hsource : d.isDirectory project.sourceDir = true)
    (htrees : List.Forall₂ (fun path file => d.tree? path = some file)
      (project.treePaths d) trees) :
    List.Forall₂ (Command.Loads project d) (project.treePaths d) trees := by
  obtain ⟨hlength, hload⟩ := List.forall₂_iff_zip.1 htrees
  refine List.forall₂_iff_zip.2 ⟨hlength, fun hmem => ?_⟩
  obtain ⟨hpath, hfile⟩ := List.of_mem_zip hmem
  obtain ⟨hjson, names, hne, htarget⟩ := mem_treePaths hd hsource hpath
  exact ⟨hjson, fun cls => htarget ▸ h.apart hne cls, hload hmem,
    fun c hc => h.kernelFileName (h.classes _ hfile c hc)⟩

end Project

namespace Command

open Disk (Strict)

section

variable {project : Project} {d d' between : Disk} {p : Progress} {classes : List ClassDecl}
variable {path : String} {trees : List SourceFile}

/-! ## What a run leaves behind -/

/-- The names of classes that have one. -/
abbrev liveNames (classes : List ClassDecl) : List String := named (classes.map (·.name.node))

/-- The kernels of classes that can be translated, in order. -/
abbrev kernelsOf (classes : List ClassDecl) : List (String × String) :=
  classes.filterMap Shader.kernel?

/-- What a run leaves behind. -/
structure Synced (project : Project) (classes : List ClassDecl) (d d' : Disk) : Prop where
  keeps : d.Keeps d'
  sound : d'.Sound
  held : ∀ cls ∈ liveNames classes, d'.file? (project.kernelPlace d cls) =
    ((lastText? (kernelsOf classes) cls).map .text).or (d.file? (project.kernelPlace d cls))
  gone : d'.isDirectory project.outputDir = true → ∀ cls, cls ≠ "" → cls ∉ liveNames classes →
    d'.file? (project.kernelPlace d cls) = none
  file : ∀ place, (∀ cls, cls ≠ "" → place ≠ project.kernelPlace d cls) →
    d'.file? place = d.file? place
  missing : d'.isDirectory project.outputDir = false → d' = d
  ready : ∀ k ∈ kernelsOf classes, project.Ready d' k.1

/-- A class with a kernel has a name. -/
theorem mem_liveNames_of_kernel {k : String × String} (hk : k ∈ kernelsOf classes) :
    k.1 ∈ liveNames classes := by
  obtain ⟨c, hc, hkernel⟩ := List.mem_filterMap.1 hk
  obtain ⟨hne, hname, -⟩ := Shader.kernel?_eq_some_iff.1 hkernel
  exact mem_named.2 ⟨List.mem_map.2 ⟨c, hc, hname⟩, hname ▸ hne⟩

/-- Writing and pruning leave this behind. -/
theorem synced_of_run (hd : d.Sound) (htally : Tally classes p)
    (hwrites : project.Writes (kernelsOf classes) d between)
    (hprunes : project.Prunes p.live between d') : Synced project classes d d' := by
  have hplace (cls : String) : project.kernelPlace between cls = project.kernelPlace d cls :=
    kernelPlace_of_keeps project hwrites.keeps cls
  -- The files of classes that live are not pruned.
  have hlive (cls : String) (hcls : cls ∈ liveNames classes) :
      d'.file? (project.kernelPlace d cls) = between.file? (project.kernelPlace d cls) := by
    refine Disk.file?_congr (hprunes.node _ fun cls' _ hnot heq => hnot ((htally.live cls').2 ?_))
    rwa [← kernelPlace_inj ((hplace cls).trans heq)]
  refine ⟨hwrites.keeps.trans hprunes.keeps, hprunes.sound, fun cls hcls => ?_,
    fun hout cls hne hcls => ?_, fun place hother => ?_, fun hout => ?_, fun k hk => ?_⟩
  · rw [hlive cls hcls]
    cases hlast : lastText? (kernelsOf classes) cls with
    | some text => exact hwrites.held cls text hlast
    | none =>
      refine hwrites.file _ fun k hk heq => ?_
      exact lastText?_eq_none_iff.1 hlast k hk (kernelPlace_inj heq).symm
  · have hbetween : between.isDirectory project.outputDir = true := by
      by_contra hnot
      rw [hprunes.missing (Bool.eq_false_iff.2 hnot)] at hout
      exact hnot hout
    rw [← hplace cls]
    exact hprunes.gone hbetween cls hne (mt (htally.live cls).1 hcls)
  · have hkept : d'.node? place = between.node? place :=
      hprunes.node place fun cls hne _ => hplace cls ▸ hother cls hne
    rw [Disk.file?_congr hkept]
    exact hwrites.file place fun k hk => hother k.1 (mem_named.1 (mem_liveNames_of_kernel hk)).2
  · -- Without an output directory nothing was written, and so nothing could be pruned.
    have hbetween : between.isDirectory project.outputDir = false := by
      rw [Bool.eq_false_iff] at hout ⊢
      exact fun h => hout (hprunes.keeps.isDirectory h)
    have hnone : kernelsOf classes = [] := by
      refine List.eq_nil_iff_forall_not_mem.2 fun k hk => ?_
      rw [(hwrites.ready k hk).holds.directory] at hbetween
      cases hbetween
    rw [hprunes.missing hbetween]
    rw [hnone] at hwrites
    exact hwrites.eq_self hd (fun k hk => absurd hk List.not_mem_nil) fun cls text h => by cases h
  · have hcls := mem_liveNames_of_kernel hk
    obtain ⟨hholds, contents, hfile⟩ := hwrites.ready k hk
    refine ⟨hprunes.keeps.holds hholds, contents, ?_⟩
    rw [kernelPlace_of_keeps project hprunes.keeps, hplace, hlive k.1 hcls, ← hplace]
    exact hfile

/-- A run leaves the paths of the trees as they are. -/
theorem Synced.treePaths (h : Synced project classes d d') (hd : d.Sound)
    (hclear : project.Clear d trees) (hsource : d.isDirectory project.sourceDir = true) :
    project.treePaths d' = project.treePaths d := by
  have hfiles : d'.filesBelow project.sourceDir = d.filesBelow project.sourceDir := by
    rw [Disk.filesBelow_of_isDirectory hsource,
      Disk.filesBelow_of_isDirectory (h.keeps.isDirectory hsource), h.keeps.target]
    refine Disk.filesFrom_congr hd h.sound fun names => ?_
    by_cases hnames : names = []
    · -- The source directory itself is still one.
      have hdirectory := (Disk.find_eq_ok_iff.1 (Disk.isDirectory_iff.1 hsource)).2.2
      rw [hnames, List.append_nil, Disk.file?, Disk.file?, hdirectory,
        h.keeps.directory _ hdirectory]
    · exact h.file _ fun cls _ => hclear.apart hnames cls
  rw [Project.treePaths, Project.treePaths, hfiles]

/-- Where a run has been, another one changes nothing. -/
theorem Synced.again (h : Synced project (trees.flatMap (·.classes)) d d') (hd : d.Sound)
    (hout : project.outputDir ≠ "") (hclear : project.Clear d trees)
    (hsource : d.isDirectory project.sourceDir = true)
    (hloads : List.Forall₂ (Loads project d) (project.treePaths d) trees) :
    ∃ f, (syncProject project : Strict _) d' = some (f, d') := by
  have hplace (cls : String) : project.kernelPlace d' cls = project.kernelPlace d cls :=
    kernelPlace_of_keeps project h.keeps cls
  refine exists_syncProject h.sound hout (h.keeps.isDirectory hsource) ?_ h.ready
    (fun cls text hlast => ?_)
    fun hthere cls hne hcls => ?_
  · rw [h.treePaths hd hclear hsource]
    exact hloads.imp fun path file hload =>
      hload.keeps h.keeps (h.file _ fun cls _ => hload.apart cls)
  · have hcls : cls ∈ liveNames (trees.flatMap (·.classes)) := by
      by_contra hnot
      have hnone : lastText? (kernelsOf (trees.flatMap (·.classes))) cls = none :=
        lastText?_eq_none_iff.2 fun k hk heq => hnot (heq ▸ mem_liveNames_of_kernel hk)
      rw [hnone] at hlast
      cases hlast
    rw [hplace, h.held cls hcls, hlast]
    rfl
  · rw [hplace]
    exact h.gone hthere cls hne hcls

/-- The project file is not touched. -/
theorem Synced.load (h : Synced project classes d d')
    (hpath : ∃ base, path = join base fileName) (hclear : project.Clear d trees)
    (hload : (load path : StateM Disk _) d = (.ok project, d)) :
    d'.has path = true ∧ (load path : StateM Disk _) d' = (.ok project, d') := by
  obtain ⟨base, rfl⟩ := hpath
  obtain ⟨text, hread, hproject⟩ := exists_of_load hload
  have htarget : d.target (join base fileName) = d.target project.rootDir ++ [fileName] := by
    obtain ⟨s, rfl⟩ := exists_of_ofText hproject
    exact d.target_parent base (by decide)
  have hfile : d'.file? (d.target (Path.join base fileName)) = some (.text text) := by
    rw [h.file _ fun cls _ heq => ?_, Disk.file?_of_read hread]
    rw [htarget, Project.kernelPlace] at heq
    exact hclear.root (List.append_inj' heq rfl).1.symm
  have hread' := h.keeps.read hread hfile
  constructor
  · rw [Disk.has, Disk.read_eq_ok_iff.1 hread']
    rfl
  · rw [load_eq, hread']
    dsimp only
    rw [hproject]

/-- The exit code tells whether all classes have kernels. -/
theorem code_eq_zero_iff {f : Finish} (htally : Tally classes p)
    (hcode : f.code = 0 ↔ p.failed = 0) :
    f.code = 0 ↔ (∀ c ∈ classes, c.name.node ≠ "" ∧ ∃ text, Shader.translate? "" c = .ok text) ∧
      (classes.map (·.name.node)).Nodup := by
  rw [hcode, htally.failed, and_comm]
  simp only [Shader.isSome_kernel?_iff]
  refine and_congr_right fun hclean => ?_
  have hnamed : named (classes.map (·.name.node)) = classes.map (·.name.node) := by
    refine List.filter_eq_self.2 (List.forall_mem_map.2 fun c hc => ?_)
    simpa using (hclean c hc).1
  rw [hnamed]

/-! ## Runs -/

/-- A first step of known outcome. -/
theorem bind_of_eq {α β : Type} {x : StateM Disk α} {a : α} (h : x d = (a, d'))
    (f : α → StateM Disk β) :
    (x >>= f) d = f a d' := by
  have hbind : (x >>= f) d = f (x d).1 (x d).2 := rfl
  rw [hbind, h]

/-- A run writes the project that is found. -/
theorem sync_eq {dir : Option String}
    (hfind : (find? (dir.getD ".") : StateM Disk _) d = (some path, d))
    (hload : (load path : StateM Disk _) d = (.ok project, d)) :
    (sync dir : StateM Disk Finish) d = (syncProject project : StateM Disk Finish) d := by
  rw [sync, bind_of_eq hfind]
  dsimp only
  rw [bind_of_eq hload]

/-- A strict run writes the project that is found. -/
theorem syncProject_of_strict {dir : Option String} {f : Finish}
    (hfind : (find? (dir.getD ".") : StateM Disk _) d = (some path, d))
    (hload : (load path : StateM Disk _) d = (.ok project, d))
    (h : (sync dir : Strict Finish) d = some (f, d')) :
    (syncProject project : Strict Finish) d = some (f, d') := by
  obtain ⟨found, d₁, hfound, h⟩ := Strict.bind_eq_some_iff.1 h
  cases hfind.symm.trans (agrees_find? _ d _ hfound)
  obtain ⟨loaded, d₂, hloaded, h⟩ := Strict.bind_eq_some_iff.1 h
  cases hload.symm.trans (agrees_load path d _ hloaded)
  exact h

end

/-- Let no file operation fail in a run. Then the kernel file of each class that has a name has the
last text that a class of this name is translated to, or is as it was if none is. All other kernel
files in the output directory are gone, and all other files are as they were. The exit code is 0
exactly if all classes have names of their own and are translated. Another run that finds the same
project file, as it does from its directory, changes nothing. -/
theorem sync_result {d d' : Disk} {dir : Option String} {path : String} {project : Project}
    {trees : List SourceFile} {f : Finish} (hd : d.Sound)
    (hfind : (find? (dir.getD ".") : StateM Disk _) d = (some path, d))
    (hload : (load path : StateM Disk _) d = (.ok project, d))
    (hsource : d.isDirectory project.sourceDir = true)
    (htrees : List.Forall₂ (fun path file => d.tree? path = some file) (project.treePaths d) trees)
    (hclear : project.Clear d trees) (hrun : (sync dir : Strict Finish) d = some (f, d')) :
    (sync dir : StateM Disk Finish) d = (f, d') ∧
      (∀ c ∈ trees.flatMap (·.classes), c.name.node ≠ "" →
        d'.file? (project.kernelPlace d c.name.node) =
          ((lastText? (kernelsOf (trees.flatMap (·.classes))) c.name.node).map .text).or
            (d.file? (project.kernelPlace d c.name.node))) ∧
      (d'.isDirectory project.outputDir = true → ∀ name cls, project.classOf? name = some cls →
        (∀ c ∈ trees.flatMap (·.classes), c.name.node ≠ cls) →
          d'.file? (d.target project.outputDir ++ [name]) = none) ∧
      (d'.isDirectory project.outputDir = false → d' = d) ∧
      (∀ place, (∀ name, (project.classOf? name).isSome = true →
      place ≠ d.target project.outputDir ++ [name]) →
        d'.file? place = d.file? place) ∧
      (f.code = 0 ↔
        (∀ c ∈ trees.flatMap (·.classes), c.name.node ≠ "" ∧
        ∃ text, Shader.translate? "" c = .ok text) ∧
          ((trees.flatMap (·.classes)).map (·.name.node)).Nodup) ∧
      ∀ dir' : Option String,
        (path = join (dir'.getD ".") fileName ∨
          (find? (dir'.getD ".") : StateM Disk _) d' = (some path, d')) →
        ∃ f', (sync dir' : StateM Disk Finish) d' = (f', d') := by
  obtain ⟨text, -, hproject⟩ := exists_of_load hload
  have hout := hclear.outputDir hproject
  have hloads := hclear.loads hd hsource htrees
  obtain ⟨p, between, htally, hcode, hwrites, hprunes⟩ :=
    syncProject_spec hd hout hsource hloads (syncProject_of_strict hfind hload hrun)
  have hsynced := synced_of_run hd htally hwrites hprunes
  refine ⟨agrees_sync dir d _ hrun, fun c hc hne => ?_, fun hthere name cls hname hcls => ?_,
    hsynced.missing, fun place hother => ?_, code_eq_zero_iff htally hcode, fun dir' hdir => ?_⟩
  · exact hsynced.held _ (mem_named.2 ⟨List.mem_map.2 ⟨c, hc, rfl⟩, hne⟩)
  · obtain ⟨hne, rfl⟩ := classOf?_eq_some_iff.1 hname
    refine hsynced.gone hthere cls hne fun hlive => ?_
    obtain ⟨c, hc, hname⟩ := List.mem_map.1 (mem_named.1 hlive).1
    exact hcls c hc hname
  · refine hsynced.file place fun cls hne => hother _ ?_
    rw [classOf?_eq_some_iff.2 ⟨hne, rfl⟩]
    rfl
  · obtain ⟨hhas, hload'⟩ := hsynced.load (exists_of_findFrom hfind) hclear hload
    have hfind' : (find? (dir'.getD ".") : StateM Disk _) d' = (some path, d') := by
      rcases hdir with rfl | hfound
      · exact find?_of_has hhas
      · exact hfound
    obtain ⟨f', hagain⟩ := hsynced.again hd hout hclear hsource hloads
    exact ⟨f', (sync_eq hfind' hload').trans (agrees_syncProject project d' _ hagain)⟩

namespace Yard

/-- A class twice, one without a translation, and a stale kernel. -/
def disk : Disk where
  nodes :=
    [(["generated"], .directory),
     (["generated", "notes.txt"], .file (.text "to do\n")),
     (["generated", "rspu-Bolt.compute"], .file (.text "int i;\n")),
     (["generated", "rspu-Rope.compute"], .file (.text "int j;\n")),
     (["kernels"], .directory),
     (["kernels", "A.json"], .file (.text
      "[\"A.cs\",null,[[[\"Crane\"]],[[\"Bolt\"],[[[\"Field\",[],[[\"Tuple\",[]]],[]]]]]]]")),
     (["kernels", "B.json"], .file (.text
      "[\"B.cs\",null,[[[\"Crane\"],[[[\"Field\",[],[[\"Predefined\",\"int\"]],[[[\"n\"]]]]]]]]]")),
     (["rspu.toml"], .file (.text "[project]\nname = yard\n"))]

/-- This project. -/
def project : Project where
  name := "yard"
  rootDir := "."
  sourceDir := "./kernels"
  outputDir := "./generated"
  lead := "rspu-"
  extension := "compute"
  workers := 0

/-- Its trees. -/
def trees : List SourceFile := (project.treePaths disk).filterMap disk.tree?

/-- What the trees declare, and how the run ends. -/
theorem evaluate :
    (∀ path ∈ project.treePaths disk, (disk.tree? path).isSome = true) ∧
      (trees.flatMap (·.classes)).map (·.name.node) = ["Crane", "Bolt", "Crane"] ∧
      kernelsOf (trees.flatMap (·.classes)) = [("Crane", "\n\n"), ("Crane", "\nint n;\n\n")] ∧
      ((sync none : Strict Finish) disk).any (·.2.isDirectory project.outputDir) = true := by
  decide +kernel

/-- Its files keep out of each other's way. -/
theorem clear : project.Clear disk trees where
  lead := by decide +kernel
  extension := by decide +kernel
  classes file hfile c hc := by
    have hname : c.name.node ∈ (trees.flatMap (·.classes)).map (·.name.node) :=
      List.mem_map.2 ⟨c, List.mem_flatMap.2 ⟨file, hfile, hc⟩, rfl⟩
    have hall : ∀ name ∈ ["Crane", "Bolt", "Crane"], '/' ∉ name.toList := by decide +kernel
    exact hall _ (evaluate.2.1 ▸ hname)
  root := by decide +kernel
  source := by decide +kernel

/-- The first run writes and removes, and the second changes nothing. -/
theorem sync_once :
    ∃ f d', (sync none : StateM Disk Finish) disk = (f, d') ∧ f.code ≠ 0 ∧
      d'.file? ["generated", "rspu-Crane.compute"] = some (.text "\nint n;\n\n") ∧
      d'.file? ["generated", "rspu-Bolt.compute"] = some (.text "int i;\n") ∧
      d'.file? ["generated", "rspu-Rope.compute"] = none ∧
      d'.file? ["generated", "notes.txt"] = some (.text "to do\n") ∧
      ∃ f', (sync none : StateM Disk Finish) d' = (f', d') := by
  obtain ⟨htrees, hnames, hkernels, hran⟩ := evaluate
  obtain ⟨⟨f, d'⟩, hrun, hthere⟩ := (Option.any_eq_true _ _).1 hran
  have hfind : Id.run ((find? "." : StateM Disk _) disk) = (some "./rspu.toml", disk) := by
    decide +kernel
  have hload : Id.run ((load "./rspu.toml" : StateM Disk _) disk) = (.ok project, disk) := by
    decide +kernel
  obtain ⟨hplain, hheld, hgone, -, hfile, hcode, hagain⟩ :=
    @sync_result disk d' none "./rspu.toml" project trees f (by decide +kernel) hfind hload
      (by decide +kernel)
      (Disk.forall₂_tree? htrees) clear hrun
  have htarget : disk.target project.outputDir = ["generated"] := by decide +kernel
  have hkernel (name : String) (h : name ∈ ["Crane", "Bolt", "Crane"]) (hne : name ≠ "") :
      d'.file? ["generated", project.kernelFileName name] =
        ((lastText? [("Crane", "\n\n"), ("Crane", "\nint n;\n\n")] name).map .text).or
          (disk.file? ["generated", project.kernelFileName name]) := by
    rw [← hnames] at h
    obtain ⟨c, hc, rfl⟩ := List.mem_map.1 h
    have hplace : project.kernelPlace disk c.name.node =
        ["generated", project.kernelFileName c.name.node] := by
      rw [Project.kernelPlace, htarget, List.singleton_append]
    rw [← hkernels, ← hplace]
    exact hheld c hc hne
  rw [htarget] at hgone hfile
  have hrope : ∀ c ∈ trees.flatMap (·.classes), c.name.node ≠ "Rope" := by
    have hnot : "Rope" ∉ (trees.flatMap (·.classes)).map (·.name.node) := by
      rw [hnames]
      decide
    exact fun c hc hname => hnot (List.mem_map.2 ⟨c, hc, hname⟩)
  have hnotes : ∀ name, (project.classOf? name).isSome = true →
      ["generated", "notes.txt"] ≠ ["generated"] ++ [name] := by
    intro name hname heq
    cases heq
    revert hname
    decide +kernel
  refine ⟨f, d', hplain, fun hzero => ?_, ?_, ?_, ?_, ?_, hagain none (.inl (by decide +kernel))⟩
  · have hnodup := (hcode.1 hzero).2
    rw [hnames] at hnodup
    revert hnodup
    decide
  · exact (hkernel "Crane" (by decide) (by decide)).trans (by decide +kernel)
  · exact (hkernel "Bolt" (by decide) (by decide)).trans (by decide +kernel)
  · exact hgone hthere "rspu-Rope.compute" "Rope" (by decide +kernel) hrope
  · exact (hfile ["generated", "notes.txt"] hnotes).trans (by decide +kernel)

end Yard

namespace Annex

/-- A project inside another, without its output directory yet. -/
def disk : Disk where
  nodes :=
    [(["b"], .directory),
     (["b", "kernels"], .directory),
     (["b", "kernels", "K.json"], .file (.text
      "\x7b\"path\":\"K.cs\",\"classes\":[\x7b\"name\":\x7b\"node\":\"K\"\x7d\x7d]\x7d")),
     (["b", "rspu.toml"], .file (.text "[project]\nname = inner\n")),
     (["generated"], .directory),
     (["generated", "rspu-Old.compute"], .file (.text "old\n")),
     (["kernels"], .directory),
     (["rspu.toml"], .file (.text "[project]\nname = outer\n"))]

/-- The inner project. -/
def project : Project where
  name := "inner"
  rootDir := "b"
  sourceDir := "b/kernels"
  outputDir := "b/generated"
  lead := "rspu-"
  extension := "compute"
  workers := 0

/-- The directory around, by way of the inner output directory. -/
def dir : Option String := some "b/generated/../.."

/-- The kernel file of the outer project. -/
def old : Place := ["generated", "rspu-Old.compute"]

/-- Its trees. -/
def trees : List SourceFile := (project.treePaths disk).filterMap disk.tree?

/-- The first run finds the inner project, as the path cannot be followed, and makes the directory
that the path goes through. A second run finds the outer project and removes its kernel file. -/
theorem sync_again_removes :
    disk.Sound ∧ (find? (dir.getD ".") : StateM Disk _) disk = (some "b/rspu.toml", disk) ∧
      (load "b/rspu.toml" : StateM Disk _) disk = (.ok project, disk) ∧
      disk.isDirectory project.sourceDir = true ∧
      List.Forall₂ (fun path file => disk.tree? path = some file) (project.treePaths disk) trees ∧
      project.Clear disk trees ∧
      ∃ f d' f' d'', (sync dir : Strict Finish) disk = some (f, d') ∧
      (sync dir : Strict Finish) d' = some (f', d'') ∧
        d'.file? old = some (.text "old\n") ∧ d''.file? old = none := by
  have hfind : Id.run ((find? (dir.getD ".") : StateM Disk _) disk) =
      (some "b/rspu.toml", disk) := by
    decide +kernel
  have hload : Id.run ((load "b/rspu.toml" : StateM Disk _) disk) = (.ok project, disk) := by
    decide +kernel
  have htrees : ∀ path ∈ project.treePaths disk, (disk.tree? path).isSome = true := by
    decide +kernel
  have hclear : project.Clear disk trees :=
    { lead := by decide +kernel
      extension := by decide +kernel
      classes := by decide +kernel
      root := by decide +kernel
      source := by decide +kernel }
  have hruns : ((sync dir : Strict Finish) disk).any (fun r => r.2.file? old =
    some (.text "old\n") ∧
      ((sync dir : Strict Finish) r.2).any (·.2.file? old = none) = true) = true := by
      decide +kernel
  obtain ⟨⟨f, d'⟩, hfirst, hd'⟩ := (Option.any_eq_true _ _).1 hruns
  obtain ⟨hold, hagain⟩ := of_decide_eq_true hd'
  obtain ⟨⟨f', d''⟩, hsecond, hd''⟩ := (Option.any_eq_true _ _).1 hagain
  exact ⟨by decide +kernel, hfind, hload, by decide +kernel, Disk.forall₂_tree? htrees, hclear,
    f, d', f', d'', hfirst, hsecond, hold, of_decide_eq_true hd''⟩

end Annex

end Command

end ComputeKernel
