import ComputeKernel.Project.Kernels
import ComputeKernel.Proofs.Files.Change
import ComputeKernel.Proofs.Files.Strict

/-!
# Kernel files

Which file belongs to a class, and what writing and pruning do on a disk. A name belongs to one
class at most, the one that its kernel file is named for, and pruning mistakes none for another's
(`kernel_file_of_class`).
-/

namespace ComputeKernel

open Project

namespace Text

/-! ## Texts at the ends of texts -/

/-- When a text has a start. -/
theorem dropStart?_eq_some_iff {start cs rest : List Char} :
    dropStart? start cs = some rest ↔ cs = start ++ rest := by
  induction start generalizing cs with
  | nil => simp [dropStart?]
  | cons p ps ih =>
    cases cs with
    | nil => simp [dropStart?]
    | cons c cs =>
      rw [dropStart?, List.cons_append, List.cons.injEq]
      split
      next heq => simp [ih, heq]
      next hne => simp [Ne.symm hne]

/-- When a text has an end. -/
theorem dropEnd?_eq_some_iff {ending cs rest : List Char} :
    dropEnd? ending cs = some rest ↔ cs = rest ++ ending := by
  rw [dropEnd?, Option.map_eq_some_iff]
  constructor
  · rintro ⟨back, hback, rfl⟩
    rw [dropStart?_eq_some_iff] at hback
    rw [← List.reverse_reverse cs, hback, List.reverse_append, List.reverse_reverse]
  · rintro rfl
    exact ⟨rest.reverse, dropStart?_eq_some_iff.2 List.reverse_append, List.reverse_reverse rest⟩

end Text

namespace Disk

variable {β : Type} {d : Disk} {path : String}

/-- Making directories goes on in either case. -/
theorem makeDirs_bind (f : Except FileError Unit → StateM Disk β) :
    (FileAccess.makeDirs path >>= f) d = f (d.makeDirs path).2 (d.makeDirs path).1 := rfl

/-- So does reading. -/
theorem read_bind (f : Except FileError String → StateM Disk β) :
    (FileAccess.read path >>= f) d = f (d.read path) d := rfl

/-- So does a change. -/
theorem change_bind (step : Disk → Except FileError Disk)
    (f : Except FileError Unit → StateM Disk β) :
    (change step >>= f) d =
      match step d with
      | .ok next => f (.ok ()) next
      | .error e => f (.error e) d := by
  have hbind : (change step >>= f) d = f (change step d).1 (change step d).2 := rfl
  rw [hbind, change]
  cases step d with
  | ok next => rfl
  | error e => rfl

end Disk

namespace Project

variable {kernels : List (String × String)} {path : String}

/-! ## Names -/

/-- The class of a file name, by its kernel file. -/
theorem classOf?_eq_some_iff {p : Project} {name cls : String} :
    p.classOf? name = some cls ↔ cls ≠ "" ∧ name = p.kernelFileName cls := by
  have htexts : name = p.kernelFileName cls ↔
      name.toList = p.lead.toList ++ ((cls.toList ++ ['.']) ++ p.extension.toList) := by
    rw [← String.toList_inj, kernelFileName]
    simp
  rw [htexts, classOf?]
  simp only [bind, Option.bind_eq_some_iff, Text.dropStart?_eq_some_iff, Text.dropEnd?_eq_some_iff]
  constructor
  · rintro ⟨_, hname, _, rfl, cs, rfl, hcls⟩
    split at hcls
    next => cases hcls
    next hne =>
      cases hcls
      refine ⟨?_, by simpa using hname⟩
      simpa [← String.toList_eq_nil_iff] using hne
  · rintro ⟨hne, hname⟩
    refine ⟨_, hname, _, rfl, cls.toList, rfl, ?_⟩
    rw [if_neg (by simpa using hne), String.ofList_toList]

/-- Two classes have two names. -/
theorem kernelFileName_inj {p : Project} {cls cls' : String}
    (h : p.kernelFileName cls = p.kernelFileName cls') :
    cls = cls' := by
  rw [kernelFileName, kernelFileName] at h
  simpa using h

/-! ## Writing kernels -/

open Disk (Strict)

variable {p : Project} {d d' d'' : Disk} {cls source : String}

/-- The path of the kernel file of a class. -/
def kernelPath (p : Project) (cls : String) : String := Path.join p.outputDir (p.kernelFileName cls)

/-- The place of the kernel file of a class. -/
def kernelPlace (p : Project) (d : Disk) (cls : String) : Place :=
  d.target p.outputDir ++ [p.kernelFileName cls]

/-- And two places. -/
theorem kernelPlace_inj {cls' : String} (h : p.kernelPlace d cls = p.kernelPlace d cls') :
    cls = cls' :=
  kernelFileName_inj (List.singleton_inj.1 (List.append_cancel_left h))

/-- Writing a kernel makes the output directory, and the file unless it has the text, and tells what
failed. -/
theorem writeKernel_run (p : Project) (cls source : String) (d : Disk) :
    (p.writeKernel cls source : StateM Disk _) d =
      match d.makeDirs p.outputDir with
      | (made, .ok _) =>
        if made.read (p.kernelPath cls) = .ok source then (.ok (p.kernelPath cls), made)
        else match made.write (p.kernelPath cls) (.text source) with
          | .ok next => (.ok (p.kernelPath cls), next)
          | .error e => (.error (fileDiagnostic "write" (p.kernelPath cls) e), made)
      | (made, .error e) => (.error (fileDiagnostic "create" p.outputDir e), made) := by
  unfold writeKernel
  rw [Disk.makeDirs_bind]
  rcases d.makeDirs p.outputDir with ⟨made, e | u⟩
  · rfl
  · dsimp only
    rw [Disk.read_bind, ← kernelPath]
    cases made.read (p.kernelPath cls) with
    | error e => exact Disk.change_bind _ _
    | ok text =>
      dsimp only
      by_cases hsame : text = source
      · rw [if_pos hsame, if_pos (congrArg _ hsame)]
        rfl
      · rw [if_neg hsame, if_neg (fun h => hsame (Except.ok.inj h))]
        exact Disk.change_bind _ _

/-- Writing tells of refusals. -/
theorem insists_writeKernel (p : Project) (cls source : String) :
    Disk.Insists (p.writeKernel cls source) (p.writeKernel cls source) := by
  refine Disk.insists_bind _ (Disk.insists_lift_bind _ fun found => ?_) fun e d => ⟨_, _, rfl⟩
  cases found with
  | error e => exact Disk.insists_bind _ (Disk.insists_ok _) fun e d => ⟨_, _, rfl⟩
  | ok text =>
    dsimp only
    split_ifs
    · exact Disk.insists_ok _
    · exact Disk.insists_bind _ (Disk.insists_ok _) fun e d => ⟨_, _, rfl⟩

/-- The kernel file of a class is there, and can be written again. -/
structure Ready (p : Project) (d : Disk) (cls : String) : Prop where
  holds : d.Holds p.outputDir (p.kernelFileName cls)
  file : ∃ contents, d.file? (p.kernelPlace d cls) = some contents

/-- Where the kernel file is there, writing succeeds. -/
theorem Ready.writeKernel (h : p.Ready d cls) (source : String) :
    ∃ d', (p.writeKernel cls source : Strict _) d = some (.ok (p.kernelPath cls), d') := by
  obtain ⟨contents, hfile⟩ := h.file
  have hnode : d.node? (p.kernelPlace d cls) ≠ some .directory := by
    rw [Disk.file?_eq_some_iff.1 hfile]
    simp
  rw [insists_writeKernel p cls source d, writeKernel_run,
    Disk.makeDirs_of_isDirectory h.holds.directory]
  dsimp only
  split_ifs
  · exact ⟨d, rfl⟩
  · rw [kernelPath, h.holds.write hnode]
    exact ⟨_, rfl⟩

/-- The last text that a list of kernels has for a class. -/
def lastText? (kernels : List (String × String)) (cls : String) : Option String :=
  kernels.reverse.lookup cls

/-- What writing kernels in turn does to a disk: each class that has one has its last text, and all
other files are as they were. Directories are made only where one is missing. -/
structure Writes (p : Project) (kernels : List (String × String)) (d d' : Disk) : Prop where
  keeps : d.Keeps d'
  sound : d'.Sound
  held : ∀ cls text, lastText? kernels cls = some text → d'.file? (p.kernelPlace d cls) =
    some (.text text)
  file : ∀ place, (∀ k ∈ kernels, place ≠ p.kernelPlace d k.1) → d'.file? place = d.file? place
  node : (kernels ≠ [] → d.isDirectory p.outputDir = true) →
    ∀ place, (∀ k ∈ kernels, place ≠ p.kernelPlace d k.1) →
    d'.node? place = d.node? place
  ready : ∀ k ∈ kernels, p.Ready d' k.1

/-- Writing nothing. -/
theorem Writes.nil (p : Project) (hd : d.Sound) : p.Writes [] d d where
  keeps := .refl d
  sound := hd
  held := by
    intro cls text h
    cases h
  file _ _ := rfl
  node _ _ _ := rfl
  ready := by
    intro k hk
    cases hk

/-- A place stays where it is. -/
theorem kernelPlace_of_keeps (p : Project) (h : d.Keeps d') (cls : String) :
    p.kernelPlace d' cls = p.kernelPlace d cls := by
  rw [kernelPlace, kernelPlace, h.target]

/-- Writing keeps kernel files in their places. -/
theorem Ready.writes (hready : p.Ready d cls) (h : p.Writes kernels d d') :
    p.Ready d' cls := by
  refine ⟨h.keeps.holds hready.holds, ?_⟩
  rw [kernelPlace_of_keeps p h.keeps]
  by_cases hcls : ∃ k ∈ kernels, k.1 = cls
  · obtain ⟨k, hk, rfl⟩ := hcls
    obtain ⟨contents, hfile⟩ := (h.ready k hk).file
    exact ⟨contents, kernelPlace_of_keeps p h.keeps k.1 ▸ hfile⟩
  · obtain ⟨contents, hfile⟩ := hready.file
    refine ⟨contents, ?_⟩
    rw [h.file _ fun k hk heq => hcls ⟨k, hk, (kernelPlace_inj heq).symm⟩, hfile]

/-- The last text of two lists. -/
theorem lastText?_append (kernels others : List (String × String)) (cls : String) :
    lastText? (kernels ++ others) cls = (lastText? others cls).or (lastText? kernels cls) := by
  rw [lastText?, List.reverse_append, List.lookup_append]
  rfl

/-- When a class has no text. -/
theorem lastText?_eq_none_iff :
    lastText? kernels cls = none ↔ ∀ k ∈ kernels, k.1 ≠ cls := by
  refine Keyed.get?_eq_none_iff.trans ?_
  simp only [List.mem_reverse]

/-- Writing one kernel after others. -/
theorem Writes.append {kernels others : List (String × String)} (h : p.Writes kernels d d')
    (h' : p.Writes others d' d'') : p.Writes (kernels ++ others) d d'' where
  keeps := h.keeps.trans h'.keeps
  sound := h'.sound
  held := by
    intro cls text htext
    rw [lastText?_append] at htext
    cases hlast : lastText? others cls with
    | some text' =>
      rw [hlast] at htext
      cases htext
      rw [← kernelPlace_of_keeps p h.keeps]
      exact h'.held cls text hlast
    | none =>
      rw [hlast] at htext
      rw [h'.file, h.held cls text htext]
      intro k hk heq
      rw [kernelPlace_of_keeps p h.keeps] at heq
      exact lastText?_eq_none_iff.1 hlast k hk (kernelPlace_inj heq).symm
  file place hplace := by
    rw [h'.file, h.file]
    · exact fun k hk => hplace k (List.mem_append_left _ hk)
    · intro k hk
      rw [kernelPlace_of_keeps p h.keeps]
      exact hplace k (List.mem_append_right _ hk)
  node hout place hplace := by
    rw [h'.node fun hne => h.keeps.isDirectory (hout (by simp [hne])),
      h.node fun hne => hout (by simp [hne])]
    · exact fun k hk => hplace k (List.mem_append_left _ hk)
    · intro k hk
      rw [kernelPlace_of_keeps p h.keeps]
      exact hplace k (List.mem_append_right _ hk)
  ready := by
    intro k hk
    rcases List.mem_append.1 hk with hk | hk
    · exact (h.ready k hk).writes h'
    · exact h'.ready k hk

/-- A kernel was written: its file has the text, and no other has changed. -/
structure Delivers (p : Project) (cls source : String) (d d' : Disk) : Prop where
  keeps : d.Keeps d'
  sound : d'.Sound
  file : d'.file? (d'.target (p.kernelPath cls)) = some (.text source)
  other : ∀ place, place ≠ d'.target (p.kernelPath cls) → d'.file? place = d.file? place
  node : d.isDirectory p.outputDir = true → ∀ place, place ≠ d'.target (p.kernelPath cls) →
    d'.node? place = d.node? place
  directory : p.outputDir ≠ "" → d'.isDirectory p.outputDir = true
  isName : '/' ∉ (p.kernelFileName cls).toList → Disk.checkPath (p.kernelPath cls) = .ok () ∧
    Path.IsName (p.kernelFileName cls) ∧ (p.kernelFileName cls).utf8ByteSize ≤ Path.maxNameSize

/-- A success delivers a kernel. -/
theorem delivers_of_writeKernel (hd : d.Sound)
    (h : (p.writeKernel cls source : StateM Disk _) d = (.ok path, d')) :
    path = p.kernelPath cls ∧ p.Delivers cls source d d' := by
  have hgrows := Disk.makeDirs_grows p.outputDir d
  have hthere : p.outputDir ≠ "" → (d.makeDirs p.outputDir).2 = .ok () → _ :=
    Disk.isDirectory_of_makeDirs
  have hsame (hdir : d.isDirectory p.outputDir = true) : (d.makeDirs p.outputDir).1 = d := by
    rw [Disk.makeDirs_of_isDirectory hdir]
  rw [writeKernel_run] at h
  split at h
  next made u hmade =>
    rw [hmade] at hgrows hthere hsame
    replace hthere := fun hne => hthere hne rfl
    have hsound := hgrows.sound hd
    split at h
    next hread =>
      cases h
      exact ⟨rfl, hgrows.keeps, hsound, Disk.file?_of_read hread, fun place _ => hgrows.file? place,
        fun hdir place _ => congrArg (Disk.node? · place) (hsame hdir), hthere,
        fun hname => Disk.isName_of_read hsound hname hread⟩
    next =>
      split at h
      next next hwrite =>
        cases h
        obtain ⟨hkeeps, hsound', hfile, hother⟩ := Disk.write_spec hsound hwrite
        rw [← hkeeps.target] at hfile hother
        refine ⟨rfl, hgrows.keeps.trans hkeeps, hsound', hfile, fun place hplace => ?_,
          fun hdir place hplace => ?_, fun hne => hkeeps.isDirectory (hthere hne),
            fun hname => Disk.isName_of_write hname hwrite⟩
        · rw [Disk.file?_congr (hother place hplace), hgrows.file?]
        · rw [hother place hplace, hsame hdir]
      next => cases h
  next => cases h

/-- A kernel with a plain name is the only one that was written. -/
theorem Delivers.writes (h : p.Delivers cls source d d') (hout : p.outputDir ≠ "")
    (hname : '/' ∉ (p.kernelFileName cls).toList) : p.Writes [(cls, source)] d d' := by
  obtain ⟨hchecked, hisName, hsize⟩ := h.isName hname
  have hplace : d'.target (p.kernelPath cls) = p.kernelPlace d cls := by
    rw [kernelPath, Disk.target_join d' _ hisName, ← kernelPlace, kernelPlace_of_keeps p h.keeps]
  have hfile : d'.file? (p.kernelPlace d cls) = some (.text source) := hplace ▸ h.file
  refine ⟨h.keeps, h.sound, fun cls' text htext => ?_, fun place hne => ?_,
    fun hdir place hne => ?_, fun k hk => ?_⟩
  · obtain ⟨rfl, rfl⟩ : cls' = cls ∧ source = text := by
      rw [lastText?, List.reverse_singleton] at htext
      by_cases hcls : cls' = cls
      · subst hcls
        exact ⟨rfl, by simpa using htext⟩
      · simp [hcls] at htext
    exact hfile
  · exact h.other place (hplace ▸ hne (cls, source) (.head _))
  · exact h.node (hdir (List.cons_ne_nil _ _)) place (hplace ▸ hne (cls, source) (.head _))
  · obtain rfl := List.mem_singleton.1 hk
    exact ⟨⟨h.directory hout, hchecked, hisName, hsize⟩, .text source,
      kernelPlace_of_keeps p h.keeps cls ▸ hfile⟩

/-- On a strict disk it writes one. -/
theorem writes_of_writeKernel {r : Except Diagnostic String} (hd : d.Sound)
    (hout : p.outputDir ≠ "") (hname : '/' ∉ (p.kernelFileName cls).toList)
    (h : (p.writeKernel cls source : Strict _) d = some (r, d')) :
    r = .ok (p.kernelPath cls) ∧ p.Writes [(cls, source)] d d' := by
  obtain ⟨path, rfl, hwrite⟩ := (insists_writeKernel p cls source).eq_some_iff.1 h
  obtain ⟨rfl, hdelivers⟩ := delivers_of_writeKernel hd hwrite
  exact ⟨rfl, hdelivers.writes hout hname⟩

/-- Writing texts that are there changes nothing. -/
theorem Writes.eq_self (h : p.Writes kernels d d') (hd : d.Sound)
    (hready : ∀ k ∈ kernels, p.Ready d k.1)
    (hheld : ∀ cls text, lastText? kernels cls = some text → d.file? (p.kernelPlace d cls) =
      some (.text text)) :
    d' = d := by
  refine hd.ext h.sound h.keeps.working fun place => ?_
  by_cases hplace : ∃ k ∈ kernels, place = p.kernelPlace d k.1
  · obtain ⟨k, hk, rfl⟩ := hplace
    cases hlast : lastText? kernels k.1 with
    | none => exact absurd rfl (lastText?_eq_none_iff.1 hlast k hk)
    | some text =>
      rw [Disk.file?_eq_some_iff.1 (h.held _ _ hlast), Disk.file?_eq_some_iff.1 (hheld _ _ hlast)]
  · refine h.node (fun hne => ?_) place fun k hk heq => hplace ⟨k, hk, heq⟩
    obtain ⟨k, hk⟩ := List.exists_mem_of_ne_nil kernels hne
    exact (hready k hk).holds.directory

/-! ## Pruning -/

/-- Removing touches no other files, also where it stops. At its end they are gone. -/
theorem removeAll_spec {paths : List String} {r : Except Diagnostic Unit} (hd : d.Sound)
    (h : (removeAll paths : StateM Disk _) d = (r, d')) :
    d.Keeps d' ∧ d'.Sound ∧ (r = .ok () → ∀ path ∈ paths, d'.node? (d.target path) = none) ∧
      ∀ place, (∀ path ∈ paths, place ≠ d.target path) → d'.node? place = d.node? place := by
  induction paths generalizing d with
  | nil =>
    cases h
    exact ⟨.refl _, hd, fun _ path hpath => absurd hpath List.not_mem_nil, fun _ _ => rfl⟩
  | cons path paths ih =>
    replace h := (Disk.change_bind (fun d => d.remove path) _).symm.trans h
    split at h
    next next hremove =>
      obtain ⟨hkeeps, hsound, hgone, hother⟩ := Disk.remove_spec hd hremove
      obtain ⟨hkeeps', hsound', hgone', hother'⟩ := ih hsound h
      simp only [hkeeps.target] at hgone' hother'
      refine ⟨hkeeps.trans hkeeps', hsound', fun hr => List.forall_mem_cons.2 ⟨?_, hgone' hr⟩,
        fun place hplace => ?_⟩
      · -- What is gone stays away, also if it is removed once more.
        by_cases hagain : ∃ path' ∈ paths, d.target path = d.target path'
        · obtain ⟨path', hpath', heq⟩ := hagain
          rw [heq]
          exact hgone' hr path' hpath'
        · rw [hother' _ fun path' hpath' heq => hagain ⟨path', hpath', heq⟩, hgone]
      · obtain ⟨hfirst, hrest⟩ := List.forall_mem_cons.1 hplace
        rw [hother' place hrest, hother place hfirst]
    next =>
      cases h
      exact ⟨.refl _, hd, (fun hr => nomatch hr), fun _ _ => rfl⟩

/-- Removing tells of refusals. -/
theorem insists_removeAll (paths : List String) :
    Disk.Insists (removeAll paths) (removeAll paths) := by
  induction paths with
  | nil => exact Disk.insists_ok ()
  | cons path paths ih => exact Disk.insists_bind _ ih fun e d => ⟨_, _, rfl⟩

variable {live : List String}

/-- The paths of kernel files whose classes are gone. -/
def stalePaths (p : Project) (live : List String) (d : Disk) : List String :=
  Path.sort (((d.fileNames p.outputDir).filter (p.isStale live)).map (Path.join p.outputDir))

/-- When a name is stale. -/
theorem isStale_iff {name : String} :
    p.isStale live name = true ↔ ∃ cls, cls ≠ "" ∧ cls ∉ live ∧ name = p.kernelFileName cls := by
  unfold isStale
  split
  next cls hcls =>
    obtain ⟨hne, rfl⟩ := classOf?_eq_some_iff.1 hcls
    simp only [Bool.not_eq_true', List.contains_eq_mem, decide_eq_false_iff_not]
    constructor
    · intro hlive
      exact ⟨cls, hne, hlive, rfl⟩
    · rintro ⟨cls', -, hlive, hname⟩
      rwa [kernelFileName_inj hname]
  next hnone =>
    constructor
    · intro h
      cases h
    · rintro ⟨cls, hne, -, hname⟩
      rw [classOf?_eq_some_iff.2 ⟨hne, hname⟩] at hnone
      cases hnone

/-- The stale paths are those of kernel files that are there. -/
theorem mem_stalePaths (hd : d.Sound) :
    path ∈ p.stalePaths live d ↔ d.isDirectory p.outputDir = true ∧ ∃ cls, cls ≠ "" ∧ cls ∉ live ∧
      (∃ contents, d.file? (p.kernelPlace d cls) = some contents) ∧ path = p.kernelPath cls := by
  simp only [stalePaths, Path.mem_sort, List.mem_map, List.mem_filter, Disk.mem_fileNames hd,
    isStale_iff]
  constructor
  · rintro ⟨name, ⟨⟨hout, hfile⟩, cls, hne, hlive, rfl⟩, rfl⟩
    exact ⟨hout, cls, hne, hlive, hfile, rfl⟩
  · rintro ⟨hout, cls, hne, hlive, hfile, rfl⟩
    exact ⟨_, ⟨⟨hout, hfile⟩, cls, hne, hlive, rfl⟩, rfl⟩

/-- A stale path leads to the kernel file. -/
theorem target_kernelPath (hd : d.Sound) {contents : Contents}
    (h : d.file? (p.kernelPlace d cls) = some contents) :
    d.target (p.kernelPath cls) = p.kernelPlace d cls := by
  have hname := (hd.node (Disk.file?_eq_some_iff.1 h)).1 (p.kernelFileName cls)
    (by simp [kernelPlace])
  rw [kernelPath, Disk.target_join d _ hname, kernelPlace]

/-- Stale paths lead to the files of classes that are gone. -/
theorem ne_target_of_mem_stalePaths (hd : d.Sound) {place : Place}
    (h : ∀ cls, cls ≠ "" → cls ∉ live → place ≠ p.kernelPlace d cls)
    (hpath : path ∈ p.stalePaths live d) : place ≠ d.target path := by
  obtain ⟨-, cls, hne, hlive, ⟨contents, hfile⟩, rfl⟩ := (mem_stalePaths hd).1 hpath
  rw [target_kernelPath hd hfile]
  exact h cls hne hlive

/-- What pruning does to a disk: the kernel files of classes that are gone are gone, and everything
else is as it was. -/
structure Prunes (p : Project) (live : List String) (d d' : Disk) : Prop where
  keeps : d.Keeps d'
  sound : d'.Sound
  gone : d.isDirectory p.outputDir = true → ∀ cls, cls ≠ "" → cls ∉ live →
    d'.file? (p.kernelPlace d cls) = none
  node : ∀ place, (∀ cls, cls ≠ "" → cls ∉ live → place ≠ p.kernelPlace d cls) →
    d'.node? place = d.node? place
  missing : d.isDirectory p.outputDir = false → d' = d

/-- When no path is stale. -/
theorem stalePaths_eq_nil (hd : d.Sound)
    (h : d.isDirectory p.outputDir = true → ∀ cls, cls ≠ "" → cls ∉ live →
    d.file? (p.kernelPlace d cls) = none) :
    p.stalePaths live d = [] := by
  refine List.eq_nil_iff_forall_not_mem.2 fun path hpath => ?_
  obtain ⟨hout, cls, hne, hlive, ⟨contents, hfile⟩, -⟩ := (mem_stalePaths hd).1 hpath
  rw [h hout cls hne hlive] at hfile
  cases hfile

/-- Looking for stale files changes nothing. -/
theorem staleKernels_bind {α : Type} (f : List String → Strict α) :
    (p.staleKernels live >>= f) d = f (p.stalePaths live d) d := rfl

/-- Where no kernel file is stale, pruning does nothing. -/
theorem prune_eq (h : p.stalePaths live d = []) :
    (p.prune live : Strict _) d = some (.ok [], d) := by
  rw [prune, staleKernels_bind, h]
  rfl

/-- Pruning on a strict disk. -/
theorem prunes_of_prune {r : Except Diagnostic (List String)} (hd : d.Sound)
    (h : (p.prune live : Strict _) d = some (r, d')) :
    r = .ok (p.stalePaths live d) ∧ p.Prunes live d d' := by
  rw [prune, staleKernels_bind] at h
  obtain ⟨r', next, hremove, hend⟩ := Strict.bind_eq_some_iff.1 h
  cases hend
  obtain ⟨_, rfl, hrun⟩ := (insists_removeAll _).eq_some_iff.1 hremove
  obtain ⟨hkeeps, hsound, hgone, hother⟩ := removeAll_spec hd hrun
  replace hgone := hgone rfl
  refine ⟨rfl, hkeeps, hsound, fun hout cls hne hlive => ?_, fun place hplace => ?_, fun hout => ?_⟩
  · cases hfile : d.file? (p.kernelPlace d cls) with
    | some contents =>
      have hpath := (mem_stalePaths hd).2 ⟨hout, cls, hne, hlive, ⟨contents, hfile⟩, rfl⟩
      have hnone := hgone _ hpath
      rw [target_kernelPath hd hfile] at hnone
      rw [Disk.file?, hnone]
    | none =>
      rw [Disk.file?_congr, hfile]
      refine hother _ fun path hpath heq => ?_
      obtain ⟨-, cls', -, -, ⟨contents, hfile'⟩, rfl⟩ := (mem_stalePaths hd).1 hpath
      rw [heq, target_kernelPath hd hfile', hfile'] at hfile
      cases hfile
  · exact hother place fun path hpath => ne_target_of_mem_stalePaths hd hplace hpath
  · rw [stalePaths_eq_nil hd fun h => absurd h (Bool.eq_false_iff.1 hout)] at hremove
    cases hremove
    rfl

end Project

/-- **A kernel file belongs to one class.** Whatever the names of kernel files start and end with, a
name belongs to a class exactly if it is the name of the class's kernel file, and two classes have
two names. So the stale files are those of classes that are gone, and pruning, also where it stops
at a file that cannot be removed, leaves the files of classes that live and of no class. -/
theorem kernel_file_of_class (p : Project) :
    (∀ name cls, p.classOf? name = some cls ↔ cls ≠ "" ∧ name = p.kernelFileName cls) ∧
    Function.Injective p.kernelFileName ∧
    ∀ (d : Disk) (live : List String), d.Sound →
      (∀ path, path ∈ ((p.staleKernels live : StateM Disk _) d).1 ↔
      d.isDirectory p.outputDir = true ∧
        ∃ cls, cls ≠ "" ∧ cls ∉ live ∧ (∃ contents, d.file? (p.kernelPlace d cls) = some contents) ∧
          path = p.kernelPath cls) ∧
      ∀ name, (∀ cls, p.classOf? name = some cls → cls ∈ live) →
        ((p.prune live : StateM Disk _) d).2.node? (d.target p.outputDir ++ [name]) =
          d.node? (d.target p.outputDir ++ [name]) := by
  refine ⟨fun name cls => classOf?_eq_some_iff, fun _ _ => kernelFileName_inj,
    fun d live hd => ⟨fun path => mem_stalePaths hd, fun name hname => ?_⟩⟩
  refine (removeAll_spec hd rfl).2.2.2 _ fun path hpath =>
    ne_target_of_mem_stalePaths hd (fun cls hne hlive heq => ?_) hpath
  have hcls := classOf?_eq_some_iff.2 ⟨hne, List.singleton_inj.1 (List.append_cancel_left heq)⟩
  exact hlive (hname cls hcls)

namespace Shed

/-- A project whose kernel files end as they start. -/
def project : Project :=
  .ofSettings "/rspu.toml" { name := "a", output := "out", lead := "a.", extension := "a" }

/-- Two files, one of no class. -/
def disk : Disk where
  nodes := [(["out"], .directory), (["out", "a.a"], .file (.text "")),
    (["out", "a.b.a"], .file (.text ""))]

end Shed

/-- A name where the start and the end overlap belongs to no class. -/
theorem shed_files :
    Shed.project.classOf? "a.b.a" = some "b" ∧ Shed.project.classOf? "a.a" = none ∧
    Shed.disk.Sound ∧
      "/out/a.b.a" ∈ ((Shed.project.staleKernels [] : StateM Disk _) Shed.disk).1 ∧
      ((Shed.project.prune [] : StateM Disk _) Shed.disk).2.node? ["out", "a.a"] =
        some (.file (.text "")) := by
  have hd : Shed.disk.Sound := by decide +kernel
  have hnone : Shed.project.classOf? "a.a" = none := by decide +kernel
  have hplace : Shed.disk.target Shed.project.outputDir ++ ["a.a"] = ["out", "a.a"] := by
    decide +kernel
  obtain ⟨hclass, -, hdisk⟩ := kernel_file_of_class Shed.project
  obtain ⟨hstale, hother⟩ := hdisk Shed.disk [] hd
  have hkept := hother "a.a" fun cls h => nomatch hnone.symm.trans h
  rw [hplace] at hkept
  exact ⟨(hclass _ _).2 (by decide +kernel), hnone, hd,
    (hstale _).2 ⟨by decide +kernel, "b", by decide, by decide,
    ⟨.text "", by decide +kernel⟩, by decide +kernel⟩, hkept.trans (by decide +kernel)⟩

end ComputeKernel
