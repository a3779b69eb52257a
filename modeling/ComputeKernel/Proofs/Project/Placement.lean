import ComputeKernel.Proofs.Command.Sync
import ComputeKernel.Proofs.Project.Search

/-!
# Where kernel files lie

The name of a kernel file is put together from the settings of a project and the name of a class,
and then taken as a path from the output directory on. All these are any text, so the file need not
lie in the output directory: a separator makes the name a path of its own. Stale files are looked
for by their names in the output directory, so such a file is never found again.
`kernel_confined_iff` says that separators are all that matters, but for an output directory with
the empty path, in which files are written but not looked for.
-/

namespace ComputeKernel

open Project

namespace Path

/-- Different names after the same path are different paths. -/
theorem join_right_inj {base name name' : String} (hname : '/' ∉ name.toList)
    (hname' : '/' ∉ name'.toList) (h : join base name = join base name') : name = name' := by
  obtain ⟨parts, -, hparts, -⟩ := exists_segments_join base hname
  obtain ⟨parts', -, hparts', -⟩ := exists_segments_join base hname'
  rw [h, hparts'] at hparts
  obtain ⟨-, hlast⟩ := List.append_inj' hparts rfl
  exact (List.singleton_inj.1 hlast).symm

end Path

/-- Classes without a name have no kernels. -/
theorem Shader.ne_empty_of_mem_kernels {file : SourceFile} {root : Option String}
    {cls source : String} (h : (cls, source) ∈ (translateFile file root).kernels) : cls ≠ "" := by
  rw [kernels_translateFile] at h
  obtain ⟨c, -, hkernel⟩ := List.mem_filterMap.1 h
  obtain ⟨hne, rfl, -⟩ := kernel?_eq_some_iff.1 hkernel
  exact hne

namespace Project

variable {p : Project} {d d' : Disk} {cls source path : String}

/-- No part of the name of a kernel file has a separator. -/
def PlainName (p : Project) (cls : String) : Prop :=
  '/' ∉ p.lead.toList ∧ '/' ∉ cls.toList ∧ '/' ∉ p.extension.toList

instance (p : Project) (cls : String) : Decidable (p.PlainName cls) :=
  inferInstanceAs (Decidable (_ ∧ _))

/-- A plain name has no separator. -/
theorem plainName_iff : p.PlainName cls ↔ '/' ∉ (p.kernelFileName cls).toList := by
  simp [PlainName, kernelFileName]

/-- The file lies in the output directory and tells its class exactly if its name is plain. -/
theorem Delivers.confined_iff (h : p.Delivers cls source d d') (hne : cls ≠ "") :
    (∃ name, d'.target (p.kernelPath cls) = d'.target p.outputDir ++ [name] ∧
    p.classOf? name = some cls) ↔
      p.PlainName cls := by
  constructor
  · rintro ⟨name, htarget, hcls⟩
    obtain ⟨-, rfl⟩ := classOf?_eq_some_iff.1 hcls
    -- A place has no separators in its names.
    have hnode := Disk.file?_eq_some_iff.1 h.file
    rw [htarget] at hnode
    exact plainName_iff.2 ((h.sound.node hnode).1 _ (by simp)).1
  · intro hplain
    exact ⟨_, Disk.target_join d' _ (h.isName (plainName_iff.1 hplain)).2.1,
      classOf?_eq_some_iff.2 ⟨hne, rfl⟩⟩

/-- What is stale has a plain name. -/
theorem plainName_of_stale (hd : d.Sound) {live : List String} (h : path ∈ p.stalePaths live d) :
    ∃ cls, cls ∉ live ∧ p.PlainName cls ∧ path = p.kernelPath cls := by
  obtain ⟨-, cls, -, hlive, ⟨contents, hfile⟩, rfl⟩ := (mem_stalePaths hd).1 h
  have hname := (hd.node (Disk.file?_eq_some_iff.1 hfile)).1 (p.kernelFileName cls)
    (by simp [kernelPlace])
  exact ⟨cls, hlive, plainName_iff.2 hname.1, rfl⟩

/-- The file is stale without its class exactly if its name is plain and the directory can be
listed. -/
theorem Delivers.stale_iff (h : p.Delivers cls source d d') (hne : cls ≠ "") :
    (∀ live, cls ∉ live → p.kernelPath cls ∈ p.stalePaths live d') ↔ p.PlainName cls ∧
    p.outputDir ≠ "" := by
  constructor
  · intro hstale
    have hout :=
      Disk.ne_empty_of_isDirectory ((mem_stalePaths h.sound).1 (hstale [] List.not_mem_nil)).1
    refine ⟨?_, hout⟩
    -- What is found at the path is the file of a class with a plain name. It would be found also
    -- while that class lives, unless it is the class itself.
    obtain ⟨other, -, hplain, hpath⟩ := plainName_of_stale h.sound (hstale [] List.not_mem_nil)
    by_contra hnot
    have hcls : cls ∉ [other] := by
      rw [List.mem_singleton]
      rintro rfl
      exact hnot hplain
    obtain ⟨other', hlive, hplain', hpath'⟩ := plainName_of_stale h.sound (hstale [other] hcls)
    have hname := Path.join_right_inj (plainName_iff.1 hplain') (plainName_iff.1 hplain)
      (hpath'.symm.trans hpath)
    exact hlive (List.mem_singleton.2 (kernelFileName_inj hname))
  · rintro ⟨hplain, hout⟩ live hlive
    have hfile := h.file
    rw [kernelPath, Disk.target_join d' _ (h.isName (plainName_iff.1 hplain)).2.1] at hfile
    exact (mem_stalePaths h.sound).2 ⟨h.directory hout, cls, hne, hlive, ⟨_, hfile⟩, rfl⟩

end Project

/-- **Kernel files stay in the output directory exactly if their names are plain.** Let a kernel of
a class be written on any disk. Then one file has its text and no other file has changed. The file
lies directly in the output directory, under a name that tells the class, exactly if there is no
separator in the settings for names and in the class. It is reported as stale as soon as the class
is not among those that live exactly if, besides, the path of the output directory is not empty. -/
theorem kernel_confined_iff {p : Project} {d d' : Disk} {file : SourceFile} {root : Option String}
    {cls source path : String} (hd : d.Sound)
    (hkernel : (cls, source) ∈ (Shader.translateFile file root).kernels)
    (h : (p.writeKernel cls source : StateM Disk _) d = (.ok path, d')) :
    d'.file? (d'.target path) = some (.text source) ∧
    (∀ place, place ≠ d'.target path → d'.file? place = d.file? place) ∧
    ((∃ name, d'.target path = d'.target p.outputDir ++ [name] ∧ p.classOf? name = some cls) ↔
    p.PlainName cls) ∧ ((∀ live, cls ∉ live → path ∈ ((p.staleKernels live : StateM Disk _) d').1) ↔
      p.PlainName cls ∧ p.outputDir ≠ "") := by
  have hne := Shader.ne_empty_of_mem_kernels hkernel
  obtain ⟨rfl, hdelivers⟩ := delivers_of_writeKernel hd h
  exact ⟨hdelivers.file, hdelivers.other, hdelivers.confined_iff hne, hdelivers.stale_iff hne⟩

namespace Annex

/-- A project whose kernel files start with the names of their classes. -/
def text : String := "[project]\nname = \"a\"\nprefix = \"\"\n"

/-- A disk with its file. -/
def disk : Disk := diskWith text

/-- The project of the file. -/
def project : Project := .ofSettings "/rspu.toml" { name := "a", lead := "" }

/-- A file with one class, which has no members. -/
def tree (cls : String) : SourceFile where
  path := "K.cs"
  classes := [{ name := { node := cls } }]

/-- After a kernel was written in the output directory. -/
def filled : Disk where
  nodes := [(["generated"], .directory), (["generated", "A.b.compute"], .file (.text "\n\n")),
    (["rspu.toml"], .file (.text text))]

/-- After a kernel was written beside the output directory. -/
def spilled : Disk where
  nodes := [(["Up.compute"], .file (.text "\n\n")), (["generated"], .directory),
    (["rspu.toml"], .file (.text text))]

end Annex

/-- A point in the name of a class does not matter. -/
theorem annex_confined :
    Annex.disk.Sound ∧ ("A.b", "\n\n") ∈ (Shader.translateFile (Annex.tree "A.b") none).kernels ∧
      (Annex.project.writeKernel "A.b" "\n\n" : StateM Disk _) Annex.disk =
        (.ok "/generated/A.b.compute", Annex.filled) ∧
      (∃ name, Annex.filled.target "/generated/A.b.compute" =
        Annex.filled.target "/generated" ++ [name] ∧ Annex.project.classOf? name = some "A.b") ∧
      ∀ live, "A.b" ∉ live →
        "/generated/A.b.compute" ∈
          ((Annex.project.staleKernels live : StateM Disk _) Annex.filled).1 := by
  have hd : Annex.disk.Sound := by decide +kernel
  have hkernel : ("A.b", "\n\n") ∈ (Shader.translateFile (Annex.tree "A.b") none).kernels := by
    decide +kernel
  have hwrite : (Annex.project.writeKernel "A.b" "\n\n" : StateM Disk _) Annex.disk =
      (.ok "/generated/A.b.compute", Annex.filled) := by
    change @Eq (Except Diagnostic String × Disk) _ _
    decide +kernel
  have hout : Annex.project.outputDir = "/generated" := by decide +kernel
  obtain ⟨-, -, hconfined, hstale⟩ := kernel_confined_iff hd hkernel hwrite
  rw [hout] at hconfined hstale
  exact ⟨hd, hkernel, hwrite, hconfined.2 (by decide +kernel),
    hstale.2 ⟨by decide +kernel, by decide⟩⟩

namespace Lot

/-- A project whose kernel files lie beside its own file. -/
def text : String := "[project]\nname = \"a\"\noutput = \"\"\n"

/-- A disk with its file. -/
def disk : Disk := diskWith text

/-- The project of the file. -/
def project : Project := .ofSettings "rspu.toml" { name := "a", output := "" }

/-- After a kernel was written. -/
def filled : Disk where
  nodes := [(["rspu-A.compute"], .file (.text "\n\n")), (["rspu.toml"], .file (.text text))]

end Lot

/-- The name of a class may lead out of the output directory, and its file is not found when the
class is gone. Nor is a file in an output directory with the empty path. -/
theorem kernel_beside_output :
    ((load "/rspu.toml" : StateM Disk _) Annex.disk = (.ok Annex.project, Annex.disk) ∧
      ("../Up", "\n\n") ∈ (Shader.translateFile (Annex.tree "../Up") none).kernels ∧
      (Annex.project.writeKernel "../Up" "\n\n" : StateM Disk _) Annex.disk =
        (.ok "/generated/../Up.compute", Annex.spilled) ∧
      Annex.spilled.target Annex.project.outputDir = ["generated"] ∧
      Annex.spilled.target "/generated/../Up.compute" = ["Up.compute"] ∧
      (Annex.project.staleKernels [] : StateM Disk _) Annex.spilled = ([], Annex.spilled)) ∧
    (load "rspu.toml" : StateM Disk _) Lot.disk = (.ok Lot.project, Lot.disk) ∧
    Lot.project.outputDir = "" ∧
      (Lot.project.writeKernel "A" "\n\n" : StateM Disk _) Lot.disk =
        (.ok "rspu-A.compute", Lot.filled) ∧
      Lot.filled.target Lot.project.outputDir = [] ∧ Lot.filled.target "rspu-A.compute" =
        ["rspu-A.compute"] ∧
      (Lot.project.staleKernels [] : StateM Disk _) Lot.filled = ([], Lot.filled) := by
  refine ⟨⟨?_, by decide +kernel, ?_, by decide +kernel, by decide +kernel, ?_⟩,
    ?_, by decide +kernel, ?_, by decide +kernel, by decide +kernel, ?_⟩
  · change @Eq (Except Diagnostic Project × Disk) _ _
    decide +kernel
  · change @Eq (Except Diagnostic String × Disk) _ _
    decide +kernel
  · change @Eq (List String × Disk) _ _
    decide +kernel
  · change @Eq (Except Diagnostic Project × Disk) _ _
    decide +kernel
  · change @Eq (Except Diagnostic String × Disk) _ _
    decide +kernel
  · change @Eq (List String × Disk) _ _
    decide +kernel

end ComputeKernel
