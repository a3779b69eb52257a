import ComputeKernel.Proofs.Files.Disk

/-!
# Changes of disks

What the operations that change a disk do. What is written, made or removed is what lies where the
path leads. Nothing but the removal of a file takes anything away, so that every change keeps the
directories.
-/

namespace ComputeKernel.Disk

open List
open ComputeKernel.Path (IsName join maxNameSize segments isIdle)

variable {d d' d'' : Disk} {path : String} {place : Place}

/-! ## Where new things are made -/

/-- A path leads to a name in a directory. -/
structure Leads (d : Disk) (path : String) (front : List String) (directory : Place) (name : String)
    (idle : List String) : Prop where
  checked : checkPath path = .ok ()
  parts : segments path = front ++ name :: idle
  isName : IsName name
  idle : ∀ part ∈ idle, part = ""
  walk : d.walk (d.start path) front = .ok directory
  directory : d.node? directory = some .directory

variable {front idle : List String} {directory : Place} {name : String}

/-- Empty parts at the end are dropped. -/
theorem dropEmptyEnd_append {last : String} (hlast : last ≠ "") (hidle : ∀ part ∈ idle, part = "") :
    ((front ++ last :: idle).reverse.dropWhile (· == "")).reverse = front ++ [last] := by
  have hdrop : idle.reverse.dropWhile (· == "") = [] := by
    rw [dropWhile_eq_nil_iff]
    intro part hpart
    simp [hidle part (mem_reverse.1 hpart)]
  simp [dropWhile_append, hdrop, hlast]

/-- The last part of a path that is not empty, if there is one. -/
theorem exists_last_part (parts : List String) :
    (parts.reverse.dropWhile (· == "")).reverse = [] ∨
      ∃ front last idle, parts = front ++ last :: idle ∧ last ≠ "" ∧ ∀ part ∈ idle, part = "" := by
  induction parts using reverseRecOn with
  | nil => exact .inl rfl
  | append_singleton parts part ih =>
    by_cases hpart : part = ""
    · subst hpart
      rcases ih with hnil | ⟨front, last, idle, rfl, hlast, hidle⟩
      · exact .inl (by simpa using hnil)
      · refine .inr ⟨front, last, idle ++ [""], by simp, hlast, ?_⟩
        intro part hpart
        rcases mem_append.1 hpart with hpart | hpart
        · exact hidle part hpart
        · exact mem_singleton.1 hpart
    · exact .inr ⟨parts, part, [], rfl, hpart, fun _ h => absurd h not_mem_nil⟩

/-- Where a path lets something be made. -/
theorem site_of_walk {last : String} (hpath : checkPath path = .ok ())
    (hparts : segments path = front ++ last :: idle) (hlast : last ≠ "")
    (hidle : ∀ part ∈ idle, part = "") (hwalk : d.walk (d.start path) front = .ok directory)
    (hdirectory : d.node? directory = some .directory) :
    d.site path = .ok (if last = "." ∨ last = ".." then .directory
      else if idle = [] then .name directory last else .directoryName directory last) := by
  unfold site
  simp only [hpath, hparts, dropEmptyEnd_append hlast hidle, bind, Except.bind, getLast?_concat,
    dropLast_concat, hwalk, hdirectory, Bool.or_eq_true, decide_eq_true_eq]
  split
  · rfl
  · by_cases hnil : idle = []
    · rw [if_pos (by simp [hnil]), if_pos hnil]
      rfl
    · rw [if_neg (by simpa using hnil), if_neg hnil]
      rfl

/-- The site of a path that leads to a name. -/
theorem Leads.site (h : Leads d path front directory name idle) :
    d.site path = .ok (if idle = [] then
      .name directory name else .directoryName directory name) := by
  rw [site_of_walk h.checked h.parts h.isName.2.1 h.idle h.walk h.directory,
    if_neg (not_or.2 ⟨h.isName.2.2.1, h.isName.2.2.2⟩)]

/-- A path with a site leads to a name, or is a directory. -/
theorem exists_leads {s : Site} (h : d.site path = .ok s) :
    s = .directory ∨ ∃ front directory name idle, Leads d path front directory name idle := by
  unfold Disk.site at h
  cases hpath : checkPath path with
  | error e =>
    rw [hpath] at h
    cases h
  | ok u =>
    rw [hpath] at h
    rcases exists_last_part (segments path) with hnil | ⟨front, last, idle, hparts, hlast, hidle⟩
    · simp only [bind, Except.bind, hnil, getLast?_nil] at h
      cases h
      exact .inl rfl
    · simp only [bind, Except.bind, hparts, dropEmptyEnd_append hlast hidle, getLast?_concat,
        dropLast_concat] at h
      cases hwalk : d.walk (d.start path) front with
      | error e =>
        rw [hwalk] at h
        cases h
      | ok directory =>
        rw [hwalk] at h
        dsimp only at h
        split at h
        · cases h
        · cases h
        next hdirectory =>
          split at h
          next =>
            cases h
            exact .inl rfl
          next hdots =>
            have hmem : last ∈ segments path := by simp [hparts]
            simp only [Bool.or_eq_true, decide_eq_true_eq, not_or] at hdots
            exact .inr ⟨front, directory, last, idle, hpath, hparts,
              ⟨Path.not_mem_of_mem_segments hmem, hlast, hdots.1, hdots.2⟩, hidle,
              hwalk, hdirectory⟩

/-- A path leads to the name in the directory. -/
theorem Leads.target (h : Leads d path front directory name idle) :
    d.target path = directory ++ [name] := by
  have hidle (parts : List String) (place : Place) (hparts : ∀ part ∈ parts, part = "") :
      parts.foldl turn place = place := by
    induction parts with
    | nil => rfl
    | cons part parts ih =>
      obtain ⟨rfl, hrest⟩ := forall_mem_cons.1 hparts
      exact ih hrest
  rw [Disk.target, h.parts, foldl_append, walk_eq_ok h.walk, foldl_cons, turn_name h.isName,
    hidle idle _ h.idle]

/-- This is not the root. -/
theorem Leads.ne_nil (h : Leads d path front directory name idle) : d.target path ≠ [] := by
  rw [h.target]
  exact append_ne_nil_of_right_ne_nil _ (cons_ne_nil _ _)

/-- Something may be put there. -/
theorem Leads.sound_put (h : Leads d path front directory name idle) (hd : d.Sound)
    (hnode : d.node? (d.target path) ≠ some .directory) (node : Node) :
    (d.put (d.target path) node).Sound := by
  rw [h.target] at hnode ⊢
  exact hd.put h.isName h.directory hnode node

/-- What a path leads to is found there, if it is there. -/
theorem Leads.find (h : Leads d path front directory name idle)
    (hsize : name.utf8ByteSize ≤ maxNameSize) (hnode : d.node? (d.target path) = some .directory) :
    d.find path = .ok (d.target path, .directory) := by
  have hidle (parts : List String) (hparts : ∀ part ∈ parts, part = "") :
      d.walk (d.target path) parts = .ok (d.target path) := by
    induction parts with
    | nil => rfl
    | cons part parts ih =>
      obtain ⟨rfl, hrest⟩ := forall_mem_cons.1 hparts
      exact walk_cons_eq_ok_iff.2 ⟨hnode, fun hidle => absurd hidle (by decide), ih hrest⟩
  refine find_eq_ok_iff.2 ⟨h.checked, ?_, hnode⟩
  rw [h.parts, walk_append_eq_ok_iff]
  refine ⟨directory, h.walk, walk_cons_eq_ok_iff.2 ⟨h.directory, fun _ _ => hsize, ?_⟩⟩
  rw [turn_name h.isName, ← h.target, hidle idle h.idle]

/-- It leads there as before. -/
theorem Keeps.leads (hkeeps : Keeps d d') (h : Leads d path front directory name idle) :
    Leads d' path front directory name idle :=
  { h with
    walk := hkeeps.start path ▸ hkeeps.walk h.walk
    directory := hkeeps.directory _ h.directory }

/-! ## Writing -/

variable {contents : Contents}

/-- What writing comes to. -/
theorem Leads.write_eq (h : Leads d path front directory name idle) (contents : Contents) :
    d.write path contents =
      if idle ≠ [] then .error .isDirectory
      else if maxNameSize < name.utf8ByteSize then .error .nameTooLong
      else if d.node? (d.target path) = some .directory then .error .isDirectory
      else .ok (d.put (d.target path) (.file contents)) := by
  unfold write
  rw [h.site, h.target]
  by_cases hidle : idle = []
  · rw [if_pos hidle, if_neg (not_not.2 hidle)]
    by_cases hsize : name.utf8ByteSize ≤ maxNameSize
    · simp only [bind, Except.bind, enter, if_pos hsize, if_neg (Nat.not_lt.2 hsize)]
      rfl
    · simp only [bind, Except.bind, enter, if_neg hsize, if_pos (Nat.lt_of_not_le hsize)]
  · rw [if_neg hidle, if_pos hidle]
    rfl

/-- What is written lies where the path leads. -/
theorem exists_of_write (h : d.write path contents = .ok d') :
    ∃ front directory name, Leads d path front directory name [] ∧ name.utf8ByteSize ≤ maxNameSize ∧
      d.node? (d.target path) ≠ some .directory ∧ d' = d.put (d.target path) (.file contents) := by
  cases hsite : d.site path with
  | error e =>
    rw [write, hsite] at h
    cases h
  | ok s =>
    rcases exists_leads hsite with rfl | ⟨front, directory, name, idle, hleads⟩
    · rw [write, hsite] at h
      cases h
    · rw [hleads.write_eq] at h
      split at h
      · cases h
      next hidle =>
        obtain rfl := not_not.1 hidle
        split at h
        · cases h
        next hsize =>
          split at h
          · cases h
          next hnode =>
            cases h
            exact ⟨front, directory, name, hleads, Nat.not_lt.1 hsize, hnode, rfl⟩

/-- Writing changes the file there and nothing else. -/
theorem write_spec (hd : d.Sound) (h : d.write path contents = .ok d') :
    d.Keeps d' ∧ d'.Sound ∧ d'.file? (d.target path) = some contents ∧
      ∀ place, place ≠ d.target path → d'.node? place = d.node? place := by
  obtain ⟨front, directory, name, hleads, -, hnode, rfl⟩ := exists_of_write h
  have hother (place : Place) (hplace : place ≠ d.target path) :
      (d.put (d.target path) (.file contents)).node? place = d.node? place := by
    rw [node?_put d hleads.ne_nil, if_neg hplace]
  refine ⟨⟨rfl, fun place hplace => ?_⟩, hleads.sound_put hd hnode _, ?_, hother⟩
  · rw [hother place, hplace]
    rintro rfl
    exact hnode hplace
  · rw [file?_eq_some_iff, node?_put d hleads.ne_nil, if_pos rfl]

/-! ## Files in a directory -/

/-- A file of this name can stand in a directory. -/
structure Holds (d : Disk) (base name : String) : Prop where
  directory : d.isDirectory base = true
  checked : checkPath (join base name) = .ok ()
  isName : IsName name
  size : name.utf8ByteSize ≤ maxNameSize

variable {base : String}

/-- A path leads to a directory without its last separators. -/
theorem exists_walk_join (hbase : d.isDirectory base = true) (hname : '/' ∉ name.toList) :
    ∃ front, segments (join base name) = front ++ [name] ∧
      d.walk (d.start (join base name)) front = .ok (d.target base) := by
  obtain ⟨parts, hparts, hjoin, hroot⟩ := Path.exists_segments_join base hname
  obtain ⟨-, hwalk, -⟩ := find_eq_ok_iff.1 (isDirectory_iff.1 hbase)
  refine ⟨parts, hjoin, ?_⟩
  rw [start, hroot]
  rcases hparts with hparts | hparts
  · rwa [hparts] at hwalk
  · rw [hparts, walk_append_eq_ok_iff] at hwalk
    obtain ⟨between, hfront, hrest⟩ := hwalk
    have hbetween : between = d.target base := walk_eq_ok hrest
    exact hbetween ▸ hfront

/-- A path with the name leads there. -/
theorem Holds.leads (h : Holds d base name) :
    ∃ front, Leads d (join base name) front (d.target base) name [] := by
  obtain ⟨front, hparts, hwalk⟩ := exists_walk_join h.directory h.isName.1
  exact ⟨front, h.checked, hparts, h.isName, fun _ hpart => absurd hpart not_mem_nil, hwalk,
    (find_eq_ok_iff.1 (isDirectory_iff.1 h.directory)).2.2⟩

/-- And a file is written there. -/
theorem Holds.write (h : Holds d base name)
    (hnode : d.node? (d.target base ++ [name]) ≠ some .directory) (contents : Contents) :
    d.write (join base name) contents = .ok (d.put (d.target base ++ [name]) (.file contents)) := by
  obtain ⟨front, hleads⟩ := h.leads
  rw [hleads.write_eq, if_neg (not_not.2 rfl), if_neg (Nat.not_lt.2 h.size), hleads.target,
    if_neg hnode]

/-- It still can stand there. -/
theorem Keeps.holds (hkeeps : Keeps d d') (h : Holds d base name) : Holds d' base name :=
  { h with directory := hkeeps.isDirectory h.directory }

/-- What could be written, without a separator, is a name. -/
theorem isName_of_write (hname : '/' ∉ name.toList)
    (h : d.write (join base name) contents = .ok d') :
    checkPath (join base name) = .ok () ∧ IsName name ∧ name.utf8ByteSize ≤ maxNameSize := by
  obtain ⟨front, directory, last, hleads, hsize, -, -⟩ := exists_of_write h
  obtain ⟨parts, -, hparts, -⟩ := Path.exists_segments_join base hname
  obtain ⟨-, hlast⟩ := append_inj' (hleads.parts.symm.trans hparts) rfl
  cases hlast
  exact ⟨hleads.checked, hleads.isName, hsize⟩

/-- So is what could be read: `.` and `..` lead to directories. -/
theorem isName_of_read (hd : d.Sound) (hname : '/' ∉ name.toList) {text : String}
    (h : d.read (join base name) = .ok text) :
    checkPath (join base name) = .ok () ∧ IsName name ∧ name.utf8ByteSize ≤ maxNameSize := by
  obtain ⟨hpath, hwalk, hnode⟩ := find_eq_ok_iff.1 (read_eq_ok_iff.1 h)
  obtain ⟨parts, -, hparts, -⟩ := Path.exists_segments_join base hname
  rw [hparts, walk_append_eq_ok_iff] at hwalk
  obtain ⟨between, -, hlast⟩ := hwalk
  obtain ⟨hdirectory, hallowed, hreached⟩ := walk_cons_eq_ok_iff.1 hlast
  have htarget : turn between name = d.target (join base name) := walk_eq_ok hreached
  have hidle : isIdle name = false := by
    rw [Bool.eq_false_iff]
    intro hidle
    rw [turn_of_isIdle hidle] at htarget
    rw [← htarget, hdirectory] at hnode
    cases hnode
  have hup : name ≠ ".." := by
    rintro rfl
    have habove : between.dropLast = d.target (join base "..") := htarget
    rw [← habove, (hd.node hdirectory).2] at hnode
    cases hnode
  simp only [isIdle, Bool.or_eq_false_iff, beq_eq_false_iff_ne] at hidle
  exact ⟨hpath, ⟨hname, hidle.1, hidle.2, hup⟩, hallowed (by simp [isIdle, hidle]) hup⟩

/-! ## Making directories -/

/-- What making a directory comes to. -/
theorem Leads.makeDir_eq (h : Leads d path front directory name idle) :
    d.makeDir path =
      if maxNameSize < name.utf8ByteSize then .error .nameTooLong
      else if (d.node? (d.target path)).isSome then .error .present
      else .ok (d.put (d.target path) .directory) := by
  unfold makeDir
  rw [h.site, h.target]
  by_cases hsize : name.utf8ByteSize ≤ maxNameSize
  · by_cases hidle : idle = []
    · simp only [bind, Except.bind, if_pos hidle, enter, if_pos hsize, if_neg (Nat.not_lt.2 hsize)]
      rfl
    · simp only [bind, Except.bind, if_neg hidle, enter, if_pos hsize, if_neg (Nat.not_lt.2 hsize)]
      rfl
  · by_cases hidle : idle = []
    · simp only [bind, Except.bind, if_pos hidle, enter, if_neg hsize,
        if_pos (Nat.lt_of_not_le hsize)]
    · simp only [bind, Except.bind, if_neg hidle, enter, if_neg hsize,
        if_pos (Nat.lt_of_not_le hsize)]

/-- A directory is made where the path leads. -/
theorem exists_of_makeDir (h : d.makeDir path = .ok d') :
    ∃ front directory name idle, Leads d path front directory name idle ∧
    name.utf8ByteSize ≤ maxNameSize ∧
      d.node? (d.target path) = none ∧ d' = d.put (d.target path) .directory := by
  cases hsite : d.site path with
  | error e =>
    rw [makeDir, hsite] at h
    cases h
  | ok s =>
    rcases exists_leads hsite with rfl | ⟨front, directory, name, idle, hleads⟩
    · rw [makeDir, hsite] at h
      cases h
    · rw [hleads.makeDir_eq] at h
      split at h
      · cases h
      next hsize =>
        split at h
        · cases h
        next hnode =>
          cases h
          exact ⟨front, directory, name, idle, hleads, Nat.not_lt.1 hsize,
            Option.not_isSome_iff_eq_none.1 hnode, rfl⟩

/-- What is there cannot be made. -/
theorem makeDir_of_isDirectory (h : d.isDirectory path = true) :
    d.makeDir path = .error .present := by
  obtain ⟨hpath, hwalk, hnode⟩ := find_eq_ok_iff.1 (isDirectory_iff.1 h)
  have hform (hsite : d.site path = .ok .directory) : d.makeDir path = .error .present := by
    rw [makeDir, hsite]
    rfl
  rcases exists_last_part (segments path) with hnil | ⟨front, last, idle, hparts, hlast, hidle⟩
  · refine hform ?_
    simp only [site, hpath, hnil, bind, Except.bind, getLast?_nil]
    rfl
  · rw [hparts, walk_append_eq_ok_iff] at hwalk
    obtain ⟨directory, hfront, hrest⟩ := hwalk
    obtain ⟨hdirectory, hallowed, -⟩ := walk_cons_eq_ok_iff.1 hrest
    have hsite := site_of_walk hpath hparts hlast hidle hfront hdirectory
    by_cases hdots : last = "." ∨ last = ".."
    · rw [if_pos hdots] at hsite
      exact hform hsite
    · obtain ⟨hdot, hup⟩ := not_or.1 hdots
      have hmem : last ∈ segments path := by simp [hparts]
      have hname : IsName last := ⟨Path.not_mem_of_mem_segments hmem, hlast, hdot, hup⟩
      have hleads : Leads d path front directory last idle :=
        ⟨hpath, hparts, hname, hidle, hfront, hdirectory⟩
      rw [hleads.makeDir_eq, if_neg (Nat.not_lt.2 (hallowed hname.not_isIdle hup)), hnode]
      rfl

/-- Only directories are new. -/
structure Grows (d d' : Disk) : Prop where
  working : d'.working = d.working
  node : ∀ place, d'.node? place = d.node? place ∨
    d.node? place = none ∧ d'.node? place = some .directory
  sound : d.Sound → d'.Sound

/-- Nothing is new. -/
theorem Grows.refl (d : Disk) : Grows d d := ⟨rfl, fun _ => .inl rfl, fun h => h⟩

/-- New ones after others. -/
theorem Grows.trans (h : Grows d d') (h' : Grows d' d'') : Grows d d'' := by
  refine ⟨h'.working.trans h.working, fun place => ?_, fun hd => h'.sound (h.sound hd)⟩
  rcases h'.node place with hsame | ⟨hnone, hmade⟩
  · rw [hsame]
    exact h.node place
  · rcases h.node place with hsame | ⟨-, hmade'⟩
    · exact .inr ⟨hsame.symm.trans hnone, hmade⟩
    · rw [hnone] at hmade'
      cases hmade'

/-- What was there is kept. -/
theorem Grows.keeps (h : Grows d d') : Keeps d d' := by
  refine ⟨h.working, fun place hplace => ?_⟩
  rcases h.node place with hsame | ⟨-, hmade⟩
  · rw [hsame, hplace]
  · exact hmade

/-- Files are as they were. -/
theorem Grows.file? (h : Grows d d') (place : Place) : d'.file? place = d.file? place := by
  rcases h.node place with hsame | ⟨hnone, hmade⟩
  · exact file?_congr hsame
  · rw [Disk.file?, Disk.file?, hnone, hmade]

/-- A directory that was made is there. -/
theorem orPresent_makeDir {r : Except FileError Unit}
    (h : d.orPresent path (d.makeDir path) = (d', r)) :
    Grows d d' ∧ (r = .ok () → d'.isDirectory path = true) := by
  unfold orPresent at h
  split at h
  next next hmade =>
    cases h
    obtain ⟨front, directory, name, idle, hleads, hsize, hnone, rfl⟩ := exists_of_makeDir hmade
    have hgrows : Grows d (d.put (d.target path) .directory) := by
      refine ⟨rfl, fun place => ?_, fun hd => hleads.sound_put hd (by simp [hnone]) _⟩
      rw [node?_put d hleads.ne_nil]
      by_cases hplace : place = d.target path
      · rw [if_pos hplace, hplace]
        exact .inr ⟨hnone, rfl⟩
      · rw [if_neg hplace]
        exact .inl rfl
    refine ⟨hgrows, fun _ => isDirectory_iff.2 ((hgrows.keeps.leads hleads).find hsize ?_)⟩
    rw [hgrows.keeps.target, node?_put d hleads.ne_nil, if_pos rfl]
  next e hfailed =>
    split at h
    next hthere =>
      cases h
      exact ⟨.refl d, fun _ => hthere⟩
    next =>
      cases h
      exact ⟨.refl d, fun hr => by cases hr⟩

/-- Directories are made, and no others. -/
theorem makeDirsFrom_spec {fuel : Nat} {r : Except FileError Unit}
    (h : makeDirsFrom fuel path d = (d', r)) :
    Grows d d' ∧ (r = .ok () → path = "" ∨ d'.isDirectory path = true) := by
  induction fuel generalizing path d d' r with
  | zero =>
    cases h
    exact ⟨.refl d, fun hr => by cases hr⟩
  | succ fuel ih =>
    rw [makeDirsFrom] at h
    split at h
    next hempty =>
      cases h
      exact ⟨.refl d, fun _ => .inl (String.isEmpty_iff.1 hempty)⟩
    next =>
      split at h
      next =>
        split at h
        next between u habove =>
          obtain ⟨hgrows, hthere⟩ := orPresent_makeDir h
          exact ⟨(ih habove).1.trans hgrows, fun hr => .inr (hthere hr)⟩
        next between e habove =>
          cases h
          exact ⟨(ih habove).1, fun hr => by cases hr⟩
      next => exact (orPresent_makeDir h).imp_right fun hthere hr => .inr (hthere hr)

/-- The disk has only grown. -/
theorem makeDirs_grows (path : String) (d : Disk) : Grows d (d.makeDirs path).1 :=
  (makeDirsFrom_spec rfl).1

/-- The directory is there then. -/
theorem isDirectory_of_makeDirs (hne : path ≠ "") (h : (d.makeDirs path).2 = .ok ()) :
    (d.makeDirs path).1.isDirectory path = true :=
  ((makeDirsFrom_spec rfl).2 h).resolve_left hne

/-- If it is there, nothing is made. -/
theorem makeDirs_of_isDirectory (h : d.isDirectory path = true) :
    d.makeDirs path = (d, .ok ()) := by
  rw [makeDirs, makeDirsFrom, if_neg (mt String.isEmpty_iff.1 (ne_empty_of_isDirectory h)),
    makeDir_of_isDirectory h]
  simp only [orPresent, if_pos h]

/-! ## Removing -/

/-- What is removed is a file. -/
theorem exists_of_remove (h : d.remove path = .ok d') :
    ∃ contents, d.file? (d.target path) = some contents ∧
    d' = { d with nodes := d.nodes.erase (d.target path) } := by
  unfold remove at h
  cases hfind : d.find path with
  | error e =>
    rw [hfind] at h
    cases h
  | ok found =>
    obtain ⟨place, node⟩ := found
    obtain rfl := find_target hfind
    rw [hfind] at h
    cases node with
    | directory => cases h
    | file contents =>
      cases h
      exact ⟨contents, file?_eq_some_iff.2 (find_eq_ok_iff.1 hfind).2.2, rfl⟩

/-- Removing takes away the file there and nothing else. -/
theorem remove_spec (hd : d.Sound) (h : d.remove path = .ok d') :
    d.Keeps d' ∧ d'.Sound ∧ d'.node? (d.target path) = none ∧
      ∀ place, place ≠ d.target path → d'.node? place = d.node? place := by
  obtain ⟨contents, hfile, rfl⟩ := exists_of_remove h
  have hnode := file?_eq_some_iff.1 hfile
  have hne : d.target path ≠ [] := by
    intro hnil
    rw [hnil] at hnode
    cases hnode
  refine ⟨⟨rfl, fun place hplace => ?_⟩, hd.erase hfile, ?_, fun place hplace => ?_⟩
  · rw [node?_erase d hne, if_neg, hplace]
    rintro rfl
    rw [hnode] at hplace
    cases hplace
  · rw [node?_erase d hne, if_pos rfl]
  · rw [node?_erase d hne, if_neg hplace]

end ComputeKernel.Disk
