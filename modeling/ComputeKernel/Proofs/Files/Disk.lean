import ComputeKernel.Files.Disk
import ComputeKernel.Proofs.Files.Path
import ComputeKernel.Proofs.Keyed

/-!
# Disks

What can be seen on a disk. There are no links, so where a path leads is told by its text
(`Disk.target`), and a path that is found is found there (`Disk.find_target`). On a disk that keeps
its directories, a path that could be followed can be followed still (`Disk.Keeps.walk`).
-/

namespace ComputeKernel.Disk

open List
open ComputeKernel.Path (IsName join segments isIdle meant)

variable {d d' d'' : Disk} {path : String} {place : Place}

/-! ## Places -/

/-- Where a part leads from a place, whatever is there. -/
def turn (place : Place) (part : String) : Place :=
  if isIdle part then place else if part = ".." then place.dropLast else place ++ [part]

/-- Where a path leads, whatever is there. -/
def target (d : Disk) (path : String) : Place := (segments path).foldl turn (d.start path)

/-- An idle part leads nowhere else. -/
theorem turn_of_isIdle {part : String} (h : isIdle part = true) :
    turn place part = place := if_pos h

/-- A name leads to this name. -/
theorem turn_name {name : String} (h : IsName name) : turn place name = place ++ [name] := by
  rw [turn, if_neg (Bool.eq_false_iff.1 h.not_isIdle), if_neg h.2.2.2]

/-- Only parts that mean something count. -/
theorem foldl_turn_meant (parts : List String) :
    (meant parts).foldl turn place = parts.foldl turn place := by
  induction parts generalizing place with
  | nil => rfl
  | cons part parts ih =>
    rw [meant, filter_cons]
    split
    next => exact ih
    next hpart =>
      rw [foldl_cons, turn_of_isIdle (by simpa using hpart)]
      exact ih

/-- A name after a path leads on from there. -/
theorem target_join (d : Disk) (base : String) {name : String} (h : IsName name) :
    d.target (join base name) = d.target base ++ [name] := by
  obtain ⟨parts, hbase, hjoin, hroot⟩ := Path.exists_segments_join base h.1
  have hstart : d.start (join base name) = d.start base := by rw [start, start, hroot]
  rw [target, target, hjoin, hstart, foldl_append, foldl_cons, foldl_nil, turn_name h]
  rcases hbase with hbase | hbase
  · rw [hbase]
  · rw [hbase, foldl_append]
    rfl

/-- So do several names. -/
theorem target_foldl_join (d : Disk) (base : String) {names : List String}
    (h : ∀ name ∈ names, IsName name) :
    d.target (names.foldl join base) = d.target base ++ names := by
  induction names generalizing base with
  | nil => simp
  | cons name names ih =>
    obtain ⟨hname, hnames⟩ := forall_mem_cons.1 h
    rw [foldl_cons, ih _ hnames, target_join d base hname, append_assoc, singleton_append]

/-- A path that ends in a name leads on from its parent. -/
theorem target_parent (d : Disk) (base : String) {name : String} (h : IsName name) :
    d.target (join base name) = d.target ((Path.parent? (join base name)).getD ".") ++ [name] := by
  obtain ⟨parts, -, hjoin, -⟩ := Path.exists_segments_join base h.1
  obtain ⟨parent, hparent, hroot, hmeant⟩ := Path.exists_parent? h hjoin
  have hstart : d.start parent = d.start (join base name) := by rw [start, start, hroot]
  rw [hparent, Option.getD_some, target, target, hjoin, foldl_append, foldl_cons, foldl_nil,
    turn_name h, hstart, ← foldl_turn_meant (segments parent), hmeant, foldl_turn_meant]

/-! ## Nodes -/

/-- What lies where after something was put there. -/
theorem node?_put (d : Disk) {place : Place} (h : place ≠ []) (node : Node) (other : Place) :
    (d.put place node).node? other = if other = place then some node else d.node? other := by
  rw [node?, node?, put, Keyed.get?_put fun _ _ hlt hlt' => List.le_antisymm hlt' hlt]
  by_cases hother : other = []
  · rw [if_pos hother, if_pos hother, if_neg (hother ▸ h.symm)]
  · rw [if_neg hother, if_neg hother]

/-- What lies where after something was taken away. -/
theorem node?_erase (d : Disk) {place : Place} (h : place ≠ []) (other : Place) :
    ({ d with nodes := d.nodes.erase place } : Disk).node? other = if other = place then
      none else d.node? other := by
  rw [node?, node?, Keyed.get?_erase]
  by_cases hother : other = []
  · rw [if_pos hother, if_pos hother, if_neg (hother ▸ h.symm)]
  · rw [if_neg hother, if_neg hother]

/-- The contents of the file at a place. -/
def file? (d : Disk) (place : Place) : Option Contents :=
  match d.node? place with
  | some (.file contents) => some contents
  | _ => none

/-- A file is at its place. -/
theorem file?_eq_some_iff {contents : Contents} :
    d.file? place = some contents ↔ d.node? place = some (.file contents) := by
  unfold file?
  split
  next other hother => simp [hother]
  next hother =>
    constructor
    · intro h
      cases h
    · intro h
      exact absurd h (hother contents)

/-- Only its place matters. -/
theorem file?_congr (h : d'.node? place = d.node? place) : d'.file? place = d.file? place := by
  rw [file?, file?, h]

/-! ## Sound disks -/

/-- Places are in order, names are names, and all lies in directories. -/
def Sound (d : Disk) : Prop :=
  d.nodes.Ordered ∧ ∀ p ∈ d.nodes, p.1 ≠ [] ∧ (∀ name ∈ p.1, IsName name) ∧ d.node? p.1.dropLast =
    some .directory

instance (d : Disk) : Decidable d.Sound := inferInstanceAs (Decidable (List.Pairwise _ _ ∧ _))

/-- Places are in order. -/
theorem Sound.ordered (hd : d.Sound) : d.nodes.Ordered := hd.1

/-- What is there lies in a directory. -/
theorem Sound.node (hd : d.Sound) {node : Node} (h : d.node? place = some node) :
    (∀ name ∈ place, IsName name) ∧ d.node? place.dropLast = some .directory := by
  rw [node?] at h
  split at h
  next hnil =>
    subst hnil
    exact ⟨fun name hname => absurd hname not_mem_nil, rfl⟩
  next => exact (hd.2 _ (hd.1.mem_iff.2 h)).2

/-- Something new leaves a disk sound, if no directory gives way to it. -/
theorem Sound.put (hd : d.Sound) {directory : Place} {name : String} (hname : IsName name)
    (hdirectory : d.node? directory = some .directory)
    (hnode : d.node? (directory ++ [name]) ≠ some .directory) (node : Node) :
    (d.put (directory ++ [name]) node).Sound := by
  have hne : directory ++ [name] ≠ [] := append_ne_nil_of_right_ne_nil _ (cons_ne_nil _ _)
  have hkept (place : Place) (hplace : d.node? place = some .directory) :
      (d.put (directory ++ [name]) node).node? place = some .directory := by
    rw [node?_put d hne, if_neg, hplace]
    rintro rfl
    exact hnode hplace
  refine ⟨hd.1.put _ _, fun p hp => ?_⟩
  rcases Keyed.mem_put hp with rfl | hp
  · refine ⟨hne, fun part hpart => ?_, ?_⟩
    · rcases mem_append.1 hpart with hpart | hpart
      · exact (hd.node hdirectory).1 part hpart
      · exact mem_singleton.1 hpart ▸ hname
    · rw [dropLast_concat]
      exact hkept _ hdirectory
  · obtain ⟨hplace, hnames, habove⟩ := hd.2 p hp
    exact ⟨hplace, hnames, hkept _ habove⟩

/-- Nothing lies in a file, so it can be left out. -/
theorem Sound.erase (hd : d.Sound) {contents : Contents} (h : d.file? place = some contents) :
    ({ d with nodes := d.nodes.erase place } : Disk).Sound := by
  have hnode := file?_eq_some_iff.1 h
  have hne : place ≠ [] := by
    rintro rfl
    cases hnode
  refine ⟨hd.1.sublist filter_sublist, fun p hp => ?_⟩
  obtain ⟨hplace, hnames, habove⟩ := hd.2 p (mem_filter.1 hp).1
  refine ⟨hplace, hnames, ?_⟩
  rw [node?_erase d hne, if_neg, habove]
  intro heq
  rw [heq, hnode] at habove
  cases habove

/-- Sound disks on which the same lies everywhere are the same. -/
theorem Sound.ext (hd : d.Sound) (hd' : d'.Sound) (hworking : d'.working = d.working)
    (h : ∀ place, d'.node? place = d.node? place) : d' = d := by
  have hroot {disk : Disk} (hdisk : disk.Sound) : disk.nodes.get? [] = none :=
    Keyed.get?_eq_none_iff.2 fun p hp => (hdisk.2 p hp).1
  have hnodes : d'.nodes = d.nodes := by
    refine hd'.1.ext hd.1 fun place => ?_
    by_cases hplace : place = []
    · rw [hplace, hroot hd, hroot hd']
    · have := h place
      rwa [node?, node?, if_neg hplace, if_neg hplace] at this
  cases d
  cases d'
  cases hnodes
  cases hworking
  rfl

/-! ## Following paths -/

/-- No name is too long. What is no name is never refused. -/
def Allowed (part : String) : Prop :=
  isIdle part = false → part ≠ ".." → part.utf8ByteSize ≤ Path.maxNameSize

/-- A path is followed part by part, in directories. -/
theorem walk_cons_eq_ok_iff {part : String} {parts : List String} {reached : Place} :
    d.walk place (part :: parts) = .ok reached ↔
      d.node? place = some .directory ∧ Allowed part ∧ d.walk (turn place part) parts =
        .ok reached := by
  rw [walk]
  split
  next hplace => simp [hplace]
  next hplace => simp [hplace]
  next hplace =>
    rw [turn, Allowed]
    split
    next hidle => simp [hplace, hidle]
    next hidle =>
      split
      next hup => simp [hplace, hup]
      next hup =>
        rw [enter]
        split
        next inner hinner =>
          split at hinner
          next hsize =>
            cases hinner
            simp [hplace, hsize]
          next => cases hinner
        next e he =>
          split at he
          next => cases he
          next hsize => simp [hidle, hup, hsize]

/-- A path is followed in two pieces. -/
theorem walk_append_eq_ok_iff {parts others : List String} {reached : Place} :
    d.walk place (parts ++ others) = .ok reached ↔
      ∃ between, d.walk place parts = .ok between ∧ d.walk between others = .ok reached := by
  induction parts generalizing place with
  | nil => simp [walk]
  | cons part parts ih =>
    simp only [cons_append, walk_cons_eq_ok_iff, ih, exists_and_left, and_assoc]

/-- A path leads where its text says, if it can be followed. -/
theorem walk_eq_ok {parts : List String} {reached : Place} (h : d.walk place parts = .ok reached) :
    parts.foldl turn place = reached := by
  induction parts generalizing place with
  | nil =>
    cases h
    rfl
  | cons part parts ih => exact ih (walk_cons_eq_ok_iff.1 h).2.2

/-- When something is found. -/
theorem find_eq_ok_iff {node : Node} :
    d.find path = .ok (place, node) ↔
      checkPath path = .ok () ∧ d.walk (d.start path) (segments path) = .ok place ∧
      d.node? place = some node := by
  unfold find
  cases hcheck : checkPath path with
  | error e => simp [bind, Except.bind]
  | ok u =>
    cases hwalk : d.walk (d.start path) (segments path) with
    | error e => simp [bind, Except.bind]
    | ok reached =>
      cases hnode : d.node? reached with
      | none =>
        simp only [bind, Except.bind, hnode]
        constructor
        · intro h
          cases h
        · rintro ⟨-, hreached, hplace⟩
          cases hreached
          rw [hnode] at hplace
          cases hplace
      | some node' =>
        simp only [bind, Except.bind, hnode]
        constructor
        · intro h
          cases h
          exact ⟨trivial, rfl, hnode⟩
        · rintro ⟨-, hreached, hplace⟩
          cases hreached
          rw [hnode] at hplace
          cases hplace
          rfl

/-- What is found lies where the path leads. -/
theorem find_target {node : Node} (h : d.find path = .ok (place, node)) : d.target path = place :=
  walk_eq_ok (find_eq_ok_iff.1 h).2.1

/-! ## Directories stay -/

/-- Directories are still there, and paths start alike. -/
structure Keeps (d d' : Disk) : Prop where
  working : d'.working = d.working
  directory : ∀ place, d.node? place = some .directory → d'.node? place = some .directory

/-- All is still there. -/
theorem Keeps.refl (d : Disk) : Keeps d d := ⟨rfl, fun _ h => h⟩

/-- And so it is after two steps. -/
theorem Keeps.trans (h : Keeps d d') (h' : Keeps d' d'') : Keeps d d'' :=
  ⟨h'.working.trans h.working, fun place hplace => h'.directory place (h.directory place hplace)⟩

/-- Paths start as before. -/
theorem Keeps.start (h : Keeps d d') (path : String) : d'.start path = d.start path := by
  rw [Disk.start, Disk.start, h.working]

/-- Paths lead where they led. -/
theorem Keeps.target (h : Keeps d d') (path : String) : d'.target path = d.target path := by
  rw [Disk.target, Disk.target, h.start]

/-- What could be followed can still be followed. -/
theorem Keeps.walk (h : Keeps d d') {parts : List String} {reached : Place}
    (hwalk : d.walk place parts = .ok reached) : d'.walk place parts = .ok reached := by
  induction parts generalizing place with
  | nil => exact hwalk
  | cons part parts ih =>
    obtain ⟨hplace, hpart, hrest⟩ := walk_cons_eq_ok_iff.1 hwalk
    exact walk_cons_eq_ok_iff.2 ⟨h.directory _ hplace, hpart, ih hrest⟩

/-- What was found is still found, if it is still there. -/
theorem Keeps.find (h : Keeps d d') {node node' : Node} (hfind : d.find path = .ok (place, node))
    (hnode : d'.node? place = some node') : d'.find path = .ok (place, node') := by
  obtain ⟨hpath, hwalk, -⟩ := find_eq_ok_iff.1 hfind
  exact find_eq_ok_iff.2 ⟨hpath, h.start path ▸ h.walk hwalk, hnode⟩

/-! ## Reading -/

/-- A directory is found as such. -/
theorem isDirectory_iff :
    d.isDirectory path = true ↔ d.find path = .ok (d.target path, .directory) := by
  unfold isDirectory
  split
  next found hfind =>
    rw [hfind, find_target hfind]
    simp
  next hfind =>
    constructor
    · intro h
      cases h
    · intro h
      exact absurd h (hfind _)

/-- It has a path. -/
theorem ne_empty_of_isDirectory (h : d.isDirectory path = true) : path ≠ "" := by
  rintro rfl
  obtain ⟨hpath, -, -⟩ := find_eq_ok_iff.1 (isDirectory_iff.1 h)
  exact absurd hpath (by decide)

/-- It stays one. -/
theorem Keeps.isDirectory (h : Keeps d d') (hpath : d.isDirectory path = true) :
    d'.isDirectory path = true := by
  rw [isDirectory_iff] at hpath ⊢
  rw [h.target path]
  exact h.find hpath (h.directory _ (find_eq_ok_iff.1 hpath).2.2)

/-- A file is read where its path leads. -/
theorem read_eq_ok_iff {text : String} :
    d.read path = .ok text ↔ d.find path = .ok (d.target path, .file (.text text)) := by
  unfold read
  cases hfind : d.find path with
  | error e => simp [bind, Except.bind]
  | ok found =>
    obtain ⟨place, node⟩ := found
    obtain rfl := find_target hfind
    match node with
    | .directory => simp [bind, Except.bind, throw, throwThe, MonadExceptOf.throw]
    | .file (.binary bytes) => simp [bind, Except.bind, throw, throwThe, MonadExceptOf.throw]
    | .file (.text s) => simp [bind, Except.bind, pure, Except.pure]

/-- A file that was read is read again as it is now. -/
theorem Keeps.read (h : Keeps d d') {text text' : String} (hread : d.read path = .ok text)
    (hfile : d'.file? (d.target path) = some (.text text')) : d'.read path = .ok text' := by
  rw [read_eq_ok_iff] at hread ⊢
  rw [h.target path]
  exact h.find hread (file?_eq_some_iff.1 hfile)

/-- It has the text that is read. -/
theorem file?_of_read {text : String} (h : d.read path = .ok text) :
    d.file? (d.target path) = some (.text text) :=
  file?_eq_some_iff.2 (find_eq_ok_iff.1 (read_eq_ok_iff.1 h)).2.2

/-! ## Listing -/

/-- The names that lead from a place to a file. -/
def filesFrom (d : Disk) (place : Place) : List Place :=
  (d.below place).filterMap fun (names, node) =>
    match node with
    | .file _ => some names
    | .directory => none

/-- The files below a directory. -/
theorem filesBelow_of_isDirectory (h : d.isDirectory path = true) :
    d.filesBelow path = d.filesFrom (d.target path) := by
  rw [filesBelow, isDirectory_iff.1 h]
  rfl

/-- Below anything else there are none. -/
theorem filesBelow_of_not_isDirectory (h : d.isDirectory path = false) :
    d.filesBelow path = [] := by
  unfold filesBelow
  split
  next place hfind =>
    rw [isDirectory, hfind] at h
    cases h
  next => rfl

/-- What is below goes on from the place. -/
theorem exists_of_below {other : Place} {node : Node} {p : Place × Node}
    (h : (if place.isPrefixOf other && place.length < other.length then
      some (other.drop place.length, node) else none)
      = some p) : p.1 ≠ [] ∧ other = place ++ p.1 ∧ node = p.2 := by
  split at h
  next hcond =>
    cases h
    rw [Bool.and_eq_true, isPrefixOf_iff_prefix, decide_eq_true_eq] at hcond
    obtain ⟨⟨names, rfl⟩, hlength⟩ := hcond
    rw [length_append] at hlength
    have hne : names ≠ [] := length_pos_iff.1 (by omega)
    rw [drop_left]
    exact ⟨hne, rfl, rfl⟩
  next => cases h

/-- What lies below a place. -/
theorem mem_below (hd : d.Sound) {names : Place} {node : Node} :
    (names, node) ∈ d.below place ↔ names ≠ [] ∧ d.node? (place ++ names) = some node := by
  rw [below, mem_filterMap]
  constructor
  · rintro ⟨⟨other, node'⟩, hmem, hother⟩
    obtain ⟨hne, rfl, rfl⟩ := exists_of_below hother
    refine ⟨hne, ?_⟩
    rw [node?, if_neg (append_ne_nil_of_right_ne_nil _ hne), hd.ordered.mem_iff.1 hmem]
  · rintro ⟨hne, hnode⟩
    rw [node?, if_neg (append_ne_nil_of_right_ne_nil _ hne)] at hnode
    refine ⟨_, hd.ordered.mem_iff.2 hnode, ?_⟩
    dsimp only
    rw [if_pos, drop_left]
    simpa using length_pos_iff.2 hne

/-- The files below a place are listed by their names. -/
theorem mem_filesFrom (hd : d.Sound) {names : Place} :
    names ∈ d.filesFrom place ↔ names ≠ [] ∧ ∃ contents, d.file? (place ++ names) =
      some contents := by
  simp only [filesFrom, mem_filterMap, Prod.exists, file?_eq_some_iff]
  constructor
  · rintro ⟨other, node, hmem, hnames⟩
    cases node with
    | directory => cases hnames
    | file contents =>
      cases hnames
      obtain ⟨hne, hnode⟩ := (mem_below hd).1 hmem
      exact ⟨hne, contents, hnode⟩
  · rintro ⟨hne, contents, hnode⟩
    exact ⟨names, .file contents, (mem_below hd).2 ⟨hne, hnode⟩, rfl⟩

/-- Common fronts do not matter for the order. -/
theorem lt_of_append_lt {names names' : Place} (h : place ++ names < place ++ names') :
    names < names' := by
  induction place with
  | nil => exact h
  | cons part place ih => exact ih (by simpa using h)

/-- Files are listed in the order of their places. -/
theorem pairwise_filesFrom (hd : d.Sound) (place : Place) :
    (d.filesFrom place).Pairwise (· < ·) := by
  have hbelow : (d.below place).Pairwise fun p q => p.1 < q.1 := by
    rw [below, pairwise_filterMap]
    refine List.Pairwise.imp ?_ hd.ordered
    rintro ⟨k, node⟩ ⟨k', node'⟩ hlt p hp p' hp'
    obtain ⟨-, rfl, -⟩ := exists_of_below hp
    obtain ⟨-, rfl, -⟩ := exists_of_below hp'
    exact lt_of_append_lt hlt
  rw [filesFrom, pairwise_filterMap]
  refine hbelow.imp ?_
  rintro ⟨names, node⟩ ⟨names', node'⟩ hlt b hb b' hb'
  cases node with
  | directory => cases hb
  | file contents =>
    cases node' with
    | directory => cases hb'
    | file contents' =>
      cases hb
      cases hb'
      exact hlt

/-- Where the same files lie below a place, the same is listed. -/
theorem filesFrom_congr (hd : d.Sound) (hd' : d'.Sound)
    (h : ∀ names, d'.file? (place ++ names) = d.file? (place ++ names)) :
    d'.filesFrom place = d.filesFrom place := by
  have hirrefl : Std.Irrefl fun p q : Place => p < q := ⟨fun _ => Std.lt_irrefl⟩
  have hantisymm : Std.Antisymm fun p q : Place => p < q :=
    ⟨fun _ _ hlt hlt' => absurd hlt' (Std.not_gt_of_lt hlt)⟩
  refine List.Pairwise.eq_of_mem_iff (pairwise_filesFrom hd' place) (pairwise_filesFrom hd place)
    fun names => ?_
  rw [mem_filesFrom hd', mem_filesFrom hd, h]

/-- The names of the files in a directory are listed. -/
theorem mem_fileNames (hd : d.Sound) {name : String} :
    name ∈ d.fileNames path ↔
      d.isDirectory path = true ∧ ∃ contents, d.file? (d.target path ++ [name]) =
        some contents := by
  have hone : name ∈ d.fileNames path ↔ [name] ∈ d.filesBelow path := by
    rw [fileNames, mem_filterMap]
    constructor
    · rintro ⟨names, hmem, hnames⟩
      split at hnames
      next => cases hnames; exact hmem
      next => cases hnames
    · intro hmem
      exact ⟨[name], hmem, rfl⟩
  rw [hone]
  cases hpath : d.isDirectory path with
  | false => simp [filesBelow_of_not_isDirectory hpath]
  | true => simp [filesBelow_of_isDirectory hpath, mem_filesFrom hd]

end ComputeKernel.Disk
