import Mathlib.Data.List.Infix
import ComputeKernel.Command.Run
import ComputeKernel.Proofs.Project.Search

/-!
# The nearest project

The search for the project of a directory goes by the text of a path. Each front of the path leads
to a place, and these are the places that the search comes by, from the end of the path to its start
(`Disk.passed`). Without `..` they are the directory itself and those above it, as far as the path
starts (`Disk.above_append`): what lies above the working directory is out of reach of a relative
path. A path near the largest size leaves no room for the name of the project file, so that the
first places are not seen.
-/

namespace ComputeKernel

open Project

namespace Disk

open ComputeKernel.Path (IsName join meant segments hasZero maxSize parent?)

variable {d : Disk} {path : String} {place : Place}

/-! ## Places with a project -/

/-- Whether a project file lies at a place. -/
def hasProject (d : Disk) (place : Place) : Bool := (d.node? (place ++ [fileName])).isSome

/-- A place and those above it, up to the root. -/
def above (place : Place) : List Place := place.inits.reverse

/-- The closest place with a project file, at a place or above it. -/
def nearest? (d : Disk) (place : Place) : Option Place := (above place).find? d.hasProject

/-- An answer that names the project file at a place, if there is one. -/
def Shows (d : Disk) (answer : Option String) : Option Place → Prop
  | none => answer = none
  | some place => ∃ path node, answer = some path ∧ d.find path = .ok (place ++ [fileName], node)

/-- An answer shows one place. -/
theorem Shows.unique {answer : Option String} {found other : Option Place}
    (h : d.Shows answer found) (hother : d.Shows answer other) : found = other := by
  cases found with
  | none =>
    cases other with
    | none => rfl
    | some place =>
      obtain ⟨path, node, hanswer, -⟩ := hother
      exact absurd (hanswer.symm.trans h) (Option.some_ne_none path)
  | some place =>
    obtain ⟨path, node, rfl, hfind⟩ := h
    cases other with
    | none => cases hother
    | some place' =>
      obtain ⟨path', node', hpath, hfind'⟩ := hother
      cases hpath
      have hplace := (Prod.mk.inj (Except.ok.inj (hfind.symm.trans hfind'))).1
      rw [List.append_cancel_right hplace]

/-- What lies above a name. -/
theorem above_concat (place : Place) (name : String) :
    above (place ++ [name]) = (place ++ [name]) :: above place := by
  simp [above, List.inits_append]

/-- The place itself comes first. -/
theorem above_eq_cons (place : Place) : ∃ outer, above place = place :: outer := by
  rcases List.eq_nil_or_concat' place with rfl | ⟨outer, name, rfl⟩
  · exact ⟨[], rfl⟩
  · exact ⟨_, above_concat outer name⟩

/-- They are the fronts of the place. -/
theorem mem_above {other : Place} : other ∈ above place ↔ other <+: place := by
  rw [above, List.mem_reverse, List.mem_inits]

/-- None comes twice. -/
theorem nodup_above (place : Place) : (above place).Nodup := by
  induction place using List.reverseRecOn with
  | nil => exact List.nodup_singleton []
  | append_singleton place name ih =>
    rw [above_concat, List.nodup_cons, mem_above]
    refine ⟨fun h => ?_, ih⟩
    have hlength := h.length_le
    rw [List.length_append, List.length_singleton] at hlength
    omega

/-- Above where names lead are the places on the way, then those above the start. -/
theorem above_append (base names : Place) :
    above (base ++ names) = (above names).map (base ++ ·) ++ (above base).tail := by
  induction names using List.reverseRecOn with
  | nil =>
    obtain ⟨outer, houter⟩ := above_eq_cons base
    rw [List.append_nil, houter]
    simp [above]
  | append_singleton names name ih =>
    rw [← List.append_assoc, above_concat, ih, above_concat, List.map_cons, List.append_assoc,
      List.cons_append]

/-! ## Directories on the way -/

/-- A path that leads to a directory, by what is meant. -/
def Reaches (d : Disk) (path : String) (place : Place) : Prop :=
  d.walk (d.start path) (meant (segments path)) = .ok place ∧ d.node? place = some .directory

/-- What leads to a directory starts in one. -/
theorem directory_of_walk {parts : List String} {reached : Place}
    (h : d.walk place parts = .ok reached) (hreached : d.node? reached = some .directory) :
    d.node? place = some .directory := by
  cases parts with
  | nil =>
    cases h
    exact hreached
  | cons part parts => exact (walk_cons_eq_ok_iff.1 h).1

/-- Idle parts do not count on the way to a directory. -/
theorem walk_meant_eq_ok_iff {parts : List String} {reached : Place}
    (hreached : d.node? reached = some .directory) :
    d.walk place (meant parts) = .ok reached ↔ d.walk place parts = .ok reached := by
  induction parts generalizing place with
  | nil => exact Iff.rfl
  | cons part parts ih =>
    rw [meant, List.filter_cons]
    split
    next =>
      rw [walk_cons_eq_ok_iff, walk_cons_eq_ok_iff]
      exact and_congr_right fun _ => and_congr_right fun _ => ih
    next hpart =>
      have hidle : Path.isIdle part = true := by simpa using hpart
      rw [walk_cons_eq_ok_iff, turn_of_isIdle hidle]
      refine ih.trans ⟨fun h => ⟨directory_of_walk h hreached, fun hactive => ?_, h⟩,
        fun h => h.2.2⟩
      rw [hidle] at hactive
      cases hactive

/-- A directory that is found is reached. -/
theorem reaches_of_find (h : d.find path = .ok (place, .directory)) : d.Reaches path place := by
  obtain ⟨-, hwalk, hnode⟩ := find_eq_ok_iff.1 h
  exact ⟨(walk_meant_eq_ok_iff hnode).2 hwalk, hnode⟩

/-- A name after a path lies in the directory that the path leads to. -/
theorem Reaches.find_join (h : d.Reaches path place) {name : String} (hname : IsName name)
    (hsize : name.utf8ByteSize ≤ Path.maxNameSize) {found : Place} {node : Node} :
    d.find (join path name) = .ok (found, node) ↔
      checkPath (join path name) = .ok () ∧ place ++ [name] = found ∧ d.node? (place ++ [name]) =
        some node := by
  obtain ⟨parts, hpath, hjoin, hroot⟩ := Path.exists_segments_join path hname.1
  have hstart : d.start (join path name) = d.start path := by rw [start, start, hroot]
  have hmeant : meant (segments path) = meant parts := by
    rcases hpath with hpath | hpath
    · rw [hpath]
    · rw [hpath, meant, List.filter_append]
      exact List.append_nil _
  have hwalk : d.walk (d.start path) (parts ++ [name]) = .ok (place ++ [name]) := by
    refine walk_append_eq_ok_iff.2 ⟨place, (walk_meant_eq_ok_iff h.2).1 (hmeant ▸ h.1), ?_⟩
    refine walk_cons_eq_ok_iff.2 ⟨h.2, fun _ _ => hsize, ?_⟩
    rw [turn_name hname]
    rfl
  rw [find_eq_ok_iff, hstart, hjoin, hwalk]
  refine and_congr_right fun _ => ⟨?_, ?_⟩
  · rintro ⟨hfound, hnode⟩
    cases hfound
    exact ⟨rfl, hnode⟩
  · rintro ⟨rfl, hnode⟩
    exact ⟨rfl, hnode⟩

/-! ## Places that are passed -/

/-- The places that a path passes, from its end. -/
def passed (d : Disk) (path : String) : List Place :=
  (above (meant (segments path))).map fun parts => parts.foldl turn (d.start path)

/-- The last place comes first. -/
theorem Reaches.passed_eq (h : d.Reaches path place) :
    ∃ others, d.passed path = place :: others := by
  obtain ⟨fronts, hfronts⟩ := above_eq_cons (meant (segments path))
  refine ⟨fronts.map fun parts => parts.foldl turn (d.start path), ?_⟩
  rw [passed, hfronts, List.map_cons, walk_eq_ok h.1]

/-- The parent of a path passes the same places but the last, unless there are only `.` in it. -/
theorem Reaches.parent (h : d.Reaches path place) {up : String} (hup : parent? path = some up) :
    (∃ outer, d.Reaches up outer) ∧
    (d.passed path = d.passed up ∨ d.passed path = place :: d.passed up) := by
  obtain ⟨hroot, hmeant⟩ := Path.meant_parent? hup
  have hstart : d.start up = d.start path := by rw [start, start, hroot]
  rcases List.eq_nil_or_concat' (meant (segments path)) with hnil | ⟨front, last, hconcat⟩
  · have hsame : meant (segments up) = meant (segments path) := by
      rw [hmeant, hnil]
      rfl
    refine ⟨⟨place, ?_⟩, .inl ?_⟩
    · rw [Reaches, hstart, hsame]
      exact h
    · rw [passed, passed, hstart, hsame]
  · rw [hconcat, List.dropLast_concat] at hmeant
    obtain ⟨hwalk, hplace⟩ := h
    have hend := walk_eq_ok hwalk
    rw [hconcat] at hend
    rw [hconcat, walk_append_eq_ok_iff] at hwalk
    obtain ⟨outer, hfront, hlast⟩ := hwalk
    refine ⟨⟨outer, ?_⟩, .inr ?_⟩
    · rw [Reaches, hstart, hmeant]
      exact ⟨hfront, directory_of_walk hlast hplace⟩
    · rw [passed, passed, hstart, hmeant, hconcat, above_concat, List.map_cons, hend]

/-- Without a parent there is no other. -/
theorem Reaches.passed_of_parent?_eq_none (h : d.Reaches path place) (hup : parent? path = none) :
    d.passed path = [place] := by
  obtain ⟨hwalk, -⟩ := h
  have hend := walk_eq_ok hwalk
  rw [Path.meant_of_parent?_eq_none hup] at hend
  rw [passed, Path.meant_of_parent?_eq_none hup, ← hend]
  rfl

/-- Without `..`, a path passes the places from its end to its start. -/
theorem passed_of_not_mem (h : ".." ∉ segments path) :
    d.target path = d.start path ++ meant (segments path) ∧
      d.passed path = (above (meant (segments path))).map (d.start path ++ ·) := by
  have hfold (parts : List String) (hparts : parts <+: meant (segments path)) :
      parts.foldl turn (d.start path) = d.start path ++ parts := by
    induction parts using List.reverseRecOn with
    | nil => rw [List.foldl_nil, List.append_nil]
    | append_singleton parts part ih =>
      have hpart : part ∈ meant (segments path) := hparts.subset (by simp)
      obtain ⟨hmem, hidle⟩ := List.mem_filter.1 hpart
      have hup : part ≠ ".." := fun hup => h (hup ▸ hmem)
      rw [List.foldl_append, ih ((List.prefix_append _ _).trans hparts), List.foldl_cons,
        List.foldl_nil, turn, if_neg (by simpa using hidle), if_neg hup, List.append_assoc]
  refine ⟨?_, List.map_congr_left fun parts hparts => hfold parts (mem_above.1 hparts)⟩
  rw [target, ← foldl_turn_meant, hfold _ (List.prefix_refl _)]

/-! ## Room for the project file -/

/-- The project file has a name. -/
theorem isName_fileName : IsName fileName := by decide

/-- When a path is in order. -/
theorem checkPath_eq_ok_iff :
    checkPath path = .ok () ↔ hasZero path = false ∧ path ≠ "" ∧ path.utf8ByteSize ≤ maxSize := by
  rw [checkPath]
  split
  next hzero => simp [hzero]
  next hzero =>
    split
    next hempty => simp [String.isEmpty_iff.1 hempty]
    next hempty =>
      have hne : path ≠ "" := fun hnil => hempty (String.isEmpty_iff.2 hnil)
      split
      next hsize => simp [hzero, hne, hsize]
      next hsize => simp [hsize]

/-- Where a zero is in two texts. -/
theorem hasZero_append (front rest : String) :
    hasZero (front ++ rest) = (hasZero front || hasZero rest) := by
  simp [hasZero, List.contains_eq_mem, Bool.decide_or]

/-- Between a path and the project file is at most a separator. -/
theorem join_fileName (path : String) :
    ∃ between, (between = "" ∨ between = "/") ∧
      join path fileName = path ++ between ++ fileName := by
  rw [join, if_neg (by rw [Path.isAbsolute_of_not_mem isName_fileName.1]; decide)]
  split
  next => exact ⟨"", .inl rfl, by rw [String.append_empty]⟩
  next => exact ⟨"/", .inr rfl, rfl⟩

/-- A path to the project file is refused only for its size. -/
theorem checkPath_join (hzero : hasZero path = false) :
    checkPath (join path fileName) = .ok () ↔
      (join path fileName).utf8ByteSize ≤ maxSize := by
  rw [checkPath_eq_ok_iff]
  obtain ⟨between, hbetween, hjoin⟩ := join_fileName path
  have hzero' : hasZero (join path fileName) = false := by
    rw [hjoin, hasZero_append, hasZero_append, hzero]
    rcases hbetween with rfl | rfl
    · decide
    · decide
  have hne : join path fileName ≠ "" := by
    rw [hjoin, ne_eq, String.append_eq_empty_iff]
    exact fun h => absurd h.2 (by decide)
  simp [hzero', hne]

/-- The bytes by which a path is too long for the project file after it. -/
def excess (path : String) : Nat := (path ++ "/" ++ fileName).utf8ByteSize - maxSize

/-- The size with the project file. -/
theorem size_join (path : String) :
    path.utf8ByteSize + 9 ≤ (join path fileName).utf8ByteSize ∧
      (join path fileName).utf8ByteSize ≤ path.utf8ByteSize + 10 := by
  have hname : Project.fileName.utf8ByteSize = 9 := rfl
  obtain ⟨between, hbetween, hjoin⟩ := join_fileName path
  rw [hjoin, String.utf8ByteSize_append, String.utf8ByteSize_append, hname]
  rcases hbetween with rfl | rfl
  · rw [String.utf8ByteSize_empty]
    omega
  · have hone : "/".utf8ByteSize = 1 := rfl
    omega

/-- The excess by the size. -/
theorem excess_eq (path : String) : excess path = path.utf8ByteSize + 10 - maxSize := by
  have hname : Project.fileName.utf8ByteSize = 9 := rfl
  have hone : "/".utf8ByteSize = 1 := rfl
  rw [excess, String.utf8ByteSize_append, String.utf8ByteSize_append, hname, hone]

/-! ## The search -/

/-- What a search sees: all places that the path passes, apart from some at its end where the
project file has no room. The answer is the first project file there. -/
structure Search (d : Disk) (path : String) (answer : Option String) (unseen seen : List Place) :
    Prop where
  passed : d.passed path = unseen ++ seen
  room : unseen.length ≤ excess path
  shows : d.Shows answer (seen.find? d.hasProject)

/-- A project file that is seen is there. -/
theorem Reaches.exists_node_of_has (h : d.Reaches path place)
    (hhas : d.has (join path fileName) = true) :
    ∃ node, d.find (join path fileName) = .ok (place ++ [fileName], node) := by
  rw [has] at hhas
  cases hfind : d.find (join path fileName) with
  | error e =>
    rw [hfind] at hhas
    cases hhas
  | ok found =>
    obtain ⟨found, node⟩ := found
    obtain ⟨-, rfl, -⟩ := (h.find_join isName_fileName (by decide)).1 hfind
    exact ⟨node, rfl⟩

/-- A project file that has room is not overlooked. -/
theorem Reaches.has_join (h : d.Reaches path place) (hzero : hasZero path = false)
    (hroom : (join path fileName).utf8ByteSize ≤ maxSize) (hplace : d.hasProject place = true) :
    d.has (join path fileName) = true := by
  obtain ⟨node, hnode⟩ := Option.isSome_iff_exists.1 hplace
  rw [has, (h.find_join isName_fileName (by decide)).2 ⟨(checkPath_join hzero).2 hroom, rfl, hnode⟩]
  rfl

/-- A search that has found nothing goes on from the parent. -/
theorem Search.of_parent {up : String} {answer : Option String} {unseen seen : List Place}
    (h : d.Search up answer unseen seen)
    (hpassed : d.passed path = d.passed up ∨ d.passed path = place :: d.passed up)
    (hsize : up.utf8ByteSize < path.utf8ByteSize)
    (hplace : (join path fileName).utf8ByteSize ≤ maxSize → d.hasProject place = false) :
    ∃ unseen seen, d.Search path answer unseen seen := by
  obtain ⟨hjoin, hjoin'⟩ := size_join path
  have hroom := h.room
  rw [excess_eq] at hroom
  rcases hpassed with hpassed | hpassed
  · refine ⟨unseen, seen, hpassed.trans h.passed, ?_, h.shows⟩
    rw [excess_eq]
    omega
  rw [h.passed] at hpassed
  by_cases hfits : (join path fileName).utf8ByteSize ≤ maxSize
  · -- The parent leaves more room, so the search sees all that follows.
    obtain rfl : unseen = [] := List.length_eq_zero_iff.1 (by omega)
    refine ⟨[], place :: seen, hpassed, Nat.zero_le _, ?_⟩
    rw [List.find?_cons_of_neg (by simp [hplace hfits])]
    exact h.shows
  · refine ⟨place :: unseen, seen, hpassed, ?_, h.shows⟩
    rw [excess_eq, List.length_cons]
    omega

/-- A search ends without a parent. -/
theorem search_of_parent?_eq_none (h : d.Reaches path place) (hup : parent? path = none)
    (hplace : (join path fileName).utf8ByteSize ≤ maxSize → d.hasProject place = false) :
    ∃ unseen seen, d.Search path none unseen seen := by
  have hpassed := h.passed_of_parent?_eq_none hup
  obtain ⟨hjoin, hjoin'⟩ := size_join path
  by_cases hfits : (join path fileName).utf8ByteSize ≤ maxSize
  · refine ⟨[], [place], hpassed, Nat.zero_le _, ?_⟩
    rw [List.find?_cons_of_neg (by simp [hplace hfits])]
    rfl
  · refine ⟨[place], [], hpassed, ?_, rfl⟩
    rw [excess_eq, List.length_singleton]
    omega

/-- The search comes by the places in their order. -/
theorem exists_search {fuel : Nat} (hfuel : path.length < fuel) (hpath : d.Reaches path place)
    (hzero : hasZero path = false) :
    ∃ answer, (findFrom fuel path : StateM Disk _) d = (answer, d) ∧
      ∃ unseen seen, d.Search path answer unseen seen := by
  induction fuel generalizing path place with
  | zero => exact absurd hfuel (Nat.not_lt_zero _)
  | succ fuel ih =>
    rw [findFrom_succ]
    split
    next hhas =>
      obtain ⟨node, hfind⟩ := hpath.exists_node_of_has hhas
      obtain ⟨others, hpassed⟩ := hpath.passed_eq
      have hplace : d.hasProject place = true :=
        Option.isSome_iff_exists.2 ⟨node, (find_eq_ok_iff.1 hfind).2.2⟩
      refine ⟨_, rfl, [], place :: others, hpassed, Nat.zero_le _, ?_⟩
      rw [List.find?_cons_of_pos hplace]
      exact ⟨_, node, rfl, hfind⟩
    next hhas =>
      have hplace (hroom : (join path fileName).utf8ByteSize ≤ maxSize) :
          d.hasProject place = false :=
        Bool.eq_false_iff.2 fun h => hhas (hpath.has_join hzero hroom h)
      cases hup : parent? path with
      | none => exact ⟨none, rfl, search_of_parent?_eq_none hpath hup hplace⟩
      | some up =>
        obtain ⟨⟨outer, houter⟩, hpassed⟩ := hpath.parent hup
        obtain ⟨rest, hrest, rfl⟩ := Path.exists_parent?_append hup
        have hzero' : hasZero up = false := by
          rw [hasZero_append, Bool.or_eq_false_iff] at hzero
          exact hzero.1
        have hlength : up.length < fuel := by
          have := String.length_eq_zero_iff.not.2 hrest
          rw [String.length_append] at hfuel
          omega
        obtain ⟨answer, hrun, unseen, seen, hsearch⟩ := ih hlength houter hzero'
        refine ⟨answer, hrun, hsearch.of_parent hpassed ?_ hplace⟩
        have := String.utf8ByteSize_eq_zero_iff.not.2 hrest
        rw [String.utf8ByteSize_append]
        omega

/-- The first place with a project is the first in a part with it. -/
theorem find?_of_mem_middle {front middle back : List Place}
    (hnodup : (front ++ middle ++ back).Nodup)
    (h : (front ++ middle ++ back).find? d.hasProject = some place) (hplace : place ∈ middle) :
    middle.find? d.hasProject = some place := by
  have hfront : front.find? d.hasProject = none := by
    cases hfound : front.find? d.hasProject with
    | none => rfl
    | some other =>
      rw [List.append_assoc, List.find?_append, hfound] at h
      obtain rfl : other = place := Option.some.inj h
      have hdisjoint := List.disjoint_of_nodup_append hnodup.of_append_left
      exact absurd hplace (hdisjoint (List.mem_of_find?_eq_some hfound))
  have hproject : d.hasProject place = true := List.find?_some h
  rw [List.append_assoc, List.find?_append, hfront, Option.none_or, List.find?_append] at h
  cases hfound : middle.find? d.hasProject with
  | none => exact absurd hproject (List.find?_eq_none.1 hfound place hplace)
  | some other =>
    rw [hfound] at h
    exact h

end Disk

open Disk

/-- The search for the project of a directory gives the first project file that it sees. It sees the
places that the path passes, which are not all above the directory if there is a `..` in the path.
Without one they are the directory and the places above it, as far as the place that the path starts
from, and so the nearest project is found exactly if it lies there and is seen. -/
theorem find?_shows_nearest_iff {d : Disk} {path : String} {place : Place}
    (h : d.find path = .ok (place, .directory)) :
    ∃ answer unseen seen, (find? path : StateM Disk _) d = (answer, d) ∧
      d.Search path answer unseen seen ∧
      (".." ∉ Path.segments path →
        (∀ other, other <+: place → (other ∈ d.passed path ↔ d.start path <+: other)) ∧
        (d.Shows answer (d.nearest? place) ↔ ∀ other, d.nearest? place = some other →
        other ∈ seen)) := by
  have hzero : Path.hasZero path = false := (checkPath_eq_ok_iff.1 (find_eq_ok_iff.1 h).1).1
  obtain ⟨answer, hrun, unseen, seen, hsearch⟩ :=
    exists_search (Nat.lt_succ_self _) (reaches_of_find h) hzero
  refine ⟨answer, unseen, seen, hrun, hsearch, fun hup => ?_⟩
  obtain ⟨htarget, hpassed⟩ := passed_of_not_mem hup
  rw [find_target h] at htarget
  have habove : above place = unseen ++ seen ++ (above (d.start path)).tail := by
    rw [htarget, above_append, ← hpassed, hsearch.passed]
  refine ⟨fun other hother => ?_, fun hshows other hother => ?_, fun hseen => ?_⟩
  · rw [hpassed, List.mem_map]
    constructor
    · rintro ⟨parts, -, rfl⟩
      exact List.prefix_append _ _
    · rintro ⟨parts, rfl⟩
      rw [htarget] at hother
      exact ⟨parts, mem_above.2 ((List.prefix_append_right_inj _).1 hother), rfl⟩
  · rw [hother] at hshows
    exact List.mem_of_find?_eq_some (hsearch.shows.unique hshows)
  · have hsame : seen.find? d.hasProject = d.nearest? place := by
      cases hnearest : d.nearest? place with
      | none =>
        rw [nearest?, List.find?_eq_none, habove] at hnearest
        refine List.find?_eq_none.2 fun other hother => hnearest other ?_
        exact List.mem_append_left _ (List.mem_append_right _ hother)
      | some other =>
        have hmem := hseen other hnearest
        rw [nearest?, habove] at hnearest
        exact find?_of_mem_middle (habove ▸ nodup_above place) hnearest hmem
    rw [← hsame]
    exact hsearch.shows

namespace Camp

/-- A project with a directory in it, which paths start from. -/
def disk : Disk where
  nodes := [(["p"], .directory), (["p", "rspu.toml"], .file (.text "")), (["p", "sub"], .directory)]
  working := ["p", "sub"]

end Camp

/-- The project is found from a directory in it. -/
theorem find?_from_root :
    Camp.disk.find "/p/./sub/" = .ok (["p", "sub"], .directory) ∧
      ∃ answer, (find? "/p/./sub/" : StateM Disk _) Camp.disk = (answer, Camp.disk) ∧
        Camp.disk.Shows answer (some ["p"]) := by
  have hfind : Camp.disk.find "/p/./sub/" = .ok (["p", "sub"], .directory) := by decide +kernel
  have hnearest : Camp.disk.nearest? ["p", "sub"] = some ["p"] := by decide +kernel
  obtain ⟨answer, unseen, seen, hrun, hsearch, hseen⟩ := find?_shows_nearest_iff hfind
  obtain ⟨-, hiff⟩ := hseen (by decide +kernel)
  rw [hnearest] at hiff
  have hroom : excess "/p/./sub/" = 0 := by decide +kernel
  obtain rfl : unseen = [] := List.length_eq_zero_iff.1 (Nat.le_zero.1 (hroom ▸ hsearch.room))
  have hpassed : Camp.disk.passed "/p/./sub/" = [["p", "sub"], ["p"], []] := by decide +kernel
  obtain rfl : seen = [["p", "sub"], ["p"], []] := hsearch.passed.symm.trans hpassed
  refine ⟨hfind, answer, hrun, hiff.2 fun other hother => ?_⟩
  cases hother
  decide

/-- The project above the working directory is not found from `.`, where it is looked for when no
directory is given. And `..` does not end the search in a directory that the path leaves. -/
theorem find?_of_dots :
    Camp.disk.find "." = .ok (["p", "sub"], .directory) ∧ Camp.disk.nearest? ["p", "sub"] =
      some ["p"] ∧ (find? "." : StateM Disk _) Camp.disk = (none, Camp.disk) ∧
      (Command.sync none : StateM Disk _) Camp.disk =
        (.failed ["error: no rspu.toml found in '.' or its ancestors"], Camp.disk) ∧
      Camp.disk.find "/p/.." = .ok ([], .directory) ∧ Camp.disk.nearest? [] = none ∧
      (find? "/p/.." : StateM Disk _) Camp.disk = (some "/p/rspu.toml", Camp.disk) := by
  refine ⟨by decide +kernel, by decide +kernel, ?_, ?_, by decide +kernel, by decide +kernel, ?_⟩
  · change @Eq (Option String × Disk) _ _
    decide +kernel
  · change @Eq (Command.Finish × Disk) _ _
    decide +kernel
  · change @Eq (Option String × Disk) _ _
    decide +kernel

end ComputeKernel
