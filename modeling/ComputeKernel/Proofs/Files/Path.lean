import Mathlib.Data.List.DropRight
import ComputeKernel.Files.Path

/-!
# Parts of paths

Cutting a text at its separators and putting parts together again undo one another
(`Text.split_intercalate`). So the parts of a path that is written after another one are those of
both (`Path.exists_segments_join`), and the parent of a path has the parts in front of the last one
that stands for something (`Path.meant_parent?`). Its text is the front of the path
(`Path.exists_parent?_append`).
-/

namespace ComputeKernel

open List
open Text

namespace Text

variable {separator : Char}

/-! ## Cutting texts -/

/-- There is always a part. -/
theorem split_ne_nil (separator : Char) (cs : List Char) : split separator cs ≠ [] := by
  induction cs with
  | nil => exact cons_ne_nil _ _
  | cons c cs ih =>
    rw [split]
    split
    · exact cons_ne_nil _ _
    · split <;> exact cons_ne_nil _ _

/-- A separator cuts a text. -/
theorem split_append (separator : Char) (cs ds : List Char) :
    split separator (cs ++ separator :: ds) = split separator cs ++ split separator ds := by
  induction cs with
  | nil => simp [split]
  | cons c cs ih =>
    rw [cons_append, split, split]
    split
    · rw [ih, cons_append]
    · cases hcs : split separator cs with
      | nil => exact absurd hcs (split_ne_nil separator cs)
      | cons part parts => simp [ih, hcs]

/-- A text without separators is one part. -/
theorem split_of_not_mem {cs : List Char} (h : separator ∉ cs) : split separator cs = [cs] := by
  induction cs with
  | nil => rfl
  | cons c cs ih =>
    obtain ⟨hc, hcs⟩ := ne_and_not_mem_of_not_mem_cons h
    rw [split, if_neg (Ne.symm hc), ih hcs]

/-- No part has a separator. -/
theorem not_mem_of_mem_split {cs part : List Char} (h : part ∈ split separator cs) :
    separator ∉ part := by
  induction cs generalizing part with
  | nil =>
    obtain rfl := mem_singleton.1 h
    exact not_mem_nil
  | cons c cs ih =>
    rw [split] at h
    split at h
    · rcases mem_cons.1 h with rfl | h
      · exact not_mem_nil
      · exact ih h
    next hc =>
      cases hcs : split separator cs with
      | nil => exact absurd hcs (split_ne_nil separator cs)
      | cons first parts =>
        rw [hcs] at h ih
        rcases mem_cons.1 h with rfl | h
        · exact not_mem_cons_of_ne_of_not_mem (Ne.symm hc) (ih (.head _))
        · exact ih (.tail _ h)

/-- Parts that are put together are cut apart again. -/
theorem split_intercalate (separator : Char) {parts : List (List Char)} (hne : parts ≠ [])
    (h : ∀ part ∈ parts, separator ∉ part) :
    split separator ([separator].intercalate parts) = parts := by
  induction parts with
  | nil => exact absurd rfl hne
  | cons part parts ih =>
    obtain ⟨hpart, hparts⟩ := forall_mem_cons.1 h
    cases parts with
    | nil => simpa using split_of_not_mem hpart
    | cons next rest =>
      rw [intercalate_cons_cons, append_assoc, singleton_append, split_append,
        split_of_not_mem hpart, ih (cons_ne_nil _ _) hparts]
      rfl

/-- The parts of a text make up the text. -/
theorem intercalate_split (separator : Char) (cs : List Char) :
    [separator].intercalate (split separator cs) = cs := by
  induction cs with
  | nil => rfl
  | cons c cs ih =>
    rw [split]
    cases hcs : split separator cs with
    | nil => exact absurd hcs (split_ne_nil separator cs)
    | cons part parts =>
      rw [hcs] at ih
      split
      next hc => rw [intercalate_cons_cons, ih, hc]; rfl
      next => rw [intercalate_cons_cons_left, ih]

/-! ## Ordered lists -/

/-- What is in a list after an insertion. -/
theorem mem_insertBy {α : Type} (le : α → α → Bool) (a b : α) (l : List α) :
    b ∈ insertBy le a l ↔ b = a ∨ b ∈ l := by
  induction l with
  | nil => simp [insertBy]
  | cons c l ih =>
    rw [insertBy]
    split
    · exact mem_cons
    · rw [mem_cons, mem_cons, ih]
      exact or_left_comm

/-- Sorting keeps what is there. -/
theorem mem_sortBy {α : Type} (le : α → α → Bool) (b : α) (l : List α) :
    b ∈ sortBy le l ↔ b ∈ l := by
  induction l with
  | nil => exact Iff.rfl
  | cons a l ih =>
    rw [sortBy, foldr_cons, mem_insertBy, mem_cons]
    exact or_congr_right ih

end Text

namespace Path

variable {name path : String} {parts : List String}

/-- So it does for paths. -/
theorem mem_sort {paths : List String} : path ∈ sort paths ↔ path ∈ paths :=
  mem_sortBy le path paths

/-! ## Parts -/

/-- A path has parts. -/
theorem segments_ne_nil (path : String) : segments path ≠ [] := by
  intro h
  exact split_ne_nil _ _ (map_eq_nil_iff.1 h)

/-- Parts of two paths. -/
theorem segments_append (base path : String) :
    segments (base ++ "/" ++ path) = segments base ++ segments path := by
  simp [segments, split_append]

/-- A path from the root. -/
theorem segments_root (path : String) : segments ("/" ++ path) = "" :: segments path := by
  simp [segments, Text.split]

/-- A text without separators is its only part. -/
theorem segments_of_not_mem (h : '/' ∉ name.toList) : segments name = [name] := by
  simp [segments, split_of_not_mem h]

/-- No part has a separator. -/
theorem not_mem_of_mem_segments {path part : String} (h : part ∈ segments path) :
    '/' ∉ part.toList := by
  obtain ⟨cs, hcs, rfl⟩ := mem_map.1 h
  simpa using not_mem_of_mem_split hcs

/-- Parts that are put together are the parts of the path. -/
theorem segments_ofSegments (hne : parts ≠ []) (h : ∀ part ∈ parts, '/' ∉ part.toList) :
    segments (ofSegments parts) = parts := by
  have hsplit := split_intercalate '/' (List.map_eq_nil_iff.not.2 hne)
    (forall_mem_map.2 h)
  rw [segments, ofSegments, String.toList_intercalate]
  refine (congrArg (map String.ofList) hsplit).trans ?_
  simp

/-- A path from the root has an empty part in front of others. -/
theorem isAbsolute_iff : isAbsolute path = true ↔ ∃ rest, rest ≠ [] ∧
    segments path = "" :: rest := by
  rw [isAbsolute, String.startsWith_string_iff, segments]
  constructor
  · rintro ⟨cs, hcs⟩
    refine ⟨(Text.split '/' cs).map String.ofList, ?_, ?_⟩
    · exact List.map_eq_nil_iff.not.2 (split_ne_nil _ _)
    · rw [← hcs]
      rfl
  · rintro ⟨rest, hne, hrest⟩
    cases hpath : path.toList with
    | nil =>
      rw [hpath] at hrest
      exact absurd (List.cons.inj hrest).2.symm hne
    | cons c cs =>
      by_cases hc : c = '/'
      · exact ⟨cs, by rw [hc]; rfl⟩
      · -- Any other character stands in the first part.
        rw [hpath, Text.split, if_neg hc] at hrest
        cases hcs : Text.split '/' cs with
        | nil => exact absurd hcs (split_ne_nil _ _)
        | cons first parts =>
          rw [hcs] at hrest
          have hfirst := (List.cons.inj hrest).1
          simp at hfirst

/-- A path with a first part is relative. -/
theorem isAbsolute_of_segments {path first : String} {rest : List String}
    (h : segments path = first :: rest) (hne : first ≠ "") : isAbsolute path = false := by
  rw [Bool.eq_false_iff, ne_eq, isAbsolute_iff, h]
  rintro ⟨rest', _, heq⟩
  exact hne (List.cons.inj heq).1

/-- A name is relative. -/
theorem isAbsolute_of_not_mem (h : '/' ∉ name.toList) : isAbsolute name = false := by
  rw [Bool.eq_false_iff, ne_eq, isAbsolute_iff, segments_of_not_mem h]
  rintro ⟨rest, hne, hrest⟩
  exact hne (List.cons.inj hrest).2.symm

/-- Where a path starts is told by its front. -/
theorem isAbsolute_append {front : String} (h : front ≠ "") (path : String) :
    isAbsolute (front ++ path) = isAbsolute front := by
  rw [Bool.eq_iff_iff, isAbsolute, isAbsolute, String.startsWith_string_iff,
    String.startsWith_string_iff, String.toList_append]
  cases hfront : front.toList with
  | nil => exact absurd (String.toList_eq_nil_iff.1 hfront) h
  | cons c cs =>
    have hone : "/".toList = ['/'] := rfl
    simp [hone]

/-! ## Joined paths -/

/-- What stands for a name between separators. -/
def IsName (name : String) : Prop := '/' ∉ name.toList ∧ name ≠ "" ∧ name ≠ "." ∧ name ≠ ".."

instance (name : String) : Decidable (IsName name) := inferInstanceAs (Decidable (_ ∧ _))

/-- A name stands for something. -/
theorem IsName.not_isIdle (h : IsName name) : isIdle name = false := by
  simp [isIdle, h.2.1, h.2.2.1]

/-- A separator at the end. -/
theorem endsWith_separator (h : path.endsWith "/" = true) : ∃ front, path = front ++ "/" := by
  rw [← String.endsWith_toSlice, String.Slice.endsWith_string_iff] at h
  obtain ⟨cs, hcs⟩ := h
  refine ⟨String.ofList cs, String.toList_inj.1 ?_⟩
  simpa using hcs.symm

/-- A name that is written after a path is one more part. -/
theorem exists_segments_join (base : String) (h : '/' ∉ name.toList) :
    ∃ parts, (segments base = parts ∨ segments base = parts ++ [""]) ∧ segments (join base name) =
      parts ++ [name] ∧ isAbsolute (join base name) = isAbsolute base := by
  have hrelative : isAbsolute name = false := isAbsolute_of_not_mem h
  rw [join, if_neg (Bool.eq_false_iff.1 hrelative)]
  split
  next hend =>
    rcases Bool.or_eq_true_iff.1 hend with hempty | hend
    · obtain rfl := String.isEmpty_iff.1 hempty
      refine ⟨[], .inr rfl, ?_, ?_⟩
      · rw [String.empty_append, segments_of_not_mem h]
        rfl
      · rw [String.empty_append, hrelative]
        rfl
    · obtain ⟨front, rfl⟩ := endsWith_separator hend
      have hsegments : segments (front ++ "/") = segments front ++ [""] := by
        rw [← String.append_empty (s := front ++ "/"), segments_append]
        rfl
      refine ⟨segments front, .inr hsegments, ?_, isAbsolute_append (by simp) name⟩
      rw [segments_append, segments_of_not_mem h]
  next hend =>
    have hne : base ≠ "" := by
      rintro rfl
      exact hend rfl
    refine ⟨segments base, .inl rfl, ?_, ?_⟩
    · rw [segments_append, segments_of_not_mem h]
    · rw [String.append_assoc, isAbsolute_append hne]

/-- Nothing is joined from nothing. -/
theorem join_eq_empty {base path : String} (h : join base path = "") : base = "" := by
  rw [join] at h
  split at h
  next habsolute =>
    rw [h] at habsolute
    exact absurd habsolute (by decide)
  next =>
    split at h
    · exact (String.append_eq_empty_iff.1 h).1
    · exact (String.append_eq_empty_iff.1 (String.append_eq_empty_iff.1 h).1).1

/-! ## Parents -/

/-- The parts that stand for something. -/
def meant (parts : List String) : List String := parts.filter fun part => !isIdle part

/-- Dropping what is filtered out changes nothing. -/
theorem filter_dropWhile {α : Type} (p : α → Bool) (l : List α) :
    (l.dropWhile p).filter (fun a => !p a) = l.filter fun a => !p a := by
  induction l with
  | nil => rfl
  | cons a l ih =>
    rw [dropWhile_cons]
    split
    next ha => rw [ih, filter_cons_of_neg (by simp [ha])]
    next => rfl

/-- Idle parts at the end mean nothing. -/
theorem meant_dropIdleEnd (parts : List String) : meant (dropIdleEnd parts) = meant parts := by
  rw [meant, dropIdleEnd, filter_reverse, filter_dropWhile, filter_reverse, reverse_reverse, meant]

/-- What is left is the front. -/
theorem dropIdleEnd_isPrefix (parts : List String) : dropIdleEnd parts <+: parts :=
  rdropWhile_prefix _ _

/-- Parts that are put together mean what they meant. -/
theorem meant_segments_ofSegments (path : String) (h : parts ⊆ segments path) :
    meant (segments (ofSegments (dropIdleEnd parts))) = meant parts := by
  cases hparts : dropIdleEnd parts with
  | nil =>
    rw [← meant_dropIdleEnd parts, hparts]
    rfl
  | cons first rest =>
    have hsub : ∀ part ∈ dropIdleEnd parts, '/' ∉ part.toList := fun part hpart =>
      not_mem_of_mem_segments (h ((dropIdleEnd_isPrefix parts).subset hpart))
    rw [hparts] at hsub
    rw [segments_ofSegments (cons_ne_nil _ _) hsub, ← hparts, meant_dropIdleEnd]

/-- Parts at the front of a relative path are relative. -/
theorem isAbsolute_ofSegments {parts rest : List String} (h : segments path = parts ++ rest)
    (hrest : rest ≠ []) (hpath : isAbsolute path = false) :
    isAbsolute (ofSegments (dropIdleEnd parts)) = false := by
  cases hparts : dropIdleEnd parts with
  | nil => rfl
  | cons first others =>
    obtain ⟨idle, hidle⟩ := hparts ▸ dropIdleEnd_isPrefix parts
    have hsegments : segments path = first :: (others ++ idle ++ rest) := by
      rw [h, ← hidle, cons_append, cons_append]
    have hsub : ∀ part ∈ first :: others, '/' ∉ part.toList := by
      intro part hpart
      have hmem : part ∈ segments path := by
        rw [h, ← hidle]
        exact mem_append_left _ (mem_append_left _ hpart)
      exact not_mem_of_mem_segments hmem
    refine isAbsolute_of_segments (segments_ofSegments (cons_ne_nil _ _) hsub) ?_
    rintro rfl
    have habsolute : isAbsolute path = true := isAbsolute_iff.2 ⟨_, by simp [hrest], hsegments⟩
    rw [hpath] at habsolute
    cases habsolute

/-- Parts end in one that is meant and idle ones, or all are idle. -/
theorem dropIdleEnd_cases (parts : List String) :
    dropIdleEnd parts = [] ∧ meant parts = [] ∨
      ∃ front last idle, parts = front ++ last :: idle ∧ isIdle last = false ∧ dropIdleEnd parts =
        front ++ [last] ∧ meant parts = meant front ++ [last] := by
  obtain ⟨idle, hidle⟩ := dropIdleEnd_isPrefix parts
  rcases eq_nil_or_concat' (dropIdleEnd parts) with hnil | ⟨front, last, hconcat⟩
  · refine .inl ⟨hnil, ?_⟩
    rw [← meant_dropIdleEnd, hnil]
    rfl
  · have hlast : isIdle last = false := by
      have hne : parts.rdropWhile isIdle ≠ [] :=
        fun hnil => absurd (hconcat.symm.trans hnil) (by simp)
      have := rdropWhile_last_not isIdle parts hne
      simpa [show parts.rdropWhile isIdle = front ++ [last] from hconcat] using this
    refine .inr ⟨front, last, idle, ?_, hlast, hconcat, ?_⟩
    · rw [← hidle, hconcat, append_assoc, singleton_append]
    · rw [← meant_dropIdleEnd, hconcat, meant, filter_append, filter_cons_of_pos (by simp [hlast])]
      rfl

/-- How a parent is found. A path that starts with `.` keeps it, one from the root the separator,
and others lose the separators and `.` at the end. -/
theorem parent?_cases {path parent : String} (h : parent? path = some parent) :
    (∃ rest, segments path = "." :: rest ∧ meant rest = [] ∧ parent = "") ∨
      ∃ front last idle, isIdle last = false ∧ meant (segments path) = meant front ++ [last] ∧
        (segments path = "." :: (front ++ last :: idle) ∧
        parent = ofSegments ("." :: dropIdleEnd front) ∨
          isAbsolute path = true ∧ segments path = "" :: (front ++ last :: idle) ∧
            parent = "/" ++ ofSegments (dropIdleEnd front) ∨
          isAbsolute path = false ∧ segments path = front ++ last :: idle ∧
            parent = ofSegments (dropIdleEnd front)) := by
  unfold parent? at h
  split at h
  next rest hrest =>
    rcases dropIdleEnd_cases rest with ⟨hnil, hmeant⟩ | ⟨front, last, idle, rfl, hlast,
      hend, hmeant⟩
    · rw [hnil] at h
      exact .inl ⟨rest, hrest, hmeant, (Option.some.inj h).symm⟩
    · refine .inr ⟨front, last, idle, hlast, by rw [hrest]; exact hmeant, .inl ⟨hrest, ?_⟩⟩
      rw [hend] at h
      split at h
      next hnil => exact absurd hnil (by simp)
      next => rw [dropLast_concat] at h; exact (Option.some.inj h).symm
  next first rest _ hrest =>
    split at h
    next hpath =>
      obtain ⟨rest', -, hroot⟩ := isAbsolute_iff.1 hpath
      obtain ⟨rfl, rfl⟩ := List.cons.inj (hrest.symm.trans hroot)
      rcases dropIdleEnd_cases rest with ⟨hnil, -⟩ | ⟨front, last, idle, rfl, hlast, hend, hmeant⟩
      · rw [hnil] at h
        cases h
      · refine .inr ⟨front, last, idle, hlast, by rw [hrest]; exact hmeant,
          .inr (.inl ⟨hpath, hrest, ?_⟩)⟩
        rw [hend] at h
        split at h
        next hnil => exact absurd hnil (by simp)
        next => rw [dropLast_concat] at h; exact (Option.some.inj h).symm
    next hpath =>
      rw [Bool.not_eq_true] at hpath
      rcases dropIdleEnd_cases (first :: rest) with ⟨hnil, -⟩ | ⟨front, last, idle, hparts, hlast,
        hend, hmeant⟩
      · rw [hnil] at h
        cases h
      · refine .inr ⟨front, last, idle, hlast, by rw [hrest]; exact hmeant,
          .inr (.inr ⟨hpath, ?_, ?_⟩)⟩
        · rw [hrest, hparts]
        · rw [hend] at h
          split at h
          next hnil => exact absurd hnil (by simp)
          next => rw [dropLast_concat] at h; exact (Option.some.inj h).symm
  next hnil => exact absurd hnil (segments_ne_nil path)

/-- A path without a parent means nothing. -/
theorem meant_of_parent?_eq_none (h : parent? path = none) : meant (segments path) = [] := by
  unfold parent? at h
  split at h
  next => split at h <;> cases h
  next first rest _ hrest =>
    split at h
    next hpath =>
      obtain ⟨rest', -, hroot⟩ := isAbsolute_iff.1 hpath
      obtain ⟨rfl, rfl⟩ := List.cons.inj (hrest.symm.trans hroot)
      split at h
      next hnil =>
        have hmeant : meant rest = [] := by
          rw [← meant_dropIdleEnd, hnil]
          rfl
        rw [hroot]
        exact hmeant
      next => cases h
    next =>
      split at h
      next hnil =>
        rw [hrest, ← meant_dropIdleEnd, hnil]
        rfl
      next => cases h
  next hnil => exact absurd hnil (segments_ne_nil path)

/-- The parent starts where the path does, and has all that is meant but the last. -/
theorem meant_parent? {path parent : String} (h : parent? path = some parent) :
    isAbsolute parent = isAbsolute path ∧ meant (segments parent) =
      (meant (segments path)).dropLast := by
  rcases parent?_cases h with ⟨rest, hdot, hmeant, rfl⟩ | ⟨front, last, idle, -, hmeant, hcases⟩
  · rw [isAbsolute_of_segments hdot (by decide), hdot]
    exact ⟨rfl, (congrArg dropLast hmeant).symm⟩
  rw [hmeant, dropLast_concat]
  rcases hcases with ⟨hparts, rfl⟩ | ⟨hpath, hparts, rfl⟩ | ⟨hpath, hparts, rfl⟩
  · have hsub : ∀ part ∈ "." :: dropIdleEnd front, '/' ∉ part.toList := by
      intro part hpart
      have hmem : part ∈ segments path := by
        rw [hparts]
        rcases mem_cons.1 hpart with rfl | hpart
        · exact .head _
        · exact .tail _ (mem_append_left _ ((dropIdleEnd_isPrefix front).subset hpart))
      exact not_mem_of_mem_segments hmem
    have hsegments := segments_ofSegments (cons_ne_nil _ _) hsub
    rw [isAbsolute_of_segments hsegments (by decide),
      isAbsolute_of_segments hparts (by decide), hsegments]
    exact ⟨rfl, meant_dropIdleEnd front⟩
  · rw [hpath, segments_root]
    refine ⟨isAbsolute_iff.2 ⟨_, segments_ne_nil _, segments_root _⟩,
      meant_segments_ofSegments path ?_⟩
    rw [hparts]
    exact fun part hpart => .tail _ (mem_append_left _ hpart)
  · rw [hpath]
    refine ⟨isAbsolute_ofSegments hparts (cons_ne_nil _ _) hpath, meant_segments_ofSegments path ?_⟩
    rw [hparts]
    exact subset_append_left _ _

/-- The parent of a path with a name has the parts before it. -/
theorem exists_parent? (hname : IsName name)
    (h : segments path = parts ++ [name]) :
    ∃ parent, parent? path = some parent ∧ isAbsolute parent = isAbsolute path ∧
      meant (segments parent) = meant parts := by
  have hmeant : meant (segments path) = meant parts ++ [name] := by
    rw [h, meant, filter_append, filter_cons_of_pos (by simp [hname.not_isIdle])]
    rfl
  cases hparent : parent? path with
  | none => exact absurd (hmeant.symm.trans (meant_of_parent?_eq_none hparent)) (by simp)
  | some parent =>
    obtain ⟨hroot, hfront⟩ := meant_parent? hparent
    rw [hmeant, dropLast_concat] at hfront
    exact ⟨parent, rfl, hroot, hfront⟩

/-! ## The text of a parent -/

/-- The parts of a path make up the path. -/
theorem ofSegments_segments (path : String) : ofSegments (segments path) = path := by
  refine String.toList_inj.1 ?_
  rw [ofSegments, String.toList_intercalate, segments, map_map]
  simpa using intercalate_split '/' path.toList

/-- A part is not lost. -/
theorem ofSegments_ne_empty {part : String} (h : part ∈ parts) (hpart : part ≠ "") :
    ofSegments parts ≠ "" := by
  induction parts with
  | nil => cases h
  | cons first rest ih =>
    cases rest with
    | nil =>
      obtain rfl := mem_singleton.1 h
      rwa [ofSegments, String.intercalate_singleton]
    | cons next others =>
      rw [ofSegments, String.intercalate_cons_cons, ne_eq, String.append_eq_empty_iff]
      rintro ⟨hfirst, -⟩
      exact absurd (String.append_eq_empty_iff.1 hfirst).2 (by decide)

/-- A text of parts goes on after those in front. -/
theorem exists_ofSegments_append {short front idle : List String} {last : String}
    (hshort : short <+: front) (hlast : last ≠ "") :
    ∃ rest, rest ≠ "" ∧ ofSegments (front ++ last :: idle) = ofSegments short ++ rest := by
  obtain ⟨others, rfl⟩ := hshort
  by_cases hnil : short = []
  · subst hnil
    have hmem : last ∈ others ++ last :: idle := mem_append_right _ mem_cons_self
    exact ⟨_, ofSegments_ne_empty hmem hlast, String.empty_append.symm⟩
  · refine ⟨"/" ++ ofSegments (others ++ last :: idle), by simp, ?_⟩
    rw [append_assoc, ofSegments, ofSegments, String.intercalate_append_of_ne_nil hnil (by simp),
      String.append_assoc, ofSegments]

/-- A path starts with the text of its parent, and goes on. -/
theorem exists_parent?_append {path parent : String} (h : parent? path = some parent) :
    ∃ rest, rest ≠ "" ∧ path = parent ++ rest := by
  have hlast {last : String} (hidle : isIdle last = false) : last ≠ "" := by
    rintro rfl
    cases hidle
  rcases parent?_cases h with ⟨rest, hdot, -, rfl⟩ | ⟨front, last, idle, hidle, -, hcases⟩
  · refine ⟨path, ?_, String.empty_append.symm⟩
    rintro rfl
    exact absurd (List.cons.inj hdot).1 (by decide)
  rcases hcases with ⟨hparts, rfl⟩ | ⟨-, hparts, rfl⟩ | ⟨-, hparts, rfl⟩
  · rw [← ofSegments_segments path, hparts, ← cons_append]
    exact exists_ofSegments_append ((prefix_cons_inj _).2 (dropIdleEnd_isPrefix front))
      (hlast hidle)
  · obtain ⟨rest, hrest, heq⟩ : ∃ rest, rest ≠ "" ∧
        ofSegments (front ++ last :: idle) = ofSegments (dropIdleEnd front) ++ rest :=
      exists_ofSegments_append (dropIdleEnd_isPrefix front) (hlast hidle)
    refine ⟨rest, hrest, ?_⟩
    rw [String.append_assoc, ← heq, ← ofSegments_segments path, hparts, ofSegments,
      String.intercalate_cons_of_ne_nil (by simp), String.empty_append, ofSegments]
  · rw [← ofSegments_segments path, hparts]
    exact exists_ofSegments_append (dropIdleEnd_isPrefix front) (hlast hidle)

end Path

end ComputeKernel
