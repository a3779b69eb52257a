import ComputeKernel.Proofs.Project.Lines
import ComputeKernel.Proofs.Project.Search

/-!
# Comments after lines

A comment can stand after an entry, after a line that says nothing and on an empty line. It cannot
stand after a header: with it, the line does not end with a bracket any more. And where quotes are
open in a value, the comment becomes a part of it: only the quotes after the `=` count.
-/

namespace ComputeKernel

open List
open Project Settings.Line

namespace Settings

open ComputeKernel.Text
variable {header line : String} {value : List Char}

/-! ## One line -/

section

variable {number : Nat} {header next line cs ds key value comment : List Char}
    {lines front back : List (List Char)}
  {s t u : Settings} {c : Char}

/-- A line is read, and then the others. -/
theorem readLines_cons_of_apply (h : (Line.read line).apply header s = some (next, u)) :
    readLines number header s (line :: lines) = .ok t ↔
    readLines (number + 1) next u lines = .ok t := by
  rw [readLines_cons_eq_ok_iff, h]
  simp

/-- Blanks around a line do not matter. -/
theorem Line.read_congr {line other : List Char} (h : trim line = trim other) :
    Line.read line = Line.read other := by
  rw [Line.read, h, ← Line.read]

/-- A line that changes nothing. -/
def Line.Silent (line : Line) : Prop := ∀ header s, line.apply header s = some (header, s)

/-- A line that says nothing is silent. -/
theorem silent_nothing : Line.nothing.Silent := fun _ _ => rfl

/-- So is one with an unknown key. -/
theorem silent_of_unknown (h : ∀ f : Field, f.key ≠ String.ofList key) :
    (Line.entry key value).Silent := by
  intro header s
  rw [apply, set?_of_unknown fun f _ => h f]
  rfl

/-- No field has a bracket or a `#` in its key. -/
theorem silent_of_mem (hc : c = '[' ∨ c = '#') (h : c ∈ key) : (Line.entry key value).Silent := by
  refine silent_of_unknown fun f hf => ?_
  have hmem : c ∈ f.key.toList := by
    rw [hf, String.toList_ofList]
    exact h
  have hnone : '[' ∉ f.key.toList ∧ '#' ∉ f.key.toList := by cases f <;> decide +kernel
  rcases hc with rfl | rfl
  · exact hnone.1 hmem
  · exact hnone.2 hmem

/-- What is kept of a value. -/
theorem mem_unquote_trim (hblank : isBlank c = false) (hquote : c ≠ '"') (h : c ∈ cs) :
    c ∈ unquote (trim cs) :=
  mem_dropBoth (beq_false_of_ne hquote) (mem_dropBoth hblank h)

/-- A line that starts with a bracket and does not end with one is silent. -/
theorem silent_of_bracket (hfirst : (trim line).head? = some '[')
    (hlast : (trim line).getLast? ≠ some ']') :
    (Line.read line).Silent := by
  by_cases hmem : '=' ∈ line
  · obtain ⟨key, value, rfl, hkey⟩ := eq_append_cons_of_mem hmem
    have hbracket : '[' ∈ key := by
      rw [trim, dropBoth_append_cons (by decide)] at hfirst
      cases hdrop : key.dropWhile isBlank with
      | nil =>
        rw [hdrop] at hfirst
        exact absurd (Option.some.inj hfirst) (by decide)
      | cons b bs =>
        rw [hdrop] at hfirst
        have hb : b = '[' := Option.some.inj hfirst
        exact (dropWhile_suffix isBlank).subset (hdrop ▸ hb ▸ mem_cons_self)
    rw [read_of_split (by rw [hfirst]; decide) (fun h => hlast h.2) (splitFirst?_append hkey value)]
    exact silent_of_mem (.inl rfl) (mem_unquote_trim (by decide) (by decide) hbracket)
  · rw [read_of_not_mem (fun h => hlast h.2) hmem]
    exact silent_nothing

/-! ## A line with a comment -/

/-- A line with a comment after it. -/
def withComment (line comment : List Char) : List Char := line ++ ' ' :: '#' :: comment

/-- What counts of a line with a comment. -/
theorem trim_withComment (line comment : List Char) :
    trim (withComment line comment) =
      (line ++ [' ']).dropWhile isBlank ++ '#' :: dropEndWhile isBlank comment := by
  have hsplit : withComment line comment = (line ++ [' ']) ++ '#' :: comment := by
    simp [withComment]
  rw [hsplit]
  exact dropBoth_append_cons (by decide) _ _

/-- The first character stays. -/
theorem head?_trim_append (h : (trim cs).head? = some c) (ds : List Char) :
    (trim (cs ++ ds)).head? = some c := by
  rcases all_or_exists_first isBlank cs with hall | ⟨front, b, back, rfl, hb, hfront⟩
  · rw [trim, dropBoth_eq_nil hall] at h
    cases h
  · rw [trim, dropBoth_append_cons hb, dropWhile_eq_nil_iff.2 hfront] at h
    rw [append_assoc, cons_append, trim, dropBoth_append_cons hb, dropWhile_eq_nil_iff.2 hfront]
    exact h

/-- Dropping others keeps the number. -/
theorem count_dropWhile {p : Char → Bool} (hc : p c = false) (cs : List Char) :
    (cs.dropWhile p).count c = cs.count c := by
  induction cs with
  | nil => rfl
  | cons b cs ih =>
    rw [dropWhile_cons]
    split
    next hb =>
      have hne : b ≠ c := by
        rintro rfl
        rw [hb] at hc
        cases hc
      rw [ih, count_cons_of_ne hne]
    next => rfl

/-- No mark is added. -/
theorem not_mem_dropWhile_space (hhash : '#' ∉ value) : '#' ∉ (value ++ [' ']).dropWhile isBlank :=
  fun hmem =>
  absurd ((dropWhile_suffix _).subset hmem) (by simp [hhash])

/-- Nor is a quote. -/
theorem count_dropWhile_space (value : List Char) :
    ((value ++ [' ']).dropWhile isBlank).count '"' = value.count '"' := by
  rw [count_dropWhile (by decide), count_append]
  rfl

/-- Where quotes are closed, a comment is no part of a value. -/
theorem stripComment_withComment (hhash : '#' ∉ value) (hquotes : ¬Odd (value.count '"'))
    (comment : List Char) :
    stripComment (trim (withComment value comment)) = trim value := by
  rw [trim_withComment, stripComment_append (not_mem_dropWhile_space hhash)
    (count_dropWhile_space value ▸ hquotes)]
  exact dropBoth_padded (forall_mem_nil _) (forall_mem_singleton.2 (by decide)) value

/-- Where quotes are open, a comment is a part of the value. -/
theorem mem_value_withComment (hhash : '#' ∉ value) (hquotes : Odd (value.count '"'))
    (comment : List Char) :
    '#' ∈ unquote (stripComment (trim (withComment value comment))) := by
  refine mem_dropBoth (by decide) ?_
  rw [trim_withComment, stripComment, beforeComment_append false (not_mem_dropWhile_space hhash),
    count_dropWhile_space]
  simp only [hquotes, decide_true, Bool.false_xor, beforeComment]
  rw [if_neg (by decide), if_neg (by decide), dropEndWhile_append_cons (by decide)]
  exact mem_append_right _ mem_cons_self

/-- Without a `#` there is no comment. -/
theorem stripComment_trim (hhash : '#' ∉ value) : stripComment (trim value) = trim value := by
  have hhash' : '#' ∉ trim value := fun hmem => hhash (dropBoth_subset _ _ hmem)
  rw [stripComment_of_not_mem hhash', trim, dropBoth, dropEndWhile, dropEndWhile, reverse_reverse,
    dropWhile_idempotent]

/-- What an entry with a comment is read as. Its key stays. -/
theorem read_entry_withComment (hhash : '#' ∉ line) (hfirst : (trim line).head? ≠ some '[')
    (h : splitFirst? '=' line = some (key, value)) :
    Line.read line = .entry (unquote (trim key)) (unquote (trim value)) ∧
      ∀ comment, Line.read (withComment line comment) =
        .entry (unquote (trim key))
          (unquote (stripComment (trim (withComment value comment)))) := by
  obtain ⟨rfl, hkey⟩ := splitFirst?_eq_some_iff.1 h
  obtain ⟨c, hc⟩ : ∃ c, (trim (key ++ '=' :: value)).head? = some c := by
    rw [trim, dropBoth_append_cons (by decide)]
    exact ⟨_, head?_eq_some_head (by simp)⟩
  have hc' : c ≠ '#' := by
    rintro rfl
    exact hhash (dropBoth_subset _ _ (mem_of_head? hc))
  rw [hc] at hfirst
  constructor
  · have hvalue : '#' ∉ value := fun hmem => hhash (by simp [hmem])
    rw [read_of_split (by simpa [hc] using hc') (by simp [hc, hfirst]) h, stripComment_trim hvalue]
  · intro comment
    have hline : withComment (key ++ '=' :: value) comment =
        key ++ '=' :: withComment value comment := by
      simp [withComment]
    have hhead : (trim (withComment (key ++ '=' :: value) comment)).head? = some c :=
      head?_trim_append hc _
    rw [hline] at hhead ⊢
    exact read_of_split (by simpa [hhead] using hc') (by simp [hhead, hfirst])
      (splitFirst?_append hkey _)

/-- A comment keeps a line that is no header and no entry silent. -/
theorem silent_withComment (hhash : '#' ∉ line) (hfirst : (trim line).head? ≠ some '[')
    (h : '=' ∉ line) (comment : List Char) : (Line.read (withComment line comment)).Silent := by
  cases hhead : (trim line).head? with
  | none =>
    have hblank : ∀ c ∈ line ++ [' '], isBlank c = true := by
      rcases all_or_exists_first isBlank line with hall | ⟨front, b, back, rfl, hb, -⟩
      · exact forall_mem_append.2 ⟨hall, forall_mem_singleton.2 (by decide)⟩
      · rw [trim, dropBoth_append_cons hb] at hhead
        simp at hhead
    have hcomment : (trim (withComment line comment)).head? = some '#' := by
      rw [trim_withComment, dropWhile_eq_nil_iff.2 hblank]
      rfl
    rw [read_of_comment hcomment]
    exact silent_nothing
  | some c =>
    rw [hhead] at hfirst
    have hhash' : c ≠ '#' := by
      rintro rfl
      exact hhash (dropBoth_subset _ _ (mem_of_head? hhead))
    have hhead' : (trim (withComment line comment)).head? = some c := head?_trim_append hhead _
    by_cases hmem : '=' ∈ comment
    · obtain ⟨before, after, rfl, hbefore⟩ := eq_append_cons_of_mem hmem
      have hline : withComment line (before ++ '=' :: after) =
          withComment line before ++ '=' :: after := by
        simp [withComment]
      have hkey : '=' ∉ withComment line before := by simp [withComment, h, hbefore]
      rw [hline] at hhead' ⊢
      rw [read_of_split (by simpa [hhead'] using hhash') (by simp [hhead', hfirst])
        (splitFirst?_append hkey _)]
      exact silent_of_mem (.inr rfl)
        (mem_unquote_trim (by decide) (by decide) (by simp [withComment]))
    · have hkey : '=' ∉ withComment line comment := by simp [withComment, h, hmem]
      rw [read_of_not_mem (by simp [hhead', hfirst]) hkey]
      exact silent_nothing

/-- A known entry whose name is not empty or whose number can be read. -/
def Counts (key value : List Char) : Prop :=
  ∃ f : Field, f.key = String.ofList key ∧ (f = .name → value ≠ []) ∧
    (f = .workers → (readCount? value).isSome = true)

/-- Any other entry is refused, or changes an empty name only. -/
theorem set?_of_not_counts {header : String} (h : ¬Counts key value)
    (hset : s.set? header (String.ofList key) value = some u) (other : List Char) :
    ∃ name, s.set? header (String.ofList key) other = some { u with name } ∧
    (name = u.name ∨ u.name = "") := by
  by_cases hknown : ∃ f : Field, f.header = header ∧ f.key = String.ofList key
  · obtain ⟨f, rfl, hkey⟩ := hknown
    rw [← hkey] at hset ⊢
    by_cases hname : f = .name
    · subst hname
      have hempty : value = [] := by
        by_contra hne
        exact h ⟨.name, hkey, fun _ => hne, nofun⟩
      rw [hempty] at hset
      cases hset
      exact ⟨_, rfl, .inr rfl⟩
    · have hworkers : f = .workers ∧ readCount? value = none := by
        by_contra hne
        refine h ⟨f, hkey, fun hf => absurd hf hname, fun hf => ?_⟩
        rw [Option.isSome_iff_ne_none]
        exact fun hnone => hne ⟨hf, hnone⟩
      obtain ⟨rfl, hnone⟩ := hworkers
      rw [set?_workers, hnone] at hset
      cases hset
  · have hsame (v : List Char) : s.set? header (String.ofList key) v = some s :=
      set?_of_unknown (fun f hf hkey => hknown ⟨f, hf, hkey⟩) s v
    rw [hsame] at hset ⊢
    cases hset
    exact ⟨_, rfl, .inl rfl⟩

/-- A comment after a line without a bracket changes nothing, or a value in which quotes are open.
Where the entry does not count, only an empty name changes. -/
theorem apply_withComment (hhash : '#' ∉ line) (hfirst : (trim line).head? ≠ some '[')
    (hquotes : ∀ key value, splitFirst? '=' line = some (key, value) → Odd (value.count '"') →
      ¬Counts (unquote (trim key)) (unquote (trim value)))
    (h : (Line.read line).apply header s = some (next, u)) (comment : List Char) :
    ∃ name, (Line.read (withComment line comment)).apply header s = some (next, { u with name }) ∧
      (name = u.name ∨ u.name = "") := by
  by_cases hmem : '=' ∈ line
  · obtain ⟨key, value, hline, hkey⟩ := eq_append_cons_of_mem hmem
    have hsplit : splitFirst? '=' line = some (key, value) :=
      splitFirst?_eq_some_iff.2 ⟨hline, hkey⟩
    obtain ⟨hread, hread'⟩ := read_entry_withComment hhash hfirst hsplit
    rw [hread] at h
    rw [hread']
    by_cases hodd : Odd (value.count '"')
    · obtain ⟨t, hset, hpair⟩ := Option.map_eq_some_iff.1 h
      cases hpair
      obtain ⟨name, hother, hname⟩ := set?_of_not_counts (hquotes key value hsplit hodd) hset
        (unquote (stripComment (trim (withComment value comment))))
      refine ⟨name, ?_, hname⟩
      rw [apply, hother]
      rfl
    · have hvalue : '#' ∉ value := fun hmem => hhash (by simp [hline, hmem])
      rw [stripComment_withComment hvalue hodd]
      exact ⟨u.name, h, .inl rfl⟩
  · have hheader : ¬((trim line).head? = some '[' ∧ (trim line).getLast? = some ']') :=
      fun h => hfirst h.1
    rw [read_of_not_mem hheader hmem] at h
    cases h
    exact ⟨s.name, silent_withComment hhash hfirst hmem comment header s, .inl rfl⟩

/-! ## The lines around it -/

/-- With another name an entry sets the same. -/
theorem set?_name {header key : String} (h : s.set? header key value = some t) (name : String) :
    ∃ name', ({ s with name } : Settings).set? header key value = some { t with name := name' } ∧
      (name' = t.name ∨ name' = name ∧ t.name = s.name) := by
  by_cases hknown : ∃ f : Field, f.header = header ∧ f.key = key
  · obtain ⟨f, rfl, rfl⟩ := hknown
    cases f with
    | name =>
      cases h
      exact ⟨_, rfl, .inl rfl⟩
    | workers =>
      rw [set?_workers] at h
      obtain ⟨n, hn, rfl⟩ := Option.map_eq_some_iff.1 h
      refine ⟨name, ?_, .inr ⟨rfl, rfl⟩⟩
      rw [set?_workers, hn]
      rfl
    | _ =>
      cases h
      exact ⟨name, rfl, .inr ⟨rfl, rfl⟩⟩
  · have hsame (s : Settings) : s.set? header key value = some s :=
      set?_of_unknown (fun f hf hkey => hknown ⟨f, hf, hkey⟩) s value
    rw [hsame] at h ⊢
    cases h
    exact ⟨name, rfl, .inr ⟨rfl, rfl⟩⟩

/-- A line does the same with another name. -/
theorem Line.apply_name {line : Line} (h : line.apply header s = some (next, u)) (name : String) :
    ∃ name', line.apply header { s with name } = some (next, { u with name := name' }) ∧
      (name' = u.name ∨ name' = name ∧ u.name = s.name) := by
  cases line with
  | nothing =>
    cases h
    exact ⟨name, rfl, .inr ⟨rfl, rfl⟩⟩
  | header other =>
    cases h
    exact ⟨name, rfl, .inr ⟨rfl, rfl⟩⟩
  | entry key value =>
    obtain ⟨t, ht, hu⟩ := Option.map_eq_some_iff.1 h
    cases hu
    obtain ⟨name', hset, hname⟩ := set?_name ht name
    refine ⟨name', ?_, hname⟩
    rw [apply, hset]
    rfl

/-- With another name lines give the same, unless they leave the name. -/
theorem readLines_name (h : readLines number header s lines = .ok t) (name : String) :
    ∃ name', readLines number header { s with name } lines = .ok { t with name := name' } ∧
      (name' = t.name ∨ name' = name ∧ t.name = s.name) := by
  induction lines generalizing number header s with
  | nil =>
    cases h
    exact ⟨name, rfl, .inr ⟨rfl, rfl⟩⟩
  | cons line lines ih =>
    obtain ⟨next, u, hline, hrest⟩ := readLines_cons_eq_ok_iff.1 h
    obtain ⟨other, happly, hother⟩ := apply_name hline name
    rcases hother with rfl | ⟨rfl, hname⟩
    · exact ⟨t.name, readLines_cons_eq_ok_iff.2 ⟨next, u, happly, hrest⟩, .inl rfl⟩
    · obtain ⟨name', hrun, hname'⟩ := ih hrest
      refine ⟨name', readLines_cons_eq_ok_iff.2 ⟨next, _, happly, hrun⟩, ?_⟩
      rwa [hname] at hname'

/-- A comment changes nothing where it can stand. -/
theorem readLines_withComment {plain marked : List Char} (hplain : Line.read plain = Line.read line)
    (hmarked : Line.read marked = Line.read (withComment line comment))
    (hhash : '#' ∉ line) (hfirst : (trim line).head? ≠ some '[')
    (hquotes : ∀ key value, splitFirst? '=' line = some (key, value) → Odd (value.count '"') →
      ¬Counts (unquote (trim key)) (unquote (trim value)))
    (h : readLines number header s (front ++ plain :: back) = .ok t) (hname : t.name ≠ "") :
    readLines number header s (front ++ marked :: back) = .ok t := by
  induction front generalizing number header s with
  | nil =>
    obtain ⟨next, u, hline, hrest⟩ := readLines_cons_eq_ok_iff.1 h
    rw [hplain] at hline
    obtain ⟨name, happly, hsame⟩ := apply_withComment hhash hfirst hquotes hline comment
    refine readLines_cons_eq_ok_iff.2 ⟨next, { u with name }, hmarked ▸ happly, ?_⟩
    rcases hsame with rfl | hempty
    · exact hrest
    · obtain ⟨name', hrun, hname'⟩ := readLines_name hrest name
      rcases hname' with rfl | ⟨-, hkept⟩
      · exact hrun
      · exact absurd (hkept.trans hempty) hname
  | cons line front ih =>
    obtain ⟨next, u, hline, hrest⟩ := readLines_cons_eq_ok_iff.1 h
    exact readLines_cons_eq_ok_iff.2 ⟨next, u, hline, ih hrest⟩

end

/-! ## Texts -/

/-- What stands in front of a line. -/
def StartsLine (front : String) : Prop := front = "" ∨ ∃ lines, front = lines ++ "\n"

/-- What stands after a line. -/
def EndsLine (back : String) : Prop :=
  back = "" ∨ ∃ lines, back = "\n" ++ lines ∨ back = "\r\n" ++ lines

/-- The lines of a text around one of them. -/
theorem exists_lines {front back : String} (hfront : StartsLine front) (hback : EndsLine back) :
    ∃ before blanks after, (∀ c ∈ blanks, isBlank c = true) ∧
      ∀ line : List Char, '\n' ∉ line →
        split '\n' (front.toList ++ line ++ back.toList) = before ++ (line ++ blanks) :: after := by
  obtain ⟨before, hbefore⟩ : ∃ before, ∀ cs, split '\n' (front.toList ++ cs) =
      before ++ split '\n' cs := by
    rcases hfront with rfl | ⟨lines, rfl⟩
    · exact ⟨[], fun cs => rfl⟩
    · refine ⟨split '\n' lines.toList, fun cs => ?_⟩
      rw [String.toList_append, append_assoc, ← split_append]
      rfl
  obtain ⟨blanks, after, hblanks, hafter⟩ : ∃ blanks after, (∀ c ∈ blanks, isBlank c = true) ∧
      ∀ line, '\n' ∉ line → split '\n' (line ++ back.toList) = (line ++ blanks) :: after := by
    rcases hback with rfl | ⟨lines, rfl | rfl⟩
    · refine ⟨[], [], forall_mem_nil _, fun line hline => ?_⟩
      rw [String.toList_empty, append_nil, split_of_not_mem hline]
    · refine ⟨[], split '\n' lines.toList, forall_mem_nil _, fun line hline => ?_⟩
      have hsplit := split_append '\n' line lines.toList
      rw [split_of_not_mem hline] at hsplit
      rw [append_nil]
      simpa using hsplit
    · refine ⟨['\r'], split '\n' lines.toList, forall_mem_singleton.2 (by decide),
        fun line hline => ?_⟩
      have hcut : split '\n' (line ++ ['\r']) = [line ++ ['\r']] :=
        split_of_not_mem (by simp [hline])
      have hsplit := split_append '\n' (line ++ ['\r']) lines.toList
      rw [hcut] at hsplit
      simpa using hsplit
  refine ⟨before, blanks, after, hblanks, fun line hline => ?_⟩
  rw [append_assoc, hbefore, hafter line hline]

/-- A comment after a line changes no project. -/
def TakesComments (line : String) : Prop :=
  ∀ (front back comment path : String) (d d' : Disk) (project : Project),
    StartsLine front → EndsLine back → '\n' ∉ comment.toList →
      d.read path = .ok (front ++ line ++ back) →
        d'.read path = .ok (front ++ (line ++ " #" ++ comment) ++ back) →
        (load path : StateM Disk _) d = (.ok project, d) →
          (load path : StateM Disk _) d' = (.ok project, d')

/-- The characters with a comment. -/
theorem toList_comment (line comment : String) :
    (line ++ " #" ++ comment).toList = withComment line.toList comment.toList := by
  simp [withComment]

/-- Comments can stand after lines without a bracket in which quotes are closed, or that do not
count. -/
theorem takesComments_of_closed (hhash : '#' ∉ line.toList) (hbreak : '\n' ∉ line.toList)
    (hfirst : (trim line.toList).head? ≠ some '[')
    (hquotes : ∀ key value, splitFirst? '=' line.toList = some (key, value) →
    Odd (value.count '"') →
      ¬Counts (unquote (trim key)) (unquote (trim value))) : TakesComments line := by
  intro front back comment path d d' project hfront hback hcomment hread hread' hload
  obtain ⟨before, blanks, after, hblanks, hlines⟩ := exists_lines hfront hback
  have hpadded (cs : List Char) : Line.read (cs ++ blanks) = Line.read cs :=
    read_congr (dropBoth_padded (forall_mem_nil _) hblanks cs)
  have hbreak' : '\n' ∉ withComment line.toList comment.toList := by
    simp [withComment, hbreak, hcomment]
  obtain ⟨s, hs, hname, hproject⟩ := (load_eq_ok_iff hread).1 hload
  refine (load_eq_ok_iff hread').2 ⟨s, ?_, hname, hproject⟩
  rw [read, String.toList_append, String.toList_append, hlines _ hbreak] at hs
  rw [read, String.toList_append, String.toList_append, toList_comment, hlines _ hbreak']
  exact readLines_withComment (hpadded _) (hpadded _) hhash hfirst hquotes hs hname

/-! ## Lines that take no comments -/

/-- A project that has a name, and a header after it. -/
def opening (header : String) : String :=
  "[project]\n" ++ "name = \"a\"\n" ++ ("[" ++ header ++ "]") ++ "\n"

/-- Reading a line after the opening. -/
theorem read_opening (hheader : header = "project" ∨ header = "dispatch")
    (hline : '\n' ∉ line.toList) (rest : String) :
    read (opening header ++ line ++ ("\n" ++ rest)) =
      readLines 4 header.toList { name := "a" } (line.toList :: split '\n' rest.toList) := by
  have hproject : Line.read "[project]".toList = .header "project".toList := by decide +kernel
  have hname : Line.read "name = \"a\"".toList = .entry "name".toList "a".toList := by
    decide +kernel
  have hset : ({} : Settings).set? "project" "name" "a".toList = some { name := "a" } := by
    decide +kernel
  have hlast : '\n' ∉ ("[" ++ header ++ "]").toList ∧
      Line.read ("[" ++ header ++ "]").toList = .header header.toList := by
    rcases hheader with rfl | rfl
    · decide +kernel
    · decide +kernel
  have htext : (opening header ++ line ++ ("\n" ++ rest)).toList =
      "[project]".toList ++ '\n' :: ("name = \"a\"".toList ++ '\n' ::
        (("[" ++ header ++ "]").toList ++ '\n' :: (line.toList ++ '\n' :: rest.toList))) := by
    rw [opening]
    simp
  rw [read, htext, split_append, split_append, split_append, split_append, split_of_not_mem hline,
    split_of_not_mem hlast.1, split_of_not_mem (by decide +kernel),
    split_of_not_mem (by decide +kernel)]
  simp only [singleton_append, readLines, hproject, hname, hlast.2, String.ofList_toList, hset]

/-- A line that takes comments makes the same project with any. -/
theorem TakesComments.exists_same (h : TakesComments line) (hbreak : '\n' ∉ line.toList)
    (hheader : header = "project" ∨ header = "dispatch") (comment : String)
    (hcomment : '\n' ∉ comment.toList) (rest : String) {t : Settings}
    (ht : readLines 4 header.toList { name := "a" } (line.toList :: split '\n' rest.toList) = .ok t)
    (hname : t.name ≠ "") :
    ∃ u, readLines 4 header.toList { name := "a" }
          (withComment line.toList comment.toList :: split '\n' rest.toList) = .ok u ∧
        ofSettings "/rspu.toml" t = ofSettings "/rspu.toml" u := by
  have hbreak' : '\n' ∉ (line ++ " #" ++ comment).toList := by
    rw [toList_comment]
    simp [withComment, hbreak, hcomment]
  have hread := read_diskWith (opening header ++ line ++ ("\n" ++ rest))
  have hread' := read_diskWith (opening header ++ (line ++ " #" ++ comment) ++ ("\n" ++ rest))
  have hload := (load_eq_ok_iff hread).2
    ⟨t, (read_opening hheader hbreak rest).trans ht, hname, rfl⟩
  obtain ⟨u, hu, -, hsame⟩ := (load_eq_ok_iff hread').1
    (h _ _ comment _ _ _ _ (.inr ⟨_, rfl⟩) (.inr ⟨rest, .inl rfl⟩) hcomment hread hread' hload)
  rw [read_opening hheader hbreak', toList_comment] at hu
  exact ⟨u, hu, hsame⟩

/-- The name is set again under the header of projects only. -/
theorem readLines_rename (number : Nat) (header : List Char) (s : Settings) :
    readLines number header s (split '\n' "name = \"b\"".toList) =
      .ok (if String.ofList header = "project" then { s with name := "b" } else s) := by
  have hread : Line.read "name = \"b\"".toList = .entry "name".toList "b".toList := by
    decide +kernel
  rw [split_of_not_mem (by decide +kernel), readLines, hread]
  dsimp only
  rw [String.ofList_toList]
  by_cases hheader : String.ofList header = "project"
  · have hset : s.set? "project" "name" "b".toList =
      some { s with name := String.ofList "b".toList } := rfl
    rw [hheader, hset, String.ofList_toList, if_pos rfl]
    rfl
  · have hset : s.set? (String.ofList header) "name" "b".toList = some s := by
      refine set?_of_unknown (fun f hf hkey => ?_) s _
      obtain rfl : f = .name := Field.key_inj hkey
      exact hheader hf.symm
    rw [hset, if_neg hheader]
    rfl

/-- After a line that takes comments, a header is the same with one. -/
theorem TakesComments.project_iff (h : TakesComments line) (hbreak : '\n' ∉ line.toList)
    (hheader : header = "project" ∨ header = "dispatch") (comment : String)
    (hcomment : '\n' ∉ comment.toList) {next next' : List Char}
    (hplain : (Line.read line.toList).apply header.toList { name := "a" } =
      some (next, { name := "a" }))
      (hmarked : (Line.read (withComment line.toList comment.toList)).apply header.toList
        { name := "a" } = some (next', { name := "a" })) :
    String.ofList next = "project" ↔ String.ofList next' = "project" := by
  -- Whether the name is set again after the line tells which header it is under.
  have hname (header : List Char) :
      (if String.ofList header = "project" then { name := "b" }
        else { name := "a" } : Settings).name =
        if String.ofList header = "project" then "b" else "a" := apply_ite _ _ _ _
  have ht := (readLines_cons_of_apply hplain).2 (readLines_rename 5 next _)
  obtain ⟨u, hu, hsame⟩ := h.exists_same hbreak hheader comment hcomment "name = \"b\"" ht (by
    rw [hname]
    split <;> decide)
  rw [readLines_cons_of_apply hmarked, readLines_rename] at hu
  cases hu
  have hshown := congrArg Project.name hsame
  rw [ofSettings, ofSettings] at hshown
  dsimp only at hshown
  rw [hname, hname] at hshown
  by_cases hnext : String.ofList next = "project"
  · by_cases hnext' : String.ofList next' = "project"
    · exact iff_of_true hnext hnext'
    · rw [if_pos hnext, if_neg hnext'] at hshown
      exact absurd hshown (by decide)
  · by_cases hnext' : String.ofList next' = "project"
    · rw [if_neg hnext, if_pos hnext'] at hshown
      exact absurd hshown (by decide)
    · exact iff_of_false hnext hnext'

/-- No comment can stand after a line that starts with a bracket: a header is lost, and another line
becomes one if the comment ends with a bracket. -/
theorem not_takesComments_of_bracket (hbreak : '\n' ∉ line.toList)
    (hfirst : (trim line.toList).head? = some '[') : ¬TakesComments line := by
  intro h
  have hhead (comment : List Char) : (trim (withComment line.toList comment)).head? = some '[' :=
    head?_trim_append hfirst _
  by_cases hlast : (trim line.toList).getLast? = some ']'
  · have hsilent : (Line.read (withComment line.toList "".toList)).Silent := by
      refine silent_of_bracket (hhead _) ?_
      rw [trim_withComment]
      simp [dropEndWhile]
    have hheader {header : String} (hheader : header = "project" ∨ header = "dispatch") :
        String.ofList (trim ((trim line.toList).drop 1).dropLast) = "project" ↔
            header = "project" := by
      have hiff := h.project_iff hbreak hheader "" (by decide)
        (by rw [read_of_brackets hfirst hlast]; rfl) (hsilent _ _)
      rwa [String.ofList_toList] at hiff
    exact absurd ((hheader (.inr rfl)).1 ((hheader (.inl rfl)).2 rfl)) (by decide)
  · have htrim : trim (withComment line.toList "]".toList) =
      (line.toList ++ [' ']).dropWhile isBlank ++ ['#', ']'] :=
      trim_withComment line.toList "]".toList
    have hread := read_of_brackets (hhead "]".toList) (by rw [htrim]; simp)
    have hproject :=
      (h.project_iff hbreak (.inl rfl) "]" (by decide) (silent_of_bracket hfirst hlast _ _)
      (by rw [hread]; rfl)).1 (by decide)
    have hmem : '#' ∈ trim ((trim (withComment line.toList "]".toList)).drop 1).dropLast := by
      refine mem_dropBoth (by decide) ?_
      have hbracket := hhead "]".toList
      rw [htrim] at hbracket ⊢
      cases hfront : (line.toList ++ [' ']).dropWhile isBlank with
      | nil =>
        rw [hfront] at hbracket
        exact absurd hbracket (by decide)
      | cons b bs => simp
    rw [← String.toList_ofList (l := trim _), hproject] at hmem
    exact absurd hmem (by decide)

/-- Whether there is a `#` in a path. -/
theorem mem_join (path : String) : '#' ∈ (Path.join "/" path).toList ↔ '#' ∈ path.toList := by
  rw [Path.join]
  split
  next => exact Iff.rfl
  next =>
    split
    · simp
    · simp

/-- What a project shows of a field. -/
def shown (p : Project) : Field → String
  | .name => p.name
  | .source => p.sourceDir
  | .output => p.outputDir
  | .lead => p.lead
  | .extension => p.extension
  | .workers => toString p.workers

/-- Whether a project shows a `#`. -/
theorem mem_shown (s : Settings) (f : Field) :
    '#' ∈ (shown (ofSettings "/rspu.toml" s) f).toList ↔ '#' ∈ (s.get f).toList := by
  have hroot : (Path.parent? "/rspu.toml").getD "." = "/" := by decide +kernel
  cases f with
  | source =>
    rw [shown, ofSettings, hroot]
    exact mem_join s.source
  | output =>
    rw [shown, ofSettings, hroot]
    exact mem_join s.output
  | _ => exact Iff.rfl

/-- Whether a `#` is kept. -/
theorem Field.mem_clean {f : Field} : '#' ∈ (f.clean value).toList ↔ '#' ∈ value := by
  cases f with
  | extension =>
    rw [Field.clean, String.toList_ofList, ← count_pos_iff, count_dropWhile (by decide),
      count_pos_iff]
  | _ => rw [Field.clean, String.toList_ofList]; exact nofun

/-- No number has a `#` in it. -/
theorem readCount?_of_mem (h : '#' ∈ value) : readCount? value = none := by
  have hrefused {digits : List Char} (hmem : '#' ∈ digits) :
      (digits.isEmpty || !digits.all fun c => '0' ≤ c && c ≤ '9') = true := by
    rw [Bool.or_eq_true, Bool.not_eq_true', all_eq_false]
    exact .inr ⟨'#', hmem, by decide⟩
  unfold readCount?
  split
  next rest =>
    refine if_pos (hrefused ?_)
    simpa using h
  next => exact if_pos (hrefused h)

/-- What an entry that takes comments sets, it sets with a comment. -/
theorem TakesComments.exists_set? (h : TakesComments line) (hhash : '#' ∉ line.toList)
    (hbreak : '\n' ∉ line.toList) (hfirst : (trim line.toList).head? ≠ some '[')
    {key value : List Char} (hsplit : splitFirst? '=' line.toList = some (key, value)) {f : Field}
    (hkey : f.key = String.ofList (unquote (trim key))) {t : Settings}
    (hset : ({ name := "a" } : Settings).set? f.header f.key (unquote (trim value)) = some t)
    (hname : t.name ≠ "") :
    ∃ u, ({ name := "a" } : Settings).set? f.header f.key
        (unquote (stripComment (trim (withComment value "".toList)))) = some u ∧
      ofSettings "/rspu.toml" t = ofSettings "/rspu.toml" u := by
  obtain ⟨hread, hread'⟩ := read_entry_withComment hhash hfirst hsplit
  have hheader : f.header = "project" ∨ f.header = "dispatch" := by cases f <;> decide
  -- The entry is the last line of a project, so that its value is the one that shows.
  have hend (number : Nat) (s : Settings) : readLines number f.header.toList s
    (split '\n' "".toList) = .ok s := rfl
  have ht : readLines 4 f.header.toList { name := "a" }
      (line.toList :: split '\n' "".toList) = .ok t := by
    refine readLines_cons_eq_ok_iff.2 ⟨f.header.toList, t, ?_, hend _ t⟩
    rw [hread, apply, String.ofList_toList, ← hkey, hset]
    rfl
  obtain ⟨u, hu, hproject⟩ := h.exists_same hbreak hheader "" (by decide) "" ht hname
  obtain ⟨next, w, hw, hrest⟩ := readLines_cons_eq_ok_iff.1 hu
  rw [hread', apply, String.ofList_toList, ← hkey] at hw
  obtain ⟨v, hv, hpair⟩ := Option.map_eq_some_iff.1 hw
  cases hpair
  rw [hend] at hrest
  cases hrest
  exact ⟨u, hv, hproject⟩

/-- No comment can stand after an entry that counts, while quotes are open. -/
theorem not_takesComments_of_open (hhash : '#' ∉ line.toList) (hbreak : '\n' ∉ line.toList)
    (hfirst : (trim line.toList).head? ≠ some '[') {key value : List Char}
    (hsplit : splitFirst? '=' line.toList = some (key, value)) (hquotes : Odd (value.count '"'))
    (hcounts : Counts (unquote (trim key)) (unquote (trim value))) : ¬TakesComments line := by
  intro h
  obtain ⟨f, hkey, hname, hcount⟩ := hcounts
  obtain ⟨hline, -⟩ := splitFirst?_eq_some_iff.1 hsplit
  have hvalue : '#' ∉ value := fun hmem => hhash (by simp [hline, hmem])
  have hvalue' : '#' ∉ unquote (trim value) :=
    fun hmem => hvalue (dropBoth_subset _ _ (dropBoth_subset _ _ hmem))
  have hmarked := mem_value_withComment hvalue hquotes "".toList
  by_cases hworkers : f = .workers
  · subst hworkers
    obtain ⟨n, hn⟩ := Option.isSome_iff_exists.1 (hcount rfl)
    have hset : ({ name := "a" } : Settings).set? Field.workers.header Field.workers.key
      (unquote (trim value)) =
        some { name := "a", workers := n } := by
      rw [set?_workers, hn]
      rfl
    obtain ⟨u, hu, -⟩ :=
      h.exists_set? hhash hbreak hfirst hsplit hkey hset (show "a" ≠ "" by decide)
    rw [set?_workers, readCount?_of_mem hmarked] at hu
    cases hu
  · obtain ⟨t, ht, hget⟩ := exists_set? { name := "a" } f (unquote (trim value)) fun hf =>
      absurd hf hworkers
    have hnamed : t.name ≠ "" := by
      intro hempty
      have hget' : t.name =
        if Field.name = f then f.clean (unquote (trim value)) else "a" := hget .name
      rw [hempty] at hget'
      split at hget'
      next hf =>
        subst hf
        exact hname rfl (String.ofList_injective hget'.symm)
      next => exact absurd hget' (by decide)
    obtain ⟨u, hu, hproject⟩ := h.exists_set? hhash hbreak hfirst hsplit hkey ht hnamed
    obtain ⟨v, hv, hget'⟩ := exists_set? { name := "a" } f
      (unquote (stripComment (trim (withComment value "".toList)))) fun hf => absurd hf hworkers
    rw [hu] at hv
    cases hv
    have hshown : '#' ∈ (u.get f).toList := by
      rw [hget' f, if_pos rfl]
      exact Field.mem_clean.2 hmarked
    have hplain : '#' ∈ (t.get f).toList := by
      rw [← mem_shown, hproject, mem_shown]
      exact hshown
    rw [hget f, if_pos rfl, Field.mem_clean] at hplain
    exact hvalue' hplain

end Settings

open Settings

/-- A comment can stand after a line exactly if the line does not start with a bracket and quotes
are not open at the end of an entry that a project can depend on. -/
theorem takesComments_iff {line : String} (hhash : '#' ∉ line.toList)
    (hbreak : '\n' ∉ line.toList) :
    TakesComments line ↔
      (Text.trim line.toList).head? ≠ some '[' ∧
        ∀ key value, Text.splitFirst? '=' line.toList = some (key, value) → Odd (value.count '"') →
          ¬Counts (unquote (Text.trim key)) (unquote (Text.trim value)) := by
  constructor
  · intro h
    have hfirst : (Text.trim line.toList).head? ≠ some '[' := fun hfirst =>
      not_takesComments_of_bracket hbreak hfirst h
    exact ⟨hfirst, fun key value hsplit hquotes hcounts =>
      not_takesComments_of_open hhash hbreak hfirst hsplit hquotes hcounts h⟩
  · rintro ⟨hfirst, hquotes⟩
    exact takesComments_of_closed hhash hbreak hfirst hquotes

/-- Blanks and brackets in a value do not matter, nor do quotes that are closed. -/
theorem takesComments_name :
    '#' ∉ " name = \"[a]\" ".toList ∧ '\n' ∉ " name = \"[a]\" ".toList ∧
    TakesComments " name = \"[a]\" " := by
  have hsplit : Text.splitFirst? '=' " name = \"[a]\" ".toList =
      some (" name ".toList, " \"[a]\" ".toList) := by
    decide +kernel
  refine ⟨by decide, by decide, (takesComments_iff (by decide) (by decide)).2
    ⟨by decide +kernel, ?_⟩⟩
  intro key value hkey hquotes
  cases hsplit.symm.trans hkey
  exact absurd hquotes (by decide +kernel)

/-- With a comment, a header is lost and a project may have no name any more. And a quote in front
of a `=` does not close one after it, so that a comment becomes a part of the name. -/
theorem load_header_comment :
    (load "/rspu.toml" : StateM Disk _) (diskWith "[project]\nname = \"a\"\n") =
        (.ok (ofSettings "/rspu.toml" { name := "a" }), diskWith "[project]\nname = \"a\"\n") ∧
      (load "/rspu.toml" : StateM Disk _) (diskWith "[project] # settings\nname = \"a\"\n") =
        (.error ((Diagnostic.error "missing 'name' in rspu.toml").withHelp
          "add `name = \"...\"` under [project]"),
          diskWith "[project] # settings\nname = \"a\"\n") ∧
      (load "/rspu.toml" : StateM Disk _) (diskWith "[project]\nname\" = \"a\n") =
        (.ok (ofSettings "/rspu.toml" { name := "a" }), diskWith "[project]\nname\" = \"a\n") ∧
      (load "/rspu.toml" : StateM Disk _) (diskWith "[project]\nname\" = \"a # b\n") =
        (.ok (ofSettings "/rspu.toml" { name := "a # b" }),
          diskWith "[project]\nname\" = \"a # b\n") := by
  simp only [load_eq, read_diskWith]
  refine ⟨congrArg (·, _) ?_, congrArg (·, _) ?_, congrArg (·, _) ?_, congrArg (·, _) ?_⟩
  all_goals decide +kernel

end ComputeKernel
