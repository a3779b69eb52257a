import ComputeKernel.Proofs.Json.Alike
import ComputeKernel.Proofs.Json.Grammar

/-!
# Reading in any order

A reader respects a relation when it reads related things as the same (`Respects`). The relations
are those of being the same up to the order of members, `Value.Alike` and `Document.Alike`. A record
does not heed the order if different fields are put into it independently (`Record.Unordered`),
which is built up along with the record. A tagged node takes its tag out of wherever it stands, and
reads a record from the rest.
-/

namespace ComputeKernel.Json

open List
open Value (Alike)

variable {ν ε α β : Type}

/-- Related things are read as the same. -/
def Respects (R : ν → ν → Prop) (read : ν → Except ε α) : Prop :=
  ∀ v v' a, R v v' → read v = .ok a → read v' = .ok a

/-- So they are when the result is changed. -/
theorem Respects.map {R : ν → ν → Prop} {read : ν → Except ε α} (h : Respects R read) (f : α → β) :
    Respects R fun v => (read v).map f := by
  intro v v' b hv hok
  obtain ⟨a, ha, rfl⟩ := exists_of_map_ok hok
  exact congrArg (Except.map f) (h v v' a hv ha)

/-- Lists of related things are read as the same. -/
theorem Respects.mapM {R : ν → ν → Prop} {read : ν → Except ε α} (h : Respects R read)
    {vs vs' : List ν} (hvs : Forall₂ R vs vs') {as : List α} (hok : vs.mapM read = .ok as) :
    vs'.mapM read = .ok as := by
  induction hvs generalizing as with
  | nil => exact hok
  | @cons v v' vs vs' hv hvs ih =>
    rw [mapM_cons] at hok ⊢
    obtain ⟨a, ha, hok⟩ := exists_of_bind_ok hok
    obtain ⟨rest, hrest, hok⟩ := exists_of_bind_ok hok
    exact bind_ok (h v v' a hv ha) (bind_ok (ih hrest) hok)

/-- Values other than arrays and objects have no order. -/
theorem Value.respects_of_scalar {read : Value → Except ε α}
    (harray : ∀ vs a, read (.array vs) ≠ .ok a) (hobject : ∀ ms a, read (.object ms) ≠ .ok a) :
    Respects Alike read := by
  intro v v' a hv hok
  cases hv with
  | null | bool | number | string => exact hok
  | array => exact absurd hok (harray _ a)
  | object => exact absurd hok (hobject _ a)

/-! ## Records -/

namespace Record

variable {R : ν → ν → Prop} {f : Record ν ε (α → β)} {r : Record ν ε α}
variable {ms ms' : List (String × ν)} {name : String} {read : ν → Except ε α} {s t : r.State}

/-- Related values are put into a field alike, and fields in any order. -/
structure Unordered (R : ν → ν → Prop) (r : Record ν ε α) : Prop where
  put_related : ∀ {s t name v v'}, R v v' → r.put s name v = .ok t → r.put s name v' = .ok t
  isSet_put : ∀ {s t name v}, name ∈ r.names → r.put s name v = .ok t → r.isSet t name = true
  isSet_put_of_ne : ∀ {s t name other v}, name ∈ r.names → other ∈ r.names → name ≠ other →
    r.put s name v = .ok t → r.isSet t other = r.isSet s other
  put_comm : ∀ {s t u name other v w}, name ∈ r.names → other ∈ r.names → name ≠ other →
    r.put s name v = .ok t →
    r.put t other w = .ok u → ∃ t', r.put s other w = .ok t' ∧ r.put t' name v = .ok u

/-- No fields have no order. -/
theorem unordered_pure (a : α) : (pure a : Record ν ε α).Unordered R where
  put_related _ hput := hput
  isSet_put hname := nomatch hname
  isSet_put_of_ne hname := nomatch hname
  put_comm hname := nomatch hname

/-- Nor has one field. -/
theorem unordered_single (name : String) (default : Option α) (h : Respects R read) :
    (single name default read).Unordered R where
  put_related {s t name v v'} hv hput := h.map some v v' t hv hput
  isSet_put hname hput := by
    obtain ⟨a, -, rfl⟩ := exists_of_map_ok hput
    rfl
  isSet_put_of_ne hname hother hne :=
    absurd ((mem_singleton.1 hname).trans (mem_singleton.1 hother).symm) hne
  put_comm hname hother hne :=
    absurd ((mem_singleton.1 hname).trans (mem_singleton.1 hother).symm) hne

/-- A field is put into one of the two groups. -/
theorem put_and_eq_ok {s t : (f.and r).State} {v : ν} (h : (f.and r).put s name v = .ok t) :
    (name ∈ f.names ∧ ∃ t₁, f.put s.1 name v = .ok t₁ ∧ t = (t₁, s.2)) ∨
      (name ∉ f.names ∧ ∃ t₂, r.put s.2 name v = .ok t₂ ∧ t = (s.1, t₂)) := by
  simp only [and] at h
  split at h
  next hname =>
    obtain ⟨t₁, ht, rfl⟩ := exists_of_map_ok h
    exact .inl ⟨hname, t₁, ht, rfl⟩
  next hname =>
    obtain ⟨t₂, ht, rfl⟩ := exists_of_map_ok h
    exact .inr ⟨hname, t₂, ht, rfl⟩

/-- A name that is not in the first group is in the second. -/
theorem mem_names_right (h : name ∈ (f.and r).names) (hf : name ∉ f.names) : name ∈ r.names :=
  (mem_append.1 h).resolve_left hf

/-- Groups of fields do not matter to each other. -/
theorem Unordered.and (hf : f.Unordered R) (hr : r.Unordered R) : (f.and r).Unordered R where
  put_related := by
    intro s t name v v' hv hput
    rcases put_and_eq_ok hput with ⟨hname, t₁, ht, rfl⟩ | ⟨hname, t₂, ht, rfl⟩
    · exact put_and_of_mem hname (hf.put_related hv ht)
    · exact put_and_of_not_mem hname (hr.put_related hv ht)
  isSet_put := by
    intro s t name v hmem hput
    rcases put_and_eq_ok hput with ⟨hname, t₁, ht, rfl⟩ | ⟨hname, t₂, ht, rfl⟩
    · exact (isSet_and_of_mem hname).trans (hf.isSet_put hname ht)
    · exact (isSet_and_of_not_mem hname).trans (hr.isSet_put (mem_names_right hmem hname) ht)
  isSet_put_of_ne := by
    intro s t name other v hmem hmem' hne hput
    obtain ⟨s₁, s₂⟩ := s
    by_cases hother : other ∈ f.names
    · rw [isSet_and_of_mem hother]
      rcases put_and_eq_ok hput with ⟨hname, t₁, ht, rfl⟩ | ⟨hname, t₂, ht, rfl⟩
      · exact (isSet_and_of_mem hother).trans (hf.isSet_put_of_ne hname hother hne ht)
      · exact isSet_and_of_mem hother
    · rw [isSet_and_of_not_mem hother]
      rcases put_and_eq_ok hput with ⟨hname, t₁, ht, rfl⟩ | ⟨hname, t₂, ht, rfl⟩
      · exact isSet_and_of_not_mem hother
      · exact (isSet_and_of_not_mem hother).trans
          (hr.isSet_put_of_ne (mem_names_right hmem hname) (mem_names_right hmem' hother) hne ht)
  put_comm := by
    intro s t u name other v w hmem hmem' hne hput hput'
    obtain ⟨s₁, s₂⟩ := s
    rcases put_and_eq_ok hput with ⟨hname, t₁, ht, rfl⟩ | ⟨hname, t₂, ht, rfl⟩
    · rcases put_and_eq_ok hput' with ⟨hother, u₁, hu, rfl⟩ | ⟨hother, u₂, hu, rfl⟩
      · obtain ⟨t', ht', hu'⟩ := hf.put_comm hname hother hne ht hu
        exact ⟨(t', s₂), put_and_of_mem hother ht', put_and_of_mem hname hu'⟩
      · exact ⟨(s₁, u₂), put_and_of_not_mem hother hu, put_and_of_mem hname ht⟩
    · rcases put_and_eq_ok hput' with ⟨hother, u₁, hu, rfl⟩ | ⟨hother, u₂, hu, rfl⟩
      · exact ⟨(u₁, s₂), put_and_of_mem hother hu, put_and_of_not_mem hname ht⟩
      · obtain ⟨t', ht', hu'⟩ :=
          hr.put_comm (mem_names_right hmem hname) (mem_names_right hmem' hother) hne ht hu
        exact ⟨(s₁, t'), put_and_of_not_mem hother ht', put_and_of_not_mem hname hu'⟩

/-- One more field that has to be there. -/
theorem Unordered.field (hf : f.Unordered R) (name : String) (h : Respects R read) :
    (f.field name read).Unordered R :=
  hf.and (unordered_single name none h)

/-- One more field that may be left out. -/
theorem Unordered.optional (hf : f.Unordered R) (name : String) {default : α}
    (h : Respects R read) : (f.optional name default read).Unordered R :=
  hf.and (unordered_single name (some default) h)

/-! ### Members in another order -/

/-- Related members fill it in the same way. -/
theorem Unordered.fills_related (h : r.Unordered R) (hms : Forall₂ (Named R) ms ms')
    (hfills : r.Fills s ms t) : r.Fills s ms' t := by
  induction hms generalizing s with
  | nil => exact hfills
  | cons hm hms ih =>
    obtain ⟨hname, hset, u, hput, hrest⟩ := hfills
    rw [hm.1] at hname hset hput
    exact ⟨hname, hset, u, h.put_related hm.2 hput, ih hrest⟩

/-- Members in another order fill it so. -/
theorem Unordered.fills_perm (h : r.Unordered R) (hms : ms.Perm ms')
    (hfills : r.Fills s ms t) : r.Fills s ms' t := by
  induction hms generalizing s with
  | nil => exact hfills
  | cons m hms ih =>
    obtain ⟨hname, hset, u, hput, hrest⟩ := hfills
    exact ⟨hname, hset, u, hput, ih hrest⟩
  | swap m m' ms =>
    obtain ⟨hname, hset, u, hput, hname', hset', u', hput', hrest⟩ := hfills
    -- The second name was not set after the first member, so it is another name.
    have hne : m'.1 ≠ m.1 := by
      intro heq
      rw [← heq, h.isSet_put hname hput] at hset'
      cases hset'
    obtain ⟨w, hw, hw'⟩ := h.put_comm hname hname' hne hput hput'
    refine ⟨hname', ?_, w, hw, hname, ?_, u', hw', hrest⟩
    · exact (h.isSet_put_of_ne hname hname' hne hput).symm.trans hset'
    · exact (h.isSet_put_of_ne hname' hname hne.symm hw).trans hset
  | trans _ _ ih₁ ih₂ => exact ih₂ (ih₁ hfills)

/-- So do related ones in another order. -/
theorem Unordered.fills (h : r.Unordered R) (hms : Rearranged (Named R) ms ms')
    (hfills : r.Fills s ms t) : r.Fills s ms' t := by
  obtain ⟨ms₁, hrel, hperm⟩ := hms
  exact h.fills_perm hperm (h.fills_related hrel hfills)

/-- The members under declared names. -/
def declared (r : Record ν ε α) (ms : List (String × ν)) : List (String × ν) :=
  ms.filter (·.1 ∈ r.names)

/-- A declared member stays. -/
theorem declared_of_mem (h : name ∈ r.names) (v : ν) (ms : List (String × ν)) :
    r.declared ((name, v) :: ms) = (name, v) :: r.declared ms :=
  filter_cons_of_pos (by simpa using h)

/-- Another one goes. -/
theorem declared_of_not_mem (h : name ∉ r.names) (v : ν) (ms : List (String × ν)) :
    r.declared ((name, v) :: ms) = r.declared ms :=
  filter_cons_of_neg (by simpa using h)

/-- Declared members fill it in any order. -/
theorem Unordered.fills_declared (h : r.Unordered R) (hms : Rearranged (Named R) ms ms')
    (hfills : r.Fills s (r.declared ms) t) : r.Fills s (r.declared ms') t :=
  h.fills (hms.filter fun m m' hm => by rw [hm.1]) hfills

/-! ### Records in values -/

section

variable {r : Record Value Cause α}

/-- Members are put in when those declared fill the record. -/
theorem putMembers_eq_ok_iff {ms : List (String × Value)} {s t : r.State} :
    r.putMembers s ms = .ok t ↔ r.Fills s (r.declared ms) t := by
  induction ms generalizing s with
  | nil => exact Except.ok.injEq s t ▸ Iff.rfl
  | cons m ms ih =>
    obtain ⟨name, v⟩ := m
    rw [putMembers]
    by_cases hname : name ∈ r.names
    · rw [if_pos hname, declared_of_mem hname]
      constructor
      · intro hok
        split at hok
        next => cases hok
        next hset =>
          obtain ⟨u, hput, hok⟩ := exists_of_bind_ok hok
          exact ⟨hname, Bool.eq_false_iff.2 hset, u, hput, ih.1 hok⟩
      · rintro ⟨-, hset, u, hput, hrest⟩
        rw [hset]
        exact bind_ok hput (ih.2 hrest)
    · rw [if_neg hname, declared_of_not_mem hname]
      exact ih

/-- An object is read in any order. -/
theorem Unordered.ofMembers? (h : r.Unordered Alike) {ms ms' : List (String × Value)}
    (hms : Rearranged (Named Alike) ms ms') {a : α} (hok : r.ofMembers? ms = .ok a) :
    r.ofMembers? ms' = .ok a := by
  obtain ⟨s, hs, hok⟩ := exists_of_bind_ok hok
  exact bind_ok (putMembers_eq_ok_iff.2 (h.fills_declared hms (putMembers_eq_ok_iff.1 hs))) hok

/-- Related items are put into a record. -/
theorem Unordered.putValues (h : r.Unordered Alike) {vs vs' : List Value}
    (hvs : Forall₂ Alike vs vs') {names : List String} {s t : r.State}
    (hok : r.putValues s names vs = .ok t) : r.putValues s names vs' = .ok t := by
  induction names generalizing s vs vs' with
  | nil => exact hok
  | cons name names ih =>
    cases hvs with
    | nil => exact hok
    | cons hv hvs =>
      obtain ⟨u, hput, hok⟩ := exists_of_bind_ok hok
      exact bind_ok (h.put_related hv hput) (ih hvs hok)

/-- An array of related items is read. -/
theorem Unordered.ofValues? (h : r.Unordered Alike) {label : String} {vs vs' : List Value}
    (hvs : Forall₂ Alike vs vs') {a : α} (hok : r.ofValues? label vs = .ok a) :
    r.ofValues? label vs' = .ok a := by
  obtain ⟨s, hs, hok⟩ := exists_of_bind_ok hok
  rw [hvs.length_eq] at hok
  exact bind_ok (h.putValues hvs hs) hok

/-- A record respects the order of members. -/
theorem Unordered.ofValue? (h : r.Unordered Alike) (label : String) :
    Respects Alike (r.ofValue? label) := by
  intro v v' a hv hok
  match v, v', hv with
  | .array vs, .array vs', .array hvs => exact h.ofValues? hvs hok
  | .object ms, .object ms', hv@(.object _ _ _) => exact h.ofMembers? hv.rearranged hok

end

/-! ### Records in documents -/

end Record

/-- Two placed documents are alike. -/
def Placed.Alike (p p' : Placed) : Prop := p.value.Alike p'.value

/-- A place does not matter. -/
theorem Respects.placed {read : Document → Except Refusal α} (h : Respects Document.Alike read) :
    Respects Placed.Alike (read ·.value) :=
  fun p p' => h p.value p'.value

namespace Record

variable {r : Record Placed Refusal α}

/-- A member with its name, passed over if that is not declared. -/
def Meets (r : Record Placed Refusal α) (e : Entry Document) (m : String × Placed) : Prop :=
  e.key.text? = .ok m.1 ∧ m.2 = ⟨e.value, e.next⟩ ∧ (m.1 ∉ r.names → e.value.skim = .ok ())

/-- Entries are put in when all have names and those declared fill it. -/
theorem putEntries_eq_ok_iff {es : List (Entry Document)} {s t : r.State} :
    r.putEntries s es = .ok t ↔ ∃ ms, Forall₂ r.Meets es ms ∧ r.Fills s (r.declared ms) t := by
  induction es generalizing s with
  | nil =>
    constructor
    · intro hok
      exact ⟨[], .nil, Except.ok.inj hok⟩
    · rintro ⟨ms, hms, hfills⟩
      cases hms
      exact congrArg Except.ok hfills
  | cons e es ih =>
    constructor
    · intro hok
      obtain ⟨name, hkey, hok⟩ := exists_of_bind_ok hok
      split at hok
      next hname =>
        dsimp only at hok
        split at hok
        next => cases hok
        next hset =>
          obtain ⟨u, hput, hok⟩ := exists_of_bind_ok hok
          obtain ⟨ms, hms, hfills⟩ := ih.1 hok
          refine ⟨(name, ⟨e.value, e.next⟩) :: ms, .cons ⟨hkey, rfl, absurd hname⟩ hms, ?_⟩
          rw [declared_of_mem hname]
          exact ⟨hname, Bool.eq_false_iff.2 hset, u, hput, hfills⟩
      next hname =>
        obtain ⟨_, hskim, hok⟩ := exists_of_bind_ok hok
        obtain ⟨ms, hms, hfills⟩ := ih.1 hok
        refine ⟨(name, ⟨e.value, e.next⟩) :: ms, .cons ⟨hkey, rfl, fun _ => hskim⟩ hms, ?_⟩
        rw [declared_of_not_mem hname]
        exact hfills
    · rintro ⟨ms, hms, hfills⟩
      cases hms with
      | @cons _ m _ ms hm hms =>
        obtain ⟨name, p⟩ := m
        obtain ⟨hkey, rfl, hskim⟩ := hm
        refine bind_ok hkey ?_
        dsimp only at hskim ⊢
        split
        next hname =>
          rw [declared_of_mem hname] at hfills
          obtain ⟨-, hset, u, hput, hrest⟩ := hfills
          rw [hset]
          exact bind_ok hput (ih.2 ⟨ms, hms, hrest⟩)
        next hname =>
          rw [declared_of_not_mem hname] at hfills
          exact bind_ok (hskim hname) (ih.2 ⟨ms, hms, hfills⟩)

/-- Entries are put into a record in any order. -/
theorem Unordered.putEntries (h : r.Unordered Placed.Alike) {es es' : List (Entry Document)}
    (hes : Rearranged Entry.Alike es es') {s t : r.State} (hok : r.putEntries s es = .ok t) :
    r.putEntries s es' = .ok t := by
  obtain ⟨ms, hms, hfills⟩ := putEntries_eq_ok_iff.1 hok
  obtain ⟨ms', hms', hrel⟩ :=
      hes.join (Q := r.Meets) (S := Named Placed.Alike) hms fun e _ e' m hrel hm => by
    obtain ⟨hkey, hvalue, -⟩ := hm
    refine ⟨(m.1, ⟨e'.value, e'.next⟩), ⟨hrel.1.text? hkey, rfl, fun _ => hrel.2.skim⟩, rfl, ?_⟩
    rw [hvalue]
    exact hrel.2
  exact putEntries_eq_ok_iff.2 ⟨ms', hms', h.fills_declared hrel hfills⟩

/-- Related items are put into a record. -/
theorem Unordered.putItems (h : r.Unordered Placed.Alike) {is is' : List Placed}
    (his : Forall₂ Placed.Alike is is') {names : List String} {s t : r.State}
    {surplus : List Placed} (hok : r.putItems s names is = .ok (t, surplus)) :
    ∃ surplus', r.putItems s names is' = .ok (t, surplus') ∧
    Forall₂ Placed.Alike surplus surplus' := by
  induction names generalizing s is is' with
  | nil =>
    cases hok
    exact ⟨is', rfl, his⟩
  | cons name names ih =>
    cases his with
    | nil =>
      cases hok
      exact ⟨[], rfl, .nil⟩
    | cons hi his =>
      obtain ⟨u, hput, hok⟩ := exists_of_bind_ok hok
      obtain ⟨surplus', hok', hrel⟩ := ih his hok
      exact ⟨surplus', bind_ok (h.put_related hi hput) hok', hrel⟩

/-- A record respects the order of members in documents. -/
theorem Unordered.ofDocument? (h : r.Unordered Placed.Alike) (label : String) (room : Nat) :
    Respects Document.Alike (r.ofDocument? label room) := by
  intro d d' a hd hok
  match d, d', hd with
  | .array _ is _, .array _ is' _, .array his =>
    simp only [Record.ofDocument?] at hok ⊢
    split at hok
    next => cases hok
    next hroom =>
      rw [if_neg hroom]
      obtain ⟨⟨s, surplus⟩, hs, hok⟩ := exists_of_bind_ok hok
      obtain ⟨b, hb, hok⟩ := exists_of_bind_ok hok
      obtain ⟨surplus', hs', hrel⟩ := h.putItems his hs
      refine bind_ok hs' (bind_ok (mapError_ok (ok_of_mapError_ok hb)) ?_)
      cases hrel with
      | nil => exact hok
      | cons => cases hok
  | .object _ es _, .object _ es' _, hd@(.object _ _ _) =>
    simp only [Record.ofDocument?] at hok ⊢
    split at hok
    next => cases hok
    next hroom =>
      rw [if_neg hroom]
      obtain ⟨s, hs, hok⟩ := exists_of_bind_ok hok
      exact bind_ok (h.putEntries hd.rearranged hs) (mapError_ok (ok_of_mapError_ok hok))

end Record

/-! ## Tagged nodes -/

/-- What two nodes hold beside their tags is alike. -/
inductive Content.Alike : Content → Content → Prop
  | items {vs vs' : List Value} : Forall₂ Value.Alike vs vs' → Alike (.items vs) (.items vs')
  | members {ms ms' : List (String × Value)} :
      Rearranged (Named Value.Alike) ms ms' → Alike (.members ms) (.members ms')

/-- So does a record of a node. -/
theorem Record.Unordered.record? {r : Record Value Cause α} (h : r.Unordered Alike)
    (label : String) :
    Respects Content.Alike (Content.record? r label) := by
  intro c c' a hc hok
  cases hc with
  | items hvs => exact h.ofValues? hvs hok
  | members hms => exact h.ofMembers? hms hok

/-- So does a node without fields. -/
theorem Content.respects_unit? (a : α) : Respects Content.Alike (Content.unit? a) := by
  intro c c' b hc hok
  cases hc with
  | items hvs =>
    cases hvs with
    | nil => exact hok
    | cons => cases hok
  | members hms => exact hok

namespace Variants

variable {vs : Variants α}

/-- Each variant is read from its content in any order. -/
def Unordered (vs : Variants α) : Prop := ∀ p ∈ vs, Respects Content.Alike p.2

/-- A tag has no order. -/
theorem respects_ofTag? (vs : Variants α) : Respects Value.Alike vs.ofTag? :=
  Value.respects_of_scalar (fun _ _ h => nomatch h) fun _ _ h => nomatch h

/-- Nor has one in a document. -/
theorem respects_ofTagDocument? (vs : Variants α) : Respects Document.Alike vs.ofTagDocument? := by
  intro d d' read hd hok
  cases hd with
  | string line line' name => exact mapError_ok (ok_of_mapError_ok hok)
  | null | bool | number | flawed | array | object => cases hok

/-- A tagged node is read from a value in any order. -/
theorem Unordered.ofValue? (h : vs.Unordered) (type : String) :
    Respects Alike (vs.ofValue? type) := by
  intro v v' a hv hok
  match v, v', hv with
  | .array (tag :: _), .array (tag' :: _), .array (.cons htag hitems) =>
    obtain ⟨read, hread, hok⟩ := exists_of_bind_ok hok
    obtain ⟨name, hmem⟩ := mem_of_ofTag? hread
    exact bind_ok (vs.respects_ofTag? tag tag' read htag hread) (h _ hmem _ _ a (.items hitems) hok)
  | .object ms, .object ms', hv@(.object _ _ _) =>
    obtain ⟨⟨read, others⟩, hsplit, hok⟩ := exists_of_bind_ok hok
    obtain ⟨before, tag, after, rfl, hread, rfl, hothers⟩ := splitMembers_eq_ok_iff.1 hsplit
    obtain ⟨name, hmem⟩ := mem_of_ofTag? hread
    obtain ⟨before', ⟨name', tag'⟩, after', rfl, ⟨rfl, htag⟩, hrest⟩ := hv.rearranged.split
    have hothers' : ∀ m ∈ before' ++ after', m.1 ≠ tagKey := by
      intro m hm
      obtain ⟨m₀, hm₀, hrel⟩ := hrest.exists_of_mem hm
      exact hrel.1 ▸ hothers m₀ hm₀
    have hread' := vs.respects_ofTag? tag tag' read htag hread
    exact bind_ok (splitMembers_eq_ok_iff.2 ⟨before', tag', after', rfl, hread', rfl, hothers'⟩)
      (h _ hmem _ _ a (.members hrest) hok)

/-- A tagged node is opened in any order, with content that is alike. -/
theorem openDocument?_of_alike {type : String} {room : Nat} {d d' : Document} (hd : d.Alike d')
    {read : Content → Except Cause α} {content : Content}
    (hok : vs.openDocument? type room d = .ok (read, content)) :
    ∃ content', vs.openDocument? type room d' = .ok (read, content') ∧ content.Alike content' ∧
      ∃ name, (name, read) ∈ vs := by
  match d, d', hd with
  | .array _ is _, .array _ is' _, .array his =>
    simp only [openDocument?] at hok ⊢
    split at hok
    next => cases hok
    next hroom =>
      rw [if_neg hroom]
      cases his with
      | nil => cases hok
      | cons htag hitems =>
        obtain ⟨_, hread, hok⟩ := exists_of_bind_ok hok
        obtain ⟨values, hvalues, hok⟩ := exists_of_bind_ok hok
        cases hok
        obtain ⟨values', hvalues', hrel⟩ :=
          exists_forall₂_join hitems (Document.values?_eq_ok_iff.1 hvalues)
          fun i _ i' v hi hv => Document.Alike.value? hi hv
        exact ⟨.items values', bind_ok (vs.respects_ofTagDocument? _ _ _ htag hread)
          (bind_ok (Document.values?_eq_ok_iff.2 hvalues') rfl), .items hrel,
          mem_of_ofTagDocument? hread⟩
  | .object _ es _, .object _ es' _, hd@(.object _ _ _) =>
    simp only [openDocument?] at hok ⊢
    split at hok
    next => cases hok
    next hroom =>
      rw [if_neg hroom]
      obtain ⟨⟨_, others⟩, hsplit, hok⟩ := exists_of_bind_ok hok
      cases hok
      obtain ⟨before, e, after, rfl, hkey, hread, hgives, hothers⟩ :=
        splitEntries_eq_ok_iff.1 hsplit
      obtain ⟨before', e', after', rfl, he, hrest⟩ := hd.rearranged.split
      obtain ⟨others', hgives', hrel⟩ := Entry.exists_gives hrest hgives
        fun e _ d' v hrel hv => hrel.value? hv
      have hothers' : ∀ m ∈ others', m.1 ≠ tagKey := by
        intro m hm
        obtain ⟨m₀, hm₀, hname⟩ := hrel.exists_of_mem hm
        exact hname.1 ▸ hothers m₀ hm₀
      have hread' := vs.respects_ofTagDocument? _ _ _ he.2 hread
      exact ⟨.members others',
        bind_ok (splitEntries_eq_ok_iff.2 ⟨before', e', after', rfl, he.1.text? hkey, hread',
        hgives', hothers'⟩) rfl, .members hrel, mem_of_ofTagDocument? hread⟩

/-- A tagged node is read from a document in any order. -/
theorem Unordered.ofPlaced? (h : vs.Unordered) (type : String) (room : Nat) :
    Respects Placed.Alike (vs.ofPlaced? type room) := by
  intro p p' a hp hok
  obtain ⟨⟨read, content⟩, hopen, hok⟩ := exists_of_bind_ok hok
  obtain ⟨content', hopen', hrel, name, hmem⟩ := openDocument?_of_alike hp hopen
  have hread : read content' = .ok a := h _ hmem content content' a hrel (ok_of_mapError_ok hok)
  exact bind_ok hopen' (mapError_ok hread)

end Variants

/-! ## Texts, numbers, lists and operators -/

namespace Value

/-- Texts have no order. -/
theorem respects_text? : Respects Alike text? :=
  respects_of_scalar (fun _ _ h => nomatch h) fun _ _ h => nomatch h

/-- Truth values have none. -/
theorem respects_bool? : Respects Alike bool? :=
  respects_of_scalar (fun _ _ h => nomatch h) fun _ _ h => nomatch h

/-- Words have none. -/
theorem respects_word? : Respects Alike word? :=
  respects_of_scalar (fun _ _ h => nomatch h) fun _ _ h => nomatch h

/-- Lists respect it. -/
theorem respects_list? {read : Value → Except Cause α} (h : Respects Alike read) :
    Respects Alike (Value.list? read) := by
  intro v v' as hv hok
  cases hv with
  | array hvs => exact h.mapM hvs hok
  | null | bool | number | string | object => cases hok

/-- So does what may be absent. -/
theorem respects_option? {read : Value → Except Cause α} (h : Respects Alike read) :
    Respects Alike (option? read) := by
  intro v v' o hv hok
  cases hv with
  | null => exact hok
  | bool | number | string => exact hok
  | array hvs => exact h.map some _ _ o (.array hvs) hok
  | object hnames hvalues hperm => exact h.map some _ _ o (.object hnames hvalues hperm) hok

end Value

/-- The object of an operator has no order. -/
theorem respects_operatorOfValue? (table : List (String × α)) :
    Respects Alike (operatorOfValue? table) := by
  intro v v' a hv hok
  match v, v', hv with
  | .string _, .string _, .string _ => exact hok
  | .object [(name, w)], .object _, hv@(.object _ _ _) =>
    obtain ⟨⟨_, w'⟩, rfl, rfl, hw⟩ := hv.rearranged.exists_of_singleton
    obtain ⟨b, hb, hok⟩ := exists_of_bind_ok hok
    refine bind_ok hb ?_
    match w, w', hw with
    | .null, .null, .null => exact hok
    | .object [], .object _, hw@(.object _ _ _) =>
      obtain rfl := hw.rearranged.eq_nil
      exact hok

namespace Document

/-- Texts have no order in documents. -/
theorem respects_text? : Respects Alike text? := by
  intro d d' a hd hok
  cases hd with
  | string => exact hok
  | null | bool | number | flawed | array | object => cases hok

/-- Words have none. -/
theorem respects_word? : Respects Alike word? := by
  intro d d' a hd hok
  cases hd with
  | number line line' n => exact mapError_ok (ok_of_mapError_ok hok)
  | null | bool | string | flawed | array | object => cases hok

/-- Lists respect it. -/
theorem respects_list? {read : Document → Except Refusal α} (h : Respects Alike read) (room : Nat) :
    Respects Alike (Document.list? read room) := by
  intro d d' as hd hok
  cases hd with
  | array his =>
    rw [list?] at hok ⊢
    split at hok
    next => cases hok
    next hroom =>
      rw [if_neg hroom]
      exact h.placed.mapM his hok
  | null | bool | number | string | flawed | object => cases hok

/-- So does what may be absent. -/
theorem respects_option? {read : Document → Except Refusal α} (h : Respects Alike read) :
    Respects Alike (option? read) := by
  intro d d' o hd hok
  cases hd with
  | null => exact hok
  | bool line line' b => exact h.map some _ _ o (.bool line line' b) hok
  | number line line' n => exact h.map some _ _ o (.number line line' n) hok
  | string line line' s => exact h.map some _ _ o (.string line line' s) hok
  | flawed line fault line' fault' => exact h.map some _ _ o (.flawed line fault line' fault') hok
  | array his => exact h.map some _ _ o (.array his) hok
  | object hkeys hvalues hperm => exact h.map some _ _ o (.object hkeys hvalues hperm) hok

end Document

/-! ## Pages -/

namespace Page

variable {read : Placed → Except Refusal α}

/-- A page is read as a document that it shows. -/
theorem exists_parse_eq (p : Page) (read : Placed → Except Refusal α) :
    ∃ d next, p.value.Shows d ∧ parse read p.text = read ⟨d, next⟩ := by
  obtain ⟨d, line, hread, hshows⟩ := p.exists_read
  have hblank : skipBlank p.trail.chars line = ⟨[], lineAfterAll line p.trail.chars⟩ := by
    have happend := p.trail.skipBlank_append [] line
    rwa [append_nil] at happend
  refine ⟨d, lineAfterAll line p.trail.chars, hshows, ?_⟩
  simp only [parse, hread, Option.map_some, hblank, Option.getD_some]
  exact bind_pure _

/-- A text that is read is a page. -/
theorem exists_of_parse {text : String} {a : α} (h : parse read text = .ok a) :
    ∃ p : Page, p.text = text := by
  obtain ⟨d, cursor, hread⟩ : ∃ d cursor, Json.read text = (d, cursor) := ⟨_, _, rfl⟩
  simp only [parse, hread] at h
  obtain ⟨b, -, h⟩ := exists_of_bind_ok h
  cases cursor with
  | none => cases h
  | some cursor =>
    rw [Option.map_some] at h
    cases hafter : skipBlank cursor.rest cursor.line with
    | mk rest line =>
      rw [hafter] at h
      cases rest with
      | nil => exact exists_of_read hread (congrArg Cursor.rest hafter)
      | cons c rest => cases h

/-- A page in another order is read as the same. -/
theorem parse_of_reordered (hread : Respects Placed.Alike read) {p p' : Page}
    (h : p.value.Reordered p'.value) {a : α} (hok : parse read p.text = .ok a) :
    parse read p'.text = .ok a := by
  obtain ⟨d, next, hd, hparse⟩ := p.exists_parse_eq read
  obtain ⟨d', next', hd', hparse'⟩ := p'.exists_parse_eq read
  rw [hparse] at hok
  rw [hparse']
  exact hread ⟨d, next⟩ ⟨d', next'⟩ a (h.alike hd hd') hok

end Page

end ComputeKernel.Json
