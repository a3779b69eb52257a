import Mathlib.Data.List.Forall2
import ComputeKernel.Json.Stream
import ComputeKernel.Proofs.Json.Text

/-!
# Reading records and tagged nodes back

A record that was written with all its fields, each under its name and in the order of the
declaration, is read back field by field. `Record.Reads r ms a` says that the members `ms` are read
as the record `a`; it is built up along with the record, and holds of values and of documents alike.
A tagged node takes its tag out of wherever it stands (`Variants.splitMembers_eq_ok_iff`,
`Variants.splitEntries_eq_ok_iff`), and is read by the variant of its tag from the other members
(`Variants.ofValue?_tagged`, `Variants.ofPlaced?_tagged`).
-/

namespace ComputeKernel.Json

open List
open Value
open Document

variable {ν ε α β γ : Type}
variable {a : α} {as : List α} {read : Value → Except Cause α} {v : Value} {x : Except ε α}

/-! ## Computations that succeed -/

/-- Both steps of a success succeeded. -/
theorem exists_of_bind_ok {f : α → Except ε β} {b : β} (h : (x >>= f) = .ok b) :
    ∃ a, x = .ok a ∧ f a = .ok b := by
  cases x with
  | error e => cases h
  | ok a => exact ⟨a, rfl, h⟩

/-- A success with its errors changed was one. -/
theorem ok_of_mapError_ok {f : ε → γ} (h : x.mapError f = .ok a) : x = .ok a := by
  cases x with
  | error e => cases h
  | ok b => exact congrArg Except.ok (Except.ok.inj h)

/-- A changed success was one. -/
theorem exists_of_map_ok {f : α → β} {b : β} (h : x.map f = .ok b) : ∃ a, x = .ok a ∧ f a = b := by
  cases x with
  | error e => cases h
  | ok a => exact ⟨a, rfl, Except.ok.inj h⟩

/-- Two successes make one. -/
theorem bind_ok {f : α → Except ε β} {b : β} (hx : x = .ok a) (hf : f a = .ok b) :
    (x >>= f) = .ok b := by
  rw [hx]
  exact hf

/-- A success stays one. -/
theorem mapError_ok {f : ε → γ} (h : x = .ok a) : x.mapError f = .ok a := by
  rw [h]
  rfl

namespace Record

variable {a : α} {f : Record ν ε (α → β)} {g : α → β} {ms : List (String × ν)} {name : String}
    {read : ν → Except ε α}

/-! ## Fields -/

/-- Members under declared names lead from one state to another. -/
def Fills (r : Record ν ε α) : r.State → List (String × ν) → r.State → Prop
  | s, [], t => s = t
  | s, (name, v) :: ms, t =>
    name ∈ r.names ∧ r.isSet s name = false ∧ ∃ s', r.put s name v = .ok s' ∧ Fills r s' ms t

/-- The members, under the declared names, are read as a record. -/
structure Reads (r : Record ν ε α) (ms : List (String × ν)) (a : α) : Prop where
  names : r.names = ms.map Prod.fst
  state : ∃ s, r.Fills r.start ms s ∧ r.finish s = .ok a

/-- No members are read as no fields. -/
theorem reads_pure (a : α) : (Record.pure a : Record ν ε α).Reads [] a :=
  ⟨rfl, (), rfl, rfl⟩

/-- More members go on from where others have led. -/
theorem Fills.append {r : Record ν ε α} {ms ms' : List (String × ν)} {s t u : r.State}
    (h : r.Fills s ms t) (h' : r.Fills t ms' u) : r.Fills s (ms ++ ms') u := by
  induction ms generalizing s with
  | nil =>
    obtain rfl : s = t := h
    exact h'
  | cons m ms ih =>
    obtain ⟨hname, hset, s', hput, hrest⟩ := h
    exact ⟨hname, hset, s', hput, ih hrest⟩

section and

variable {f : Record ν ε (α → β)} {r : Record ν ε α} {s s' : f.State} {u u' : r.State}
    {name : String} {v : ν}

/-- Names of the first group are set there. -/
theorem isSet_and_of_mem (h : name ∈ f.names) : (f.and r).isSet (s, u) name = f.isSet s name :=
  if_pos h

/-- Other names are set in the second. -/
theorem isSet_and_of_not_mem (h : name ∉ f.names) : (f.and r).isSet (s, u) name = r.isSet u name :=
  if_neg h

/-- Names of the first group are put there. -/
theorem put_and_of_mem (h : name ∈ f.names) (hput : f.put s name v = .ok s') :
    (f.and r).put (s, u) name v = .ok (s', u) := by
  refine (if_pos h).trans ?_
  rw [hput]
  rfl

/-- Other names are put into the second. -/
theorem put_and_of_not_mem (h : name ∉ f.names) (hput : r.put u name v = .ok u') :
    (f.and r).put (s, u) name v = .ok (s, u') := by
  refine (if_neg h).trans ?_
  rw [hput]
  rfl

/-- Fields that come later do not matter to earlier ones. -/
theorem Fills.and {ms : List (String × ν)} {t : f.State} (h : f.Fills s ms t) :
    (f.and r).Fills (s, u) ms (t, u) := by
  induction ms generalizing s with
  | nil =>
    obtain rfl : s = t := h
    rfl
  | cons m ms ih =>
    obtain ⟨hname, hset, s', hput, hrest⟩ := h
    exact ⟨mem_append_left _ hname, (isSet_and_of_mem hname).trans hset, (s', u),
      put_and_of_mem hname hput, ih hrest⟩

end and

/-- A record with one more field is read from one more member. -/
theorem Reads.and_single (h : f.Reads ms g)
    (hname : name ∉ ms.map Prod.fst) (default : Option α) {v : ν}
    (hv : read v = .ok a) : (f.and (single name default read)).Reads (ms ++ [(name, v)]) (g a) := by
  obtain ⟨s, hfills, hfinish⟩ := h.state
  have hnew : name ∉ f.names := h.names ▸ hname
  have hput : (single name default read).put none name v = .ok (some a) := by
    show (read v).map some = _
    rw [hv]
    rfl
  refine ⟨?_, (s, some a), hfills.and.append ⟨mem_append_right _ (mem_singleton.2 rfl),
    (isSet_and_of_not_mem hnew).trans rfl, (s, some a), put_and_of_not_mem hnew hput, rfl⟩, ?_⟩
  · show f.names ++ [name] = _
    rw [h.names, map_append]
    rfl
  · show (do return (← f.finish s) (← (single name default read).finish (some a))) = Except.ok (g a)
    rw [hfinish]
    rfl

/-- One more field that has to be there. -/
theorem Reads.field (h : f.Reads ms g)
    {v : ν} (hv : read v = .ok a)
    (hname : name ∉ ms.map Prod.fst := by simp) :
    (f.field name read).Reads (ms ++ [(name, v)]) (g a) :=
  h.and_single hname none hv

/-- One more field that may be left out. -/
theorem Reads.optional (h : f.Reads ms g)
    {default : α} {v : ν} (hv : read v = .ok a)
    (hname : name ∉ ms.map Prod.fst := by simp) :
    (f.optional name default read).Reads (ms ++ [(name, v)]) (g a) :=
  h.and_single hname (some default) hv

/-! ## Objects -/

/-- Members that fill a record are put into it. -/
theorem Fills.putMembers {r : Record Value Cause α} {ms : List (String × Value)} {s t : r.State}
    (h : r.Fills s ms t) : r.putMembers s ms = .ok t := by
  induction ms generalizing s with
  | nil => exact congrArg Except.ok h
  | cons m ms ih =>
    obtain ⟨hname, hset, s', hput, hrest⟩ := h
    rw [Record.putMembers, if_pos hname, hset, hput]
    exact ih hrest

/-- A record is read back from the object of its fields. -/
theorem Reads.ofMembers? {r : Record Value Cause α} {ms : List (String × Value)}
    (h : r.Reads ms a) :
    r.ofMembers? ms = .ok a := by
  obtain ⟨s, hfills, hfinish⟩ := h.state
  simp only [Record.ofMembers?, hfills.putMembers, bind, Except.bind, hfinish]
  rfl

/-- The members of a document, each with the line of what follows it. -/
def placed (line : Nat) (ms : List (String × Value)) : List (String × Placed) :=
  ms.map fun m => (m.1, ⟨m.2.document line, line⟩)

/-- Members that fill a record are put into it from a document. -/
theorem Fills.putEntries {r : Record Placed Refusal α} {line : Nat} {ms : List (String × Value)}
    {s t : r.State} (h : r.Fills s (placed line ms) t) :
    r.putEntries s (entries line ms) = .ok t := by
  induction ms generalizing s with
  | nil => exact congrArg Except.ok h
  | cons m ms ih =>
    obtain ⟨name, v⟩ := m
    obtain ⟨hname, hset, s', hput, hrest⟩ := h
    simp only at hname hset hput
    simp only [Value.entries, Record.putEntries, Quotation.text?, bind, Except.bind,
      if_pos hname, hset, hput]
    exact ih hrest

/-- A record is read back from the document of its object. -/
theorem Reads.ofDocument? {r : Record Placed Refusal α} {line : Nat} {ms : List (String × Value)}
    (h : r.Reads (placed line ms) a) (label : String) {room : Nat} (hroom : 0 < room) :
    r.ofDocument? label room ((Value.object ms).document line) = .ok a := by
  obtain ⟨s, hfills, hfinish⟩ := h.state
  have hnonzero : room ≠ 0 := Nat.pos_iff_ne_zero.1 hroom
  simp only [Value.document, Record.ofDocument?, if_neg hnonzero, bind, Except.bind,
    hfills.putEntries, hfinish]
  rfl

end Record

/-! ## Values from documents -/

mutual

/-- The document of a value has that value, if there is room. -/
theorem Value.value?_document (line : Nat) : ∀ (v : Value) (room : Nat), v.depth ≤ room →
    (v.document line).value? room = .ok v
  | .null, _, _ => rfl
  | .bool _, _, _ => rfl
  | .number _, _, _ => rfl
  | .string _, _, _ => rfl
  | .array vs, 0, h => absurd h (Nat.not_succ_le_zero _)
  | .array vs, room + 1, h => by
    have hitems := values?_documents line vs room (Nat.le_of_succ_le_succ h)
    simp only [document, value?, hitems, bind, Except.bind]
    rfl
  | .object ms, 0, h => absurd h (Nat.not_succ_le_zero _)
  | .object ms, room + 1, h => by
    have hmembers := members?_entries line ms room (Nat.le_of_succ_le_succ h)
    simp only [document, value?, hmembers, bind, Except.bind]
    rfl

/-- So have the documents of items. -/
theorem Value.values?_documents (line : Nat) :
    ∀ (vs : List Value) (room : Nat), itemsDepth vs ≤ room →
    values? room (documents line vs) = .ok vs
  | [], _, _ => rfl
  | v :: vs, room, h => by
    rw [itemsDepth, Nat.max_le] at h
    simp only [documents, values?, value?_document line v room h.1,
      values?_documents line vs room h.2, bind, Except.bind]
    rfl

/-- So have the entries of members. -/
theorem Value.members?_entries (line : Nat) : ∀ (ms : List (String × Value)) (room : Nat),
    membersDepth ms ≤ room → members? room (entries line ms) = .ok ms
  | [], _, _ => rfl
  | (name, v) :: ms, room, h => by
    rw [membersDepth, Nat.max_le] at h
    simp only [entries, members?, Quotation.text?, value?_document line v room h.1,
      members?_entries line ms room h.2, bind, Except.bind]
    rfl

end

/-! ## Tagged nodes -/

/-- The name and the value of a member. -/
def Entry.Gives (room : Nat) (e : Entry Document) (m : String × Value) : Prop :=
  e.key.text? = .ok m.1 ∧ e.value.value? room = .ok m.2

namespace Variants

variable {vs : Variants α} {tag : String} {read : Content → Except Cause α}
    {fields : List (String × Value)}
variable {others : List (String × Value)} {room : Nat}

/-- Looking for the tag, member by member. -/
theorem splitMembers_cons (start : Option (Content → Except Cause α)) (name : String) (v : Value)
    (ms : List (String × Value)) : vs.splitMembers start ((name, v) :: ms) =
      if name = tagKey then
        match start with
        | some _ => .error (.duplicateField tagKey)
        | none => do vs.splitMembers (some (← vs.ofTag? v)) ms
      else do
        let (read, others) ← vs.splitMembers start ms
        return (read, (name, v) :: others) := by
  cases start with
  | none => rfl
  | some r => rfl

/-- After the tag no other may follow. -/
theorem splitMembers_some_eq_ok_iff {read read' : Content → Except Cause α}
    {ms others : List (String × Value)} :
    vs.splitMembers (some read) ms = .ok (read', others) ↔ read' = read ∧ others = ms ∧
    ∀ m ∈ ms, m.1 ≠ tagKey := by
  induction ms generalizing others with
  | nil =>
    constructor
    · intro hok
      cases hok
      exact ⟨rfl, rfl, forall_mem_nil _⟩
    · rintro ⟨rfl, rfl, -⟩
      rfl
  | cons m ms ih =>
    obtain ⟨name, v⟩ := m
    rw [splitMembers_cons]
    constructor
    · intro hok
      split at hok
      next => cases hok
      next hname =>
        obtain ⟨⟨_, rest⟩, hrest, hok⟩ := exists_of_bind_ok hok
        cases hok
        obtain ⟨rfl, rfl, hms⟩ := ih.1 hrest
        exact ⟨rfl, rfl, forall_mem_cons.2 ⟨hname, hms⟩⟩
    · rintro ⟨rfl, rfl, hms⟩
      obtain ⟨hname, hms⟩ := forall_mem_cons.1 hms
      rw [if_neg hname]
      exact bind_ok (ih.2 ⟨rfl, rfl, hms⟩) rfl

/-- The tag is taken out of the members, wherever it stands. -/
theorem splitMembers_eq_ok_iff {read : Content → Except Cause α}
    {ms others : List (String × Value)} :
    vs.splitMembers none ms = .ok (read, others) ↔
      ∃ before v after, ms = before ++ (tagKey, v) :: after ∧
      vs.ofTag? v = .ok read ∧ others = before ++ after ∧ ∀ m ∈ others, m.1 ≠ tagKey := by
  induction ms generalizing others with
  | nil =>
    constructor
    · intro hok
      cases hok
    · rintro ⟨before, v, after, hms, -⟩
      cases (append_eq_nil_iff.1 hms.symm).2
  | cons m ms ih =>
    obtain ⟨name, w⟩ := m
    rw [splitMembers_cons]
    constructor
    · intro hok
      split at hok
      next hname =>
        obtain ⟨read', hread, hok⟩ := exists_of_bind_ok hok
        obtain ⟨rfl, rfl, hms⟩ := splitMembers_some_eq_ok_iff.1 hok
        exact ⟨[], w, _, by rw [hname]; rfl, hread, rfl, hms⟩
      next hname =>
        obtain ⟨⟨_, rest⟩, hrest, hok⟩ := exists_of_bind_ok hok
        cases hok
        obtain ⟨before, v, after, rfl, hread, rfl, hothers⟩ := ih.1 hrest
        exact ⟨(name, w) :: before, v, after, rfl, hread, rfl, forall_mem_cons.2 ⟨hname, hothers⟩⟩
    · rintro ⟨before, v, after, hms, hread, rfl, hothers⟩
      cases before with
      | nil =>
        cases hms
        rw [if_pos rfl]
        exact bind_ok hread (splitMembers_some_eq_ok_iff.2 ⟨rfl, rfl, hothers⟩)
      | cons m before =>
        cases hms
        obtain ⟨hname, hothers⟩ := forall_mem_cons.1 hothers
        rw [if_neg hname]
        exact bind_ok (ih.2 ⟨before, v, after, rfl, hread, rfl, hothers⟩) rfl

/-- The other members have names of their own. -/
theorem ne_tagKey (hkind : tagKey ∉ fields.map Prod.fst) : ∀ m ∈ fields, m.1 ≠ tagKey :=
  fun _ hm heq => hkind (heq ▸ mem_map_of_mem hm)

/-- A tagged node is read by the variant of its tag. -/
theorem ofValue?_tagged (hread : vs.lookup tag = some read) (hkind : tagKey ∉ fields.map Prod.fst)
    (type : String) : vs.ofValue? type (.object ((tagKey, .string tag) :: fields)) =
      read (.members fields) := by
  have hrest : vs.splitMembers (some read) fields = .ok (read, fields) :=
    splitMembers_some_eq_ok_iff.2 ⟨rfl, rfl, ne_tagKey hkind⟩
  simp only [ofValue?, splitMembers, if_true, ofTag?, find?, hread, bind, Except.bind, hrest]

/-- Looking for the tag, entry by entry. -/
theorem splitEntries_cons (start : Option (Content → Except Cause α)) (e : Entry Document)
    (es : List (Entry Document)) (room close : Nat) :
    vs.splitEntries room close start (e :: es) = (do
      let name ← e.key.text?
      if name = tagKey then
        match start with
        | some _ => throw ⟨e.colon, .duplicateField tagKey⟩
        | none => vs.splitEntries room close (some (← vs.ofTagDocument? e.value)) es
      else
        let v ← e.value.value? room
        let (read, others) ← vs.splitEntries room close start es
        return (read, (name, v) :: others)) := by
  cases start with
  | none => rfl
  | some r => rfl

/-- After the tag no other may follow. -/
theorem splitEntries_some_eq_ok_iff {read read' : Content → Except Cause α} {room close : Nat}
    {es : List (Entry Document)} :
    vs.splitEntries room close (some read) es = .ok (read', others) ↔
      read' = read ∧ Forall₂ (Entry.Gives room) es others ∧ ∀ m ∈ others, m.1 ≠ tagKey := by
  induction es generalizing others with
  | nil =>
    constructor
    · intro hok
      cases hok
      exact ⟨rfl, .nil, forall_mem_nil _⟩
    · rintro ⟨rfl, hgives, -⟩
      cases hgives
      rfl
  | cons e es ih =>
    rw [splitEntries_cons]
    constructor
    · intro hok
      obtain ⟨name, hkey, hok⟩ := exists_of_bind_ok hok
      split at hok
      next => cases hok
      next hname =>
        obtain ⟨v, hv, hok⟩ := exists_of_bind_ok hok
        obtain ⟨⟨_, rest⟩, hrest, hok⟩ := exists_of_bind_ok hok
        cases hok
        obtain ⟨rfl, hgives, hothers⟩ := ih.1 hrest
        exact ⟨rfl, .cons ⟨hkey, hv⟩ hgives, forall_mem_cons.2 ⟨hname, hothers⟩⟩
    · rintro ⟨rfl, hgives, hothers⟩
      cases hgives with
      | cons hm hgives =>
        obtain ⟨hname, hothers⟩ := forall_mem_cons.1 hothers
        refine bind_ok hm.1 ?_
        rw [if_neg hname]
        exact bind_ok hm.2 (bind_ok (ih.2 ⟨rfl, hgives, hothers⟩) rfl)

/-- The tag is taken out of the entries, wherever it stands. -/
theorem splitEntries_eq_ok_iff {read : Content → Except Cause α} {room close : Nat}
    {es : List (Entry Document)} :
    vs.splitEntries room close none es = .ok (read, others) ↔
      ∃ before e after, es = before ++ e :: after ∧
      e.key.text? = .ok tagKey ∧ vs.ofTagDocument? e.value = .ok read ∧
      Forall₂ (Entry.Gives room) (before ++ after) others ∧ ∀ m ∈ others, m.1 ≠ tagKey := by
  induction es generalizing others with
  | nil =>
    constructor
    · intro hok
      cases hok
    · rintro ⟨before, e, after, hes, -⟩
      cases (append_eq_nil_iff.1 hes.symm).2
  | cons e es ih =>
    rw [splitEntries_cons]
    constructor
    · intro hok
      obtain ⟨name, hkey, hok⟩ := exists_of_bind_ok hok
      split at hok
      next hname =>
        obtain ⟨read', hread, hok⟩ := exists_of_bind_ok hok
        obtain ⟨rfl, hgives, hothers⟩ := splitEntries_some_eq_ok_iff.1 hok
        exact ⟨[], e, es, rfl, hname ▸ hkey, hread, hgives, hothers⟩
      next hname =>
        obtain ⟨v, hv, hok⟩ := exists_of_bind_ok hok
        obtain ⟨⟨_, rest⟩, hrest, hok⟩ := exists_of_bind_ok hok
        cases hok
        obtain ⟨before, tag, after, rfl, htag, hread, hgives, hothers⟩ := ih.1 hrest
        exact ⟨e :: before, tag, after, rfl, htag, hread, .cons ⟨hkey, hv⟩ hgives,
          forall_mem_cons.2 ⟨hname, hothers⟩⟩
    · rintro ⟨before, tag, after, hes, htag, hread, hgives, hothers⟩
      cases before with
      | nil =>
        cases hes
        exact bind_ok htag (bind_ok hread (splitEntries_some_eq_ok_iff.2 ⟨rfl, hgives, hothers⟩))
      | cons e before =>
        cases hes
        cases hgives with
        | cons hm hgives =>
          obtain ⟨hname, hothers⟩ := forall_mem_cons.1 hothers
          refine bind_ok hm.1 ?_
          rw [if_neg hname]
          exact bind_ok hm.2
            (bind_ok (ih.2 ⟨before, tag, after, rfl, htag, hread, hgives, hothers⟩) rfl)

/-- Stored members have names and values, if there is room. -/
theorem forall₂_gives_entries (hroom : membersDepth fields ≤ room) (line : Nat) :
    Forall₂ (Entry.Gives room) (entries line fields) fields := by
  induction fields with
  | nil => exact .nil
  | cons m fields ih =>
    obtain ⟨name, v⟩ := m
    obtain ⟨hfirst, hrest⟩ := Nat.max_le.1 hroom
    exact .cons ⟨rfl, v.value?_document line room hfirst⟩ (ih hrest)

/-- A tagged node is read by the variant of its tag. -/
theorem ofPlaced?_tagged (hread : vs.lookup tag = some read) (hkind : tagKey ∉ fields.map Prod.fst)
    (hroom : (Value.object ((tagKey, .string tag) :: fields)).depth ≤ room) (type : String)
    (line : Nat) {a : α} (ha : read (.members fields) = .ok a) :
    vs.ofPlaced? type room ⟨(Value.object ((tagKey, .string tag) :: fields)).document line,
    line⟩ = .ok a := by
  simp only [depth, membersDepth, Nat.zero_max] at hroom
  have hnonzero : room ≠ 0 := Nat.ne_of_gt (Nat.zero_lt_of_lt hroom)
  have hsplit : vs.splitEntries (room - 1) line (some read) (entries line fields) =
    .ok (read, fields) :=
    splitEntries_some_eq_ok_iff.2 ⟨rfl, forall₂_gives_entries (Nat.le_sub_one_of_lt hroom) line,
      ne_tagKey hkind⟩
  simp only [ofPlaced?, openDocument?, document, entries, if_neg hnonzero, splitEntries,
    Quotation.text?, if_true, ofTagDocument?, find?, hread, bind, Except.bind, Except.mapError,
    hsplit, pure, Except.pure, ha]

end Variants

/-! ## Lists and options -/

/-- What was written is read back. -/
theorem mapM_map_ok {read : β → Except ε α} {write : α → β}
    (h : ∀ a ∈ as, read (write a) = .ok a) : (as.map write).mapM read = .ok as := by
  induction as with
  | nil => rfl
  | cons a as ih =>
    rw [map_cons, mapM_cons, h a (.head _), ih fun b hb => h b (.tail _ hb)]
    rfl

/-- An item of an array is no deeper than the items. -/
theorem Value.depth_le_itemsDepth (write : α → Value) (ha : a ∈ as) :
    (write a).depth ≤ itemsDepth (as.map write) := by
  induction as with
  | nil => exact absurd ha not_mem_nil
  | cons b as ih =>
    rw [map_cons, itemsDepth]
    rcases mem_cons.1 ha with rfl | ha
    · exact Nat.le_max_left _ _
    · exact Nat.le_trans (ih ha) (Nat.le_max_right _ _)

/-- A list is read back from its array when each item is. -/
theorem Value.list?_map {write : α → Value} {limit : Nat}
    (h : ∀ a, (write a).depth ≤ limit → read (write a) = .ok a)
    (hlimit : itemsDepth (as.map write) ≤ limit) :
    Value.list? read (.array (as.map write)) = .ok as :=
  mapM_map_ok fun a ha => h a (Nat.le_trans (depth_le_itemsDepth write ha) hlimit)

/-- A list is read back from its first item and the others. -/
theorem Value.list?_cons {vs : List Value}
    (ha : read v = .ok a) (has : Value.list? read (.array vs) = .ok as) :
    Value.list? read (.array (v :: vs)) = .ok (a :: as) := by
  rw [Value.list?] at has ⊢
  rw [mapM_cons, ha, has]
  rfl

/-- What is there is read back, if not written as nothing. -/
theorem Value.option?_some (hv : v ≠ .null)
    (h : read v = .ok a) : Value.option? read v = .ok (some a) := by
  rw [Value.option?]
  · rw [h]
    rfl
  · exact hv

/-- The documents of values, one by one. -/
theorem Value.documents_eq_map (line : Nat) (vs : List Value) :
    documents line vs = vs.map fun v => ⟨v.document line, line⟩ := by
  induction vs with
  | nil => rfl
  | cons v vs ih => rw [documents, ih, map_cons]

/-- A list is read back from its document when each item is. -/
theorem Document.list?_document {read : Document → Except Refusal α} {write : α → Value}
    {line limit room : Nat} (hroom : 0 < room)
    (h : ∀ a, (write a).depth ≤ limit → read ((write a).document line) = .ok a)
    (hlimit : itemsDepth (as.map write) ≤ limit) :
    Document.list? read room ((Value.array (as.map write)).document line) = .ok as := by
  rw [document, Document.list?, if_neg (Nat.ne_of_gt hroom), documents_eq_map, map_map]
  exact mapM_map_ok fun a ha => h a (Nat.le_trans (depth_le_itemsDepth write ha) hlimit)

/-! ## Texts -/

/-- A written text is understood from the document of its value. -/
theorem parse_render (read : Placed → Except Refusal α) (hv : v.Plain) :
    parse read v.render = read ⟨v.document 1, 1⟩ := by
  simp only [parse, read_render hv, Option.map_some, skipBlank, Option.getD_some, bind, Except.bind]
  cases read ⟨v.document 1, 1⟩ with
  | ok a => rfl
  | error e => rfl

end ComputeKernel.Json
