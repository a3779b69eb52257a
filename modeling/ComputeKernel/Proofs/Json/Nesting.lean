import ComputeKernel.Proofs.Json.Record

/-!
# What is read, and how deep it lies

A reader that succeeds has read a value part by part. `Record.Ensures r Q P` says of a record that
it has `P` whenever each part it was read from has `Q`; it is built up along with the record. A
tagged node has been read by one of its variants (`Variants.exists_of_ofValue?`,
`Variants.exists_of_ofPlaced?`). What is followed through a reader is how deep its parts are nested:
what lies inside a value is less deep than the value, and what is taken out of a document is no
deeper than there was room for (`Document.depth_value?`).
-/

namespace ComputeKernel.Json

open List

variable {ν ε α β γ : Type}
variable {a : α} {as : List α} {d : Document} {label : String} {ms : List (String × Value)}
    {room : Nat}

/-! ## Depth -/

namespace Value

/-- The depth of items bounds each. -/
theorem itemsDepth_le {n : Nat} {vs : List Value} : itemsDepth vs ≤ n ↔ ∀ v ∈ vs, v.depth ≤ n := by
  induction vs with
  | nil => simp [itemsDepth]
  | cons v vs ih => rw [itemsDepth, Nat.max_le, ih, forall_mem_cons]

/-- The depth of members bounds each. -/
theorem membersDepth_le {n : Nat} {ms : List (String × Value)} :
    membersDepth ms ≤ n ↔ ∀ m ∈ ms, m.2.depth ≤ n := by
  induction ms with
  | nil => simp [membersDepth]
  | cons m ms ih => rw [membersDepth, Nat.max_le, ih, forall_mem_cons]

/-- What lies directly inside a value. -/
def parts : Value → List Value
  | .array items => items
  | .object members => members.map Prod.snd
  | _ => []

/-- Parts are less deep. -/
theorem depth_of_mem_parts {v p : Value} (h : p ∈ v.parts) : p.depth < v.depth := by
  cases v with
  | array items => exact Nat.lt_succ_of_le (itemsDepth_le.1 (Nat.le_refl _) p h)
  | object members =>
    obtain ⟨m, hm, rfl⟩ := mem_map.1 h
    exact Nat.lt_succ_of_le (membersDepth_le.1 (Nat.le_refl _) m hm)
  | null | bool _ | number _ | string _ => cases h

end Value

mutual

/-- A value of a document is no deeper than there was room for. -/
theorem Document.depth_value? : ∀ (d : Document) {room : Nat} {v : Value}, d.value? room = .ok v →
    v.depth ≤ room
  | .null _, _, _, h => by cases h; exact Nat.zero_le _
  | .bool _ _, _, _, h => by cases h; exact Nat.zero_le _
  | .number _ _, _, _, h => by cases h; exact Nat.zero_le _
  | .string _ _, _, _, h => by cases h; exact Nat.zero_le _
  | .array _ items _, room, v, h => by
    cases room with
    | zero => cases h
    | succ room =>
      obtain ⟨vs, hvs, h⟩ := exists_of_bind_ok h
      cases h
      exact Nat.succ_le_succ (Value.itemsDepth_le.2 (Document.depth_values? items hvs))
  | .object _ members _, room, v, h => by
    cases room with
    | zero => cases h
    | succ room =>
      obtain ⟨ms, hms, h⟩ := exists_of_bind_ok h
      cases h
      exact Nat.succ_le_succ (Value.membersDepth_le.2 (Document.depth_members? members hms))
  | .flawed _ _, _, _, h => by cases h
  | .broken _ _ _, _, _, h => by cases h

/-- So are the values of items. -/
theorem Document.depth_values? : ∀ (items : List (Item Document)) {room : Nat} {vs : List Value},
    Document.values? room items = .ok vs → ∀ v ∈ vs, v.depth ≤ room
  | [], _, _, h => by cases h; exact fun v hv => nomatch hv
  | ⟨d, _⟩ :: items, room, vs, h => by
    obtain ⟨v, hv, h⟩ := exists_of_bind_ok h
    obtain ⟨rest, hrest, h⟩ := exists_of_bind_ok h
    cases h
    exact forall_mem_cons.2 ⟨Document.depth_value? d hv, Document.depth_values? items hrest⟩

/-- So are those of members. -/
theorem Document.depth_members? :
    ∀ (members : List (Entry Document)) {room : Nat} {ms : List (String × Value)},
    Document.members? room members = .ok ms → ∀ m ∈ ms, m.2.depth ≤ room
  | [], _, _, h => by cases h; exact fun m hm => nomatch hm
  | ⟨key, _, d, _⟩ :: members, room, ms, h => by
    obtain ⟨name, hname, h⟩ := exists_of_bind_ok h
    obtain ⟨v, hv, h⟩ := exists_of_bind_ok h
    obtain ⟨rest, hrest, h⟩ := exists_of_bind_ok h
    cases h
    exact forall_mem_cons.2 ⟨Document.depth_value? d hv, Document.depth_members? members hrest⟩

end

/-- What members give is no deeper than there was room for. -/
theorem Entry.depth_of_gives {es : List (Entry Document)}
    (h : Forall₂ (Entry.Gives room) es ms) : ∀ m ∈ ms, m.2.depth ≤ room := by
  induction h with
  | nil => exact forall_mem_nil _
  | cons hm _ ih => exact forall_mem_cons.2 ⟨Document.depth_value? _ hm.2, ih⟩

/-! ## Records -/

namespace Record

variable {f : Record ν ε (α → β)} {read : ν → Except ε α}

/-- A record that is read from parts that have `Q` has `P`. -/
def Ensures (r : Record ν ε α) (Q : ν → Prop) (P : α → Prop) : Prop :=
  ∃ I : r.State → Prop, I r.start ∧
    (∀ s name v s', I s → Q v → r.put s name v = .ok s' → I s') ∧
      ∀ s a, I s → r.finish s = .ok a → P a

variable {Q : ν → Prop} {P : β → Prop} {R : α → Prop}

/-- No fields ensure what the value has. -/
theorem ensures_pure {b : β} (h : P b) : (pure b : Record ν ε β).Ensures Q P := by
  refine ⟨fun _ => True, trivial, fun _ _ _ _ _ _ _ => trivial, fun s a _ hfinish => ?_⟩
  obtain rfl : b = a := Except.ok.inj hfinish
  exact h

/-- One more field has what its reader ensures, or what its default has. -/
theorem Ensures.and_single (h : f.Ensures Q fun g => ∀ a, R a → P (g a)) (name : String)
    {default : Option α} (hread : ∀ v a, Q v → read v = .ok a → R a)
    (hdefault : ∀ a, default = some a → R a) : (f.and (single name default read)).Ensures Q P := by
  obtain ⟨I, hstart, hput, hfinish⟩ := h
  refine ⟨fun s => I s.1 ∧ ∀ a, s.2 = some a → R a, ⟨hstart, fun a ha => nomatch ha⟩, ?_, ?_⟩
  · rintro ⟨s, u⟩ name' v s' ⟨hs, hu⟩ hv hok
    simp only [and] at hok
    split at hok
    · obtain ⟨t, ht, rfl⟩ := exists_of_map_ok hok
      exact ⟨hput s name' v t hs hv ht, hu⟩
    · obtain ⟨t, ht, rfl⟩ := exists_of_map_ok hok
      obtain ⟨a, ha, rfl⟩ := exists_of_map_ok ht
      refine ⟨hs, fun b hb => ?_⟩
      cases hb
      exact hread v a hv ha
  · rintro ⟨s, u⟩ b ⟨hs, hu⟩ hok
    obtain ⟨g, hg, hok⟩ := exists_of_bind_ok hok
    obtain ⟨a, ha, hok⟩ := exists_of_bind_ok hok
    cases hok
    refine hfinish s g hs hg a ?_
    cases u with
    | some a' =>
      obtain rfl : a' = a := Except.ok.inj ha
      exact hu a' rfl
    | none =>
      cases default with
      | none => cases ha
      | some a' =>
        obtain rfl : a' = a := Except.ok.inj ha
        exact hdefault a' rfl

/-- One more field that has to be there. -/
theorem Ensures.field (h : f.Ensures Q fun g => ∀ a, R a → P (g a)) (name : String)
    (hread : ∀ v a, Q v → read v = .ok a → R a) : (f.field name read).Ensures Q P :=
  h.and_single name hread fun _ ha => nomatch ha

/-- One more field that may be left out. -/
theorem Ensures.optional (h : f.Ensures Q fun g => ∀ a, R a → P (g a)) (name : String)
    {default : α} (hread : ∀ v a, Q v → read v = .ok a → R a) (hdefault : R default) :
    (f.optional name default read).Ensures Q P := by
  refine h.and_single name hread fun a ha => ?_
  cases ha
  exact hdefault

end Record

/-! ## Records in values -/

namespace Record

variable {r : Record Value Cause α} {Q : Value → Prop} {P : α → Prop} {a : α}
variable {label : String}

/-- It holds of what is read from an object. -/
theorem Ensures.ofMembers? (h : r.Ensures Q P) {ms : List (String × Value)}
    (hparts : ∀ m ∈ ms, Q m.2) (hok : r.ofMembers? ms = .ok a) : P a := by
  obtain ⟨I, hstart, hput, hfinish⟩ := h
  have hputs : ∀ (ms : List (String × Value)) s s', (∀ m ∈ ms, Q m.2) → I s → r.putMembers s ms =
      .ok s' → I s' := by
    intro ms
    induction ms with
    | nil =>
      intro s s' _ hs hok
      cases hok
      exact hs
    | cons m ms ih =>
      intro s s' hparts hs hok
      obtain ⟨hm, hms⟩ := forall_mem_cons.1 hparts
      rw [putMembers] at hok
      split at hok
      · split at hok
        · cases hok
        · obtain ⟨t, ht, hok⟩ := exists_of_bind_ok hok
          exact ih t s' hms (hput s m.1 m.2 t hs hm ht) hok
      · exact ih s s' hms hs hok
  obtain ⟨s, hs, hok⟩ := exists_of_bind_ok hok
  exact hfinish s a (hputs ms _ s hparts hstart hs) (ok_of_mapError_ok hok)

/-- And of what is read from an array. -/
theorem Ensures.ofValues? (h : r.Ensures Q P) {items : List Value} (hparts : ∀ v ∈ items, Q v)
    (hok : r.ofValues? label items = .ok a) : P a := by
  obtain ⟨I, hstart, hput, hfinish⟩ := h
  have hputs : ∀ (names : List String) (items : List Value) s s', (∀ v ∈ items, Q v) → I s →
      r.putValues s names items = .ok s' → I s' := by
    intro names
    induction names with
    | nil =>
      intro items s s' _ hs hok
      cases hok
      exact hs
    | cons name names ih =>
      intro items s s' hparts hs hok
      cases items with
      | nil =>
        cases hok
        exact hs
      | cons v items =>
        obtain ⟨hv, hitems⟩ := forall_mem_cons.1 hparts
        obtain ⟨t, ht, hok⟩ := exists_of_bind_ok hok
        exact ih items t s' hitems (hput s name v t hs hv ht) hok
  obtain ⟨s, hs, hok⟩ := exists_of_bind_ok hok
  obtain ⟨b, hb, hok⟩ := exists_of_bind_ok hok
  have hP := hfinish s b (hputs _ _ _ s hparts hstart hs) (ok_of_mapError_ok hb)
  split at hok
  · cases hok
  · cases hok
    exact hP

/-- And of what is read from a value. -/
theorem Ensures.ofValue? {v : Value} (hok : r.ofValue? label v = .ok a)
    (h : r.Ensures (fun p => p.depth < v.depth) P) : P a := by
  cases v with
  | array items => exact h.ofValues? (fun p hp => Value.depth_of_mem_parts hp) hok
  | object members =>
    exact h.ofMembers? (fun m hm => Value.depth_of_mem_parts (mem_map_of_mem hm)) hok
  | null | bool _ | number _ | string _ => cases hok

/-- A record is read from a container. -/
theorem depth_pos_of_ofValue? {v : Value} (hok : r.ofValue? label v = .ok a) : 0 < v.depth := by
  cases v with
  | array items => exact Nat.succ_pos _
  | object members => exact Nat.succ_pos _
  | null | bool _ | number _ | string _ => cases hok

end Record

/-! ## Tagged nodes -/

/-- What a node holds beside its tag. -/
def Content.parts : Content → List Value
  | .items vs => vs
  | .members ms => ms.map Prod.snd

/-- And of what is read from a node. -/
theorem Record.Ensures.record? {r : Record Value Cause α} {Q : Value → Prop} {P : α → Prop}
    (h : r.Ensures Q P) {content : Content} (hparts : ∀ p ∈ content.parts, Q p)
    (hok : Content.record? r label content = .ok a) : P a := by
  cases content with
  | items vs => exact h.ofValues? hparts hok
  | members ms => exact h.ofMembers? (fun m hm => hparts _ (mem_map_of_mem hm)) hok

/-- A node without fields is its value. -/
theorem Content.eq_of_unit? {a b : α} {content : Content} (hok : Content.unit? a content = .ok b) :
    b = a := by
  cases content with
  | items vs =>
    cases vs with
    | nil => exact (Except.ok.inj hok).symm
    | cons v vs => cases hok
  | members ms => exact (Except.ok.inj hok).symm

namespace Variants

variable {vs : Variants α} {read : Content → Except Cause α}

/-- A variant that is found is one of them. -/
theorem mem_of_find? {name : String} (h : vs.find? name = .ok read) : ∃ tag, (tag, read) ∈ vs := by
  rw [find?] at h
  split at h
  next read' hread =>
    cases h
    obtain ⟨before, after, rfl, -⟩ := lookup_eq_some_iff.1 hread
    exact ⟨name, mem_append_right _ (.head _)⟩
  next => cases h

/-- So is the one of a tag. -/
theorem mem_of_ofTag? {v : Value} (h : vs.ofTag? v = .ok read) : ∃ tag, (tag, read) ∈ vs := by
  cases v with
  | string name => exact mem_of_find? h
  | number n =>
    cases n with
    | natural n =>
      simp only [ofTag?] at h
      split at h
      next tag read' hget =>
        cases h
        exact ⟨tag, mem_of_getElem? hget⟩
      next => cases h
    | negative _ | real _ => cases h
  | null | bool _ | array _ | object _ => cases h

/-- A tagged node was read by one of its variants, from parts less deep. -/
theorem exists_of_ofValue? {type : String} {v : Value} {a : α} (h : vs.ofValue? type v = .ok a) :
    0 < v.depth ∧ ∃ tag read content, (tag, read) ∈ vs ∧ read content = .ok a ∧
      ∀ p ∈ content.parts, p.depth < v.depth := by
  cases v with
  | array items =>
    cases items with
    | nil => cases h
    | cons tag items =>
      obtain ⟨read, hread, h⟩ := exists_of_bind_ok h
      obtain ⟨name, hmem⟩ := mem_of_ofTag? hread
      exact ⟨Nat.succ_pos _, name, read, .items items, hmem,
        h, fun p hp => Value.depth_of_mem_parts (.tail _ hp)⟩
  | object members =>
    obtain ⟨⟨read, others⟩, hsplit, h⟩ := exists_of_bind_ok h
    obtain ⟨before, tag, after, rfl, hread, rfl, -⟩ := splitMembers_eq_ok_iff.1 hsplit
    obtain ⟨name, hmem⟩ := mem_of_ofTag? hread
    refine ⟨Nat.succ_pos _, name, read, .members _, hmem,
      h, fun p hp => Value.depth_of_mem_parts ?_⟩
    exact ((sublist_cons_self _ _).append_left _ |>.map Prod.snd).mem hp
  | null | bool _ | number _ | string _ => cases h

/-- So is the one of a tag in a document. -/
theorem mem_of_ofTagDocument? {d : Document} (h : vs.ofTagDocument? d = .ok read) :
    ∃ tag, (tag, read) ∈ vs := by
  cases d with
  | string line tag => exact mem_of_find? (ok_of_mapError_ok h)
  | null _ | bool _ _ | number _ _ | array _ _ _ | object _ _ _ | flawed _ _ | broken _ _ _ =>
    cases h

/-- In a document, from parts there was room for. -/
theorem exists_of_ofPlaced? {type : String} {room : Nat} {d : Placed} {a : α}
    (h : vs.ofPlaced? type room d = .ok a) :
    0 < room ∧ ∃ tag read content, (tag, read) ∈ vs ∧ read content = .ok a ∧ ∀ p ∈ content.parts,
    p.depth < room := by
  obtain ⟨⟨read, content⟩, hopen, h⟩ := exists_of_bind_ok h
  have hread := ok_of_mapError_ok h
  cases hvalue : d.value with
  | array line items close =>
    simp only [hvalue, openDocument?] at hopen
    split at hopen
    next => cases hopen
    next hroom =>
      cases items with
      | nil => cases hopen
      | cons tag items =>
        obtain ⟨read', hread', hopen⟩ := exists_of_bind_ok hopen
        obtain ⟨values, hvalues, hopen⟩ := exists_of_bind_ok hopen
        cases hopen
        obtain ⟨name, hmem⟩ := mem_of_ofTagDocument? hread'
        refine ⟨Nat.pos_of_ne_zero hroom, name, _, .items values, hmem, hread, fun p hp => ?_⟩
        have := Document.depth_values? items hvalues p hp
        omega
  | object line members close =>
    simp only [hvalue, openDocument?] at hopen
    split at hopen
    next => cases hopen
    next hroom =>
      obtain ⟨⟨read', others⟩, hsplit, hopen⟩ := exists_of_bind_ok hopen
      cases hopen
      obtain ⟨before, e, after, rfl, -, hread', hgives, -⟩ := splitEntries_eq_ok_iff.1 hsplit
      obtain ⟨name, hmem⟩ := mem_of_ofTagDocument? hread'
      refine ⟨Nat.pos_of_ne_zero hroom, name, _, .members others, hmem, hread, fun p hp => ?_⟩
      obtain ⟨m, hm, rfl⟩ := mem_map.1 hp
      have := Entry.depth_of_gives hgives m hm
      omega
  | null _ | bool _ _ | number _ _ | string _ _ | flawed _ _ | broken _ _ _ =>
    rw [hvalue] at hopen
    cases hopen

end Variants

/-! ## Records in documents -/

/-- A record is read from a container, for which there was room. -/
theorem Record.Ensures.ofDocument? {r : Record Placed Refusal α} {P : α → Prop}
    (h : r.Ensures (fun _ => True) P) (hok : r.ofDocument? label room d = .ok a) :
    0 < room ∧ P a := by
  obtain ⟨I, hstart, hput, hfinish⟩ := h
  cases d with
  | array line items close =>
    have hputs : ∀ (names : List String) (items : List Placed) s s' surplus, I s →
        r.putItems s names items = .ok (s', surplus) → I s' := by
      intro names
      induction names with
      | nil =>
        intro items s s' surplus hs hok
        cases hok
        exact hs
      | cons name names ih =>
        intro items s s' surplus hs hok
        cases items with
        | nil =>
          cases hok
          exact hs
        | cons i items =>
          obtain ⟨t, ht, hok⟩ := exists_of_bind_ok hok
          exact ih items t s' surplus (hput s name i t hs trivial ht) hok
    simp only [Record.ofDocument?] at hok
    split at hok
    next => cases hok
    next hroom =>
      obtain ⟨⟨s, surplus⟩, hs, hok⟩ := exists_of_bind_ok hok
      obtain ⟨b, hb, hok⟩ := exists_of_bind_ok hok
      have hP := hfinish s b (hputs _ _ _ s surplus hstart hs) (ok_of_mapError_ok hb)
      cases surplus with
      | nil =>
        cases hok
        exact ⟨Nat.pos_of_ne_zero hroom, hP⟩
      | cons i surplus => cases hok
  | object line members close =>
    have hputs : ∀ (es : List (Entry Document)) s s', I s → r.putEntries s es = .ok s' → I s' := by
      intro es
      induction es with
      | nil =>
        intro s s' hs hok
        cases hok
        exact hs
      | cons e es ih =>
        intro s s' hs hok
        obtain ⟨name, hname, hok⟩ := exists_of_bind_ok hok
        split at hok
        · dsimp only at hok
          split at hok
          · cases hok
          · obtain ⟨t, ht, hok⟩ := exists_of_bind_ok hok
            exact ih t s' (hput s name _ t hs trivial ht) hok
        · obtain ⟨_, -, hok⟩ := exists_of_bind_ok hok
          exact ih s s' hs hok
    simp only [Record.ofDocument?] at hok
    split at hok
    next => cases hok
    next hroom =>
      obtain ⟨s, hs, hok⟩ := exists_of_bind_ok hok
      exact ⟨Nat.pos_of_ne_zero hroom, hfinish s a (hputs _ _ s hstart hs) (ok_of_mapError_ok hok)⟩
  | null _ | bool _ _ | number _ _ | string _ _ | flawed _ _ | broken _ _ _ => cases hok

/-- There was room then. -/
theorem Record.pos_of_ofDocument? {r : Record Placed Refusal α}
    (hok : r.ofDocument? label room d = .ok a) : 0 < room :=
  (Ensures.ofDocument? (P := fun _ => True)
    ⟨fun _ => True, trivial, fun _ _ _ _ _ _ _ => trivial, fun _ _ _ _ => trivial⟩ hok).1

/-! ## Lists and options -/

/-- Each item of a list was read. -/
theorem exists_of_mapM_ok {read : β → Except ε α} {items : List β} (h : items.mapM read = .ok as) :
    ∀ a ∈ as, ∃ p ∈ items, read p = .ok a := by
  induction items generalizing as with
  | nil =>
    cases h
    exact fun a ha => nomatch ha
  | cons p items ih =>
    rw [mapM_cons] at h
    obtain ⟨a, ha, h⟩ := exists_of_bind_ok h
    obtain ⟨rest, hrest, h⟩ := exists_of_bind_ok h
    cases h
    refine forall_mem_cons.2 ⟨⟨p, .head _, ha⟩, fun b hb => ?_⟩
    obtain ⟨q, hq, hread⟩ := ih hrest b hb
    exact ⟨q, .tail _ hq, hread⟩

/-- A list is read from a container, item by item. -/
theorem Value.exists_of_list? {read : Value → Except Cause α} {v : Value}
    (h : list? read v = .ok as) :
    0 < v.depth ∧ ∀ a ∈ as, ∃ p ∈ v.parts, read p = .ok a := by
  cases v with
  | array items => exact ⟨Nat.succ_pos _, exists_of_mapM_ok h⟩
  | null | bool _ | number _ | string _ | object _ => cases h

/-- What is there was read. -/
theorem Value.ok_of_option? {read : Value → Except Cause α} {v : Value} {o : Option α}
    (h : option? read v = .ok o) :
    ∀ a ∈ o, read v = .ok a := by
  intro a ha
  obtain rfl : o = some a := ha
  cases v with
  | null => cases h
  | bool _ | number _ | string _ | array _ | object _ =>
    obtain ⟨b, hb, hsome⟩ := exists_of_map_ok h
    cases hsome
    exact hb

/-- There was room for a list. -/
theorem Document.exists_of_list? {read : Document → Except Refusal α}
    (h : list? read room d = .ok as) : 0 < room ∧ ∀ a ∈ as, ∃ p, read p = .ok a := by
  cases d with
  | array line items close =>
    simp only [list?] at h
    split at h
    · cases h
    · refine ⟨Nat.pos_of_ne_zero ‹_›, fun a ha => ?_⟩
      obtain ⟨p, -, hread⟩ := exists_of_mapM_ok h a ha
      exact ⟨p.value, hread⟩
  | null _ | bool _ _ | number _ _ | string _ _ | object _ _ _ | flawed _ _ | broken _ _ _ =>
    cases h

/-! ## What was read of a stored value

The other direction: a reader that succeeds on the document of a value has read what it knows of the
value, and so there was room for that. -/

mutual

/-- There is room for a value that is read. -/
theorem Value.depth_of_value?_document (line : Nat) : ∀ (v : Value) {room : Nat} {w : Value},
    (v.document line).value? room = .ok w → v.depth ≤ room
  | .null, _, _, _ | .bool _, _, _, _ | .number _, _, _, _ | .string _, _, _, _ => Nat.zero_le _
  | .array vs, room, w, h => by
    cases room with
    | zero => cases h
    | succ room =>
      obtain ⟨ws, hws, -⟩ := exists_of_bind_ok h
      exact Nat.succ_le_succ (Value.depth_of_values?_documents line vs hws)
  | .object ms, room, w, h => by
    cases room with
    | zero => cases h
    | succ room =>
      obtain ⟨ws, hws, -⟩ := exists_of_bind_ok h
      exact Nat.succ_le_succ (Value.depth_of_members?_entries line ms hws)

/-- So there is for items. -/
theorem Value.depth_of_values?_documents (line : Nat) :
    ∀ (vs : List Value) {room : Nat} {ws : List Value},
    Document.values? room (Value.documents line vs) = .ok ws → Value.itemsDepth vs ≤ room
  | [], _, _, _ => Nat.zero_le _
  | v :: vs, room, ws, h => by
    obtain ⟨w, hw, h⟩ := exists_of_bind_ok h
    obtain ⟨rest, hrest, -⟩ := exists_of_bind_ok h
    exact Nat.max_le.2 ⟨Value.depth_of_value?_document line v hw,
      Value.depth_of_values?_documents line vs hrest⟩

/-- So there is for members. -/
theorem Value.depth_of_members?_entries (line : Nat) : ∀ (ms : List (String × Value)) {room : Nat}
    {ws : List (String × Value)}, Document.members? room (Value.entries line ms) = .ok ws →
    Value.membersDepth ms ≤ room
  | [], _, _, _ => Nat.zero_le _
  | (name, v) :: ms, room, ws, h => by
    obtain ⟨_, -, h⟩ := exists_of_bind_ok h
    obtain ⟨w, hw, h⟩ := exists_of_bind_ok h
    obtain ⟨rest, hrest, -⟩ := exists_of_bind_ok h
    exact Nat.max_le.2 ⟨Value.depth_of_value?_document line v hw,
      Value.depth_of_members?_entries line ms hrest⟩

end

/-- So there is for the members of a node. -/
theorem Variants.depth_of_splitEntries {vs : Variants α} {room close line : Nat}
    {start : Option (Content → Except Cause α)}
    {out : (Content → Except Cause α) × List (String × Value)}
    (h : vs.splitEntries room close start (Value.entries line ms) = .ok out) :
    Value.membersDepth ms ≤ room := by
  induction ms generalizing start out with
  | nil => exact Nat.zero_le _
  | cons m ms ih =>
    obtain ⟨name, v⟩ := m
    rw [Value.entries, splitEntries_cons] at h
    obtain ⟨_, -, h⟩ := exists_of_bind_ok h
    split at h
    · cases start with
      | some r => cases h
      | none =>
        obtain ⟨r, hr, h⟩ := exists_of_bind_ok h
        refine Nat.max_le.2 ⟨?_, ih h⟩
        -- A tag is a text.
        cases v with
        | null | bool _ | number _ | string _ => exact Nat.zero_le _
        | array items => cases hr
        | object members => cases hr
    · obtain ⟨w, hw, h⟩ := exists_of_bind_ok h
      obtain ⟨rest, hrest, -⟩ := exists_of_bind_ok h
      exact Nat.max_le.2 ⟨Value.depth_of_value?_document line v hw, ih hrest⟩

/-- There is room for a tagged node that is read. -/
theorem Variants.depth_of_ofPlaced? {vs : Variants α} {type : String} {room line : Nat}
    (h : vs.ofPlaced? type room ⟨(Value.object ms).document line, line⟩ = .ok a) :
    (Value.object ms).depth ≤ room := by
  obtain ⟨⟨read, content⟩, hopen, -⟩ := exists_of_bind_ok h
  simp only [openDocument?, Value.document] at hopen
  split at hopen
  next => cases hopen
  next hroom =>
    obtain ⟨out, hsplit, -⟩ := exists_of_bind_ok hopen
    have hdepth := depth_of_splitEntries hsplit
    rw [Value.depth]
    omega

namespace Record

/-- A member under a declared name was put into the record. -/
theorem exists_put_of_ofDocument? {r : Record Placed Refusal α} {label : String} {room line : Nat}
    {ms : List (String × Value)} {a : α}
    (h : r.ofDocument? label room ((Value.object ms).document line) = .ok a) {name : String}
    {v : Value} (hmem : (name, v) ∈ ms) (hname : name ∈ r.names) :
    ∃ s s', r.put s name ⟨v.document line, line⟩ = .ok s' := by
  have hputs : ∀ (ms : List (String × Value)) s s', (name, v) ∈ ms →
      r.putEntries s (Value.entries line ms) = .ok s' →
          ∃ s s', r.put s name ⟨v.document line, line⟩ = .ok s' := by
    intro ms
    induction ms with
    | nil => exact fun s s' hmem => nomatch hmem
    | cons m ms ih =>
      intro s s' hmem hok
      obtain ⟨name', v'⟩ := m
      rw [Value.entries, putEntries] at hok
      obtain ⟨name'', hname'', hok⟩ := exists_of_bind_ok hok
      obtain rfl : name' = name'' := Except.ok.inj hname''
      split at hok
      next =>
        dsimp only at hok
        split at hok
        · cases hok
        · obtain ⟨t, ht, hok⟩ := exists_of_bind_ok hok
          rcases mem_cons.1 hmem with heq | hmem
          · cases heq
            exact ⟨s, t, ht⟩
          · exact ih t s' hmem hok
      next hnot =>
        obtain ⟨_, -, hok⟩ := exists_of_bind_ok hok
        rcases mem_cons.1 hmem with heq | hmem
        · cases heq
          exact absurd hname hnot
        · exact ih s s' hmem hok
  simp only [Value.document, ofDocument?] at h
  split at h
  next => cases h
  next =>
    obtain ⟨s, hs, -⟩ := exists_of_bind_ok h
    exact hputs ms _ s hmem hs

variable {f : Record ν ε (α → β)} {r : Record ν ε α} {name : String} {v : ν}

/-- What was put into the last field was read for it. -/
theorem exists_read_of_put {default : Option α} {read : ν → Except ε α} (hname : name ∉ f.names)
    (h : ∃ s s', (f.and (single name default read)).put s name v = .ok s') :
    ∃ a, read v = .ok a := by
  obtain ⟨s, s', hput⟩ := h
  simp only [and, if_neg hname] at hput
  obtain ⟨t, ht, -⟩ := exists_of_map_ok hput
  obtain ⟨a, ha, -⟩ := exists_of_map_ok ht
  exact ⟨a, ha⟩

/-- What was put into a field before the last was put there. -/
theorem exists_put_of_and (hname : name ∈ f.names) (h : ∃ s s', (f.and r).put s name v = .ok s') :
    ∃ s s', f.put s name v = .ok s' := by
  obtain ⟨s, s', hput⟩ := h
  simp only [and, if_pos hname] at hput
  obtain ⟨t, ht, -⟩ := exists_of_map_ok hput
  exact ⟨s.1, t, ht⟩

end Record

/-- Each item of the document of an array was read. -/
theorem Document.exists_read_of_list? {read : Document → Except Refusal α} {write : β → Value}
    {bs : List β} {line room : Nat}
    (h : list? read room ((Value.array (bs.map write)).document line) = .ok as) :
    ∀ b ∈ bs, ∃ a, read ((write b).document line) = .ok a := by
  have hmap : ∀ (bs : List β) (as : List α),
    ((bs.map write).map fun v => (⟨v.document line, line⟩ : Placed)).mapM
      (read ·.value) = .ok as → ∀ b ∈ bs, ∃ a, read ((write b).document line) = .ok a := by
    intro bs
    induction bs with
    | nil => exact fun as _ b hb => nomatch hb
    | cons b bs ih =>
      intro as hok
      rw [map_cons, map_cons, mapM_cons] at hok
      obtain ⟨a, ha, hok⟩ := exists_of_bind_ok hok
      obtain ⟨rest, hrest, -⟩ := exists_of_bind_ok hok
      exact forall_mem_cons.2 ⟨⟨a, ha⟩, ih rest hrest⟩
  rw [Value.document, list?] at h
  split at h
  · cases h
  · rw [Value.documents_eq_map] at h
    exact hmap bs as h

end ComputeKernel.Json
