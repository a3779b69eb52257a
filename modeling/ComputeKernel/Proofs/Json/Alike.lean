import Mathlib.Data.List.Perm.Basic
import ComputeKernel.Proofs.Json.Nesting
import ComputeKernel.Proofs.Json.Script

/-!
# The same text in another order

`Script.Reordered x x'` says that one text is another with the members of its objects in another
order, as deep inside one another as one likes; blanks may differ as well. The documents that they
show then differ in the same way (`Script.Reordered.alike`), and so do the values that are taken out
of those (`Document.Alike.value?`). What is passed over in the one is passed over in the other
(`Document.Alike.skim`).
-/

namespace ComputeKernel.Json

open Entry
open List (Forall₂)

/-! ## Lists in another order -/

section

variable {α β γ δ : Type} {R : α → β → Prop} {P : α → γ → Prop} {Q : β → δ → Prop}
    {S : γ → δ → Prop} {as : List α}
  {bs : List β} {cs : List γ} {ds : List δ}

/-- What belongs to related lists is related. -/
theorem forall₂_join (hR : Forall₂ R as bs) (hP : Forall₂ P as cs) (hQ : Forall₂ Q bs ds)
    (h : ∀ a ∈ as, ∀ b c d, R a b → P a c → Q b d → S c d) : Forall₂ S cs ds := by
  induction hR generalizing cs ds with
  | nil =>
    cases hP
    cases hQ
    exact .nil
  | @cons a b as bs hab hR ih =>
    cases hP with
    | cons hac hP =>
      cases hQ with
      | cons hbd hQ =>
        exact .cons (h a (.head _) b _ _ hab hac hbd) (ih hP hQ fun a' ha' => h a' (.tail _ ha'))

/-- What belongs to a list is there for a related list as well. -/
theorem exists_forall₂_join (hR : Forall₂ R as bs) (hP : Forall₂ P as cs)
    (h : ∀ a ∈ as, ∀ b c, R a b → P a c → ∃ d, Q b d ∧ S c d) :
    ∃ ds, Forall₂ Q bs ds ∧ Forall₂ S cs ds := by
  induction hR generalizing cs with
  | nil =>
    cases hP
    exact ⟨[], .nil, .nil⟩
  | @cons a b as bs hab hR ih =>
    cases hP with
    | cons hac hP =>
      obtain ⟨d, hbd, hcd⟩ := h a (.head _) b _ hab hac
      obtain ⟨ds, hQ, hS⟩ := ih hP fun a' ha' => h a' (.tail _ ha')
      exact ⟨d :: ds, .cons hbd hQ, .cons hcd hS⟩

/-- The elements are related to those of another list, in some order. -/
def Rearranged (R : α → β → Prop) (as : List α) (bs : List β) : Prop :=
  ∃ bs', Forall₂ R as bs' ∧ bs'.Perm bs

namespace Rearranged

/-- So are those of some kind. -/
theorem filter (h : Rearranged R as bs) {p : α → Bool} {q : β → Bool}
    (hpq : ∀ a b, R a b → p a = q b) :
    Rearranged R (as.filter p) (bs.filter q) := by
  obtain ⟨bs', hR, hperm⟩ := h
  exact ⟨bs'.filter q, List.rel_filter (fun a b hab => Bool.eq_iff_iff.1 (hpq a b hab)) hR,
    hperm.filter q⟩

/-- Each has a counterpart. -/
theorem exists_of_mem (h : Rearranged R as bs) {b : β} (hb : b ∈ bs) : ∃ a ∈ as, R a b := by
  obtain ⟨bs', hR, hperm⟩ := h
  have hb' := hperm.mem_iff.2 hb
  clear hperm hb
  induction hR with
  | nil => cases hb'
  | @cons a c as bs' hac hR ih =>
    rcases List.mem_cons.1 hb' with rfl | hb'
    · exact ⟨a, .head _, hac⟩
    · obtain ⟨a', ha', hab⟩ := ih hb'
      exact ⟨a', .tail _ ha', hab⟩

/-- To none belongs none. -/
theorem eq_nil (h : Rearranged R [] bs) : bs = [] := by
  obtain ⟨bs', hR, hperm⟩ := h
  cases hR
  exact List.nil_perm.1 hperm

/-- To one belongs one. -/
theorem exists_of_singleton {a : α} (h : Rearranged R [a] bs) : ∃ b, bs = [b] ∧ R a b := by
  obtain ⟨bs', hR, hperm⟩ := h
  cases hR with
  | cons hab hnil =>
    cases hnil
    exact ⟨_, List.singleton_perm.1 hperm |>.symm, hab⟩

/-- An element has a counterpart, and the others are related still. -/
theorem split {before after : List α} {a : α} (h : Rearranged R (before ++ a :: after) bs) :
    ∃ before' b after', bs = before' ++ b :: after' ∧ R a b ∧
      Rearranged R (before ++ after) (before' ++ after') := by
  obtain ⟨bs', hR, hperm⟩ := h
  obtain ⟨front, back, rfl, hbefore, hback⟩ : ∃ front back, bs' = front ++ back ∧
    Forall₂ R before front ∧
      Forall₂ R (a :: after) back := by
    clear hperm
    induction before generalizing bs' with
    | nil => exact ⟨[], bs', rfl, .nil, hR⟩
    | cons a' before ih =>
      cases hR with
      | cons hab hR =>
        obtain ⟨front, back, rfl, hbefore, hback⟩ := ih _ hR
        exact ⟨_ :: front, back, rfl, .cons hab hbefore, hback⟩
  cases hback with
  | @cons _ b _ back hab hafter =>
    obtain ⟨before', after', rfl⟩ :=
      List.append_of_mem (hperm.mem_iff.1 (List.mem_append_right front (.head back)))
    refine ⟨before', b, after', rfl, hab, front ++ back, List.rel_append hbefore hafter, ?_⟩
    exact (List.perm_middle.symm.trans (hperm.trans List.perm_middle)).cons_inv

/-- What belongs to a list belongs to another order of it. -/
theorem join (h : Rearranged R as bs) (hP : Forall₂ P as cs)
    (hstep : ∀ a ∈ as, ∀ b c, R a b → P a c → ∃ d, Q b d ∧ S c d) :
    ∃ ds, Forall₂ Q bs ds ∧ Rearranged S cs ds := by
  obtain ⟨bs', hR, hperm⟩ := h
  obtain ⟨ds', hQ, hS⟩ := exists_forall₂_join hR hP hstep
  obtain ⟨ds, hQ', hperm'⟩ := List.perm_comp_forall₂ hperm.symm hQ
  exact ⟨ds, hQ', ds', hS, hperm'.symm⟩

end Rearranged

end

/-! ## Texts -/

/-- A text with the members of its objects in another order. -/
inductive Script.Reordered : Script → Script → Prop
  | scalar (s : Scalar) : Reordered (.scalar s) (.scalar s)
  | array {inner inner' : Blank} {items items' : List (Part Blank Script)} :
      Forall₂ (fun p p' => Reordered p.value p'.value) items items' →
      Reordered (.array inner items) (.array inner' items')
  | object {inner inner' : Blank} {members members' members'' : List (Part Head Script)} :
      Forall₂ (fun p p' => p.lead.name = p'.lead.name) members members' →
      Forall₂ (fun p p' => Reordered p.value p'.value) members members' →
      members'.Perm members'' → Reordered (.object inner members) (.object inner' members'')

/-- A part is smaller than the parts. -/
theorem Part.sizeOf_value_lt {φ : Type} [SizeOf φ] {p : Part φ Script}
    {parts : List (Part φ Script)} (h : p ∈ parts) :
    sizeOf p.value < sizeOf parts := by
  have hlt := List.sizeOf_lt_of_mem h
  obtain ⟨lead, x, trail⟩ := p
  simp only [Part.mk.sizeOf_spec] at hlt
  dsimp only
  omega

/-- An item is smaller than the array. -/
theorem Script.sizeOf_item_lt {inner : Blank} {p : Part Blank Script}
    {items : List (Part Blank Script)} (h : p ∈ items) :
    sizeOf p.value < sizeOf (Script.array inner items) := by
  have hlt := Part.sizeOf_value_lt h
  rw [Script.array.sizeOf_spec]
  omega

/-- A member is smaller than the object. -/
theorem Script.sizeOf_member_lt {inner : Blank} {p : Part Head Script}
    {members : List (Part Head Script)} (h : p ∈ members) :
    sizeOf p.value < sizeOf (Script.object inner members) := by
  have hlt := Part.sizeOf_value_lt h
  rw [Script.object.sizeOf_spec]
  omega

/-- Every text is its own in the order that it has. -/
theorem Script.Reordered.refl (x : Script) : x.Reordered x := by
  match x with
  | .scalar s => exact .scalar s
  | .array inner items => exact .array (List.forall₂_same.2 fun p hp => Reordered.refl p.value)
  | .object inner members =>
    exact .object (List.forall₂_same.2 fun p _ => rfl)
      (List.forall₂_same.2 fun p hp => Reordered.refl p.value)
      (.refl _)
termination_by sizeOf x
decreasing_by
  · exact Script.sizeOf_item_lt hp
  · exact Script.sizeOf_member_lt hp

/-! ## Documents -/

/-- Two names say the same, or both nothing. -/
inductive Quotation.Alike : Quotation → Quotation → Prop
  | text (line line' : Nat) (s : String) : Alike (.text line s) (.text line' s)
  | flawed (line fault line' fault' : Nat) : Alike (.flawed line fault) (.flawed line' fault')

/-- Two documents say the same up to order. Neither is broken. -/
inductive Document.Alike : Document → Document → Prop
  | null (line line' : Nat) : Alike (.null line) (.null line')
  | bool (line line' : Nat) (b : Bool) : Alike (.bool line b) (.bool line' b)
  | number (line line' : Nat) (n : Number) : Alike (.number line n) (.number line' n)
  | string (line line' : Nat) (s : String) : Alike (.string line s) (.string line' s)
  | flawed (line fault line' fault' : Nat) : Alike (.flawed line fault) (.flawed line' fault')
  | array {line close line' close' : Nat} {items items' : List (Item Document)} :
      Forall₂ (fun i i' => Alike i.value i'.value) items items' →
      Alike (.array line items close) (.array line' items' close')
  | object {line close line' close' : Nat} {es es' es'' : List (Entry Document)} :
      Forall₂ (fun e e' => e.key.Alike e'.key) es es' →
      Forall₂ (fun e e' => Alike e.value e'.value) es es' →
      es'.Perm es'' → Alike (.object line es close) (.object line' es'' close')

/-- Two members have names that say the same, and documents that do. -/
def Entry.Alike (e e' : Entry Document) : Prop := e.key.Alike e'.key ∧ e.value.Alike e'.value

/-- Objects that are alike have members that are. -/
theorem Document.Alike.rearranged {line close line' close' : Nat} {es es' : List (Entry Document)}
    (h : (Document.object line es close).Alike (.object line' es' close')) :
    Rearranged Entry.Alike es es' := by
  cases h with
  | object hkeys hvalues hperm => exact ⟨_, hkeys.mp (fun _ _ => And.intro) hvalues, hperm⟩

/-! ### What reordered texts show -/

/-- A quote shows names that say the same. -/
theorem Quote.alike_of_shows {q : Quote} {k k' : Quotation} (h : q.Shows k) (h' : q.Shows k') :
    k.Alike k' := by
  cases k with
  | text line s =>
    cases k' with
    | text line' s' =>
      obtain rfl : s = s' := Option.some.inj (h.symm.trans h')
      exact .text line line' s
    | flawed line' fault' => exact absurd (h.symm.trans h') (Option.some_ne_none s)
    | broken _ _ _ => exact h'.elim
  | flawed line fault =>
    cases k' with
    | text line' s' => exact absurd (h'.symm.trans h) (Option.some_ne_none s')
    | flawed line' fault' => exact .flawed line fault line' fault'
    | broken _ _ _ => exact h'.elim
  | broken _ _ _ => exact h.elim

/-- A scalar shows documents that say the same. -/
theorem Scalar.alike_of_shows {s : Scalar} {d d' : Document} (h : s.Shows d) (h' : s.Shows d') :
    d.Alike d' := by
  cases h with
  | null line =>
    cases h' with
    | null line' => exact .null line line'
  | bool b line =>
    cases h' with
    | bool _ line' => exact .bool line line' b
  | number line hvalue =>
    cases h' with
    | number line' hvalue' =>
      obtain rfl := Option.some.inj (hvalue.symm.trans hvalue')
      exact .number line line' _
    | noNumber line' fault hnone => cases hvalue.symm.trans hnone
  | string line htext =>
    cases h' with
    | string line' htext' =>
      obtain rfl := Option.some.inj (htext.symm.trans htext')
      exact .string line line' _
    | noString line' fault hnone => cases htext.symm.trans hnone
  | noNumber line fault hnone =>
    cases h' with
    | number line' hvalue => cases hvalue.symm.trans hnone
    | noNumber line' fault' _ => exact .flawed line fault line' fault'
  | noString line fault hnone =>
    cases h' with
    | string line' htext => cases htext.symm.trans hnone
    | noString line' fault' _ => exact .flawed line fault line' fault'

/-- Reordered texts show documents that are alike. -/
theorem Script.Reordered.alike {x x' : Script} {d d' : Document} (h : x.Reordered x')
    (hd : x.Shows d) (hd' : x'.Shows d') : d.Alike d' := by
  match x, h with
  | .scalar s, .scalar _ =>
    cases hd with
    | scalar hs =>
      cases hd' with
      | scalar hs' => exact Scalar.alike_of_shows hs hs'
  | .array inner parts, .array hparts =>
    cases hd with
    | array hitems =>
      cases hd' with
      | array hitems' =>
        exact .array (forall₂_join hparts hitems hitems' fun p hp p' i i' hrel hi hi' =>
          Reordered.alike hrel hi hi')
  | .object inner parts, .object hnames hvalues hperm =>
    cases hd with
    | object hkeys hshown =>
      cases hd' with
      | object hkeys' hshown' =>
        -- The second document shows the members in the second order, and so has them in the first
        -- as well.
        obtain ⟨es, hes, hperm'⟩ :=
          List.perm_comp_forall₂ hperm (hkeys'.mp (fun _ _ => And.intro) hshown')
        refine .object (forall₂_join hnames hkeys hes fun p _ p' e e' hname he he' => ?_)
          (forall₂_join hvalues hshown hes fun p hp p' e e' hrel he he' => Reordered.alike hrel he
            he'.2) hperm'
        exact Quote.alike_of_shows he (hname ▸ he'.1)
termination_by sizeOf x
decreasing_by
  · exact Script.sizeOf_item_lt hp
  · exact Script.sizeOf_member_lt hp

/-! ## Values -/

/-- Two values are the same up to the order of members. -/
inductive Value.Alike : Value → Value → Prop
  | null : Alike .null .null
  | bool (b : Bool) : Alike (.bool b) (.bool b)
  | number (n : Number) : Alike (.number n) (.number n)
  | string (s : String) : Alike (.string s) (.string s)
  | array {vs vs' : List Value} : Forall₂ Alike vs vs' → Alike (.array vs) (.array vs')
  | object {ms ms' ms'' : List (String × Value)} :
      Forall₂ (fun m m' => m.1 = m'.1) ms ms' →
      Forall₂ (fun m m' => Alike m.2 m'.2) ms ms' →
      ms'.Perm ms'' → Alike (.object ms) (.object ms'')

/-- Two members have one name, and related values. -/
def Named {ν : Type} (R : ν → ν → Prop) (m m' : String × ν) : Prop := m.1 = m'.1 ∧ R m.2 m'.2

/-- Objects that are alike have members that are. -/
theorem Value.Alike.rearranged {ms ms' : List (String × Value)}
    (h : (Value.object ms).Alike (.object ms')) :
    Rearranged (Named Value.Alike) ms ms' := by
  cases h with
  | object hnames hvalues hperm => exact ⟨_, hnames.mp (fun _ _ => And.intro) hvalues, hperm⟩

/-- And such members make them so. -/
theorem Value.alike_object {ms ms' : List (String × Value)}
    (h : Rearranged (Named Value.Alike) ms ms') :
    (Value.object ms).Alike (.object ms') := by
  obtain ⟨ms₁, hrel, hperm⟩ := h
  exact .object (hrel.imp fun _ _ => And.left) (hrel.imp fun _ _ => And.right) hperm

/-! ### Values of documents -/

/-- The other name says the same. -/
theorem Quotation.Alike.text? {k k' : Quotation} (h : k.Alike k') {name : String}
    (hok : k.text? = .ok name) :
    k'.text? = .ok name := by
  cases h with
  | text line line' s => exact hok
  | flawed => cases hok

/-- The other name is passed over. -/
theorem Quotation.Alike.skim {k k' : Quotation} (h : k.Alike k') : k'.skim = .ok () := by
  cases h with
  | text | flawed => rfl

namespace Document

/-- Items have values when each of them has one. -/
theorem values?_eq_ok_iff {room : Nat} {items : List (Item Document)} {vs : List Value} :
    values? room items = .ok vs ↔ Forall₂ (fun i v => i.value.value? room = .ok v) items vs := by
  induction items generalizing vs with
  | nil =>
    rw [List.forall₂_nil_left_iff]
    exact ⟨fun h => (Except.ok.inj h).symm, fun h => congrArg Except.ok h.symm⟩
  | cons i items ih =>
    constructor
    · intro h
      obtain ⟨v, hv, h⟩ := exists_of_bind_ok h
      obtain ⟨rest, hrest, h⟩ := exists_of_bind_ok h
      cases h
      exact .cons hv (ih.1 hrest)
    · intro h
      cases h with
      | cons hv hrest => exact bind_ok hv (bind_ok (ih.2 hrest) rfl)

/-- Members have values when each has one, and a name. -/
theorem members?_eq_ok_iff {room : Nat} {es : List (Entry Document)} {ms : List (String × Value)} :
    members? room es = .ok ms ↔ Forall₂ (Gives room) es ms := by
  induction es generalizing ms with
  | nil =>
    rw [List.forall₂_nil_left_iff]
    exact ⟨fun h => (Except.ok.inj h).symm, fun h => congrArg Except.ok h.symm⟩
  | cons e es ih =>
    constructor
    · intro h
      obtain ⟨name, hname, h⟩ := exists_of_bind_ok h
      obtain ⟨v, hv, h⟩ := exists_of_bind_ok h
      obtain ⟨rest, hrest, h⟩ := exists_of_bind_ok h
      cases h
      exact .cons ⟨hname, hv⟩ (ih.1 hrest)
    · intro h
      cases h with
      | cons hm hrest => exact bind_ok hm.1 (bind_ok hm.2 (bind_ok (ih.2 hrest) rfl))

/-- An item is smaller than the array. -/
theorem sizeOf_item_lt {line close : Nat} {i : Item Document} {items : List (Item Document)}
    (h : i ∈ items) :
    sizeOf i.value < sizeOf (Document.array line items close) := by
  have hlt := List.sizeOf_lt_of_mem h
  obtain ⟨d, next⟩ := i
  rw [Item.mk.sizeOf_spec] at hlt
  rw [Document.array.sizeOf_spec]
  dsimp only
  omega

/-- A member is smaller than the object. -/
theorem sizeOf_entry_lt {line close : Nat} {e : Entry Document} {es : List (Entry Document)}
    (h : e ∈ es) :
    sizeOf e.value < sizeOf (Document.object line es close) := by
  have hlt := List.sizeOf_lt_of_mem h
  obtain ⟨key, colon, d, next⟩ := e
  rw [mk.sizeOf_spec] at hlt
  rw [Document.object.sizeOf_spec]
  dsimp only
  omega

end Document

/-- What members give is there for members in another order. -/
theorem Entry.exists_gives {room : Nat} {es es' : List (Entry Document)}
    {ms : List (String × Value)} (hes : Rearranged Alike es es') (hms : Forall₂ (Gives room) es ms)
    (hvalue : ∀ e ∈ es, ∀ d' v, e.value.Alike d' → e.value.value? room = .ok v →
      ∃ v', d'.value? room = .ok v' ∧ v.Alike v') :
    ∃ ms', Forall₂ (Gives room) es' ms' ∧ Rearranged (Named Value.Alike) ms ms' := by
  refine hes.join hms fun e he e' m hrel hm => ?_
  obtain ⟨v', hv', halike⟩ := hvalue e he e'.value m.2 hrel.2 hm.2
  exact ⟨(m.1, v'), ⟨hrel.1.text? hm.1, hv'⟩, rfl, halike⟩

namespace Document

/-- Documents that are alike have values that are. -/
theorem Alike.value? {d d' : Document} (h : d.Alike d') {room : Nat} {v : Value}
    (hok : d.value? room = .ok v) :
    ∃ v', d'.value? room = .ok v' ∧ v.Alike v' := by
  match d, h with
  | .null _, .null _ _ =>
    cases hok
    exact ⟨_, rfl, .null⟩
  | .bool _ b, .bool _ _ _ =>
    cases hok
    exact ⟨_, rfl, .bool b⟩
  | .number _ n, .number _ _ _ =>
    cases hok
    exact ⟨_, rfl, .number n⟩
  | .string _ s, .string _ _ _ =>
    cases hok
    exact ⟨_, rfl, .string s⟩
  | .array _ items _, .array hitems =>
    cases room with
    | zero => cases hok
    | succ room =>
      obtain ⟨vs, hvs, hok⟩ := exists_of_bind_ok hok
      cases hok
      obtain ⟨vs', hvs', hrel⟩ := exists_forall₂_join hitems (values?_eq_ok_iff.1 hvs)
        fun i hi i' v hrel hv => Alike.value? hrel hv
      exact ⟨.array vs', bind_ok (values?_eq_ok_iff.2 hvs') rfl, .array hrel⟩
  | .object _ es _, h@(.object _ _ _) =>
    cases room with
    | zero => cases hok
    | succ room =>
      obtain ⟨ms, hms, hok⟩ := exists_of_bind_ok hok
      cases hok
      obtain ⟨ms', hms', hrel⟩ := exists_gives h.rearranged (members?_eq_ok_iff.1 hms)
        fun e he d' v hrel hv => Alike.value? hrel hv
      exact ⟨.object ms', bind_ok (members?_eq_ok_iff.2 hms') rfl, Value.alike_object hrel⟩
termination_by sizeOf d
decreasing_by
  · exact sizeOf_item_lt hi
  · exact sizeOf_entry_lt he

/-- Items are passed over one by one. -/
theorem skimItems_eq_ok {items : List (Item Document)} (h : ∀ i ∈ items, i.value.skim = .ok ()) :
    skimItems items = .ok () := by
  induction items with
  | nil => rfl
  | cons i items ih =>
    obtain ⟨hi, hitems⟩ := List.forall_mem_cons.1 h
    exact bind_ok hi (ih hitems)

/-- Members are passed over one by one. -/
theorem skimMembers_eq_ok {es : List (Entry Document)}
    (h : ∀ e ∈ es, e.key.skim = .ok () ∧ e.value.skim = .ok ()) :
    skimMembers es = .ok () := by
  induction es with
  | nil => rfl
  | cons e es ih =>
    obtain ⟨⟨hkey, hvalue⟩, hes⟩ := List.forall_mem_cons.1 h
    exact bind_ok hkey (bind_ok hvalue (ih hes))

/-- A document that is like another is passed over. -/
theorem Alike.skim {d d' : Document} (h : d.Alike d') : d'.skim = .ok () := by
  match d, h with
  | .null _, .null _ _ | .bool _ _, .bool _ _ _ | .number _ _, .number _ _ _ | .string _ _,
    .string _ _ _
  | .flawed _ _, .flawed _ _ _ _ => rfl
  | .array _ items _, .array hitems =>
    refine skimItems_eq_ok fun i' hi' => ?_
    obtain ⟨i, hi, hrel⟩ := Rearranged.exists_of_mem ⟨_, hitems, .refl _⟩ hi'
    exact Alike.skim hrel
  | .object _ es _, h@(.object _ _ _) =>
    refine skimMembers_eq_ok fun e' he' => ?_
    obtain ⟨e, he, hkey, hvalue⟩ := h.rearranged.exists_of_mem he'
    exact ⟨hkey.skim, Alike.skim hvalue⟩
termination_by sizeOf d
decreasing_by
  · exact sizeOf_item_lt hi
  · exact sizeOf_entry_lt he

end Document

end ComputeKernel.Json
