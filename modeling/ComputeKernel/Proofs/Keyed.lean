import Mathlib.Data.List.Sort
import ComputeKernel.Keyed

/-!
# Looking things up in keyed lists

What `get?` finds after `put` and `erase`. Neither needs the keys to be in order: `put` never steps
over a key that equals the one it looks for, so what it stores stands before every other value of
the key.

A list that is only changed by `put` and by leaving entries out has its keys in increasing order
(`Ordered`). There every entry is found under its key, `put` changes one entry or adds one
(`Ordered.put_eq`), and what is found determines the list (`Ordered.ext`).
-/

namespace ComputeKernel.Keyed

open List

variable {κ α : Type} [BEq κ] [LawfulBEq κ] [DecidableEq κ]
variable {k : κ} {m : Keyed κ α}

/-- The first entry comes first. -/
theorem get?_cons (m : Keyed κ α) (k k' : κ) (a : α) :
    get? ((k', a) :: m) k = if k = k' then some a else get? m k := by
  by_cases h : k = k'
  · rw [if_pos h, h, get?, lookup_cons_self]
  · rw [if_neg h, get?, lookup_cons, beq_false_of_ne h]
    rfl

/-- A value may be changed when it is found, or where it lies. -/
theorem get?_map {β : Type} (f : α → β) (m : Keyed κ α) (k : κ) :
    get? (m.map fun p => (p.1, f p.2)) k = (get? m k).map f := by
  induction m with
  | nil => rfl
  | cons p m ih =>
    rw [map_cons, get?_cons, get?_cons, ih]
    split
    next => rfl
    next => rfl

omit [DecidableEq κ] in
/-- When nothing is found. -/
theorem get?_eq_none_iff : get? m k = none ↔ ∀ p ∈ m, p.1 ≠ k := by
  rw [get?, lookup_eq_none_iff]
  simp only [bne_iff_ne, ne_comm]

/-- What is found in a list is found changed in the changed list. -/
theorem get?_of_forall₂ {R : α → α → Prop} {m m' : Keyed κ α}
    (h : Forall₂ (fun p p' => p'.1 = p.1 ∧ R p.2 p'.2) m m') {a : α} (hk : get? m k = some a) :
    ∃ a', get? m' k = some a' ∧ R a a' := by
  induction h with
  | nil => cases hk
  | @cons p p' m m' hp _ ih =>
    obtain ⟨key, value⟩ := p
    obtain ⟨key', value'⟩ := p'
    obtain ⟨rfl, hR⟩ := hp
    rw [get?_cons] at hk ⊢
    split
    next heq =>
      rw [if_pos heq] at hk
      cases hk
      exact ⟨value', rfl, hR⟩
    next hne =>
      rw [if_neg hne] at hk
      exact ih hk

/-- What was found is found after others were left out. -/
theorem get?_filter {a : α} {keep : κ × α → Bool} (h : get? m k = some a)
    (hkeep : keep (k, a) = true) : get? (m.filter keep) k = some a := by
  induction m with
  | nil => cases h
  | cons entry rest ih =>
    obtain ⟨key, value⟩ := entry
    rw [get?_cons] at h
    by_cases hkey : k = key
    · subst hkey
      rw [if_pos rfl] at h
      cases h
      rw [filter_cons_of_pos hkeep, get?_cons, if_pos rfl]
    · rw [if_neg hkey] at h
      rw [filter_cons]
      split
      · rw [get?_cons, if_neg hkey, ih h]
      · exact ih h

/-- What was left out is not found, and others are. -/
theorem get?_erase (m : Keyed κ α) (k k' : κ) :
    get? (m.erase k) k' = if k' = k then none else get? m k' := by
  by_cases hk : k' = k
  · rw [if_pos hk, get?_eq_none_iff]
    intro p hp
    rw [erase, mem_filter] at hp
    simpa [hk] using hp.2
  · rw [if_neg hk]
    cases h : get? m k' with
    | some a => exact get?_filter h (by simpa using hk)
    | none =>
      rw [get?_eq_none_iff] at h ⊢
      exact fun p hp => h p (mem_filter.1 hp).1

section put

variable [LT κ] [DecidableLT κ]

/-- What was put is found, and under another key nothing has changed. -/
theorem get?_put (total : ∀ a b : κ, ¬ a < b → ¬ b < a → a = b) (m : Keyed κ α) (k k' : κ) (a : α) :
    get? (m.put k a) k' = if k' = k then some a else get? m k' := by
  induction m with
  | nil => rw [put, get?_cons]
  | cons entry rest ih =>
    obtain ⟨key, value⟩ := entry
    rw [put]
    split
    next => rw [get?_cons]
    next hnlt =>
      split
      next hlt =>
        rw [get?_cons, get?_cons, ih]
        by_cases hkey : k' = key
        · -- The list goes on at a smaller key, which is not the one that was put.
          have hne : k' ≠ k := by
            rintro rfl
            subst hkey
            exact hnlt hlt
          rw [if_pos hkey, if_neg hne, if_pos hkey]
        · rw [if_neg hkey, if_neg hkey]
      next hnlt' =>
        have heq : k = key := total k key hnlt hnlt'
        rw [get?_cons, get?_cons, heq]
        by_cases hkey : k' = key
        · rw [if_pos hkey, if_pos hkey]
        · rw [if_neg hkey, if_neg hkey, if_neg hkey]

end put

@[simp] theorem get?_put_nat (m : Keyed Nat α) (k k' : Nat) (a : α) :
    get? (m.put k a) k' = if k' = k then some a else get? m k' :=
  get?_put (fun _ _ h h' => Nat.le_antisymm (Nat.le_of_not_lt h') (Nat.le_of_not_lt h)) m k k' a

/-- What was put is found. -/
theorem get?_put_self (m : Keyed Nat α) (k : Nat) (a : α) : get? (m.put k a) k = some a :=
  (get?_put_nat m k k a).trans (if_pos rfl)

@[simp] theorem get?_put_string (m : Keyed String α) (k k' : String) (a : α) :
    get? (m.put k a) k' = if k' = k then some a else get? m k' :=
  get?_put (fun _ _ h h' => String.le_antisymm (String.not_lt.1 h') (String.not_lt.1 h)) m k k' a

/-- A name that was found is not lost by putting. -/
theorem key_put {m : Keyed String α} {p : String × α} (hp : p ∈ m) (k : String) (a : α) :
    ∃ q ∈ m.put k a, q.1 = p.1 := by
  by_contra hlost
  have hnone : get? (m.put k a) p.1 = none := get?_eq_none_iff.2 fun q hq heq => hlost ⟨q, hq, heq⟩
  rw [get?_put_string] at hnone
  split at hnone
  · cases hnone
  · exact get?_eq_none_iff.1 hnone p hp rfl

/-! ## Order -/

/-- The keys stand in increasing order. -/
def Ordered [LT κ] (m : Keyed κ α) : Prop := m.Pairwise fun p q => p.1 < q.1

omit [BEq κ] [LawfulBEq κ] [DecidableEq κ] in
/-- Only the entry that was put is new. -/
theorem mem_put [LT κ] [DecidableLT κ] {a : α} {p : κ × α} (hp : p ∈ m.put k a) :
    p = (k, a) ∨ p ∈ m := by
  induction m with
  | nil => exact .inl (mem_singleton.1 hp)
  | cons entry rest ih =>
    rw [put] at hp
    split at hp
    · exact mem_cons.1 hp
    · split at hp
      · rcases mem_cons.1 hp with rfl | hp
        · exact .inr (.head _)
        · exact (ih hp).imp_right (.tail _)
      · exact (mem_cons.1 hp).imp_right (.tail _)

namespace Ordered

variable [LT κ] [LE κ] [Std.LawfulOrderLT κ] {m : Keyed κ α}

omit [BEq κ] [LawfulBEq κ] [DecidableEq κ] in
/-- No key comes twice. -/
theorem nodup_keys (hm : Ordered m) : m.keys.Nodup :=
  (pairwise_map.2 hm).imp Std.ne_of_lt

/-- An entry is found under its key. -/
theorem mem_iff (hm : Ordered m) {k : κ} {a : α} : (k, a) ∈ m ↔ get? m k = some a := by
  induction m with
  | nil => simp [get?]
  | cons entry rest ih =>
    obtain ⟨key, value⟩ := entry
    obtain ⟨hlt, hrest⟩ := pairwise_cons.1 hm
    rw [get?_cons, mem_cons, ih hrest]
    by_cases hk : k = key
    · subst hk
      have hnone : get? rest k = none :=
        get?_eq_none_iff.2 fun p hp heq => Std.lt_irrefl (heq ▸ hlt p hp)
      simp [hnone, eq_comm]
    · simp [hk]

omit [BEq κ] [LawfulBEq κ] [DecidableEq κ] [LE κ] [Std.LawfulOrderLT κ] in
/-- Leaving out keeps the order. -/
theorem sublist {m' : Keyed κ α} (hm : Ordered m) (hsub : m'.Sublist m) : Ordered m' :=
  List.Pairwise.sublist hsub hm

/-- Lists in order in which the same is found are the same. -/
theorem ext {m' : Keyed κ α} (hm : Ordered m) (hm' : Ordered m')
    (hget : ∀ k, get? m k = get? m' k) : m = m' := by
  have hirrefl : Std.Irrefl fun p q : κ × α => p.1 < q.1 := ⟨fun _ => Std.lt_irrefl⟩
  have hantisymm : Std.Antisymm fun p q : κ × α => p.1 < q.1 :=
    ⟨fun _ _ hlt hlt' => absurd hlt' (Std.not_gt_of_lt hlt)⟩
  refine List.Pairwise.eq_of_mem_iff hm hm' ?_
  rintro ⟨k, a⟩
  rw [hm.mem_iff, hm'.mem_iff, hget]

/-- If a table lists all that is bound, and nothing else, both list the same. -/
theorem map_some_eq {β : Type} {bound : Keyed κ α} {table : Keyed κ β} {f : β → Option α}
    (hb : Ordered bound) (ht : Ordered table) (hsub : ∀ p ∈ bound, ∃ q ∈ table, q.1 = p.1)
    (hget : ∀ p ∈ table, ∃ a, get? bound p.1 = some a ∧ f p.2 = some a) :
    bound.map (fun p => (p.1, some p.2)) = table.map fun p => (p.1, f p.2) := by
  refine Ordered.ext (pairwise_map.2 hb) (pairwise_map.2 ht) fun k => ?_
  rw [get?_map, get?_map]
  cases hk : get? table k with
  | some b =>
    obtain ⟨a, ha, hfa⟩ := hget (k, b) (ht.mem_iff.2 hk)
    rw [ha, Option.map_some, Option.map_some, hfa]
  | none =>
    suffices hnone : get? bound k = none by rw [hnone]; rfl
    refine get?_eq_none_iff.2 fun p hp hkey => ?_
    obtain ⟨q, hq, hq'⟩ := hsub p hp
    exact get?_eq_none_iff.1 hk q hq (hq'.trans hkey)

variable [Std.IsLinearOrder κ] [DecidableLT κ]

/-- Putting changes the entry of its key, or adds one. -/
theorem put_eq (hm : Ordered m) (k : κ) (a : α) :
    (∃ pre old post, m = pre ++ (k, old) :: post ∧ m.put k a = pre ++ (k, a) :: post) ∨
      ∃ pre post, m = pre ++ post ∧ get? m k = none ∧ m.put k a = pre ++ (k, a) :: post := by
  induction m with
  | nil => exact .inr ⟨[], [], rfl, rfl, rfl⟩
  | cons entry rest ih =>
    obtain ⟨key, value⟩ := entry
    obtain ⟨hlt, hrest⟩ := pairwise_cons.1 hm
    rw [Keyed.put]
    split
    next hbefore =>
      refine .inr ⟨[], (key, value) :: rest, rfl, get?_eq_none_iff.2 fun p hp heq => ?_, rfl⟩
      rcases mem_cons.1 hp with rfl | hp
      · exact Std.ne_of_lt hbefore heq.symm
      · exact Std.ne_of_lt (Std.lt_trans hbefore (hlt p hp)) heq.symm
    next hnot =>
      split
      next hafter =>
        rcases ih hrest with ⟨pre, old, post, rfl, hput⟩ | ⟨pre, post, rfl, hnone, hput⟩
        · exact .inl ⟨(key, value) :: pre, old, post, rfl, by rw [hput]; rfl⟩
        · refine .inr ⟨(key, value) :: pre, post, rfl, ?_, by rw [hput]; rfl⟩
          rw [get?_cons, if_neg fun heq => Std.ne_of_lt hafter heq.symm, hnone]
      next hnot' =>
        obtain rfl : k = key := Std.le_antisymm (Std.not_lt.1 hnot') (Std.not_lt.1 hnot)
        exact .inl ⟨[], value, rest, rfl, rfl⟩

omit [BEq κ] [LawfulBEq κ] [DecidableEq κ] in
/-- So does putting. -/
protected theorem put (hm : Ordered m) (k : κ) (a : α) : Ordered (m.put k a) := by
  induction m with
  | nil => exact pairwise_singleton _ _
  | cons entry rest ih =>
    obtain ⟨hlt, hrest⟩ := pairwise_cons.1 hm
    rw [Keyed.put]
    split
    next hbefore =>
      refine pairwise_cons.2 ⟨fun p hp => ?_, hm⟩
      rcases mem_cons.1 hp with rfl | hp
      · exact hbefore
      · exact Std.lt_trans hbefore (hlt p hp)
    next hnot =>
      split
      next hafter =>
        refine pairwise_cons.2 ⟨fun p hp => ?_, ih hrest⟩
        rcases mem_put hp with rfl | hp
        · exact hafter
        · exact hlt p hp
      next hnot' =>
        have heq : k = entry.1 := Std.le_antisymm (Std.not_lt.1 hnot') (Std.not_lt.1 hnot)
        exact pairwise_cons.2 ⟨fun p hp => heq ▸ hlt p hp, hrest⟩

end Ordered

end ComputeKernel.Keyed
