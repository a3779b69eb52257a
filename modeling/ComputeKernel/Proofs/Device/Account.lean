import Mathlib.Algebra.Order.Group.Nat
import Mathlib.Logic.Relation
import ComputeKernel.Proofs.Keyed

/-!
# Accounts of a store

A device keeps things in a store under numbers that it gives out one after the other. A user of the
store holds at most one of them, together with what it takes the size of the thing to be. An
`Account` is the store as one user sees it, and `Move` says all that a user can do: let a number
pass, have a thing made, drop the thing it holds, or overwrite it by another of the same size.

Whatever is true of users and their store follows from these moves. Users that hold different things
go on to do so (`Apart.moves`), a user touches nothing that is not its own (`Moves.others`), and a
store that holds exactly what its users hold, with the sizes they take it to have, goes on to do so
(`Balanced.moves`); so does one that holds other things too (`Stocked.moves`). `Account.Shift` is
what a system of users does in one step.
-/

namespace ComputeKernel

open List
open Keyed

variable {α β : Type}

/-- A store as one of its users sees it. -/
structure Account (α β : Type) where
  /-- How many numbers have been given out. -/
  issued : Nat
  store : Keyed Nat α
  /-- The number that the user holds, and the size that it takes the thing to have. -/
  own : Option (Nat × β)

namespace Account

variable {k : Nat}

/-- What a user can do to its account. -/
inductive Move (size : α → β) : Account α β → Account α β → Prop
  | issue (c : Account α β) : Move size c { c with issued := c.issued + 1 }
  | make {c : Account α β} (a : α) : c.own = none →
      Move size c ⟨c.issued + 1, c.store.put (c.issued + 1) a, some (c.issued + 1, size a)⟩
  | drop {c : Account α β} {k : Nat} {b : β} : c.own = some (k, b) →
      Move size c ⟨c.issued, c.store.erase k, none⟩
  | write {c : Account α β} {k : Nat} {b : β} {old new : α} : c.own = some (k, b) →
      c.store.get? k = some old → size new = size old →
        Move size c { c with store := c.store.put k new }

/-- What a user can do by any number of moves. -/
abbrev Moves (size : α → β) : Account α β → Account α β → Prop := Relation.ReflTransGen (Move size)

variable {size : α → β} {c c' : Account α β}

/-- No number is taken back. -/
theorem Moves.issued_le (h : Moves size c c') : c.issued ≤ c'.issued := by
  induction h with
  | refl => exact le_rfl
  | tail _ hmove ih =>
    cases hmove with
    | issue => exact ih.trans (Nat.le_succ _)
    | make => exact ih.trans (Nat.le_succ _)
    | drop => exact ih
    | write => exact ih

/-- Numbers may pass. -/
theorem Moves.of_le {issued issued' : Nat} (h : issued ≤ issued') (store : Keyed Nat α)
    (own : Option (Nat × β)) :
    Moves size ⟨issued, store, own⟩ ⟨issued', store, own⟩ := by
  induction h with
  | refl => exact .refl
  | step _ ih => exact ih.tail (.issue _)

/-- What a user holds it has held, or it was made for it. -/
theorem Moves.own_or_new (h : Moves size c c') {b : β} (hown : c'.own = some (k, b)) :
    c.own = some (k, b) ∨ c.issued < k ∧ k ≤ c'.issued := by
  induction h with
  | refl => exact .inl hown
  | tail hmoves hmove ih =>
    have hle := Moves.issued_le hmoves
    cases hmove with
    | issue => exact (ih hown).imp_right fun h => ⟨h.1, h.2.trans (Nat.le_succ _)⟩
    | make a hnone =>
      cases hown
      exact .inr ⟨Nat.lt_succ_of_le hle, le_rfl⟩
    | drop => cases hown
    | write => exact ih hown

/-- What a user holds lies in the store, if it did before. -/
theorem Moves.own_stored (h : Moves size c c') (hstored : ∀ k b, c.own = some (k, b) →
    ∃ a, c.store.get? k = some a) {b : β} (hown : c'.own = some (k, b)) :
    ∃ a, c'.store.get? k = some a := by
  induction h with
  | refl => exact hstored k b hown
  | tail _ hmove ih =>
    cases hmove with
    | issue => exact ih hown
    | make a hnone =>
      cases hown
      exact ⟨a, get?_put_self _ _ _⟩
    | drop => cases hown
    | @write k' b' old new hheld hold hsize =>
      cases hheld.symm.trans hown
      exact ⟨new, get?_put_self _ _ _⟩

/-- What a user does not hold stays as it is. -/
theorem Moves.others (h : Moves size c c') (hk : k ≤ c.issued) (hne : ∀ b, c.own ≠ some (k, b)) :
    c'.store.get? k = c.store.get? k ∧ ∀ b, c'.own ≠ some (k, b) := by
  induction h with
  | refl => exact ⟨rfl, hne⟩
  | tail hmoves hmove ih =>
    obtain ⟨hget, hother⟩ := ih
    have hle := hk.trans (Moves.issued_le hmoves)
    cases hmove with
    | issue => exact ⟨hget, hother⟩
    | make a hnone =>
      refine ⟨?_, fun b heq => ?_⟩
      · rw [get?_put_nat, if_neg (by omega), hget]
      · cases heq
        omega
    | drop hown =>
      refine ⟨?_, fun b heq => nomatch heq⟩
      rw [get?_erase, if_neg fun heq => hother _ (heq ▸ hown), hget]
    | write hown hold hsize =>
      refine ⟨?_, hother⟩
      rw [get?_put_nat, if_neg fun heq => hother _ (heq ▸ hown), hget]

end Account

/-! ## Users that hold different things -/

/-- No number is held twice, and all held were given out. -/
structure Apart (issued : Nat) (held : List (Nat × β)) : Prop where
  nodup : (held.map Prod.fst).Nodup
  issued : ∀ p ∈ held, p.1 ≤ issued

namespace Apart

variable {size : α → β} {c c' : Account α β} {held rest : List (Nat × β)} {issued : Nat}

/-- In any order. -/
theorem perm (h : Apart issued held) {held' : List (Nat × β)} (hperm : held.Perm held') :
    Apart issued held' where
  nodup := (hperm.map Prod.fst).nodup_iff.1 h.nodup
  issued p hp := h.issued p (hperm.mem_iff.2 hp)

/-- Numbers may pass. -/
theorem mono (h : Apart issued held) {issued' : Nat} (hle : issued ≤ issued') :
    Apart issued' held :=
  ⟨h.nodup, fun p hp => (h.issued p hp).trans hle⟩

/-- The rest is apart, too. -/
theorem append_right {own : List (Nat × β)} (h : Apart issued (own ++ rest)) :
    Apart issued rest where
  nodup := (nodup_append.1 (map_append ▸ h.nodup)).2.1
  issued p hp := h.issued p (mem_append_right _ hp)

/-- One more user is apart when no other has its number. -/
theorem cons_iff {k : Nat} {b : β} :
    Apart issued ((k, b) :: rest) ↔ k ≤ issued ∧ (∀ p ∈ rest, p.1 ≠ k) ∧ Apart issued rest := by
  constructor
  · rintro ⟨hnodup, hissued⟩
    obtain ⟨hnew, hnodup⟩ := nodup_cons.1 hnodup
    refine ⟨hissued _ (.head _), fun p hp heq => hnew (mem_map.2 ⟨p, hp, heq⟩), hnodup, ?_⟩
    exact fun p hp => hissued p (.tail _ hp)
  · rintro ⟨hk, hne, hnodup, hissued⟩
    refine ⟨nodup_cons.2 ⟨fun hmem => ?_, hnodup⟩, fun p hp => ?_⟩
    · obtain ⟨p, hp, heq⟩ := mem_map.1 hmem
      exact hne p hp heq
    · rcases mem_cons.1 hp with rfl | hp
      · exact hk
      · exact hissued p hp

/-- Whatever a user does, it shares nothing. -/
theorem moves (hmoves : Account.Moves size c c') (h : Apart c.issued (c.own.toList ++ rest)) :
    Apart c'.issued (c'.own.toList ++ rest) := by
  have hrest := h.append_right
  cases hown : c'.own with
  | none => exact hrest.mono hmoves.issued_le
  | some q =>
    obtain ⟨k, b⟩ := q
    refine cons_iff.2 ?_
    rcases hmoves.own_or_new hown with hold | ⟨hlt, hle⟩
    · rw [hold] at h
      obtain ⟨hk, hne, -⟩ := cons_iff.1 h
      exact ⟨hk.trans hmoves.issued_le, hne, hrest.mono hmoves.issued_le⟩
    · exact ⟨hle, fun p hp => ((hrest.issued p hp).trans_lt hlt).ne, hrest.mono hmoves.issued_le⟩

end Apart

/-! ## Stores that hold what their users hold -/

/-- The users hold exactly what is in the store. -/
structure Balanced (size : α → β) (issued : Nat) (store : Keyed Nat α) (held : List (Nat × β)) :
    Prop where
  ordered : store.Ordered
  issued : ∀ p ∈ store, p.1 ≤ issued
  held : held.Perm (store.map fun p => (p.1, size p.2))

namespace Balanced

variable {size : α → β} {c c' : Account α β} {held rest : List (Nat × β)} {issued : Nat}
    {store : Keyed Nat α}
variable {k : Nat}

/-- In any order. -/
theorem perm (h : Balanced size issued store held) {held' : List (Nat × β)}
    (hperm : held'.Perm held) :
    Balanced size issued store held' :=
  ⟨h.ordered, h.issued, hperm.trans h.held⟩

/-- No number is held twice. -/
theorem nodup (h : Balanced size issued store held) : (held.map Prod.fst).Nodup := by
  rw [(h.held.map Prod.fst).nodup_iff, map_map]
  exact h.ordered.nodup_keys

/-- What a user holds lies in the store, with its size. -/
theorem get?_of_mem (h : Balanced size issued store held) {b : β} (hmem : (k, b) ∈ held) :
    ∃ a, store.get? k = some a ∧ size a = b := by
  obtain ⟨⟨k', a⟩, ha, heq⟩ := mem_map.1 (h.held.mem_iff.1 hmem)
  cases heq
  exact ⟨a, h.ordered.mem_iff.1 ha, rfl⟩

/-- All that lies there is held. -/
theorem mem_of_get? (h : Balanced size issued store held) {a : α} (hget : store.get? k = some a) :
    (k, size a) ∈ held :=
  h.held.mem_iff.2 (mem_map.2 ⟨(k, a), h.ordered.mem_iff.2 hget, rfl⟩)

/-- Without users the store is empty. -/
theorem eq_nil (h : Balanced size issued store []) : store = [] :=
  map_eq_nil_iff.1 h.held.nil_eq.symm

/-- Numbers may pass. -/
theorem issue (h : Balanced size issued store held) {issued' : Nat} (hle : issued ≤ issued') :
    Balanced size issued' store held :=
  ⟨h.ordered, fun p hp => (h.issued p hp).trans hle, h.held⟩

/-- Something new is held by the user it was made for. -/
theorem make (h : Balanced size issued store held) (a : α) :
    Balanced size (issued + 1) (store.put (issued + 1) a) ((issued + 1, size a) :: held) := by
  refine ⟨h.ordered.put _ _, fun p hp => ?_, ?_⟩
  · rcases mem_put hp with rfl | hp
    · exact le_rfl
    · exact (h.issued p hp).trans (Nat.le_succ _)
  · rcases h.ordered.put_eq (issued + 1) a with ⟨pre, old, post, rfl, -⟩ | ⟨pre, post, rfl, -, hput⟩
    · -- No entry has a number that was not given out.
      exact absurd (h.issued (issued + 1, old) (by simp)) (Nat.not_succ_le_self _)
    · have hheld := h.held
      rw [map_append] at hheld
      rw [hput, map_append, map_cons]
      exact (hheld.cons _).trans List.perm_middle.symm

/-- What a user drops is no longer in the store. -/
theorem drop {b : β} (h : Balanced size issued store ((k, b) :: held)) :
    Balanced size issued (store.erase k) held := by
  refine ⟨List.Pairwise.filter _ h.ordered, fun p hp => h.issued p (mem_filter.1 hp).1, ?_⟩
  have hnodup := h.nodup
  rw [map_cons, nodup_cons] at hnodup
  have hfilter := h.held.filter fun p => p.1 != k
  have hothers : held.filter (fun p => p.1 != k) = held := by
    refine filter_eq_self.2 fun p hp => ?_
    simpa using fun heq => hnodup.1 (mem_map.2 ⟨p, hp, heq⟩)
  rw [filter_cons_of_neg (by simp), hothers, filter_map] at hfilter
  exact hfilter

/-- Overwriting by the same size changes nothing for users. -/
theorem write (h : Balanced size issued store held) {old new : α} (hold : store.get? k = some old)
    (hsize : size new = size old) : Balanced size issued (store.put k new) held := by
  have hold := h.ordered.mem_iff.2 hold
  refine ⟨h.ordered.put _ _, fun p hp => ?_, ?_⟩
  · rcases mem_put hp with rfl | hp
    · exact h.issued (k, old) hold
    · exact h.issued p hp
  · have hheld := h.held
    rcases h.ordered.put_eq k new with ⟨pre, old', post, rfl, hput⟩ | ⟨pre, post, rfl, hnone, -⟩
    · obtain rfl : old' = old := by
        have hget := h.ordered.mem_iff.1 (show (k, old') ∈ pre ++ (k, old') :: post by simp)
        rw [h.ordered.mem_iff.1 hold] at hget
        exact (Option.some.inj hget).symm
      rw [hput, map_append, map_cons, hsize]
      rwa [map_append, map_cons] at hheld
    · exact absurd rfl (get?_eq_none_iff.1 hnone _ hold)

/-- Whatever a user does, the store stays balanced. -/
theorem moves (hmoves : Account.Moves size c c')
    (h : Balanced size c.issued c.store (c.own.toList ++ rest)) :
    Balanced size c'.issued c'.store (c'.own.toList ++ rest) := by
  induction hmoves with
  | refl => exact h
  | tail _ hmove ih =>
    cases hmove with
    | issue => exact ih.issue (Nat.le_succ _)
    | make a hnone =>
      rw [hnone] at ih
      exact ih.make a
    | drop hown =>
      rw [hown] at ih
      exact ih.drop
    | write hown hold hsize => exact ih.write hold hsize

end Balanced

/-! ## Stores that hold more than what their users hold -/

/-- No two users hold the same thing, and all is in the store with its size, maybe beside others. -/
structure Stocked (size : α → β) (issued : Nat) (store : Keyed Nat α) (held : List (Nat × β)) :
    Prop where
  apart : Apart issued held
  live : ∀ p ∈ held, ∃ a, store.get? p.1 = some a ∧ size a = p.2

namespace Stocked

variable {size : α → β} {c c' : Account α β} {held held' rest : List (Nat × β)}
    {issued issued' : Nat}
  {store store' : Keyed Nat α}

/-- Without users this is so. -/
theorem nil (size : α → β) (issued : Nat) (store : Keyed Nat α) : Stocked size issued store [] :=
  ⟨⟨nodup_nil, fun _ hp => (nomatch hp)⟩, fun _ hp => (nomatch hp)⟩

/-- In any order. -/
theorem perm (h : Stocked size issued store held) (hperm : held.Perm held') :
    Stocked size issued store held' :=
  ⟨h.apart.perm hperm, fun p hp => h.live p (hperm.mem_iff.2 hp)⟩

/-- What some of the users hold. -/
theorem append_right {own : List (Nat × β)} (h : Stocked size issued store (own ++ rest)) :
    Stocked size issued store rest :=
  ⟨h.apart.append_right, fun p hp => h.live p (mem_append_right _ hp)⟩

/-- What one user holds. -/
theorem single (h : Stocked size issued store held) {p : Nat × β} (hp : p ∈ held) :
    Stocked size issued store [p] where
  apart := ⟨pairwise_singleton _ _, fun _ hq => mem_singleton.1 hq ▸ h.apart.issued p hp⟩
  live _ hq := mem_singleton.1 hq ▸ h.live p hp

/-- Others may put in things, and overwrite some of one size. -/
theorem grow (h : Stocked size issued store held) (hissued : issued ≤ issued')
    (hstore : ∀ k a, store.get? k = some a → ∃ a', store'.get? k = some a' ∧ size a' = size a) :
    Stocked size issued' store' held where
  apart := h.apart.mono hissued
  live p hp := by
    obtain ⟨a, hget, hsize⟩ := h.live p hp
    obtain ⟨a', hget', hsize'⟩ := hstore p.1 a hget
    exact ⟨a', hget', hsize'.trans hsize⟩

/-- Whatever a user does, the store stays stocked. -/
theorem moves (hmoves : Account.Moves size c c')
    (h : Stocked size c.issued c.store (c.own.toList ++ rest)) :
    Stocked size c'.issued c'.store (c'.own.toList ++ rest) := by
  refine ⟨h.apart.moves hmoves, ?_⟩
  induction hmoves with
  | refl => exact h.live
  | @tail c₁ c₂ hmoves hmove ih =>
    have hapart := h.apart.moves hmoves
    cases hmove with
    | issue => exact ih
    | make a hnone =>
      rw [hnone] at ih hapart
      intro p hp
      rcases mem_cons.1 hp with rfl | hp
      · exact ⟨a, get?_put_self _ _ _, rfl⟩
      · obtain ⟨old, hget, hsize⟩ := ih p hp
        have hle := hapart.issued p hp
        exact ⟨old, by rw [get?_put_nat, if_neg (by omega), hget], hsize⟩
    | drop hown =>
      rw [hown] at ih hapart
      obtain ⟨-, hne, -⟩ := Apart.cons_iff.1 hapart
      intro p hp
      obtain ⟨a, hget, hsize⟩ := ih p (.tail _ hp)
      exact ⟨a, by rw [get?_erase, if_neg (hne p hp), hget], hsize⟩
    | @write k b old new hown hold hsize =>
      rw [hown] at ih hapart ⊢
      obtain ⟨-, hne, -⟩ := Apart.cons_iff.1 hapart
      intro p hp
      rcases mem_cons.1 hp with rfl | hp
      · obtain ⟨a, hget, hb⟩ := ih _ (.head _)
        cases hold.symm.trans hget
        exact ⟨new, get?_put_self _ _ _, hsize.trans hb⟩
      · obtain ⟨a, hget, hb⟩ := ih p (.tail _ hp)
        exact ⟨a, by rw [get?_put_nat, if_neg (hne p hp), hget], hb⟩

end Stocked

/-! ## One user among others -/

/-- All users hold what they held, but for one with moves. -/
def Account.Shift (size : α → β) (issued : Nat) (store : Keyed Nat α) (held : List (Nat × β))
    (issued' : Nat) (store' : Keyed Nat α) (held' : List (Nat × β)) : Prop :=
  ∃ own own' rest, held.Perm (own.toList ++ rest) ∧ held'.Perm (own'.toList ++ rest) ∧
    Moves size ⟨issued, store, own⟩ ⟨issued', store', own'⟩

namespace Account.Shift

variable {size : α → β} {issued issued' : Nat} {store store' : Keyed Nat α}
    {held held' : List (Nat × β)}

/-- No user has done anything, though numbers may have passed. -/
theorem idle (hissued : issued ≤ issued') (hstore : store' = store) (hheld : held'.Perm held) :
    Shift size issued store held issued' store' held' := by
  refine ⟨none, none, held, .refl _, hheld, ?_⟩
  rw [hstore]
  exact .of_le hissued store none

/-- A step keeps users apart. -/
theorem apart (h : Shift size issued store held issued' store' held') (ha : Apart issued held) :
    Apart issued' held' := by
  obtain ⟨own, own', rest, hperm, hperm', hmoves⟩ := h
  exact (Apart.moves hmoves (ha.perm hperm)).perm hperm'.symm

/-- A step keeps the balance. -/
theorem balanced (h : Shift size issued store held issued' store' held')
    (hb : Balanced size issued store held) :
    Balanced size issued' store' held' := by
  obtain ⟨own, own', rest, hperm, hperm', hmoves⟩ := h
  exact (Balanced.moves hmoves (hb.perm hperm.symm)).perm hperm'

/-- Users of other systems go on to find what they hold, too. -/
theorem stocked (h : Shift size issued store held issued' store' held') {others : List (Nat × β)}
    (hs : Stocked size issued store (held ++ others)) :
    Stocked size issued' store' (held' ++ others) := by
  obtain ⟨own, own', rest, hperm, hperm', hmoves⟩ := h
  have hsplit := hs.perm (hperm.append_right others)
  rw [append_assoc] at hsplit
  have hmoved := Stocked.moves hmoves hsplit
  rw [← append_assoc] at hmoved
  exact hmoved.perm (hperm'.symm.append_right others)

end Account.Shift

end ComputeKernel
