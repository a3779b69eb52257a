import Mathlib.Data.List.Nodup
import ComputeKernel.Dispatch.Layout

/-!
# Declarations of kernels

Declarations make a layout exactly if no two entry points and no two slots have one name and no
extent is empty (`Declarable`); otherwise the first mistake is told (`FirstMistake`). Look-ups by
name take the first match. In a layout there is no other, so that names and ordinals of entry points
lead to each other (`declared_layout`).
-/

namespace ComputeKernel

open Layout

/-- No component is zero. -/
def Uint3.Positive (v : Uint3) : Prop := 0 < v.x ∧ 0 < v.y ∧ 0 < v.z

/-- Nothing is empty then. -/
theorem Uint3.isEmpty_eq_false_iff {v : Uint3} : v.isEmpty = false ↔ v.Positive := by
  simp [isEmpty, Positive, UInt32.pos_iff_ne_zero, and_assoc]

/-- A name comes a second time, before any other does. -/
def RepeatsFirst (name : String) (names : List String) : Prop :=
  ∃ before after, names = before ++ name :: after ∧ before.Nodup ∧ name ∈ before

/-- Then a name is repeated. -/
theorem RepeatsFirst.not_nodup {name : String} {names : List String} (h : RepeatsFirst name names) :
    ¬ names.Nodup := by
  obtain ⟨before, after, rfl, -, hmem⟩ := h
  exact fun hnodup => (List.nodup_append'.1 hnodup).2.2 hmem (.head _)

/-- The search, after names that are all different. -/
theorem firstRepeated_spec {seen : List String} (hseen : seen.Nodup) (names : List String) :
    match firstRepeated seen names with
    | some name => RepeatsFirst name (seen.reverse ++ names)
    | none => (seen.reverse ++ names).Nodup := by
  induction names generalizing seen with
  | nil => simpa [firstRepeated] using hseen
  | cons name names ih =>
    rw [firstRepeated]
    split_ifs with hmem
    · exact ⟨seen.reverse, names, rfl, List.nodup_reverse.2 hseen, List.mem_reverse.2 hmem⟩
    · simpa using ih (List.nodup_cons.2 ⟨hmem, hseen⟩)

variable {K : Type} {entries : List (EntryDecl K)} {slots : List (Slot K)}

/-- Declarations that make a layout. -/
structure Declarable (entries : List (EntryDecl K)) (slots : List (Slot K)) : Prop where
  entryNames : (entries.map (·.name)).Nodup
  slotNames : (slots.map (·.name)).Nodup
  extents : ∀ e ∈ entries, e.extent.Positive

/-- The first mistake in declarations. -/
def FirstMistake (entries : List (EntryDecl K)) (slots : List (Slot K)) : DispatchError → Prop
  | .duplicateEntry name => RepeatsFirst name (entries.map (·.name))
  | .duplicateSlot name => (entries.map (·.name)).Nodup ∧ RepeatsFirst name (slots.map (·.name))
  | .zeroExtent name extent => (entries.map (·.name)).Nodup ∧ (slots.map (·.name)).Nodup ∧
    ∃ before e after, entries = before ++ e :: after ∧ (∀ e' ∈ before, e'.extent.Positive) ∧
      ¬ e.extent.Positive ∧ e.name = name ∧ e.extent = extent
  | _ => False

namespace Layout

/-- Declarations make a layout, or their first mistake is told. -/
theorem of?_cases (entries : List (EntryDecl K)) (slots : List (Slot K)) :
    of? entries slots = .ok ⟨numbered entries, slots⟩ ∧ Declarable entries slots ∨
      ∃ e, of? entries slots = .error e ∧ FirstMistake entries slots e ∧
      ¬ Declarable entries slots := by
  have hentries := firstRepeated_spec .nil (entries.map (·.name))
  have hslots := firstRepeated_spec .nil (slots.map (·.name))
  rw [of?]
  split at hentries
  next name heq =>
    rw [heq]
    exact .inr ⟨_, rfl, hentries, fun h => hentries.not_nodup h.entryNames⟩
  next heq =>
    rw [heq]
    split at hslots
    next name heq =>
      rw [heq]
      exact .inr ⟨_, rfl, ⟨hentries, hslots⟩, fun h => hslots.not_nodup h.slotNames⟩
    next heq =>
      rw [heq]
      cases hfind : entries.find? (·.extent.isEmpty) with
      | none =>
        refine .inl ⟨rfl, hentries, hslots, fun e he => Uint3.isEmpty_eq_false_iff.1 ?_⟩
        simpa using List.find?_eq_none.1 hfind e he
      | some e =>
        obtain ⟨hempty, before, after, rfl, hbefore⟩ := List.find?_eq_some_iff_append.1 hfind
        have he : ¬ e.extent.Positive := by simp [← Uint3.isEmpty_eq_false_iff, hempty]
        refine .inr ⟨_, rfl, ⟨hentries, hslots, before, e, after, rfl, fun e' he' => ?_,
          he, rfl, rfl⟩, fun h => he (h.extents e (by simp))⟩
        exact Uint3.isEmpty_eq_false_iff.1 (by simpa using hbefore e' he')

/-- Numbering keeps the names. -/
theorem names_numbered (entries : List (EntryDecl K)) :
    (numbered entries).map (·.name) = entries.map (·.name) :=
  List.ext_getElem? fun i => by simp [numbered, Function.comp_def]

/-- The entry point at a place. -/
theorem getElem?_numbered {i : Nat} {e : EntryPoint K} :
    (numbered entries)[i]? = some e ↔ entries[i]? = some e.toEntryDecl ∧ e.ordinal = i := by
  obtain ⟨decl, ordinal⟩ := e
  simp [numbered, @eq_comm _ ordinal]

/-- The first match is the entry point of the name. -/
theorem find?_eq_some_iff {l : Layout K} (h : (l.entries.map (·.name)).Nodup)
    {name : String} {i : Nat} :
    l.find? name = some i ↔ ∃ e, l.entry i = .ok e ∧ e.name = name := by
  simp only [find?, List.findIdx?_eq_some_iff_getElem, entry_eq_ok_iff,
    List.getElem?_eq_some_iff, beq_iff_eq]
  constructor
  · rintro ⟨hi, hname, -⟩
    exact ⟨_, ⟨hi, rfl⟩, hname⟩
  · rintro ⟨e, ⟨hi, rfl⟩, hname⟩
    refine ⟨hi, hname, fun j hj hagain => Nat.ne_of_lt hj ?_⟩
    have hlt := Nat.lt_trans hj hi
    exact (List.getElem?_inj (by simpa using hlt) h).1 (by simp [hi, hlt, hagain, hname])

/-- So are names of slots. -/
theorem slot?_eq_some_iff {l : Layout K} (h : (l.slots.map (·.name)).Nodup) {name : String}
    {s : Slot K} :
    l.slot? name = some s ↔ s ∈ l.slots ∧ s.name = name := by
  refine ⟨mem_of_slot?, ?_⟩
  rintro ⟨hmem, rfl⟩
  cases hfind : l.slot? s.name with
  | none => simpa using List.find?_eq_none.1 hfind s hmem
  | some s' =>
    obtain ⟨hmem', hname⟩ := mem_of_slot? hfind
    rw [List.inj_on_of_nodup_map h hmem' hmem hname]

end Layout

/-- **Declared layouts.** Whatever is declared, and however the two kinds are mixed: exactly the
declarable make a layout, and the others are refused with their first mistake. In a layout names and
ordinals of entry points lead to each other, an ordinal is the place of the declaration, and a name
leads to the one slot that has it, and to what it accepts. -/
theorem declared_layout (entries : List (EntryDecl K)) (slots : List (Slot K)) :
    ((∃ l, Layout.of? entries slots = .ok l) ↔ Declarable entries slots) ∧
    (∀ e, Layout.of? entries slots = .error e → FirstMistake entries slots e) ∧
    ∀ l, Layout.of? entries slots = .ok l →
      (∀ name i, l.find? name = some i ↔ ∃ e, l.entry i = .ok e ∧ e.name = name) ∧
      (∀ i e, l.entry i = .ok e ↔ entries[i]? = some e.toEntryDecl ∧ e.ordinal = i) ∧
      (∀ name s, l.slot? name = some s ↔ s ∈ slots ∧ s.name = name) ∧
      ∀ name c, l.capability? name = some c ↔ ∃ s ∈ slots, s.name = name ∧ s.capability = c := by
  rcases of?_cases entries slots with ⟨hok, h⟩ | ⟨e, herror, hmistake, hnot⟩
  · rw [hok]
    refine ⟨iff_of_true ⟨_, rfl⟩ h, fun _ he => (nomatch he), fun l hl => ?_⟩
    cases hl
    have hslot (name : String) (s : Slot K) : (⟨Layout.numbered entries, slots⟩ : Layout K).slot?
      name = some s ↔
        s ∈ slots ∧ s.name = name := slot?_eq_some_iff h.slotNames
    refine ⟨fun name i => find?_eq_some_iff ?_, fun i e => ?_, hslot, fun name c => ?_⟩
    · exact names_numbered entries ▸ h.entryNames
    · rw [entry_eq_ok_iff, getElem?_numbered]
    · simp only [capability?, Option.map_eq_some_iff, hslot, and_assoc]
  · rw [herror]
    refine ⟨iff_of_false (fun ⟨_, hl⟩ => nomatch hl) hnot, fun _ he => ?_, fun _ hl => (nomatch hl)⟩
    cases he
    exact hmistake

end ComputeKernel
