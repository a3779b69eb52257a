import ComputeKernel.Proofs.Shader.Reports

/-!
# Requests for a read-only view

A type that is qualified by `ReadOnly` asks for the read-only view of what stands in front of the
qualifier. If that is a name, with type arguments or without, the view is written, or there is a
problem to tell of. If it is a qualified type in turn, the request gets lost: only the last segment
of a qualified type is written, as if nothing had been asked for. `overlooked?` finds this segment,
and `view_honoured_iff` says that a request is honoured unless there is one.
-/

namespace ComputeKernel.Shader

variable (name : String) (o : Output)
variable (span : Span)

/-- A text that names a read-only resource type. -/
def NamesView (text : String) : Prop :=
  ∃ type view, readOnlyType? type = some view ∧
    (text = view ∨ ∃ args, text = view ++ ("<" ++ args ++ ">"))

/-- An output that names a view, or has a problem to tell of. -/
def Output.Honours : Prop := o.problems ≠ [] ∨ NamesView o.text

/-! ## Views of names -/

/-- The view of a name is written, or there is a problem. -/
theorem typeName_view :
    (typeName true name span).problems ≠ [] ∨
      readOnlyType? (resourceType name) = some (typeName true name span).text := by
  rw [typeName]
  cases readOnlyType? (resourceType name) with
  | none => exact .inl (List.cons_ne_nil _ _)
  | some view => exact .inr rfl

/-- The view of a name is honoured. -/
theorem honours_typeName : (typeName true name span).Honours :=
  (typeName_view name span).imp_right fun hview => ⟨_, _, hview, .inl rfl⟩

/-- Type arguments do not hide the view, nor a problem. -/
theorem honours_generic (args : Output) :
    (typeName true name span ++ (.lit "<" ++ args ++ .lit ">")).Honours := by
  rcases typeName_view name span with hproblem | hview
  · exact .inl fun hnil => hproblem (List.append_eq_nil_iff.1 hnil).1
  · exact .inr ⟨_, _, hview, .inr ⟨args.text, rfl⟩⟩

/-! ## Views of qualified types -/

mutual

/-- The segment that is written when the view of a type is asked for, and that knows nothing of it.
Requests in front of it are stepped over, unless they are a problem. -/
def overlooked? : TypeRef → Option (Spanned TypeRef)
  | .qualified left right =>
    if placedAsksReadOnly right then
      if (placedType false right).problems = [] then placedOverlooked? left else none
    else some right
  | .identifier _ | .predefined _ | .generic _ _ | .array _ _ | .pointer _ | .nullable _ |
    .tuple _ => none

/-- So for a type with its place. -/
def placedOverlooked? : Spanned TypeRef → Option (Spanned TypeRef)
  | ⟨node, _⟩ => overlooked? node

end

/-- Of a qualified type that asks for no view the last segment is written. -/
theorem typeOutput_qualified_of_not {left right : Spanned TypeRef}
    (h : placedAsksReadOnly right ≠ true) (readOnly : Bool) (span : Span) :
    typeOutput readOnly (.qualified left right) span = placedType false right := by
  rw [typeOutput]
  exact if_neg fun htext => h ((placedType_text right false).1 htext)

/-- The view of a qualified type comes after the problems of the request. -/
theorem typeOutput_qualified_of_asks {left right : Spanned TypeRef}
    (h : placedAsksReadOnly right = true) (readOnly : Bool) (span : Span) :
    typeOutput readOnly (.qualified left right) span =
      { problems := (placedType false right).problems } ++ placedType true left := by
  rw [typeOutput]
  exact if_pos ((placedType_text right false).2 h)

/-- Nothing comes before an output. -/
theorem Output.nil_append : ({} : Output) ++ o = o := by
  show (⟨"" ++ o.text, [] ++ o.problems⟩ : Output) = o
  rw [String.empty_append, List.nil_append]

/-- Nothing comes after it. -/
theorem Output.append_nil : o ++ {} = o := by
  show (⟨o.text ++ "", o.problems ++ []⟩ : Output) = o
  rw [String.append_empty, List.append_nil]

mutual

/-- The view of a type is what `overlooked?` finds, or is honoured. -/
theorem view_cases : ∀ (t : TypeRef) (span : Span),
    match overlooked? t with
    | some last => typeOutput true t span = placedType false last
    | none => (typeOutput true t span).Honours
  | .identifier name, span | .predefined name, span => honours_typeName name span
  | .generic name none, span => by
    rw [overlooked?, typeOutput, Output.append_nil]
    exact honours_typeName name span
  | .generic name (some args), span => honours_generic name span _
  | .array _ _, _ | .pointer _, _ | .nullable _, _ | .tuple _, _ => .inl (List.cons_ne_nil _ _)
  | .qualified left right, span => by
    have hleft := placedView_cases left
    rw [overlooked?]
    by_cases hasks : placedAsksReadOnly right = true
    · rw [if_pos hasks, typeOutput_qualified_of_asks hasks]
      by_cases hproblems : (placedType false right).problems = []
      · rw [if_pos hproblems, hproblems, Output.nil_append]
        exact hleft
      · rw [if_neg hproblems]
        exact .inl fun hnil => hproblems (List.append_eq_nil_iff.1 hnil).1
    · rw [if_neg hasks]
      exact typeOutput_qualified_of_not hasks true span

/-- So for a type with its place. -/
theorem placedView_cases : ∀ t : Spanned TypeRef,
    match placedOverlooked? t with
    | some last => placedType true t = placedType false last
    | none => (placedType true t).Honours
  | ⟨node, span⟩ => by
    rw [placedOverlooked?, placedType]
    exact view_cases node span

end

/-- The request for a view is handed on, and is no problem by itself. -/
theorem typeOutput_readOnly (left : Spanned TypeRef) (place span : Span) :
    typeOutput false (.qualified left ⟨.identifier readOnlyQualifier, place⟩) span =
      placedType true left := by
  rw [typeOutput_qualified_of_asks rfl]
  exact Output.nil_append _

/-- **When a request for a read-only view is honoured.** For all types: what is written of a type
that is qualified by `ReadOnly` names a read-only resource type, or there is a problem to tell of,
unless the request is overlooked. Then the last segment of a qualified type is written just as it
would be without the request. -/
theorem view_honoured_iff (left : Spanned TypeRef) (place span : Span) :
    ((typeOutput false (.qualified left ⟨.identifier readOnlyQualifier, place⟩) span).Honours ↔
        ∀ last ∈ placedOverlooked? left, (placedType false last).Honours) ∧
      ∀ last ∈ placedOverlooked? left,
        typeOutput false (.qualified left ⟨.identifier readOnlyQualifier, place⟩) span =
          placedType false last := by
  rw [typeOutput_readOnly]
  have hcases := placedView_cases left
  cases hlast : placedOverlooked? left with
  | none =>
    rw [hlast] at hcases
    exact ⟨iff_of_true hcases fun _ h => (nomatch h), fun _ h => (nomatch h)⟩
  | some last =>
    rw [hlast] at hcases
    rw [hcases]
    refine ⟨⟨?_, fun h => h last rfl⟩, ?_⟩
    · rintro h _ ⟨⟩
      exact h
    · rintro _ ⟨⟩
      rfl

open Construct in
/-- The read-only view of a container that is called by its full name. -/
def fullNameView : Spanned TypeRef :=
  qualified (qualified (type "Unity") (generic "NativeArray" [predefined "float"]))
    (type readOnlyQualifier)

open Construct in
/-- The view of a container that is called by its full name comes out as the container, which may be
written to. There is nothing to tell of, so a class with such a field is translated. -/
theorem fullNameView_dropped :
    placedType false fullNameView = { text := "RWStructuredBuffer<float>" } ∧
    ¬(placedType false fullNameView).Honours ∧
      translate? "" (classOf "Full" [field fullNameView "x" none]) =
        .ok "\nRWStructuredBuffer<float> x;\n\n" := by
  have hwritten : placedType false fullNameView = { text := "RWStructuredBuffer<float>" } := by
    decide +kernel
  refine ⟨hwritten, ?_, by decide +kernel⟩
  rw [hwritten]
  rintro (hproblems | ⟨type, view, hview, htext⟩)
  · exact hproblems rfl
  · obtain ⟨-, ⟨⟩⟩ := Option.ite_none_right_eq_some.1 hview
    rcases htext with htext | ⟨args, htext⟩
    · exact absurd htext (by decide)
    · have hhead := congrArg (·.toList.head?) htext
      rw [String.toList_append] at hhead
      exact absurd hhead (by simp)

end ComputeKernel.Shader
