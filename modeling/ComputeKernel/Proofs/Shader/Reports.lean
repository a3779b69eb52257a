import Mathlib.Data.List.Forall2
import ComputeKernel.Source.Construct
import ComputeKernel.Proofs.Shader.Reach

/-!
# What a translation reports

The problems of an output are those of the constructs that are reached from the node, each once and
in the order of writing (`typeOutput_problems`, `exprOutput_problems`, `stmtOutput_problems`): the
recursion that writes a node and the one that lists its parts go the same way. Whether a qualified
type asks for a read-only view is decided by the text of its last segment, so that text has to be
known too (`typeOutput_text`).

For a class it follows that each unsupported construct that is reached is told about once, and that
the class is translated if there is none.
-/

namespace ComputeKernel.Shader

open Output

/-! ## Problems of outputs -/

namespace Output

@[simp] theorem problems_lit (text : String) : (lit text).problems = [] := rfl

@[simp] theorem problems_problem (reason : Reason) (span : Span) :
    (problem reason span).problems = [⟨reason, span⟩] := rfl

@[simp] theorem problems_blanks (indent : Nat) : (blanks indent).problems = [] := rfl

@[simp] theorem problems_separated (sep : String) (os : List Output) :
    (separated sep os).problems = os.flatMap problems := by
  induction os with
  | nil => rfl
  | cons o os ih =>
    cases os with
    | nil => simp [separated]
    | cons o' os => simp [separated, ih]

@[simp] theorem problems_all (os : List Output) : (all os).problems = os.flatMap problems := by
  induction os with
  | nil => rfl
  | cons o os ih =>
    rw [all] at ih ⊢
    rw [List.foldr_cons, problems_append, ih, List.flatMap_cons]

end Output

/-! ## Problems of constructs -/

namespace Site

variable {s : Site}

/-- The problem of a construct, if it is one. -/
def problem? (s : Site) : Option Problem := s.reason?.map (⟨·, s.span⟩)

/-- The problems of the constructs that are reached from one. -/
def problems (s : Site) : List Problem := s.reached.filterMap problem?

/-- Its own problem, and those of its parts. -/
theorem problems_eq (s : Site) :
    s.problems = s.problem?.toList ++ if s.hidesParts then [] else s.parts.flatMap problems := by
  rw [problems, reached_eq, List.filterMap_cons, apply_ite (List.filterMap problem?),
    List.filterMap_flatMap]
  cases s.problem? <;> rfl

/-- A construct that is supported has the problems of its parts. -/
theorem problems_of_supported (h : s.reason? = none) : s.problems = s.parts.flatMap problems := by
  rw [problems_eq]
  simp [problem?, hidesParts, h]

/-- A view that a type lacks is a problem, before those of the arguments. -/
theorem problems_of_noReadOnly {name : String} (h : s.reason? = some (.noReadOnly name)) :
    s.problems = ⟨.noReadOnly name, s.span⟩ :: s.parts.flatMap problems := by
  rw [problems_eq]
  simp [problem?, hidesParts, h]

/-- Any other construct that is not supported is the only problem. -/
theorem problems_of_hidesParts {reason : Reason} (h : s.reason? = some reason)
    (hhides : s.hidesParts = true) : s.problems = [⟨reason, s.span⟩] := by
  rw [problems_eq, if_pos hhides, problem?, h]
  rfl

end Site

/-! ## Types -/

/-- Only one word asks for a view. -/
theorem resourceType_eq_readOnlyQualifier (name : String) :
    resourceType name = readOnlyQualifier ↔ name = readOnlyQualifier := by
  unfold resourceType
  split
  · next h => simp [h, readOnlyQualifier]
  · split
    · next h => simp [h, readOnlyQualifier]
    · rfl

/-- A name comes out as that word only if it is. -/
theorem typeName_text (readOnly : Bool) (name : String) (span : Span) :
    (typeName readOnly name span).text = readOnlyQualifier ↔ name = readOnlyQualifier := by
  rw [← resourceType_eq_readOnlyQualifier name]
  cases readOnly with
  | false => rfl
  | true =>
    by_cases h : resourceType name = "RWStructuredBuffer"
    · simp [typeName, readOnlyType?, h, readOnlyQualifier]
    · simp [typeName, readOnlyType?, h]

/-- A text between angle brackets never ends like that word. -/
theorem append_angles_ne (a b : String) : a ++ ("<" ++ b ++ ">") ≠ readOnlyQualifier := by
  intro h
  have hlast := congrArg (·.toList.getLast?) h
  rw [← String.append_assoc, String.toList_append, show ">".toList = ['>'] from rfl,
    List.getLast?_concat] at hlast
  exact absurd hlast (by decide)

mutual

/-- A type comes out as that word exactly if it is made of it alone. -/
theorem typeOutput_text : ∀ (t : TypeRef) (readOnly : Bool) (span : Span),
    (typeOutput readOnly t span).text = readOnlyQualifier ↔ asksReadOnly t = true
  | .identifier name, readOnly, span | .predefined name, readOnly, span => by
    rw [typeOutput, asksReadOnly, decide_eq_true_iff]
    exact typeName_text readOnly name span
  | .qualified left right, readOnly, span => by
    have hright := placedType_text right false
    have hleft := placedType_text left true
    rw [typeOutput, asksReadOnly, Bool.and_eq_true]
    by_cases h : (placedType false right).text = readOnlyQualifier
    · simpa [h, hright.1 h] using hleft
    · simpa [h] using fun _ hasks => h (hright.2 hasks)
  | .generic name none, readOnly, span => by
    rw [typeOutput, asksReadOnly, decide_eq_true_iff]
    simpa using typeName_text readOnly name span
  | .generic name (some args), readOnly, span => by
    rw [typeOutput, asksReadOnly]
    simpa using append_angles_ne _ _
  | .array _ _, _, _ | .pointer _, _, _ | .nullable _, _, _ | .tuple _, _, _ => by
    simp [typeOutput, asksReadOnly, readOnlyQualifier]

/-- So for a type with its place. -/
theorem placedType_text : ∀ (t : Spanned TypeRef) (readOnly : Bool),
    (placedType readOnly t).text = readOnlyQualifier ↔ placedAsksReadOnly t = true
  | ⟨node, span⟩, readOnly => by
    rw [placedType, placedAsksReadOnly]
    exact typeOutput_text node readOnly span

end

open Site (ofType ofView ofExpr ofStmt parts isUnsupported problems_of_supported
      problems_of_hidesParts)

/-- A name that lacks the view is a problem. -/
theorem typeName_problems (readOnly : Bool) (name : String) (span : Span) :
    (typeName readOnly name span).problems =
      if readOnly ∧ readOnlyType? (resourceType name) = none then
        [⟨.noReadOnly (resourceType name), span⟩]
      else [] := by
  cases readOnly with
  | false => rfl
  | true =>
    rw [typeName]
    cases readOnlyType? (resourceType name) with
    | none => rfl
    | some counterpart => rfl

/-- A name has the problems of the type, before those of its parts. -/
theorem problems_of_name {s : Site} {readOnly : Bool} {name : String}
    (h : s.reason? = if readOnly ∧ readOnlyType? (resourceType name) = none then
      some (.noReadOnly (resourceType name)) else none) :
    s.problems = (typeName readOnly name s.span).problems ++ s.parts.flatMap Site.problems := by
  rw [typeName_problems]
  split at h
  · next hlacks => rw [if_pos hlacks, Site.problems_of_noReadOnly h, List.singleton_append]
  · next hhas => rw [if_neg hhas, problems_of_supported h, List.nil_append]

mutual

/-- The problems of a type are those that are reached from it. -/
theorem typeOutput_problems : ∀ (t : TypeRef) (readOnly : Bool) (span : Span),
    (typeOutput readOnly t span).problems = (Site.type readOnly t span).problems
  | .identifier name, readOnly, span | .predefined name, readOnly, span => by
    rw [typeOutput, problems_of_name rfl]
    exact (List.append_nil _).symm
  | .qualified left right, readOnly, span => by
    have hright := placedType_problems right
    have hleft := placedView_problems left
    rw [typeOutput, problems_of_supported rfl]
    by_cases h : (placedType false right).text = readOnlyQualifier
    · simp [parts, h, (placedType_text right false).1 h, hright, hleft]
    · have hasks : ¬placedAsksReadOnly right = true :=
        fun hasks => h ((placedType_text right false).2 hasks)
      simp [parts, h, hasks, hright]
  | .generic name none, readOnly, span => by
    rw [typeOutput, problems_of_name rfl]
    rfl
  | .generic name (some args), readOnly, span => by
    rw [typeOutput, problems_of_name rfl]
    simp [parts, Site.span, typeList_problems args]
  | .array _ _, _, _ | .pointer _, _, _ | .nullable _, _, _ | .tuple _, _, _ => by
    rw [typeOutput, problems_of_hidesParts rfl rfl]
    rfl

/-- So for a type with its place. -/
theorem placedType_problems :
    ∀ t : Spanned TypeRef, (placedType false t).problems = (ofType t).problems
  | ⟨node, span⟩ => by
    rw [placedType]
    exact typeOutput_problems node false span

/-- So for a view with its place. -/
theorem placedView_problems :
    ∀ t : Spanned TypeRef, (placedType true t).problems = (ofView t).problems
  | ⟨node, span⟩ => by
    rw [placedType]
    exact typeOutput_problems node true span

/-- So for types in turn. -/
theorem typeList_problems : ∀ ts : List (Spanned TypeRef),
    (typeList ts).flatMap Output.problems = (ts.map ofType).flatMap Site.problems
  | [] => rfl
  | t :: ts => by
    rw [typeList, List.flatMap_cons, List.map_cons, List.flatMap_cons, placedType_problems t,
      typeList_problems ts]

end

/-! ## Expressions -/

/-- The operators that may not stand in kernel text. -/
theorem isSupported_iff (op : BinaryOp) : isSupported op = true ↔
    op ∉ [.equals, .logicalAnd, .logicalOr, .bitwiseAnd, .bitwiseOr, .exclusiveOr] := by
  cases op <;> decide

mutual

/-- The problems of an expression are those that are reached from it. -/
theorem exprOutput_problems : ∀ (e : Expr) (span : Span),
    (exprOutput e span).problems = (Site.expr e span).problems
  | .numericLiteral _, _ | .identifier _, _ => by
    rw [exprOutput, problems_of_supported rfl]
    rfl
  | .memberAccess target _, _ => by
    rw [exprOutput, problems_of_supported rfl]
    simp [parts, placedExpr_problems target]
  | .invocation callee args, _ => by
    rw [exprOutput, problems_of_supported rfl]
    simp [parts, placedExpr_problems callee, arguments_problems args]
  | .cast ty operand, _ => by
    rw [exprOutput, problems_of_supported rfl]
    simp [parts, placedType_problems ty, placedExpr_problems operand]
  | .elementAccess target [], _ => by
    rw [exprOutput, problems_of_supported rfl]
    simp [parts, placedExpr_problems target]
  | .elementAccess target (i :: is), _ => by
    rw [exprOutput, problems_of_supported rfl]
    simp [parts, placedExpr_problems target, placedExpr_problems i, exprList_problems is]
  | .parenthesized inner, _ => by
    rw [exprOutput, problems_of_supported rfl]
    simp [parts, placedExpr_problems inner]
  | .binary op lhs rhs, span => by
    rw [exprOutput]
    by_cases h : isSupported op = true
    · have hreason : (Site.expr (.binary op lhs rhs) span).reason? = none :=
        if_neg ((isSupported_iff op).1 h)
      rw [if_pos h, problems_of_supported hreason]
      simp [parts, placedExpr_problems lhs, placedExpr_problems rhs]
    · have hreason : (Site.expr (.binary op lhs rhs) span).reason? =
        some (.unsupported op.kindName "Expr::Binary") :=
        if_pos (Decidable.not_not.1 (mt (isSupported_iff op).2 h))
      rw [if_neg h, problems_of_hidesParts hreason (by rw [Site.hidesParts, hreason])]
      rfl
  | .assignment op lhs rhs, span => by
    cases op with
    | assign =>
      rw [exprOutput, problems_of_supported rfl]
      simp [parts, placedExpr_problems lhs, placedExpr_problems rhs]
    | addAssign | subtractAssign | multiplyAssign | divideAssign =>
      rw [problems_of_hidesParts rfl rfl]
      rfl
  | .objectCreation ty args, _ => by
    rw [exprOutput, problems_of_supported rfl]
    simp [parts, placedType_problems ty, arguments_problems args]
  | .stringLiteral _, _ | .boolLiteral _, _ | .unary _ _, _ | .conditional _ _ _, _ => by
    rw [exprOutput, problems_of_hidesParts rfl rfl]
    rfl

/-- So for an expression with its place. -/
theorem placedExpr_problems : ∀ e : Spanned Expr, (placedExpr e).problems = (ofExpr e).problems
  | ⟨node, span⟩ => by
    rw [placedExpr]
    exact exprOutput_problems node span

/-- So for expressions in turn. -/
theorem exprList_problems : ∀ es : List (Spanned Expr),
    (exprList es).flatMap Output.problems = (es.map ofExpr).flatMap Site.problems
  | [] => rfl
  | e :: es => by
    rw [exprList, List.flatMap_cons, List.map_cons, List.flatMap_cons, placedExpr_problems e,
      exprList_problems es]

/-- So for arguments. -/
theorem arguments_problems : ∀ args : Option (List (Spanned Expr)),
    (arguments args).problems = ((args.getD []).map ofExpr).flatMap Site.problems
  | none => rfl
  | some args => by
    rw [arguments]
    simp [exprList_problems args]

end

/-! ## Statements -/

/-- A branch has the problems of its statement, wherever that is written. -/
theorem branch_problems (indent : Nat) (s : Spanned Stmt) :
    ∃ inner, (branch indent s).problems = (stmtOutput inner s.node s.span).problems := by
  obtain ⟨node, span⟩ := s
  cases node with
  | block stmts => exact ⟨indent, by simp [branch, stmtOutput]⟩
  | _ => exact ⟨indent + indentStep, by simp [branch]⟩

mutual

/-- The problems of a statement are those that are reached from it. -/
theorem stmtOutput_problems : ∀ (s : Stmt) (indent : Nat) (span : Span),
    (stmtOutput indent s span).problems = (Site.stmt s span).problems
  | .expression e, _, _ => by
    rw [stmtOutput, problems_of_supported rfl]
    simp [parts, placedExpr_problems e]
  | .return none, _, _ => by
    rw [stmtOutput, problems_of_hidesParts rfl rfl]
    rfl
  | .return (some value), _, _ => by
    rw [stmtOutput, problems_of_supported rfl]
    simp [parts, placedExpr_problems value]
  | .ifThenElse condition thenBranch none, indent, _ => by
    obtain ⟨inner, hthen⟩ := branch_problems indent thenBranch
    rw [stmtOutput, problems_of_supported rfl]
    simp [parts, placedExpr_problems condition, hthen, placedStmt_problems thenBranch inner]
  | .ifThenElse condition thenBranch (some elseBranch), indent, _ => by
    obtain ⟨inner, hthen⟩ := branch_problems indent thenBranch
    obtain ⟨inner', helse⟩ := branch_problems indent elseBranch
    rw [stmtOutput, problems_of_supported rfl]
    simp [parts, placedExpr_problems condition, hthen, placedStmt_problems thenBranch inner, helse,
      placedStmt_problems elseBranch inner']
  | .block stmts, indent, _ => by
    rw [stmtOutput, problems_of_supported rfl]
    simp [parts, stmtLines_problems stmts (indent + indentStep)]
  | .localDeclaration _ _, _, _ | .while _ _, _, _ | .for _, _, _ | .break, _, _ | .continue, _, _
  | .empty, _, _ => by
    rw [stmtOutput, problems_of_hidesParts rfl rfl]
    rfl

/-- So for a statement with its place. -/
theorem placedStmt_problems : ∀ (s : Spanned Stmt) (indent : Nat),
    (stmtOutput indent s.node s.span).problems = (ofStmt s).problems
  | ⟨node, span⟩, indent => stmtOutput_problems node indent span

/-- So for statements in turn. -/
theorem stmtLines_problems : ∀ (ss : List (Spanned Stmt)) (indent : Nat),
    (stmtLines indent ss).problems = (ss.map ofStmt).flatMap Site.problems
  | [], _ => rfl
  | ⟨node, span⟩ :: ss, indent => by
    rw [stmtLines]
    simp [ofStmt, stmtOutput_problems node indent span, stmtLines_problems ss indent]

end

/-! ## Classes -/

/-- Outputs in turn have the problems of their constructs in turn. -/
theorem flatMap_problems {α : Type} {output : α → Output} {sites : α → List Site}
    (h : ∀ a, (output a).problems = (sites a).flatMap Site.problems) (as : List α) :
    (as.map output).flatMap Output.problems = (as.flatMap sites).flatMap Site.problems := by
  rw [List.flatMap_map, List.flatMap_assoc]
  exact congrArg (as.flatMap ·) (funext h)

/-- So for a variable. -/
theorem variableLine_problems (type : String) (v : VariableDecl) :
    (variableLine type v).problems = (v.init.toList.map ofExpr).flatMap Site.problems := by
  rw [variableLine]
  cases v.init with
  | none => rfl
  | some init => simp [placedExpr_problems init]

/-- So for a field. -/
theorem fieldOutput_problems (field : FieldDecl) :
    (fieldOutput field).problems = (fieldSites field).flatMap Site.problems := by
  rw [fieldOutput, problems_append, problems_all, fieldSites, List.flatMap_cons,
    flatMap_problems (variableLine_problems _), placedType_problems, Site.initializers]

/-- So for an attribute. -/
theorem attributeOutput_problems (a : Attribute) :
    (attributeOutput a).problems = ((a.args.getD []).map ofExpr).flatMap Site.problems := by
  rw [attributeOutput, problems_append, problems_lit, arguments_problems, List.nil_append]

/-- So for attributes in brackets. -/
theorem attributeListOutput_problems (list : AttributeList) :
    (attributeListOutput list).problems =
      (list.attributes.flatMap fun a => (a.args.getD []).map ofExpr).flatMap Site.problems := by
  rw [attributeListOutput, problems_separated]
  exact flatMap_problems attributeOutput_problems list.attributes

/-- So for a parameter. -/
theorem paramOutput_problems (p : Param) :
    (paramOutput p).problems = (paramSites p).flatMap Site.problems := by
  have hattributes : (if p.attributes.isEmpty then {} else
      Output.lit " : " ++ .separated ", " (p.attributes.map attributeListOutput)).problems =
        (attributeSites p.attributes).flatMap Site.problems := by
    rw [attributeSites, ← flatMap_problems attributeListOutput_problems]
    cases p.attributes <;> simp
  simp only [paramOutput, paramSites, problems_append, hattributes]
  cases p.default with
  | none => simp [placedType_problems]
  | some value => simp [placedType_problems, placedExpr_problems]

/-- So for a body. -/
theorem bodyOutput_problems (m : MethodDecl) :
    (bodyOutput m).problems = (bodySites m).flatMap Site.problems := by
  rw [bodyOutput, bodySites]
  cases m.body with
  | none =>
    simp [problems_of_hidesParts (s := .absentBody m.name.node m.name.span) rfl rfl, Site.span]
  | some body => exact stmtLines_problems body.node.stmts indentStep

/-- So for a method. -/
theorem methodOutput_problems (m : MethodDecl) :
    (methodOutput m).problems = (methodSites m).flatMap Site.problems := by
  have hattributes : (m.attributes.map fun list => Output.lit "[" ++ attributeListOutput list ++
    .lit "]\n").flatMap
      Output.problems = (attributeSites m.attributes).flatMap Site.problems :=
    flatMap_problems (fun list => by simp [attributeListOutput_problems]) m.attributes
  simp [methodOutput, methodSites, placedType_problems, hattributes,
    flatMap_problems paramOutput_problems, bodyOutput_problems]

/-- The problems of a class are those of the constructs that are reached. -/
theorem classOutput_problems (c : ClassDecl) :
    (classOutput c).problems = (reachedSites c).filterMap Site.problem? := by
  have hsites : (classOutput c).problems = (classSites c).flatMap Site.problems := by
    simp [classOutput, entryLines, classSites, flatMap_problems fieldOutput_problems,
      flatMap_problems methodOutput_problems]
  rw [hsites, reachedSites, List.filterMap_flatMap]
  rfl

/-! ## Verdicts -/

/-- What is told about an unsupported construct of a class. -/
structure Site.Told (className : String) (s : Site) (d : Diagnostic) : Prop where
  isError : d.isError = true
  span : d.span = s.span
  message : ∃ reason, s.reason? = some reason ∧
    d.message = "Shader \"" ++ className ++ "\" " ++ reason.message ++ "."

/-- What is told of it. -/
theorem Site.told_diagnostic {s : Site} {reason : Reason} (h : s.reason? = some reason)
    (path className : String) :
    s.Told className (Problem.diagnostic path className ⟨reason, s.span⟩) :=
  ⟨rfl, rfl, reason, h, rfl⟩

/-- Constructs that are not supported are told about one by one. -/
theorem forall₂_told (path className : String) (sites : List Site) :
    List.Forall₂ (Site.Told className) (sites.filter isUnsupported)
      ((sites.filterMap Site.problem?).map (·.diagnostic path className)) := by
  induction sites with
  | nil => exact .nil
  | cons s sites ih =>
    cases h : s.reason? with
    | none => simpa [isUnsupported, Site.problem?, h] using ih
    | some reason =>
      have hkept : s.isUnsupported = true := by rw [isUnsupported, h, Option.isSome_some]
      have hproblem : s.problem? = some ⟨reason, s.span⟩ := by
        rw [Site.problem?, h, Option.map_some]
      rw [List.filter_cons_of_pos hkept, List.filterMap_cons_some hproblem, List.map_cons]
      exact .cons (Site.told_diagnostic h path className) ih

/-- The diagnostics of a class are those of its problems. -/
theorem translateLossy_diagnostics (path : String) (c : ClassDecl) :
    (translateLossy path c).diagnostics =
      ((reachedSites c).filterMap Site.problem?).map
        (·.diagnostic (linkPath path) c.name.node) := by
  rw [translateLossy, classOutput_problems]

/-- There are errors exactly if a problem is reached. -/
theorem hasErrors_eq (path : String) (c : ClassDecl) :
    (translateLossy path c).hasErrors = (reachedSites c).any isUnsupported := by
  rw [KernelText.hasErrors, translateLossy_diagnostics, List.any_map, List.any_filterMap]
  congr 1
  funext s
  rw [Site.problem?, isUnsupported]
  cases s.reason? with
  | none => rfl
  | some reason => rfl

/-- Translating a class reports its unsupported constructs: exactly one error for each that is
reached, in the order in which they are written, with the place of the construct. The class is
translated exactly if there are none. -/
theorem translate?_reports_unsupported (path : String) (c : ClassDecl) :
    List.Forall₂ (Site.Told c.name.node) ((reachedSites c).filter isUnsupported)
        (translateLossy path c).diagnostics ∧
      ((∃ text, translate? path c = .ok text) ↔ ∀ s ∈ reachedSites c, s.isUnsupported = false) ∧
      ∀ told, translate? path c = .error told → told = (translateLossy path c).diagnostics := by
  have hverdict : (∀ s ∈ reachedSites c, s.isUnsupported = false) ↔
      (translateLossy path c).hasErrors = false := by
    rw [hasErrors_eq, List.any_eq_false]
    exact forall₂_congr fun s _ => (Bool.not_eq_true _).symm.to_iff
  refine ⟨?_, ?_, ?_⟩
  · rw [translateLossy_diagnostics]
    exact forall₂_told (linkPath path) c.name.node (reachedSites c)
  · rw [hverdict, translate?]
    cases h : (translateLossy path c).hasErrors with
    | false => exact iff_of_true ⟨_, rfl⟩ rfl
    | true => exact iff_of_false (fun ⟨_, htext⟩ => nomatch htext) Bool.noConfusion
  · intro told htold
    rw [translate?] at htold
    split at htold
    · exact (Except.error.inj htold).symm
    · cases htold

open Construct in
/-- A class whose only field is the view of a keyword. -/
def keywordView : ClassDecl :=
  classOf "Keyword" [field (qualified (predefined "uint") (type "ReadOnly")) "x" none]

/-- A keyword has no read-only view, just as a name that is no container: a class is refused even if
the views of keywords are all that it holds of unsupported constructs. -/
theorem keywordView_refused :
    ¬∀ (path : String) (c : ClassDecl),
      (∀ s ∈ reachedSites c, s.isUnsupported = true → ∃ name span,
      s = .type true (.predefined name) span) →
        ∃ text, translate? path c = .ok text := by
  intro hall
  have hreached : ∀ s ∈ reachedSites keywordView, s.isUnsupported = true →
      ∃ name span, s = .type true (.predefined name) span := by
    have hsites : classSites keywordView =
        [.type false (.qualified ⟨.predefined "uint", {}⟩ ⟨.identifier "ReadOnly", {}⟩) {}] := rfl
    simp [reachedSites, hsites, Site.reached_eq, parts, Site.hidesParts, Site.reason?,
      isUnsupported, ofType, ofView, placedAsksReadOnly, asksReadOnly, readOnlyQualifier]
  obtain ⟨text, htext⟩ := hall "Kernels/K.cs" keywordView hreached
  have herror : (translate? "Kernels/K.cs" keywordView).isOk = false := by decide
  rw [htext] at herror
  cases herror

end ComputeKernel.Shader
