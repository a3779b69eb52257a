import ComputeKernel.Shader.Kernel

/-!
# The constructs of a class

What a class is made of, from the point of view of a translation: its types, expressions and
statements, and the bodies that its methods lack. `Site.reason?` is the table of the constructs that
kernel text has no form for, and `Site.parts` says what a construct is made of. The constructs that
are reached from a class (`ClassDecl.reached`) are those that do not lie inside one without a
counterpart, in the order of writing.

Two things are particular to types. Of a qualified type only the last segment is a part, unless that
segment asks for the read-only view of what stands before it. And a view that a type lacks is not
supported, but does not hide the arguments of the type.
-/

namespace ComputeKernel.Shader

mutual

/-- Whether a type comes out as the word that asks for a read-only view. -/
def asksReadOnly : TypeRef → Bool
  | .identifier name | .predefined name | .generic name none => name = readOnlyQualifier
  | .qualified left right => placedAsksReadOnly left && placedAsksReadOnly right
  | .generic _ (some _) | .array _ _ | .pointer _ | .nullable _ | .tuple _ => false

/-- So for a type with its place. -/
def placedAsksReadOnly : Spanned TypeRef → Bool
  | ⟨node, _⟩ => asksReadOnly node

end

/-- A construct that a translation looks at. -/
inductive Site where
  /-- A type, or the read-only view of it. -/
  | type (readOnly : Bool) (node : TypeRef) (span : Span)
  | expr (node : Expr) (span : Span)
  | stmt (node : Stmt) (span : Span)
  /-- The body that the method with this name lacks. -/
  | absentBody (method : String) (span : Span)

namespace Site

variable {α : Type}
variable (s : Site) (t : Spanned TypeRef)

/-- A type. -/
def ofType : Site := .type false t.node t.span

/-- The read-only view of a type. -/
def ofView : Site := .type true t.node t.span

/-- An expression. -/
def ofExpr (e : Spanned Expr) : Site := .expr e.node e.span

/-- A statement. -/
def ofStmt (s : Spanned Stmt) : Site := .stmt s.node s.span

/-- The initial values of declared variables. -/
def initializers (declarators : List VariableDecl) : List Site :=
  declarators.flatMap fun v => v.init.toList.map ofExpr

/-- The place of a construct. -/
def span : Site → Span
  | .type _ _ span | .expr _ span | .stmt _ span | .absentBody _ span => span

/-! ## What is not supported -/

/-- Why a construct is not supported, if it is not. -/
def reason? : Site → Option Reason
  | .type readOnly t _ =>
    match t with
    | .array _ _ | .pointer _ | .nullable _ | .tuple _ => some (.unsupported t.kindName t.nodeName)
    | .identifier name | .predefined name | .generic name _ =>
      if readOnly ∧ readOnlyType? (resourceType name) = none then
        some (.noReadOnly (resourceType name))
      else none
    | .qualified _ _ => none
  | .expr e _ =>
    match e with
    | .stringLiteral _ | .boolLiteral _ | .unary _ _ | .conditional _ _ _ =>
      some (.unsupported e.kindName e.nodeName)
    | .assignment op _ _ => if op = .assign then none else some (.unsupported e.kindName e.nodeName)
    | .binary op _ _ =>
      if op ∈ [.equals, .logicalAnd, .logicalOr, .bitwiseAnd, .bitwiseOr, .exclusiveOr] then
        some (.unsupported e.kindName e.nodeName)
      else none
    | _ => none
  | .stmt s _ =>
    match s with
    | .return none => some .bareReturn
    | .localDeclaration _ _ | .while _ _ | .for _ | .break | .continue | .empty =>
      some (.unsupported s.kindName s.nodeName)
    | _ => none
  | .absentBody method _ => some (.missingBody method)

/-- Whether it has no counterpart. -/
def isUnsupported : Bool := s.reason?.isSome

/-- Whether what lies inside a construct is left alone. -/
def hidesParts (s : Site) : Bool :=
  match s.reason? with
  | none | some (.noReadOnly _) => false
  | some _ => true

/-! ## What is reached -/

/-- What a construct is made of, in the order in which it is written. -/
def parts : Site → List Site
  | .type _ t _ =>
    match t with
    | .identifier _ | .predefined _ => []
    | .qualified left right =>
      ofType right :: if placedAsksReadOnly right then [ofView left] else []
    | .generic _ args => (args.getD []).map ofType
    | .array element _ | .pointer element | .nullable element => [ofType element]
    | .tuple elements => elements.map ofType
  | .expr e _ =>
    match e with
    | .numericLiteral _ | .stringLiteral _ | .boolLiteral _ | .identifier _ => []
    | .memberAccess inner _ | .parenthesized inner | .unary _ inner => [ofExpr inner]
    | .invocation callee args => ofExpr callee :: (args.getD []).map ofExpr
    | .cast ty operand => [ofType ty, ofExpr operand]
    | .elementAccess target indices => ofExpr target :: indices.map ofExpr
    | .binary _ lhs rhs | .assignment _ lhs rhs => [ofExpr lhs, ofExpr rhs]
    | .objectCreation ty args => ofType ty :: (args.getD []).map ofExpr
    | .conditional condition whenTrue whenFalse =>
      [ofExpr condition, ofExpr whenTrue, ofExpr whenFalse]
  | .stmt s _ =>
    match s with
    | .expression inner => [ofExpr inner]
    | .return value => value.toList.map ofExpr
    | .ifThenElse condition thenBranch elseBranch =>
      ofExpr condition :: ofStmt thenBranch :: elseBranch.toList.map ofStmt
    | .block stmts => stmts.map ofStmt
    | .localDeclaration ty declarators => ofType ty :: initializers declarators
    | .while condition body => [ofExpr condition, ofStmt body]
    | .for body => [ofStmt body]
    | .break | .continue | .empty => []
  | .absentBody _ _ => []

/-- The size of the node, which bounds the sizes of its parts. -/
noncomputable def size : Site → Nat
  | .type _ node _ => sizeOf node
  | .expr node _ => sizeOf node
  | .stmt node _ => sizeOf node
  | .absentBody _ _ => 0

/-- A type is smaller with its place. -/
theorem size_ofType_lt : (ofType t).size < sizeOf t := by
  cases t
  simp only [ofType, size, Spanned.mk.sizeOf_spec]
  omega

/-- So is its view. -/
theorem size_ofView_lt : (ofView t).size < sizeOf t := size_ofType_lt t

/-- So is an expression. -/
theorem size_ofExpr_lt (e : Spanned Expr) : (ofExpr e).size < sizeOf e := by
  cases e
  simp only [ofExpr, size, Spanned.mk.sizeOf_spec]
  omega

/-- So is a statement. -/
theorem size_ofStmt_lt (s : Spanned Stmt) : (ofStmt s).size < sizeOf s := by
  cases s
  simp only [ofStmt, size, Spanned.mk.sizeOf_spec]
  omega

/-- What is in a list is smaller. -/
theorem size_map_lt [SizeOf α] {site : α → Site} (hsite : ∀ a, (site a).size < sizeOf a)
    (as : List α) :
    ∀ p ∈ as.map site, p.size < sizeOf as := by
  intro p hp
  obtain ⟨a, ha, rfl⟩ := List.mem_map.1 hp
  exact Nat.lt_trans (hsite a) (List.sizeOf_lt_of_mem ha)

/-- So is what is among arguments. -/
theorem size_argument_lt [SizeOf α] {site : α → Site} (hsite : ∀ a, (site a).size < sizeOf a)
    (args : Option (List α)) : ∀ p ∈ (args.getD []).map site, p.size < sizeOf args := by
  cases args with
  | none => exact fun _ hp => absurd hp List.not_mem_nil
  | some args =>
    intro p hp
    have hlt := size_map_lt hsite args p hp
    rw [Option.some.sizeOf_spec]
    omega

/-- So is what may be absent. -/
theorem size_option_lt [SizeOf α] {site : α → Site} (hsite : ∀ a, (site a).size < sizeOf a)
    (o : Option α) : ∀ p ∈ o.toList.map site, p.size < sizeOf o := by
  cases o with
  | none => exact fun _ hp => absurd hp List.not_mem_nil
  | some a =>
    intro p hp
    obtain rfl := List.mem_singleton.1 hp
    have hlt := hsite a
    rw [Option.some.sizeOf_spec]
    omega

/-- So is an initial value. -/
theorem size_initializer_lt (ds : List VariableDecl) :
    ∀ p ∈ initializers ds, p.size < sizeOf ds := by
  intro p hp
  obtain ⟨⟨name, init⟩, hd, hinit⟩ := List.mem_flatMap.1 hp
  have hlist := List.sizeOf_lt_of_mem hd
  have hexpr := size_option_lt size_ofExpr_lt init p hinit
  rw [VariableDecl.mk.sizeOf_spec] at hlist
  omega

/-- A part is smaller than what it is a part of. -/
theorem size_lt_of_mem_parts {s p : Site} (hp : p ∈ s.parts) : p.size < s.size := by
  have htypes := size_map_lt size_ofType_lt
  have htypeArgs := size_argument_lt size_ofType_lt
  have hexprs := size_map_lt size_ofExpr_lt
  have hexprArgs := size_argument_lt size_ofExpr_lt
  match s with
  | .type _ t _ =>
    change p.size < sizeOf t
    cases t <;> simp only [parts] at hp <;> grind [size_ofType_lt, size_ofView_lt]
  | .expr e _ =>
    change p.size < sizeOf e
    cases e <;> simp only [parts] at hp <;> grind [size_ofType_lt, size_ofExpr_lt]
  | .stmt s _ =>
    have hexpr := size_option_lt size_ofExpr_lt
    have hstmt := size_option_lt size_ofStmt_lt
    have hstmts := size_map_lt size_ofStmt_lt
    have hinits := size_initializer_lt
    change p.size < sizeOf s
    cases s <;> simp only [parts] at hp <;> grind [size_ofType_lt, size_ofExpr_lt, size_ofStmt_lt]
  | .absentBody _ _ => exact absurd hp List.not_mem_nil

/-- The constructs that are reached from one, itself first. -/
def reached (s : Site) : List Site :=
  s :: if s.hidesParts then [] else s.parts.attach.flatMap fun p => reached p.1
termination_by s.size
decreasing_by exact size_lt_of_mem_parts p.2

/-- The law of `reached`, without the bookkeeping of its termination. -/
theorem reached_eq (s : Site) :
    s.reached = s :: if s.hidesParts then [] else s.parts.flatMap reached := by
  rw [reached, List.flatMap_subtype fun _ _ => rfl, List.unattach_attach]

end Site

/-! ## Classes -/

open Site (ofType ofExpr ofStmt)

/-- What a field is made of. -/
def fieldSites (field : FieldDecl) : List Site :=
  ofType field.ty :: Site.initializers field.declarators

/-- The arguments of attributes. -/
def attributeSites (lists : List AttributeList) : List Site :=
  lists.flatMap fun list => list.attributes.flatMap fun a => (a.args.getD []).map ofExpr

/-- What a parameter is made of. -/
def paramSites (p : Param) : List Site :=
  ofType p.ty :: (attributeSites p.attributes ++ p.default.toList.map ofExpr)

/-- What a body is made of. -/
def bodySites (m : MethodDecl) : List Site :=
  match m.body with
  | some body => body.node.stmts.map ofStmt
  | none => [.absentBody m.name.node m.name.span]

/-- What a method is made of. -/
def methodSites (m : MethodDecl) : List Site :=
  attributeSites m.attributes ++ ofType m.returnTy :: (m.params.flatMap paramSites ++ bodySites m)

/-- What a class is made of: its fields, then its methods. -/
def classSites (c : ClassDecl) : List Site :=
  c.fields.flatMap fieldSites ++ c.methods.flatMap methodSites

/-- The constructs of a class that are reached, in the order of writing. -/
def reachedSites (c : ClassDecl) : List Site := (classSites c).flatMap Site.reached

end ComputeKernel.Shader
