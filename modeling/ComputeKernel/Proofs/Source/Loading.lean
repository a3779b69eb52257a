import ComputeKernel.Source.Loading
import ComputeKernel.Proofs.Json.Record

/-!
# Loading undoes storing

Loading the stored form of a tree gives the tree. There is one lemma for each shape of the tree,
which follows the fields of its record, and for types, expressions and statements an induction over
the tree. A stored tree is as deep as its containers, and that bounds the fuel and the room that
loading needs: what is stored no deeper than the limit on nesting is loaded.
-/

namespace ComputeKernel

open TypeRef ComputeKernel.Expr Json.Variants
open Json.Value Json.Record Spanned
open Json (Value Number Record Cause Refusal Content Variants Document Placed)

variable {ν ε α : Type}
variable {ms : List (String × Value)} {room : Nat} {s : Spanned α} {v : Value}

/-! ## Places -/

/-- A place is read from its three words. -/
theorem Span.reads {word : ν → Except ε UInt32} {s : Span} {a b c : ν} (ha : word a = .ok s.start)
    (hb : word b = .ok s.stop) (hc : word c = .ok s.line) :
    (Span.record word).Reads [("start", a), ("end", b), ("line", c)] s :=
  (((reads_pure Span.mk).field ha).field hb).field hc

/-- A node with its place is read from the two. -/
theorem Spanned.reads {node : ν → Except ε α} {span : ν → Except ε Span} {a b : ν}
    (ha : node a = .ok s.node) (hb : span b = .ok s.span) :
    (record node span).Reads [("node", a), ("span", b)] s :=
  ((reads_pure Spanned.mk).field ha).optional hb

/-- A word is read back. -/
theorem wordOf_toNat (w : UInt32) : wordOf (.natural w.toNat) = .ok w := by
  rw [wordOf, if_pos w.toNat_lt]
  exact congrArg Except.ok UInt32.ofNat_toNat

/-- So is its value. -/
theorem word?_toNat (w : UInt32) : word? (.number (.natural w.toNat)) = .ok w := wordOf_toNat w

/-- So is a text. -/
theorem text?_string (s : String) : text? (.string s) = .ok s := rfl

/-- So is a truth value. -/
theorem bool?_bool (b : Bool) : bool? (.bool b) = .ok b := rfl

/-- So is a place. -/
theorem Span.ofValue?_toValue (s : Span) : Span.ofValue? s.toValue = .ok s :=
  (Span.reads (word?_toNat _) (word?_toNat _) (word?_toNat _)).ofMembers?

/-- A place adds a container. -/
theorem Span.depth_wrap (s : Span) (v : Value) : (s.wrap v).depth = max v.depth 1 + 1 := rfl

/-- A node with its place is read back. -/
theorem Spanned.ofValue?_wrap {node : Value → Except Cause α}
    (h : node v = .ok s.node) : Spanned.ofValue? node (s.span.wrap v) = .ok s :=
  (reads h s.span.ofValue?_toValue).ofMembers?

/-- So is a name. -/
theorem nameOfValue?_nameValue (s : Spanned String) : nameOfValue? (nameValue s) = .ok s :=
  ofValue?_wrap (text?_string _)

/-- So are modifiers. -/
theorem modifiersOfValue?_modifiersValue (modifiers : List String) :
    modifiersOfValue? (modifiersValue modifiers) = .ok modifiers :=
  list?_map (fun s _ => text?_string s) (Nat.le_refl _)

/-- A tagged node is read back from the fields of its record. -/
theorem ofValue?_taggedValue {vs : Variants α} {type tag label : String} {r : Record Value Cause α}
    {fields : List (String × Value)} {a : α}
    (hlookup : vs.lookup tag = some (Content.record? r label)) (h : r.Reads fields a)
    (hkind : Json.tagKey ∉ fields.map Prod.fst := by simp [Json.tagKey]) :
    vs.ofValue? type (taggedValue tag fields) = .ok a :=
  (ofValue?_tagged hlookup hkind type).trans h.ofMembers?

/-- A member is no deeper than the object without its own container. -/
theorem depth_member {n : Nat} (h : (object ms).depth ≤ n + 1)
    (hv : v ∈ ms.map Prod.snd := by simp) : v.depth ≤ n := by
  refine Nat.le_trans ?_ (Nat.le_of_succ_le_succ h)
  clear h
  induction ms with
  | nil => exact absurd hv List.not_mem_nil
  | cons m ms ih =>
    rcases List.mem_cons.1 hv with rfl | hv
    · exact Nat.le_max_left _ _
    · exact Nat.le_trans (ih hv) (Nat.le_max_right _ _)

/-- So is what is stored under a name. -/
theorem depth_field {n k : Nat} (h : (object ms).depth ≤ n + 1)
    (hv : v ∈ ms.map Prod.snd := by simp) : v.depth ≤ n + k :=
  Nat.le_add_right_of_le (depth_member h hv)

/-- So are the items under a name. -/
theorem depth_items {items : List Value} {n k : Nat}
    (h : (object ms).depth ≤ n + 1) (hv : array items ∈ ms.map Prod.snd := by simp) :
    itemsDepth items ≤ n + k := Nat.le_of_succ_le (depth_field h hv)

/-! ## Types -/

mutual

/-- A type is loaded from its stored form. Each tagged node takes a unit of fuel and a container, so
the depth is fuel enough. -/
theorem TypeRef.ofValue?_toValue : ∀ (t : TypeRef) (fuel : Nat), t.toValue.depth ≤ fuel →
    TypeRef.ofValue? fuel t.toValue = .ok t
  | t, 0, h => by
    cases t <;> exact absurd h (Nat.not_succ_le_zero _)
  | .identifier name, fuel + 1, _ =>
    ofValue?_taggedValue rfl ((reads_pure identifier).field (text?_string name))
  | .predefined name, fuel + 1, _ =>
    ofValue?_taggedValue rfl ((reads_pure predefined).field (text?_string name))
  | .qualified left right, fuel + 1, h => by
    have hleft := ofValue?_placedValue left fuel (depth_field h)
    have hright := ofValue?_placedValue right fuel (depth_field h)
    exact ofValue?_taggedValue rfl (((reads_pure qualified).field hleft).field hright)
  | .generic name args, fuel + 1, h => by
    have hargs := ofValue?_argsValue args fuel (depth_field h)
    exact ofValue?_taggedValue rfl (((reads_pure generic).field (text?_string name)).optional hargs)
  | .array element rank, fuel + 1, h => by
    have helement := ofValue?_placedValue element fuel (depth_field h)
    exact ofValue?_taggedValue rfl (((reads_pure TypeRef.array).field helement).field
      (word?_toNat rank))
  | .pointer element, fuel + 1, h => by
    have helement := ofValue?_placedValue element fuel (depth_field h)
    exact ofValue?_taggedValue rfl ((reads_pure pointer).field helement)
  | .nullable element, fuel + 1, h => by
    have helement := ofValue?_placedValue element fuel (depth_field h)
    exact ofValue?_taggedValue rfl ((reads_pure nullable).field helement)
  | .tuple elements, fuel + 1, h => by
    have helements := ofValue?_listValues elements fuel (depth_items h)
    exact ofValue?_taggedValue rfl ((reads_pure tuple).field helements)

/-- So is a type with its place. -/
theorem TypeRef.ofValue?_placedValue : ∀ (s : Spanned TypeRef) (fuel : Nat),
    (placedValue s).depth ≤ fuel + 1 →
      Spanned.ofValue? (TypeRef.ofValue? fuel) (placedValue s) = .ok s
  | ⟨node, span⟩, fuel, h => by
    simp only [placedValue, Span.depth_wrap] at h
    exact ofValue?_wrap (s := ⟨node, span⟩) (ofValue?_toValue node fuel (by omega))

/-- So are types. -/
theorem TypeRef.ofValue?_listValues : ∀ (ts : List (Spanned TypeRef)) (fuel : Nat),
    itemsDepth (listValues ts) ≤ fuel + 1 →
      list? (Spanned.ofValue? (TypeRef.ofValue? fuel)) (.array (listValues ts)) = .ok ts
  | [], _, _ => rfl
  | t :: ts, fuel, h => by
    simp only [listValues, itemsDepth] at h
    have ht := ofValue?_placedValue t fuel (by omega)
    have hts := ofValue?_listValues ts fuel (by omega)
    exact list?_cons ht hts

/-- So are type arguments. -/
theorem TypeRef.ofValue?_argsValue : ∀ (args : Option (List (Spanned TypeRef))) (fuel : Nat),
    (argsValue args).depth ≤ fuel + 1 →
      option? (list? (Spanned.ofValue? (TypeRef.ofValue? fuel))) (argsValue args) = .ok args
  | none, _, _ => rfl
  | some args, fuel, h => by
    simp only [argsValue, depth] at h
    exact option?_some (fun hnull => nomatch hnull) (ofValue?_listValues args fuel (by omega))

end

/-! ## Expressions -/

/-- So is a binary operator. -/
theorem operatorOfValue?_binary (op : BinaryOp) :
    Json.operatorOfValue? BinaryOp.table (.string op.tag) = .ok op := by
  cases op <;> rfl

/-- So is an assignment operator. -/
theorem operatorOfValue?_assign (op : AssignOp) :
    Json.operatorOfValue? AssignOp.table (.string op.tag) = .ok op := by
  cases op <;> rfl

/-- So is a unary operator. -/
theorem operatorOfValue?_unary (op : UnaryOp) :
    Json.operatorOfValue? UnaryOp.table (.string op.tag) = .ok op := by
  cases op <;> rfl

mutual

/-- So is an expression. -/
theorem Expr.ofValue?_toValue : ∀ (e : Expr) (fuel : Nat), e.toValue.depth ≤ fuel →
    Expr.ofValue? fuel e.toValue = .ok e
  | e, 0, h => by
    cases e <;> exact absurd h (Nat.not_succ_le_zero _)
  | .numericLiteral text, fuel + 1, _ =>
    ofValue?_taggedValue rfl ((reads_pure numericLiteral).field (text?_string text))
  | .stringLiteral text, fuel + 1, _ =>
    ofValue?_taggedValue rfl ((reads_pure stringLiteral).field (text?_string text))
  | .boolLiteral value, fuel + 1, _ =>
    ofValue?_taggedValue rfl ((reads_pure boolLiteral).field (bool?_bool value))
  | .identifier name, fuel + 1, _ =>
    ofValue?_taggedValue rfl ((reads_pure Expr.identifier).field (text?_string name))
  | .memberAccess target name, fuel + 1, h => by
    have htarget := Expr.ofValue?_placedValue target fuel (depth_field h)
    exact ofValue?_taggedValue rfl
      (((reads_pure memberAccess).field htarget).field (nameOfValue?_nameValue name))
  | .invocation callee args, fuel + 1, h => by
    have hcallee := Expr.ofValue?_placedValue callee fuel (depth_field h)
    have hargs := Expr.ofValue?_argsValue args fuel (depth_field h)
    exact ofValue?_taggedValue rfl (((reads_pure invocation).field hcallee).optional hargs)
  | .cast ty operand, fuel + 1, h => by
    have hty := TypeRef.ofValue?_placedValue ty fuel (depth_field h)
    have hoperand := Expr.ofValue?_placedValue operand fuel (depth_field h)
    exact ofValue?_taggedValue rfl (((reads_pure Expr.cast).field hty).field hoperand)
  | .elementAccess target indices, fuel + 1, h => by
    have htarget := Expr.ofValue?_placedValue target fuel (depth_field h)
    have hindices := Expr.ofValue?_listValues indices fuel (depth_items h)
    exact ofValue?_taggedValue rfl (((reads_pure elementAccess).field htarget).field hindices)
  | .parenthesized inner, fuel + 1, h => by
    have hinner := Expr.ofValue?_placedValue inner fuel (depth_field h)
    exact ofValue?_taggedValue rfl ((reads_pure parenthesized).field hinner)
  | .binary op lhs rhs, fuel + 1, h => by
    have hlhs := Expr.ofValue?_placedValue lhs fuel (depth_field h)
    have hrhs := Expr.ofValue?_placedValue rhs fuel (depth_field h)
    exact ofValue?_taggedValue rfl
      ((((reads_pure binary).field (operatorOfValue?_binary op)).field hlhs).field hrhs)
  | .assignment op lhs rhs, fuel + 1, h => by
    have hlhs := Expr.ofValue?_placedValue lhs fuel (depth_field h)
    have hrhs := Expr.ofValue?_placedValue rhs fuel (depth_field h)
    exact ofValue?_taggedValue rfl
      ((((reads_pure assignment).field (operatorOfValue?_assign op)).field hlhs).field hrhs)
  | .objectCreation ty args, fuel + 1, h => by
    have hty := TypeRef.ofValue?_placedValue ty fuel (depth_field h)
    have hargs := Expr.ofValue?_argsValue args fuel (depth_field h)
    exact ofValue?_taggedValue rfl (((reads_pure objectCreation).field hty).optional hargs)
  | .unary op operand, fuel + 1, h => by
    have hoperand := Expr.ofValue?_placedValue operand fuel (depth_field h)
    exact ofValue?_taggedValue rfl
      (((reads_pure unary).field (operatorOfValue?_unary op)).field hoperand)
  | .conditional condition whenTrue whenFalse, fuel + 1, h => by
    have hcondition := Expr.ofValue?_placedValue condition fuel (depth_field h)
    have hwhenTrue := Expr.ofValue?_placedValue whenTrue fuel (depth_field h)
    have hwhenFalse := Expr.ofValue?_placedValue whenFalse fuel (depth_field h)
    exact ofValue?_taggedValue rfl
      ((((reads_pure conditional).field hcondition).field hwhenTrue).field hwhenFalse)

/-- So is an expression with its place. -/
theorem Expr.ofValue?_placedValue : ∀ (s : Spanned Expr) (fuel : Nat),
    (Expr.placedValue s).depth ≤ fuel + 1 →
      Spanned.ofValue? (Expr.ofValue? fuel) (Expr.placedValue s) = .ok s
  | ⟨node, span⟩, fuel, h => by
    simp only [Expr.placedValue, Span.depth_wrap] at h
    exact ofValue?_wrap (s := ⟨node, span⟩) (Expr.ofValue?_toValue node fuel (by omega))

/-- So are expressions. -/
theorem Expr.ofValue?_listValues : ∀ (es : List (Spanned Expr)) (fuel : Nat),
    itemsDepth (Expr.listValues es) ≤ fuel + 1 →
      list? (Spanned.ofValue? (Expr.ofValue? fuel)) (.array (Expr.listValues es)) = .ok es
  | [], _, _ => rfl
  | e :: es, fuel, h => by
    simp only [Expr.listValues, itemsDepth] at h
    have he := Expr.ofValue?_placedValue e fuel (by omega)
    have hes := Expr.ofValue?_listValues es fuel (by omega)
    exact list?_cons he hes

/-- So are arguments. -/
theorem Expr.ofValue?_argsValue : ∀ (args : Option (List (Spanned Expr))) (fuel : Nat),
    (Expr.argsValue args).depth ≤ fuel + 1 →
      option? (list? (Spanned.ofValue? (Expr.ofValue? fuel))) (Expr.argsValue args) = .ok args
  | none, _, _ => rfl
  | some args, fuel, h => by
    simp only [Expr.argsValue, depth] at h
    exact option?_some (fun hnull => nomatch hnull) (Expr.ofValue?_listValues args fuel (by omega))

end

/-- So is one that may be absent. -/
theorem Expr.ofValue?_optionalValue (o : Option (Spanned Expr)) (fuel : Nat)
    (h : (optionalValue o).depth ≤ fuel + 1) :
    option? (Spanned.ofValue? (Expr.ofValue? fuel)) (optionalValue o) = .ok o := by
  match o, h with
  | none, _ => rfl
  | some ⟨node, span⟩, h => exact option?_some nofun (Expr.ofValue?_placedValue ⟨node, span⟩ fuel h)

/-! ## Statements -/

/-- So is a variable. -/
theorem VariableDecl.ofValue?_toValue (d : VariableDecl) (fuel : Nat)
    (h : d.toValue.depth ≤ fuel + 2) :
    VariableDecl.ofValue? fuel d.toValue = .ok d := by
  simp only [VariableDecl.toValue, depth, membersDepth] at h
  have hinit := ofValue?_optionalValue d.init fuel (by omega)
  exact (((reads_pure VariableDecl.mk).field (nameOfValue?_nameValue d.name)).optional
    hinit).ofMembers?

/-- So are variables. -/
theorem VariableDecl.ofValue?_list (ds : List VariableDecl) (fuel : Nat)
    (h : itemsDepth (ds.map VariableDecl.toValue) ≤ fuel + 2) :
    list? (VariableDecl.ofValue? fuel) (.array (ds.map VariableDecl.toValue)) = .ok ds :=
  list?_map (fun d => d.ofValue?_toValue fuel) h

/-- A block is read from its statements. -/
theorem Block.reads {self : Value → Except Cause Stmt} {stmts : List (Spanned Stmt)}
    (h : list? (Spanned.ofValue? self) v = .ok stmts) :
    (Block.record self).Reads [("stmts", v)] ⟨stmts⟩ :=
  (reads_pure Block.mk).field h

mutual

/-- A statement is loaded. -/
theorem Stmt.ofValue?_toValue : ∀ (s : Stmt) (fuel : Nat), s.toValue.depth ≤ fuel →
    Stmt.ofValue? fuel s.toValue = .ok s
  | s, 0, h => by
    cases s <;> exact absurd h (Nat.not_succ_le_zero _)
  | .expression expr, fuel + 1, h => by
    have hexpr := Expr.ofValue?_placedValue expr fuel (depth_field h)
    exact ofValue?_taggedValue rfl ((reads_pure Stmt.expression).field hexpr)
  | .return value, fuel + 1, h => by
    have hvalue := Expr.ofValue?_optionalValue value fuel (depth_field h)
    exact ofValue?_taggedValue rfl ((reads_pure Stmt.return).optional hvalue)
  | .ifThenElse condition thenBranch elseBranch, fuel + 1, h => by
    have hcondition := Expr.ofValue?_placedValue condition fuel (depth_field h)
    have hthen := Stmt.ofValue?_placedValue thenBranch fuel (depth_field h)
    have helse := Stmt.ofValue?_optionalValue elseBranch fuel (depth_field h)
    exact ofValue?_taggedValue rfl
      ((((reads_pure Stmt.ifThenElse).field hcondition).field hthen).optional helse)
  | .block stmts, fuel + 1, h => by
    have hstmts := Stmt.ofValue?_listValues stmts fuel (depth_items h)
    refine (ofValue?_tagged rfl (by simp [Json.tagKey]) _).trans ?_
    exact congrArg (Except.map (Stmt.block ·.stmts)) (Block.reads hstmts).ofMembers?
  | .localDeclaration ty declarators, fuel + 1, h => by
    have hty := TypeRef.ofValue?_placedValue ty fuel (depth_field h)
    have hdecls := VariableDecl.ofValue?_list declarators fuel (depth_items h)
    exact ofValue?_taggedValue rfl (((reads_pure Stmt.localDeclaration).field hty).field hdecls)
  | .while condition body, fuel + 1, h => by
    have hcondition := Expr.ofValue?_placedValue condition fuel (depth_field h)
    have hbody := Stmt.ofValue?_placedValue body fuel (depth_field h)
    exact ofValue?_taggedValue rfl (((reads_pure Stmt.while).field hcondition).field hbody)
  | .for body, fuel + 1, h => by
    have hbody := Stmt.ofValue?_placedValue body fuel (depth_field h)
    exact ofValue?_taggedValue rfl ((reads_pure Stmt.for).field hbody)
  | .break, _ + 1, _ => rfl
  | .continue, _ + 1, _ => rfl
  | .empty, _ + 1, _ => rfl

/-- So is a statement with its place. -/
theorem Stmt.ofValue?_placedValue : ∀ (s : Spanned Stmt) (fuel : Nat),
    (Stmt.placedValue s).depth ≤ fuel + 1 →
      Spanned.ofValue? (Stmt.ofValue? fuel) (Stmt.placedValue s) = .ok s
  | ⟨node, span⟩, fuel, h => by
    simp only [Stmt.placedValue, Span.depth_wrap] at h
    exact ofValue?_wrap (s := ⟨node, span⟩) (Stmt.ofValue?_toValue node fuel (by omega))

/-- So are statements. -/
theorem Stmt.ofValue?_listValues : ∀ (ss : List (Spanned Stmt)) (fuel : Nat),
    itemsDepth (Stmt.listValues ss) ≤ fuel + 1 →
      list? (Spanned.ofValue? (Stmt.ofValue? fuel)) (.array (Stmt.listValues ss)) = .ok ss
  | [], _, _ => rfl
  | s :: ss, fuel, h => by
    simp only [Stmt.listValues, itemsDepth] at h
    have hs := Stmt.ofValue?_placedValue s fuel (by omega)
    have hss := Stmt.ofValue?_listValues ss fuel (by omega)
    exact list?_cons hs hss

/-- So is one that may be absent. -/
theorem Stmt.ofValue?_optionalValue : ∀ (o : Option (Spanned Stmt)) (fuel : Nat),
    (Stmt.optionalValue o).depth ≤ fuel + 1 →
      option? (Spanned.ofValue? (Stmt.ofValue? fuel)) (Stmt.optionalValue o) = .ok o
  | none, _, _ => rfl
  | some ⟨node, span⟩, fuel, h =>
    option?_some nofun (Stmt.ofValue?_placedValue ⟨node, span⟩ fuel h)

end

/-! ## Declarations -/

/-- So is a block. -/
theorem Block.ofValue?_toValue (b : Block) (fuel : Nat) (h : b.toValue.depth ≤ fuel + 3) :
    Block.ofValue? fuel b.toValue = .ok b := by
  simp only [Block.toValue, depth, membersDepth] at h
  exact (Block.reads (Stmt.ofValue?_listValues b.stmts fuel (by omega))).ofMembers?

/-- So is one that may be absent. -/
theorem Block.ofValue?_optionalValue (o : Option (Spanned Block)) (fuel : Nat)
    (h : (Block.optionalValue o).depth ≤ fuel + 4) :
    option? (Spanned.ofValue? (Block.ofValue? fuel)) (Block.optionalValue o) = .ok o := by
  match o, h with
  | none, _ => rfl
  | some b, h =>
    simp only [Block.optionalValue, Span.depth_wrap] at h
    exact option?_some nofun (ofValue?_wrap (b.node.ofValue?_toValue fuel (by omega)))

/-- So is an attribute. -/
theorem Attribute.ofValue?_toValue (a : Attribute) (fuel : Nat) (h : a.toValue.depth ≤ fuel + 2) :
    Attribute.ofValue? fuel a.toValue = .ok a := by
  simp only [Attribute.toValue, depth, membersDepth] at h
  have hargs := Expr.ofValue?_argsValue a.args fuel (by omega)
  exact (((reads_pure Attribute.mk).field (nameOfValue?_nameValue a.name)).optional
    hargs).ofMembers?

/-- So are attributes in brackets. -/
theorem AttributeList.ofValue?_toValue (l : AttributeList) (fuel : Nat)
    (h : l.toValue.depth ≤ fuel + 4) :
    AttributeList.ofValue? fuel l.toValue = .ok l := by
  simp only [AttributeList.toValue, depth, membersDepth] at h
  have hattributes : list? (Attribute.ofValue? fuel) (.array (l.attributes.map Attribute.toValue)) =
      .ok l.attributes :=
    list?_map (fun a => a.ofValue?_toValue fuel) (by omega)
  exact (((reads_pure AttributeList.mk).field hattributes).optional
    l.span.ofValue?_toValue).ofMembers?

/-- So are lists of those. -/
theorem AttributeList.ofValue?_list (ls : List AttributeList) (fuel : Nat)
    (h : itemsDepth (ls.map AttributeList.toValue) ≤ fuel + 4) :
    list? (AttributeList.ofValue? fuel) (.array (ls.map AttributeList.toValue)) = .ok ls :=
  list?_map (fun l => l.ofValue?_toValue fuel) h

/-- So is a parameter. -/
theorem Param.ofValue?_toValue (p : Param) (fuel : Nat) (h : p.toValue.depth ≤ fuel + 2) :
    Param.ofValue? fuel p.toValue = .ok p := by
  simp only [Param.toValue, depth, membersDepth] at h
  have hattributes := AttributeList.ofValue?_list p.attributes fuel (by omega)
  have hty := ofValue?_placedValue p.ty fuel (by omega)
  have hdefault := ofValue?_optionalValue p.default fuel (by omega)
  have hmodifiers := modifiersOfValue?_modifiersValue p.modifiers
  exact ((((((reads_pure Param.mk).optional hattributes).optional hmodifiers).field hty).field
    (nameOfValue?_nameValue p.name)).optional hdefault).ofMembers?

/-- A field is read from its stored members. -/
theorem FieldDecl.reads (d : FieldDecl) (fuel : Nat) (h : membersDepth d.members ≤ fuel + 1) :
    (FieldDecl.record fuel).Reads d.members d := by
  simp only [FieldDecl.members, depth, membersDepth] at h
  have hty := ofValue?_placedValue d.ty fuel (by omega)
  have hdecls := VariableDecl.ofValue?_list d.declarators fuel (by omega)
  have hmodifiers := modifiersOfValue?_modifiersValue d.modifiers
  exact (((reads_pure FieldDecl.mk).optional hmodifiers).field hty).field hdecls

/-- A method is read from its stored members. -/
theorem MethodDecl.reads (d : MethodDecl) (fuel : Nat) (h : membersDepth d.members ≤ fuel + 1) :
    (MethodDecl.record fuel).Reads d.members d := by
  simp only [MethodDecl.members, depth, membersDepth] at h
  have hattributes := AttributeList.ofValue?_list d.attributes fuel (by omega)
  have hreturn := ofValue?_placedValue d.returnTy fuel (by omega)
  have hparams : list? (Param.ofValue? fuel) (.array (d.params.map Param.toValue)) = .ok d.params :=
    list?_map (fun p => p.ofValue?_toValue fuel) (by omega)
  have hbody := Block.ofValue?_optionalValue d.body fuel (by omega)
  have hmodifiers := modifiersOfValue?_modifiersValue d.modifiers
  have hname := nameOfValue?_nameValue d.name
  exact ((((((reads_pure MethodDecl.mk).optional hattributes).optional hmodifiers).field
    hreturn).field hname).optional hparams).optional hbody

/-! ## Documents -/

open Json (nestingLimit)

/-- A place is read from its document. -/
theorem Span.ofDocument?_document (s : Span) (hroom : 0 < room) (line : Nat) :
    Span.ofDocument? room (s.toValue.document line) = .ok s := by
  have hword (w : UInt32) : Document.word? ((number (.natural w.toNat)).document line) = .ok w := by
    rw [document, Document.word?, wordOf_toNat]
    rfl
  refine Reads.ofDocument? ?_ _ hroom
  exact Span.reads (hword _) (hword _) (hword _)

/-- So is a node with its place. -/
theorem Spanned.ofDocument?_wrap {node : Placed → Except Refusal α} {room line : Nat}
    (hroom : 1 < room) (h : node ⟨v.document line, line⟩ = .ok s.node) :
    Spanned.ofDocument? node room ((s.span.wrap v).document line) = .ok s := by
  refine Reads.ofDocument? ?_ _ (Nat.zero_lt_of_lt hroom)
  exact reads h (s.span.ofDocument?_document (Nat.sub_pos_of_lt hroom) line)

/-- A member is read as a whole, with fuel for all that the limit lets in. -/
theorem Member.ofPlaced?_document (m : Member) (h : m.toValue.depth ≤ room)
    (hroom : room ≤ nestingLimit) (line : Nat) :
    Member.ofPlaced? room ⟨m.toValue.document line, line⟩ = .ok m := by
  cases m with
  | field d =>
    refine ofPlaced?_tagged rfl (by simp [Json.tagKey, FieldDecl.members]) h _ line ?_
    simp only [Member.toValue, taggedValue, depth, membersDepth] at h
    exact congrArg (Except.map Member.field) (d.reads nestingLimit (by omega)).ofMembers?
  | method d =>
    refine ofPlaced?_tagged rfl (by simp [Json.tagKey, MethodDecl.members]) h _ line ?_
    simp only [Member.toValue, taggedValue, depth, membersDepth] at h
    exact congrArg (Except.map Member.method) (d.reads nestingLimit (by omega)).ofMembers?
  | constructor name =>
    refine ofPlaced?_tagged rfl (by simp [Json.tagKey]) h _ line ?_
    exact ((reads_pure Member.constructor).field (text?_string name)).ofMembers?
  | property name =>
    refine ofPlaced?_tagged rfl (by simp [Json.tagKey]) h _ line ?_
    exact ((reads_pure Member.property).field (text?_string name)).ofMembers?

/-- A class is read from the document of its stored form, if there is room. -/
theorem ClassDecl.ofDocument?_document (c : ClassDecl) (h : c.toValue.depth ≤ room)
    (hroom : room ≤ nestingLimit) (line : Nat) :
    ClassDecl.ofDocument? room (c.toValue.document line) = .ok c := by
  simp only [ClassDecl.toValue, nameValue, Span.depth_wrap, depth, membersDepth] at h
  refine Reads.ofDocument? ?_ _ (by omega)
  refine ((reads_pure ClassDecl.mk).field ?name).optional ?members
  case name => exact ofDocument?_wrap (by omega) rfl
  case members =>
    refine Document.list?_document (by omega) (fun m hm => ?_) (Nat.le_refl _)
    rw [Span.depth_wrap] at hm
    exact ofDocument?_wrap (by omega) (m.node.ofPlaced?_document (by omega) (by omega) line)

/-- A file is read from the document of its stored form within the limit. -/
theorem SourceFile.ofDocument?_document (f : SourceFile) (h : f.toValue.depth ≤ nestingLimit)
    (line : Nat) :
    SourceFile.ofDocument? nestingLimit (f.toValue.document line) = .ok f := by
  simp only [SourceFile.toValue, depth, membersDepth] at h
  refine Reads.ofDocument? ?_ _ (by decide)
  refine (((reads_pure SourceFile.mk).field ?path).optional ?text).field ?classes
  case path => rfl
  case text =>
    cases f.text with
    | none => rfl
    | some text => rfl
  case classes =>
    exact Document.list?_document (by decide)
      (fun c hc => c.ofDocument?_document hc (Nat.sub_le _ _) line) (by omega)

end ComputeKernel
