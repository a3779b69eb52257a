import ComputeKernel.Proofs.Json.Nesting
import ComputeKernel.Proofs.Source.Reload

/-!
# How deep a loaded tree is stored

Loading takes fields for granted that storing writes out: the place of a node, a list that is empty.
So a tree may be stored deeper than it was loaded from. Most of what is added lies beside something
that is as deep, and types and expressions are stored no deeper than they were loaded from
(`TypeRef.fits`, `Expr.fits`). What is left are names: the place of a name lies one container deeper
than its text. Names of classes, members, parameters and attributes are near the top of a file, but
the name of a local variable can lie at any depth. So a file is stored at most one container deeper
than it was loaded from, and only when a local variable has no place
(`SourceFile.depth_of_ofDocument?`).
-/

namespace ComputeKernel

open List
open Json.Value Stmt ComputeKernel.Expr
open Json.Record
open Json (Value Record Cause Refusal Content Variants Document Placed exists_of_map_ok)

variable {α : Type}
variable {as : List α} {d : Document} {extra : α → Nat} {floor fuel n room : Nat}
    {read : Value → Except Cause α} {v : Value} {write : α → Value}

/-! ## Readers -/

/-- What is read is stored no deeper than it was, but for what is `extra`. -/
def Fits (read : Value → Except Cause α) (write : α → Value) (extra : α → Nat) : Prop :=
  ∀ v a, read v = .ok a → (write a).depth ≤ v.depth + extra a

/-- What is read from a part is stored less deep, but for what is extra. -/
theorem Fits.below (h : Fits read write extra)
    (v : Value) (a : α) (hv : v.depth < n) (hok : read v = .ok a) :
    (write a).depth < n + extra a := by
  have hle := h v a hok
  omega

/-- More may be extra. -/
theorem Fits.congr {write write' : α → Value} {extra extra' : α → Nat}
    (h : Fits read write extra) (hwrite : ∀ a, write' a = write a)
    (hextra : ∀ a, extra a ≤ extra' a) :
    Fits read write' extra' := by
  intro v a hok
  rw [hwrite]
  exact Nat.le_trans (h v a hok) (Nat.add_le_add_left (hextra a) _)

/-- The most that is extra in a list. -/
def most (extra : α → Nat) (as : List α) : Nat := (as.map extra).foldr max 0

/-- The most is no less than each. -/
theorem le_most {a : α} (h : a ∈ as) : extra a ≤ most extra as := by
  induction as with
  | nil => cases h
  | cons b as ih =>
    rw [most, map_cons, foldr_cons, ← most]
    rcases mem_cons.1 h with rfl | h
    · exact Nat.le_max_left _ _
    · exact Nat.le_trans (ih h) (Nat.le_max_right _ _)

/-- Nor more than a bound of all. -/
theorem most_le (h : ∀ a ∈ as, extra a ≤ n) : most extra as ≤ n := by
  induction as with
  | nil => exact Nat.zero_le _
  | cons a as ih =>
    rw [most, map_cons, foldr_cons, ← most]
    exact Nat.max_le.2 ⟨h a (.head _), ih fun b hb => h b (.tail _ hb)⟩

/-- Items at most `floor` deep, or no deeper than a bound but for what is extra, make a list one
deeper. -/
theorem depth_array_le {floor bound : Nat}
    (h : ∀ a ∈ as, (write a).depth ≤ max floor (bound + extra a)) :
    (array (as.map write)).depth ≤ max (floor + 1) (bound + 1 + most extra as) := by
  have hdepth : itemsDepth (as.map write) ≤ max floor (bound + most extra as) := by
    rw [itemsDepth_le]
    intro w hw
    obtain ⟨a, ha, rfl⟩ := mem_map.1 hw
    have hle := h a ha
    have hmost : extra a ≤ most extra as := le_most ha
    omega
  rw [depth]
  omega

/-- A list whose items are at most `floor` deep, or no deeper than they were but for what is
extra. -/
theorem depth_array_of_list? (floor : Nat)
    (h : ∀ v a, read v = .ok a → (write a).depth ≤ max floor (v.depth + extra a))
    (hok : list? read v = .ok as) :
    0 < v.depth ∧ (array (as.map write)).depth ≤ max (floor + 1) (v.depth + most extra as) := by
  obtain ⟨hpos, hitems⟩ := exists_of_list? hok
  have hdepth : (array (as.map write)).depth ≤
      max (floor + 1) (v.depth - 1 + 1 + most extra as) := by
    refine depth_array_le fun a ha => ?_
    obtain ⟨p, hp, hread⟩ := hitems a ha
    have hlt := depth_of_mem_parts hp
    have hle := h p a hread
    omega
  omega

/-- A list fits if its items do. -/
theorem Fits.list (h : Fits read write extra) :
    Fits (list? read) (fun as => .array (as.map write)) (most extra) := by
  intro v as hok
  have hle :=
    depth_array_of_list? 0 (fun p a hread => Nat.le_trans (h p a hread) (Nat.le_max_right _ _)) hok
  dsimp only
  omega

/-- Something that may be absent. -/
theorem Fits.option (h : Fits read write extra) :
    Fits (option? read) (fun o => (o.map write).getD .null) fun o => (o.map extra).getD 0 := by
  intro v o hok
  cases o with
  | none => exact Nat.zero_le _
  | some a => exact h v a (ok_of_option? hok a rfl)

/-- The place of a node lies no deeper than the node. -/
theorem Fits.spanned (h : Fits read write extra)
    (hpos : ∀ a, 0 < (write a).depth) :
    Fits (Spanned.ofValue? read) (fun s => s.span.wrap (write s.node)) fun s => extra s.node := by
  intro v s hok
  have hnode : ∀ (p : Value) a, p.depth < v.depth → read p = .ok a →
      (write a).depth < v.depth + extra a := by
    intro p a hp hread
    have hle := h p a hread
    omega
  refine Ensures.ofValue?
    (P := fun s => (s.span.wrap (write s.node)).depth ≤ v.depth + extra s.node) hok
    (((ensures_pure ?_).field "node" hnode).optional "span" (fun _ _ _ _ => trivial) trivial)
  intro a ha span _
  have hposa := hpos a
  rw [Span.depth_wrap]
  dsimp only
  omega

/-! ## Types -/

/-- How a placed type is stored. -/
theorem TypeRef.placedValue_eq (s : Spanned TypeRef) :
    TypeRef.placedValue s = s.span.wrap s.node.toValue := by
  obtain ⟨node, span⟩ := s
  rw [TypeRef.placedValue]

/-- How types are stored. -/
theorem TypeRef.listValues_eq (ts : List (Spanned TypeRef)) :
    TypeRef.listValues ts = ts.map TypeRef.placedValue := by
  induction ts with
  | nil => rfl
  | cons t ts ih => rw [TypeRef.listValues, ih, map_cons]

/-- How type arguments are stored. -/
theorem TypeRef.argsValue_eq (args : Option (List (Spanned TypeRef))) :
    TypeRef.argsValue args = (args.map fun as => .array (TypeRef.listValues as)).getD .null := by
  cases args with
  | none => rfl
  | some as => rfl

/-- A type takes a container. -/
theorem TypeRef.depth_pos (t : TypeRef) : 0 < t.toValue.depth := by
  cases t <;> exact Nat.succ_pos _

/-- What types inside a type fit, its lists and options fit. -/
theorem TypeRef.fits_inner {read : Value → Except Cause TypeRef}
    (h : Fits read TypeRef.toValue fun _ => 0) :
    Fits (Spanned.ofValue? read) TypeRef.placedValue (fun _ => 0) ∧
      Fits (list? (Spanned.ofValue? read)) (fun ts => .array (TypeRef.listValues ts)) (fun _ => 0) ∧
      Fits (option? (list? (Spanned.ofValue? read))) TypeRef.argsValue fun _ => 0 := by
  have hplaced := (h.spanned TypeRef.depth_pos).congr TypeRef.placedValue_eq fun _ => Nat.le_refl _
  have hlist := hplaced.list.congr (fun ts => congrArg Value.array (TypeRef.listValues_eq ts))
    fun ts => most_le fun _ _ => Nat.le_refl 0
  refine ⟨hplaced, hlist, hlist.option.congr TypeRef.argsValue_eq fun o => ?_⟩
  cases o <;> exact Nat.le_refl 0

/-- A type is stored no deeper than it was loaded from. -/
theorem TypeRef.fits (fuel : Nat) : Fits (TypeRef.ofValue? fuel) TypeRef.toValue fun _ => 0 := by
  induction fuel with
  | zero => exact fun v t hok => nomatch hok
  | succ fuel ih =>
    intro v t hok
    obtain ⟨hpos, tag, read, content, hmem, hread, hparts⟩ := Variants.exists_of_ofValue? hok
    obtain ⟨hplaced, hlist, hargs⟩ := TypeRef.fits_inner ih
    simp only [TypeRef.variants, mem_cons, not_mem_nil, or_false] at hmem
    -- One case for each variant: its record, and what the fields make of it.
    rcases hmem with h | h | h | h | h | h | h | h <;> cases h <;>
      refine Ensures.record? (P := fun t => t.toValue.depth ≤ v.depth) ?_ hparts hread
    iterate 2
      · exact (ensures_pure fun name _ => hpos).field "name" fun _ _ _ _ => trivial
    · refine ((ensures_pure ?_).field "left" hplaced.below).field "right" hplaced.below
      intro left hleft right hright
      simp only [TypeRef.toValue, taggedValue, depth, membersDepth]
      omega
    · refine ((ensures_pure ?_).field "name" fun _ _ _ _ => trivial).optional "args"
        hargs.below hpos
      intro name _ args hargs
      simp only [TypeRef.toValue, taggedValue, depth, membersDepth]
      omega
    · refine ((ensures_pure ?_).field "element" hplaced.below).field "rank" fun _ _ _ _ => trivial
      intro element helement rank _
      simp only [TypeRef.toValue, taggedValue, depth, membersDepth]
      omega
    iterate 2
      · refine (ensures_pure ?_).field "element" hplaced.below
        intro element helement
        simp only [TypeRef.toValue, taggedValue, depth, membersDepth]
        omega
    · refine (ensures_pure ?_).field "elements" hlist.below
      intro elements helements
      simp only [TypeRef.toValue, taggedValue, depth, membersDepth] at helements ⊢
      omega

/-! ## Names -/

/-- A name is read from a container, and its place from one inside that. -/
theorem depth_of_nameOfValue? {s : Spanned String} (h : nameOfValue? v = .ok s) :
    0 < v.depth ∧ (s.span ≠ {} → 1 < v.depth) := by
  refine ⟨depth_pos_of_ofValue? h, ?_⟩
  refine Ensures.ofValue? (P := fun s => s.span ≠ {} → 1 < v.depth) h
    (((ensures_pure ?_).field "node" fun _ _ _ _ => trivial).optional "span" (R := fun s => s ≠ {} →
      1 < v.depth) ?_ (absurd rfl))
  · exact fun node _ span hspan => hspan
  · intro p span hp hspan _
    have hpos := depth_pos_of_ofValue? hspan
    omega

/-- Where a name of a part is stored, and when that is deeper. -/
theorem name_below (p : Value) (s : Spanned String) (hp : p.depth < n)
    (h : nameOfValue? p = .ok s) :
    1 < n ∧ (s.span ≠ {} → 2 < n) := by
  obtain ⟨hpos, hspan⟩ := depth_of_nameOfValue? h
  exact ⟨by omega, fun hne => Nat.lt_of_le_of_lt (hspan hne) hp⟩

/-- A name takes two containers. -/
theorem depth_nameValue (s : Spanned String) : (nameValue s).depth = 2 := rfl

/-! ## Expressions -/

/-- How a placed expression is stored. -/
theorem Expr.placedValue_eq (s : Spanned Expr) :
    Expr.placedValue s = s.span.wrap s.node.toValue := by
  obtain ⟨node, span⟩ := s
  rw [Expr.placedValue]

/-- How expressions are stored. -/
theorem Expr.listValues_eq (es : List (Spanned Expr)) :
    Expr.listValues es = es.map Expr.placedValue := by
  induction es with
  | nil => rfl
  | cons e es ih => rw [Expr.listValues, ih, map_cons]

/-- How arguments are stored. -/
theorem Expr.argsValue_eq (args : Option (List (Spanned Expr))) :
    argsValue args = (args.map fun as => .array (Expr.listValues as)).getD .null := by
  cases args with
  | none => rfl
  | some as => rfl

/-- How one that may be absent is. -/
theorem Expr.optionalValue_eq (o : Option (Spanned Expr)) :
    Expr.optionalValue o = (o.map Expr.placedValue).getD .null := by
  cases o with
  | none => rfl
  | some e => rfl

/-- An expression takes a container. -/
theorem Expr.depth_pos (e : Expr) : 0 < e.toValue.depth := by
  cases e <;> exact Nat.succ_pos _

/-- A node with its place takes two containers. -/
theorem Expr.one_lt_depth_placedValue (s : Spanned Expr) : 1 < (Expr.placedValue s).depth := by
  have hpos := s.node.depth_pos
  rw [Expr.placedValue_eq, Span.depth_wrap]
  omega

/-- What expressions inside an expression fit, its lists and options fit. -/
theorem Expr.fits_inner {read : Value → Except Cause Expr} (h : Fits read Expr.toValue fun _ => 0) :
    Fits (Spanned.ofValue? read) Expr.placedValue (fun _ => 0) ∧
      Fits (list? (Spanned.ofValue? read)) (fun es => .array (Expr.listValues es)) (fun _ => 0) ∧
      Fits (option? (list? (Spanned.ofValue? read))) argsValue fun _ => 0 := by
  have hplaced := (h.spanned Expr.depth_pos).congr Expr.placedValue_eq fun _ => Nat.le_refl _
  have hlist := hplaced.list.congr (fun es => congrArg array (Expr.listValues_eq es))
    fun es => most_le fun _ _ => Nat.le_refl 0
  refine ⟨hplaced, hlist, hlist.option.congr argsValue_eq fun o => ?_⟩
  cases o <;> exact Nat.le_refl 0

/-- An expression is stored no deeper than it was. The name of a member has its place as deep as the
expression that has the member. -/
theorem Expr.fits (fuel : Nat) : Fits (Expr.ofValue? fuel) Expr.toValue fun _ => 0 := by
  induction fuel with
  | zero => exact fun v e hok => nomatch hok
  | succ fuel ih =>
    intro v e hok
    obtain ⟨hpos, tag, read, content, hmem, hread, hparts⟩ := Variants.exists_of_ofValue? hok
    obtain ⟨hty, -, -⟩ := TypeRef.fits_inner (TypeRef.fits fuel)
    obtain ⟨hplaced, hlist, hargs⟩ := Expr.fits_inner ih
    simp only [Expr.variants, mem_cons, not_mem_nil, or_false] at hmem
    rcases hmem with h | h | h | h | h | h | h | h | h | h | h | h | h | h <;> cases h <;>
      refine Ensures.record? (P := fun e => e.toValue.depth ≤ v.depth) ?_ hparts hread
    iterate 2
      · exact (ensures_pure fun text _ => hpos).field "text" fun _ _ _ _ => trivial
    · exact (ensures_pure fun value _ => hpos).field "value" fun _ _ _ _ => trivial
    · exact (ensures_pure fun name _ => hpos).field "name" fun _ _ _ _ => trivial
    · refine ((ensures_pure ?_).field "target" hplaced.below).field "name" name_below
      intro target htarget name _
      have htwo := one_lt_depth_placedValue target
      simp only [Expr.toValue, taggedValue, depth, membersDepth, depth_nameValue]
      omega
    · refine ((ensures_pure ?_).field "callee" hplaced.below).optional "args" hargs.below hpos
      intro callee hcallee args hargs
      simp only [Expr.toValue, taggedValue, depth, membersDepth]
      omega
    · refine ((ensures_pure ?_).field "ty" hty.below).field "operand" hplaced.below
      intro ty hty operand hoperand
      simp only [Expr.toValue, taggedValue, depth, membersDepth]
      omega
    · refine ((ensures_pure ?_).field "target" hplaced.below).field "indices" hlist.below
      intro target htarget indices hindices
      simp only [Expr.toValue, taggedValue, depth, membersDepth] at hindices ⊢
      omega
    · refine (ensures_pure ?_).field "inner" hplaced.below
      intro inner hinner
      simp only [Expr.toValue, taggedValue, depth, membersDepth]
      omega
    iterate 2
      · refine (((ensures_pure ?_).field "op" fun _ _ _ _ => trivial).field "lhs"
          hplaced.below).field "rhs"
          hplaced.below
        intro op _ lhs hlhs rhs hrhs
        simp only [Expr.toValue, taggedValue, depth, membersDepth]
        omega
    · refine ((ensures_pure ?_).field "ty" hty.below).optional "args" hargs.below hpos
      intro ty hty args hargs
      simp only [Expr.toValue, taggedValue, depth, membersDepth]
      omega
    · refine ((ensures_pure ?_).field "op" fun _ _ _ _ => trivial).field "operand" hplaced.below
      intro op _ operand hoperand
      simp only [Expr.toValue, taggedValue, depth, membersDepth]
      omega
    · refine (((ensures_pure ?_).field "condition" hplaced.below).field "when_true"
        hplaced.below).field
        "when_false" hplaced.below
      intro condition hcondition whenTrue htrue whenFalse hfalse
      simp only [Expr.toValue, taggedValue, depth, membersDepth]
      omega

/-- One that may be absent fits. -/
theorem Expr.fits_optional (fuel : Nat) :
    Fits (option? (Spanned.ofValue? (Expr.ofValue? fuel))) Expr.optionalValue fun _ => 0 := by
  obtain ⟨hplaced, -, -⟩ := Expr.fits_inner (Expr.fits fuel)
  refine hplaced.option.congr Expr.optionalValue_eq fun o => ?_
  cases o <;> exact Nat.le_refl 0

/-! ## Local variables without a place -/

/-- One, if the variable has no place, and none otherwise. -/
def VariableDecl.unplaced (d : VariableDecl) : Nat := if d.name.span = {} then 1 else 0

mutual

/-- One, if the statement declares a variable without a place; else none. -/
def Stmt.unplaced : Stmt → Nat
  | .ifThenElse _ thenBranch elseBranch => max (unplacedAt thenBranch) (unplacedOptional elseBranch)
  | .block stmts => unplacedList stmts
  | .localDeclaration _ declarators => most VariableDecl.unplaced declarators
  | .while _ body | .for body => unplacedAt body
  | .expression _ | .return _ | .break | .continue | .empty => 0

/-- So for a statement with its place. -/
def Stmt.unplacedAt : Spanned Stmt → Nat
  | ⟨node, _⟩ => unplaced node

/-- So for statements. -/
def Stmt.unplacedList : List (Spanned Stmt) → Nat
  | [] => 0
  | s :: ss => max (unplacedAt s) (unplacedList ss)

/-- So for one that may be absent. -/
def Stmt.unplacedOptional : Option (Spanned Stmt) → Nat
  | none => 0
  | some s => unplacedAt s

end

/-- One at most for a variable. -/
theorem VariableDecl.unplaced_le (d : VariableDecl) : d.unplaced ≤ 1 := by
  unfold VariableDecl.unplaced
  split
  · exact Nat.le_refl 1
  · exact Nat.zero_le 1

mutual

/-- And for a statement. -/
theorem Stmt.unplaced_le : ∀ s : Stmt, s.unplaced ≤ 1
  | .ifThenElse _ thenBranch elseBranch =>
    Nat.max_le.2 ⟨unplacedAt_le thenBranch, unplacedOptional_le elseBranch⟩
  | .block stmts => unplacedList_le stmts
  | .localDeclaration _ _ => most_le fun d _ => d.unplaced_le
  | .while _ body | .for body => unplacedAt_le body
  | .expression _ | .return _ | .break | .continue | .empty => Nat.zero_le 1

/-- And for one with its place. -/
theorem Stmt.unplacedAt_le : ∀ s : Spanned Stmt, unplacedAt s ≤ 1
  | ⟨node, _⟩ => unplaced_le node

/-- And for statements. -/
theorem Stmt.unplacedList_le : ∀ ss : List (Spanned Stmt), unplacedList ss ≤ 1
  | [] => Nat.zero_le 1
  | s :: ss => Nat.max_le.2 ⟨unplacedAt_le s, unplacedList_le ss⟩

/-- And for one that may be absent. -/
theorem Stmt.unplacedOptional_le : ∀ o : Option (Spanned Stmt), unplacedOptional o ≤ 1
  | none => Nat.zero_le 1
  | some s => unplacedAt_le s

end

/-! ## Statements -/

/-- A variable is stored deeper only for the place of its name, three containers deep. -/
theorem VariableDecl.depth_of_ofValue? {d : VariableDecl}
    (h : VariableDecl.ofValue? fuel v = .ok d) :
    d.toValue.depth ≤ max 3 v.depth ∧ d.toValue.depth ≤ v.depth + d.unplaced := by
  refine Ensures.ofValue?
    (P := fun d : VariableDecl => d.toValue.depth ≤ max 3 v.depth ∧
      d.toValue.depth ≤ v.depth + d.unplaced) h
    (((ensures_pure ?_).field "name" name_below).optional "init"
      (fits_optional fuel).below (depth_pos_of_ofValue? h))
  intro name hname init hinit
  simp only [VariableDecl.toValue, VariableDecl.unplaced, depth, membersDepth, depth_nameValue]
  split
  next => omega
  next hspan =>
    have htwo := hname.2 hspan
    omega

/-- A variable fits but for its place. -/
theorem VariableDecl.fits (fuel : Nat) :
    Fits (VariableDecl.ofValue? fuel) VariableDecl.toValue VariableDecl.unplaced :=
  fun _ _ h => (VariableDecl.depth_of_ofValue? h).2

/-- How a placed statement is stored. -/
theorem Stmt.placedValue_eq (s : Spanned Stmt) : placedValue s = s.span.wrap s.node.toValue := by
  obtain ⟨node, span⟩ := s
  rw [placedValue]

/-- How statements are stored. -/
theorem Stmt.listValues_eq (ss : List (Spanned Stmt)) : listValues ss = ss.map placedValue := by
  induction ss with
  | nil => rfl
  | cons s ss ih => rw [listValues, ih, map_cons]

/-- How one that may be absent is. -/
theorem Stmt.optionalValue_eq (o : Option (Spanned Stmt)) :
    optionalValue o = (o.map placedValue).getD .null := by
  cases o with
  | none => rfl
  | some s => rfl

/-- The most of statements. -/
theorem Stmt.unplacedList_eq (ss : List (Spanned Stmt)) : unplacedList ss = most unplacedAt ss := by
  induction ss with
  | nil => rfl
  | cons s ss ih =>
    rw [unplacedList, ih]
    rfl

/-- A statement takes a container. -/
theorem Stmt.depth_pos (s : Stmt) : 0 < s.toValue.depth := by
  cases s <;> exact Nat.succ_pos _

/-- What statements inside a statement fit, its lists and options fit. -/
theorem Stmt.fits_inner {read : Value → Except Cause Stmt} (h : Fits read toValue unplaced) :
    Fits (Spanned.ofValue? read) placedValue unplacedAt ∧
      Fits (list? (Spanned.ofValue? read)) (fun ss => .array (listValues ss)) unplacedList ∧
      Fits (option? (Spanned.ofValue? read)) optionalValue unplacedOptional := by
  have hplaced : Fits (Spanned.ofValue? read) placedValue unplacedAt :=
    (h.spanned depth_pos).congr placedValue_eq fun s => Nat.le_of_eq (by rw [unplacedAt])
  refine ⟨hplaced, ?_, hplaced.option.congr optionalValue_eq fun o => ?_⟩
  · exact hplaced.list.congr (fun ss => congrArg array (listValues_eq ss))
      fun ss => Nat.le_of_eq (unplacedList_eq ss).symm
  · cases o <;> exact Nat.le_refl _

/-- A statement is stored at most one deeper, and only when it declares a variable without a
place. -/
theorem Stmt.fits (fuel : Nat) : Fits (Stmt.ofValue? fuel) toValue unplaced := by
  induction fuel with
  | zero => exact fun v s hok => nomatch hok
  | succ fuel ih =>
    intro v s hok
    obtain ⟨hpos, tag, read, content, hmem, hread, hparts⟩ := Variants.exists_of_ofValue? hok
    obtain ⟨hty, -, -⟩ := TypeRef.fits_inner (TypeRef.fits fuel)
    obtain ⟨hexpr, -, -⟩ := Expr.fits_inner (Expr.fits fuel)
    have hvalue := fits_optional fuel
    obtain ⟨hplaced, hlist, hoptional⟩ := fits_inner ih
    simp only [variants, mem_cons, not_mem_nil, or_false] at hmem
    have hrecord {r : Record Value Cause Stmt} {label : String}
      (hok : Content.record? r label content = .ok s)
        (h : r.Ensures (fun p => p.depth < v.depth) fun s => s.toValue.depth ≤
          v.depth + s.unplaced) :=
      h.record? hparts hok
    rcases hmem with h | h | h | h | h | h | h | h | h | h <;> cases h
    · refine hrecord hread ((ensures_pure ?_).field "expr" hexpr.below)
      intro expr hexpr
      simp only [toValue, taggedValue, depth, membersDepth]
      omega
    · refine hrecord hread ((ensures_pure ?_).optional "value" hvalue.below hpos)
      intro value hvalue
      simp only [toValue, taggedValue, depth, membersDepth]
      omega
    · refine hrecord hread ((((ensures_pure ?_).field "condition" hexpr.below).field "then_branch"
        hplaced.below).optional "else_branch" hoptional.below (Nat.add_pos_left hpos _))
      intro condition hcondition thenBranch hthen elseBranch helse
      simp only [toValue, unplaced, taggedValue, depth, membersDepth]
      omega
    · obtain ⟨block, hblock, rfl⟩ := exists_of_map_ok hread
      refine Ensures.record?
        (P := fun b => (Stmt.block b.stmts).toValue.depth ≤ v.depth + (Stmt.block b.stmts).unplaced)
        ((ensures_pure ?_).field "stmts" hlist.below) hparts hblock
      intro stmts hstmts
      simp only [toValue, unplaced, taggedValue, depth, membersDepth] at hstmts ⊢
      omega
    · refine hrecord hread (((ensures_pure ?_).field "ty" hty.below).field "variables"
        (VariableDecl.fits fuel).list.below)
      intro ty hty declarators hdeclarators
      simp only [toValue, unplaced, taggedValue, depth, membersDepth] at hdeclarators ⊢
      omega
    · refine hrecord hread (((ensures_pure ?_).field "condition" hexpr.below).field "body"
        hplaced.below)
      intro condition hcondition body hbody
      simp only [toValue, unplaced, taggedValue, depth, membersDepth]
      omega
    · refine hrecord hread ((ensures_pure ?_).field "body" hplaced.below)
      intro body hbody
      simp only [toValue, unplaced, taggedValue, depth, membersDepth]
      omega
    iterate 3
      · rw [Content.eq_of_unit? hread]
        exact Nat.le_add_right_of_le hpos

/-! ## Members -/

/-- Statements between braces are stored as their list is. -/
def Block.unplaced (b : Block) : Nat := unplacedList b.stmts

/-- A block fits as its statements do. -/
theorem Block.fits (fuel : Nat) : Fits (Block.ofValue? fuel) Block.toValue Block.unplaced := by
  intro v b hok
  obtain ⟨-, hlist, -⟩ := Stmt.fits_inner (Stmt.fits fuel)
  refine Ensures.ofValue? (P := fun b : Block => b.toValue.depth ≤ v.depth + b.unplaced) hok
    ((ensures_pure ?_).field "stmts" hlist.below)
  intro stmts hstmts
  simp only [Block.toValue, Block.unplaced, depth, membersDepth] at hstmts ⊢
  omega

/-- The body of a method, if it has one. -/
def Block.unplacedOptional (o : Option (Spanned Block)) : Nat :=
  (o.map fun b => b.node.unplaced).getD 0

/-- So does a body. -/
theorem Block.fits_optional (fuel : Nat) :
    Fits (option? (Spanned.ofValue? (Block.ofValue? fuel))) Block.optionalValue
      Block.unplacedOptional := by
  refine ((Block.fits fuel).spanned fun b => Nat.succ_pos _).option.congr (fun o => ?_) fun o =>
    Nat.le_refl _
  cases o <;> rfl

/-- Names lie at most two containers deep in what has them, so what is near the top stays there. -/
theorem Attribute.depth_of_ofValue? {a : Attribute} (h : Attribute.ofValue? fuel v = .ok a) :
    a.toValue.depth ≤ max 3 v.depth := by
  obtain ⟨-, -, hargs⟩ := Expr.fits_inner (Expr.fits fuel)
  refine Ensures.ofValue? (P := fun a : Attribute => a.toValue.depth ≤ max 3 v.depth) h
    (((ensures_pure ?_).field "name" name_below).optional "args" hargs.below
      (depth_pos_of_ofValue? h))
  intro name _ args hargs
  simp only [Attribute.toValue, depth, membersDepth, depth_nameValue]
  omega

/-- A list of a part whose items are at most `floor` deep or no deeper than they were. -/
theorem list_below
    (h : ∀ {v a}, read v = .ok a → (write a).depth ≤ max floor v.depth) (p : Value) (as : List α)
    (hp : p.depth < n) (hok : list? read p = .ok as) :
    (array (as.map write)).depth < max (floor + 2) n := by
  have hle : (array (as.map write)).depth ≤ max (floor + 1) (p.depth + most (fun _ => 0) as) :=
    (depth_array_of_list? floor (fun v a hread => h hread) hok).2
  have hmost : most (fun _ => 0) as ≤ 0 := most_le fun _ _ => Nat.le_refl 0
  omega

/-- An empty list takes one container. -/
theorem nil_below (write : α → Value) (floor n : Nat) :
    (array (([] : List α).map write)).depth < max (floor + 2) n :=
  Nat.lt_of_lt_of_le (Nat.lt_add_left floor Nat.one_lt_two) (Nat.le_max_left _ _)

/-- So for attributes in brackets. -/
theorem AttributeList.depth_of_ofValue? {l : AttributeList}
    (h : AttributeList.ofValue? fuel v = .ok l) : l.toValue.depth ≤ max 5 v.depth := by
  refine Ensures.ofValue? (P := fun l : AttributeList => l.toValue.depth ≤ max 5 v.depth) h
    (((ensures_pure ?_).field "attributes" (list_below Attribute.depth_of_ofValue?)).optional "span"
      (fun _ _ _ _ => trivial) trivial)
  intro attributes hattributes span _
  have hspan : span.toValue.depth = 1 := rfl
  simp only [AttributeList.toValue, depth, membersDepth] at hattributes hspan ⊢
  omega

/-- Modifiers take one container. -/
theorem depth_modifiersValue (modifiers : List String) : (modifiersValue modifiers).depth = 1 := by
  have hle : itemsDepth (modifiers.map string) ≤ 0 := by
    rw [itemsDepth_le]
    intro w hw
    obtain ⟨s, -, rfl⟩ := mem_map.1 hw
    exact Nat.le_refl 0
  rw [modifiersValue, depth]
  omega

/-- So for a parameter. -/
theorem Param.depth_of_ofValue? {q : Param} (h : Param.ofValue? fuel v = .ok q) :
    q.toValue.depth ≤ max 7 v.depth := by
  obtain ⟨hty, -, -⟩ := TypeRef.fits_inner (TypeRef.fits fuel)
  refine Ensures.ofValue? (P := fun q : Param => q.toValue.depth ≤ max 7 v.depth) h
    (ensures_pure ?_
      |>.optional "attributes" (list_below AttributeList.depth_of_ofValue?) (nil_below _ _ _)
      |>.optional "modifiers" (fun _ _ _ _ => trivial) trivial
      |>.field "ty" hty.below
      |>.field "name" name_below
      |>.optional "default" (fits_optional fuel).below (depth_pos_of_ofValue? h))
  intro attributes hattributes modifiers _ ty hty name _ default hdefault
  simp only [Param.toValue, depth, membersDepth, depth_nameValue, depth_modifiersValue]
    at hattributes ⊢
  omega

/-- So for a field. -/
theorem FieldDecl.ensures (fuel n : Nat) :
    (FieldDecl.record fuel).Ensures (fun p => p.depth < n) fun d => membersDepth d.members <
      max 5 n := by
  obtain ⟨hty, -, -⟩ := TypeRef.fits_inner (TypeRef.fits fuel)
  refine ensures_pure ?_
    |>.optional "modifiers" (fun _ _ _ _ => trivial) trivial
    |>.field "ty" hty.below
    |>.field "variables" (list_below fun h => (VariableDecl.depth_of_ofValue? h).1)
  intro modifiers _ ty hty declarators hdeclarators
  simp only [FieldDecl.members, depth, membersDepth, depth_modifiersValue] at hdeclarators ⊢
  omega

/-- One, if the method has a variable without a place; else none. -/
def MethodDecl.unplaced (d : MethodDecl) : Nat := Block.unplacedOptional d.body

/-- So for a method, but for its variables. -/
theorem MethodDecl.ensures (fuel : Nat) (hn : 0 < n) :
    (MethodDecl.record fuel).Ensures (fun p => p.depth < n) fun d =>
      membersDepth d.members < max 9 (n + d.unplaced) := by
  obtain ⟨hty, -, -⟩ := TypeRef.fits_inner (TypeRef.fits fuel)
  refine ensures_pure ?_
    |>.optional "attributes" (list_below AttributeList.depth_of_ofValue?) (nil_below _ _ _)
    |>.optional "modifiers" (fun _ _ _ _ => trivial) trivial
    |>.field "return_ty" hty.below
    |>.field "name" name_below
    |>.optional "params" (list_below Param.depth_of_ofValue?) (nil_below _ _ _)
    |>.optional "body" (Block.fits_optional fuel).below hn
  intro attributes hattributes modifiers _ returnTy hreturn name _ params hparams body hbody
  simp only [MethodDecl.members, MethodDecl.unplaced, depth, membersDepth, depth_nameValue,
    depth_modifiersValue] at hattributes hparams ⊢
  omega

/-- One, if the member has a variable without a place; else none. -/
def Member.unplaced : Member → Nat
  | .method decl => decl.unplaced
  | .field _ | .constructor _ | .property _ => 0

/-- A member is at most nine containers deep, or no deeper than there was room for, but for the
place of a variable. -/
theorem Member.depth_of_ofPlaced? {p : Placed} {m : Member} (h : Member.ofPlaced? room p = .ok m) :
    0 < room ∧ m.toValue.depth ≤ max 9 (room + m.unplaced) := by
  obtain ⟨hroom, tag, read, content, hmem, hread, hparts⟩ := Variants.exists_of_ofPlaced? h
  refine ⟨hroom, ?_⟩
  simp only [Member.variants, mem_cons, not_mem_nil, or_false] at hmem
  rcases hmem with h | h | h | h <;> cases h
  · obtain ⟨decl, hdecl, rfl⟩ := exists_of_map_ok hread
    have hdepth := (FieldDecl.ensures _ room).record? hparts hdecl
    simp only [Member.toValue, Member.unplaced, taggedValue, depth, membersDepth]
    omega
  · obtain ⟨decl, hdecl, rfl⟩ := exists_of_map_ok hread
    have hdepth := (MethodDecl.ensures _ hroom).record? hparts hdecl
    simp only [Member.toValue, Member.unplaced, taggedValue, depth, membersDepth]
    omega
  iterate 2
    · refine Ensures.record? (P := fun m : Member => m.toValue.depth ≤ max 9 (room + m.unplaced))
        ((ensures_pure fun name _ => ?_).field "name" fun _ _ _ _ => trivial) hparts hread
      exact Nat.le_trans (by decide : (1 : Nat) ≤ 9) (Nat.le_max_left _ _)

/-! ## Files -/

/-- What is read as the node of a document with its place. -/
theorem Spanned.node_of_ofDocument? {node : Placed → Except Refusal α} {P : α → Prop}
    (hnode : ∀ p a, node p = .ok a → P a) {s : Spanned α}
    (h : Spanned.ofDocument? node room d = .ok s) : P s.node :=
  (Ensures.ofDocument? (P := fun s => P s.node)
    (((ensures_pure fun _ ha _ _ => ha).field "node" fun p a _ ha => hnode p a ha).optional "span"
      (fun _ _ _ _ => trivial) trivial) h).2

/-- One, if the class has a variable without a place; else none. -/
def ClassDecl.unplaced (c : ClassDecl) : Nat := most (fun m => m.node.unplaced) c.members

/-- One, if the file has a variable without a place; else none. -/
def SourceFile.unplaced (f : SourceFile) : Nat := most ClassDecl.unplaced f.classes

/-- A list of a document whose items are at most `floor` or `room` deep, but for what is extra. -/
theorem depth_array_of_documents {read : Document → Except Refusal α} (extra : α → Nat)
    {floor room limit : Nat}
    (h : ∀ {d a}, read d = .ok a → (write a).depth ≤ max floor (room + extra a))
    (hok : Document.list? read limit d = .ok as) :
    0 < limit ∧ (array (as.map write)).depth ≤ max (floor + 1) (room + 1 + most extra as) := by
  obtain ⟨hpos, hitems⟩ := Document.exists_of_list? hok
  refine ⟨hpos, depth_array_le fun a ha => ?_⟩
  obtain ⟨p, hread⟩ := hitems a ha
  exact h hread

/-- So for a class, but for variables. -/
theorem ClassDecl.depth_of_ofDocument? {c : ClassDecl}
    (h : ClassDecl.ofDocument? room d = .ok c) : c.toValue.depth ≤ max 12 (room + c.unplaced) := by
  have hroom := pos_of_ofDocument? h
  have hmember : ∀ {d : Document} {m : Spanned Member},
      Spanned.ofDocument? (Member.ofPlaced? (room - 3)) (room - 2) d = .ok m →
        (m.span.wrap m.node.toValue).depth ≤ max 10 (room - 2 + m.node.unplaced) := by
    intro d m hm
    obtain ⟨hpos, hdepth⟩ := Spanned.node_of_ofDocument? (fun p m => Member.depth_of_ofPlaced?) hm
    rw [Span.depth_wrap]
    omega
  have hmembers : ∀ (p : Placed) (ms : List (Spanned Member)), True →
      Document.list? (Spanned.ofDocument? (Member.ofPlaced? (room - 3)) (room - 2)) (room - 1)
        p.value = .ok ms → (array (ms.map fun m => m.span.wrap m.node.toValue)).depth
          ≤ max 11 (room - 1 + most (fun m => m.node.unplaced) ms) := by
    intro p ms _ hms
    obtain ⟨hpos, hdepth⟩ := depth_array_of_documents (fun m => m.node.unplaced) hmember hms
    omega
  refine (Ensures.ofDocument? (P := fun c : ClassDecl => c.toValue.depth ≤
    max 12 (room + c.unplaced))
      (((ensures_pure ?_).field "name" fun _ _ _ _ => trivial).optional "members" hmembers ?_) h).2
  · intro name _ members hmembers
    simp only [ClassDecl.toValue, ClassDecl.unplaced, depth, membersDepth, depth_nameValue]
      at hmembers ⊢
    omega
  · exact Nat.le_trans (by decide : (1 : Nat) ≤ 11) (Nat.le_max_left _ _)

/-- **What is added when a file is stored.** A loaded file is stored at most fourteen containers
deep, or no deeper than there was room for, but for one more if a local variable has no place. -/
theorem SourceFile.depth_of_ofDocument? {f : SourceFile}
    (h : SourceFile.ofDocument? room d = .ok f) : f.toValue.depth ≤ max 14 (room + f.unplaced) := by
  have hroom := pos_of_ofDocument? h
  have hclasses : ∀ (p : Placed) (cs : List ClassDecl), True →
      Document.list? (ClassDecl.ofDocument? (room - 2)) (room - 1) p.value = .ok cs →
        (array (cs.map ClassDecl.toValue)).depth ≤
            max 13 (room - 1 + most ClassDecl.unplaced cs) := by
    intro p cs _ hcs
    obtain ⟨hpos, hdepth⟩ :=
      depth_array_of_documents ClassDecl.unplaced ClassDecl.depth_of_ofDocument? hcs
    omega
  refine (Ensures.ofDocument?
    (P := fun f : SourceFile => f.toValue.depth ≤ max 14 (room + f.unplaced))
    (ensures_pure ?_
      |>.field "path" (fun _ _ _ _ => trivial)
      |>.optional "text" (fun _ _ _ _ => trivial) trivial
      |>.field "classes" hclasses) h).2
  intro path _ text _ classes hclasses
  have htext : ((text.map string).getD .null).depth = 0 := by cases text <;> rfl
  simp only [SourceFile.toValue, SourceFile.unplaced, depth, membersDepth] at hclasses htext ⊢
  omega

end ComputeKernel
