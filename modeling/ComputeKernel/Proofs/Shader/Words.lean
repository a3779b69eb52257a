import ComputeKernel.Proofs.Shader.Layout
import ComputeKernel.Shader.Kernel

/-!
# The words of a class

Names, modifiers and literals reach the kernel text as they are spelled, and all else is fixed. The
words of a node are the spellings that may be written for it. If they are plain, then so is what is
written for a type or an expression (`plain_placedType`, `plain_placedExpr`), for attributes and
parameters, and in the outline of a statement (`plainAll_outlines`).
-/

namespace ComputeKernel.Shader

open List (dropWhile_sublist forall_mem_append forall_mem_cons forall_mem_flatMap forall_mem_map
      mem_filter mem_reverse)
open Output

/-! ## Plain outputs -/

namespace Output

/-- An output whose text is plain. -/
def Plain (o : Output) : Prop := Shader.Plain o.text

/-- No text is plain. -/
theorem plain_nil : ({} : Output).Plain := nofun

/-- A plain text is a plain output. -/
theorem plain_lit {text : String} (h : Shader.Plain text) : (lit text).Plain := h

/-- A problem has no text. -/
theorem plain_problem (reason : Reason) (span : Span) : (problem reason span).Plain := nofun

/-- Plain outputs one after the other are plain. -/
theorem Plain.append {a b : Output} (ha : a.Plain) (hb : b.Plain) : (a ++ b).Plain :=
  plain_append.2 ⟨ha, hb⟩

/-- A plain output stays plain between plain texts. -/
theorem Plain.between {o : Output} {before after : String} (h : o.Plain)
    (hbefore : Shader.Plain before) (hafter : Shader.Plain after) :
    (lit before ++ o ++ lit after).Plain :=
  Shader.Plain.between h hbefore hafter

/-- Plain outputs stay plain when they are separated. -/
theorem plain_separated {sep : String} (hsep : Shader.Plain sep) :
    ∀ {os : List Output}, (∀ o ∈ os, o.Plain) → (separated sep os).Plain
  | [], _ => plain_nil
  | [_], h => h _ (.head _)
  | _ :: _ :: _, h =>
    ((h _ (.head _)).append (plain_lit hsep)).append
      (plain_separated hsep fun o ho => h o (.tail _ ho))

end Output

/-- Plain texts are plain when they are joined. -/
theorem plain_join : ∀ {texts : List String}, (∀ t ∈ texts, Plain t) → Plain (String.join texts)
  | [], _ => by decide
  | t :: ts, h => by
    rw [String.join_cons, plain_append]
    exact ⟨h t (.head _), plain_join fun t ht => h t (.tail _ ht)⟩

/-! ## Types -/

mutual

/-- The words of a type. -/
def typeWords : TypeRef → List String
  | .identifier name | .predefined name => [name]
  | .qualified left right => placedTypeWords left ++ placedTypeWords right
  | .generic name none => [name]
  | .generic name (some args) => name :: typeListWords args
  | .array _ _ | .pointer _ | .nullable _ | .tuple _ => []

/-- The words of a type with its place. -/
def placedTypeWords : Spanned TypeRef → List String
  | ⟨node, _⟩ => typeWords node

/-- The words of types. -/
def typeListWords : List (Spanned TypeRef) → List String
  | [] => []
  | t :: ts => placedTypeWords t ++ typeListWords ts

end

/-- The type of a resource is plain if its name is. -/
theorem plain_resourceType {name : String} (h : Plain name) : Plain (resourceType name) := by
  rw [resourceType]
  split
  · decide
  · split
    · decide
    · exact h

/-- Read-only counterparts are plain. -/
theorem plain_readOnlyType {name counterpart : String} (h : readOnlyType? name = some counterpart) :
    Plain counterpart := by
  rw [readOnlyType?] at h
  split at h
  · rw [← Option.some.inj h]
    decide
  · cases h

/-- The name of a type is written plainly. -/
theorem plain_typeName {name : String} (h : Plain name) (readOnly : Bool) (span : Span) :
    (typeName readOnly name span).Plain := by
  have htype := plain_resourceType h
  cases readOnly with
  | false => exact htype
  | true =>
    simp only [typeName, reduceIte]
    split
    · next hview => exact plain_readOnlyType hview
    · exact (plain_problem _ _).append (plain_lit htype)

mutual

/-- What is written for a type is plain if its words are. -/
theorem plain_typeOutput :
    ∀ (readOnly : Bool) (t : TypeRef) (span : Span), (∀ w ∈ typeWords t, Plain w) →
    (typeOutput readOnly t span).Plain
  | readOnly, .identifier name, span, h | readOnly, .predefined name, span, h =>
    plain_typeName (h name (.head _)) readOnly span
  | _, .qualified left right, _, h => by
    obtain ⟨hleft, hright⟩ := forall_mem_append.1 h
    rw [typeOutput]
    split
    · exact Output.plain_nil.append (plain_placedType true left hleft)
    · exact plain_placedType false right hright
  | readOnly, .generic name none, span, h =>
    (plain_typeName (h name (.head _)) readOnly span).append plain_nil
  | readOnly, .generic name (some args), span, h => by
    obtain ⟨hname, hargs⟩ := forall_mem_cons.1 h
    have hlist := plain_separated (by decide : Plain " ") (plain_typeList args hargs)
    exact (plain_typeName hname readOnly span).append (hlist.between (by decide) (by decide))
  | _, .array _ _, _, _ | _, .pointer _, _, _ | _, .nullable _, _, _ | _, .tuple _, _, _ =>
    plain_problem _ _

/-- So it is for a type with its place. -/
theorem plain_placedType :
    ∀ (readOnly : Bool) (t : Spanned TypeRef), (∀ w ∈ placedTypeWords t, Plain w) →
    (placedType readOnly t).Plain
  | readOnly, ⟨node, span⟩, h => plain_typeOutput readOnly node span h

/-- So it is for types. -/
theorem plain_typeList : ∀ ts : List (Spanned TypeRef), (∀ w ∈ typeListWords ts, Plain w) →
    ∀ o ∈ typeList ts, o.Plain
  | [], _ => nofun
  | t :: ts, h => by
    obtain ⟨ht, hts⟩ := forall_mem_append.1 h
    exact forall_mem_cons.2 ⟨plain_placedType false t ht, plain_typeList ts hts⟩

end

/-! ## Expressions -/

/-- A plain text stays plain when its end is cut off. -/
theorem plain_trimEnd {text : String} (h : Plain text) (p : Char → Bool) :
    Plain (trimEnd p text) := by
  intro c hc
  rw [trimEnd, String.toList_ofList, mem_reverse] at hc
  exact h c (mem_reverse.1 ((dropWhile_sublist p).subset hc))

/-- A number is written plainly. -/
theorem plain_numericLiteral {text : String} (h : Plain text) : Plain (numericLiteral text) := by
  rw [numericLiteral]
  dsimp only
  split
  · exact plain_trimEnd h _
  · split
    · exact plain_append.2 ⟨plain_trimEnd h _, by decide⟩
    · exact plain_trimEnd h _

/-- The symbols of operators are plain. -/
theorem plain_symbol (op : BinaryOp) : Plain op.symbol := by
  cases op <;> decide

mutual

/-- The words of an expression. A node without a counterpart has none. -/
def exprWords : Expr → List String
  | .numericLiteral text => [text]
  | .identifier name => [name]
  | .memberAccess target name => placedExprWords target ++ [name.node]
  | .invocation callee args => placedExprWords callee ++ argumentWords args
  | .cast ty operand => placedTypeWords ty ++ placedExprWords operand
  | .elementAccess target indices => placedExprWords target ++ exprListWords indices
  | .parenthesized inner => placedExprWords inner
  | .binary _ lhs rhs | .assignment _ lhs rhs => placedExprWords lhs ++ placedExprWords rhs
  | .objectCreation ty args => placedTypeWords ty ++ argumentWords args
  | .stringLiteral _ | .boolLiteral _ | .unary _ _ | .conditional _ _ _ => []

/-- The words of an expression with its place. -/
def placedExprWords : Spanned Expr → List String
  | ⟨node, _⟩ => exprWords node

/-- The words of expressions. -/
def exprListWords : List (Spanned Expr) → List String
  | [] => []
  | e :: es => placedExprWords e ++ exprListWords es

/-- The words of arguments. -/
def argumentWords : Option (List (Spanned Expr)) → List String
  | none => []
  | some args => exprListWords args

end

mutual

/-- What is written for an expression is plain if its words are. -/
theorem plain_exprOutput : ∀ (e : Expr) (span : Span), (∀ w ∈ exprWords e, Plain w) →
    (exprOutput e span).Plain
  | .numericLiteral text, _, h => plain_numericLiteral (h text (.head _))
  | .identifier name, _, h => h name (.head _)
  | .memberAccess target name, _, h => by
    obtain ⟨htarget, hname⟩ := forall_mem_append.1 h
    exact (plain_placedExpr target htarget).append (plain_append.2 ⟨by decide, hname _ (.head _)⟩)
  | .invocation callee args, _, h => by
    obtain ⟨hcallee, hargs⟩ := forall_mem_append.1 h
    exact (plain_placedExpr callee hcallee).append (plain_arguments args hargs)
  | .cast ty operand, _, h => by
    obtain ⟨hty, hoperand⟩ := forall_mem_append.1 h
    exact ((plain_placedType false ty hty).between (by decide) (by decide)).append
      (plain_placedExpr operand hoperand)
  | .elementAccess target [], _, h => plain_placedExpr target (forall_mem_append.1 h).1
  | .elementAccess target (i :: is), _, h => by
    obtain ⟨htarget, hindices⟩ := forall_mem_append.1 h
    have hlist := plain_separated (by decide : Plain ", ") (plain_exprList (i :: is) hindices)
    exact (((plain_placedExpr target htarget).append (plain_lit (by decide))).append hlist).append
      (plain_lit (by decide))
  | .parenthesized inner, _, h => (plain_placedExpr inner h).between (by decide) (by decide)
  | .binary op lhs rhs, _, h => by
    obtain ⟨hlhs, hrhs⟩ := forall_mem_append.1 h
    have hsymbol := (plain_symbol op).between (by decide : Plain " ") (by decide : Plain " ")
    rw [exprOutput]
    split
    · exact ((plain_placedExpr lhs hlhs).append (plain_lit hsymbol)).append
        (plain_placedExpr rhs hrhs)
    · exact plain_problem _ _
  | .assignment .assign lhs rhs, _, h => by
    obtain ⟨hlhs, hrhs⟩ := forall_mem_append.1 h
    exact ((plain_placedExpr lhs hlhs).append (plain_lit (by decide))).append
      (plain_placedExpr rhs hrhs)
  | .objectCreation ty args, _, h => by
    obtain ⟨hty, hargs⟩ := forall_mem_append.1 h
    exact (plain_placedType false ty hty).append (plain_arguments args hargs)
  | .assignment .addAssign _ _, _, _ | .assignment .subtractAssign _ _, _,
    _ | .assignment .multiplyAssign _ _, _, _
  | .assignment .divideAssign _ _, _, _ | .stringLiteral _, _, _ | .boolLiteral _, _,
    _ | .unary _ _, _, _
  | .conditional _ _ _, _, _ => plain_problem _ _

/-- So it is for an expression with its place. -/
theorem plain_placedExpr : ∀ e : Spanned Expr, (∀ w ∈ placedExprWords e, Plain w) →
    (placedExpr e).Plain
  | ⟨node, span⟩, h => plain_exprOutput node span h

/-- So it is for expressions. -/
theorem plain_exprList : ∀ es : List (Spanned Expr), (∀ w ∈ exprListWords es, Plain w) →
    ∀ o ∈ exprList es, o.Plain
  | [], _ => nofun
  | e :: es, h => by
    obtain ⟨he, hes⟩ := forall_mem_append.1 h
    exact forall_mem_cons.2 ⟨plain_placedExpr e he, plain_exprList es hes⟩

/-- So it is for arguments. -/
theorem plain_arguments :
    ∀ args : Option (List (Spanned Expr)), (∀ w ∈ argumentWords args, Plain w) →
    (arguments args).Plain
  | none, _ => plain_nil
  | some args, h => by
    have hlist := plain_separated (by decide : Plain ", ") (plain_exprList args h)
    exact hlist.between (by decide) (by decide)

end

/-! ## Statements -/

mutual

/-- The words of a statement. -/
def stmtWords : Stmt → List String
  | .expression expr => placedExprWords expr
  | .return none => []
  | .return (some value) => placedExprWords value
  | .ifThenElse condition thenBranch none => placedExprWords condition ++ placedStmtWords thenBranch
  | .ifThenElse condition thenBranch (some elseBranch) =>
    placedExprWords condition ++ (placedStmtWords thenBranch ++ placedStmtWords elseBranch)
  | .block stmts => stmtListWords stmts
  | .localDeclaration _ _ | .while _ _ | .for _ | .break | .continue | .empty => []

/-- The words of a statement with its place. -/
def placedStmtWords : Spanned Stmt → List String
  | ⟨node, _⟩ => stmtWords node

/-- The words of statements. -/
def stmtListWords : List (Spanned Stmt) → List String
  | [] => []
  | s :: ss => placedStmtWords s ++ stmtListWords ss

end

mutual

/-- The outline of a statement is plain if its words are. -/
theorem plain_outline : ∀ s : Stmt, (∀ w ∈ stmtWords s, Plain w) → (outline s).Plain
  | .expression expr, h => plain_placedExpr expr h
  | .return none, _ => (by decide : Plain "return ;")
  | .return (some value), h => plain_placedExpr value h
  | .ifThenElse condition thenBranch none, h => by
    obtain ⟨hcondition, hthen⟩ := forall_mem_append.1 h
    exact ⟨plain_placedExpr condition hcondition, plainAll_branchOutlines thenBranch hthen⟩
  | .ifThenElse condition thenBranch (some elseBranch), h => by
    obtain ⟨hcondition, hbranches⟩ := forall_mem_append.1 h
    obtain ⟨hthen, helse⟩ := forall_mem_append.1 hbranches
    exact ⟨plain_placedExpr condition hcondition, plainAll_branchOutlines thenBranch hthen,
      plainAll_branchOutlines elseBranch helse⟩
  | .block stmts, h => plainAll_outlines stmts h
  | .localDeclaration _ _, _ | .while _ _, _ | .for _, _ | .break, _ | .continue, _ | .empty, _ =>
    nofun

/-- So are the outlines of statements. -/
theorem plainAll_outlines : ∀ ss : List (Spanned Stmt), (∀ w ∈ stmtListWords ss, Plain w) →
    Outline.PlainAll (outlines ss)
  | [], _ => trivial
  | ⟨node, _⟩ :: ss, h => by
    obtain ⟨hs, hss⟩ := forall_mem_append.1 h
    exact ⟨plain_outline node hs, plainAll_outlines ss hss⟩

/-- So are those of a branch. -/
theorem plainAll_branchOutlines : ∀ s : Spanned Stmt, (∀ w ∈ placedStmtWords s, Plain w) →
    Outline.PlainAll (branchOutlines s)
  | ⟨node, _⟩, h => by
    have houtline := plain_outline node h
    cases node with
    | block stmts => exact houtline
    | _ => exact ⟨houtline, trivial⟩

end

/-! ## Attributes and parameters -/

/-- The words of an expression that may be absent. -/
def optionalWords : Option (Spanned Expr) → List String
  | none => []
  | some e => placedExprWords e

/-- The words of an attribute. -/
def attributeWords (a : Attribute) : List String := a.name.node :: argumentWords a.args

/-- The words of a list of attributes. -/
def attributeListWords (list : AttributeList) : List String :=
  list.attributes.flatMap attributeWords

/-- The words of a parameter. -/
def paramWords (p : Param) : List String :=
  p.modifiers ++ (placedTypeWords p.ty ++
    (p.name.node :: (p.attributes.flatMap attributeListWords ++ optionalWords p.default)))

/-- Attributes are written plainly if their words are plain. -/
theorem plain_attributeList {list : AttributeList} (h : ∀ w ∈ attributeListWords list, Plain w) :
    (attributeListOutput list).Plain := by
  rw [attributeListWords, forall_mem_flatMap] at h
  refine plain_separated (by decide) ?_
  rw [forall_mem_map]
  intro a ha
  obtain ⟨hname, hargs⟩ := forall_mem_cons.1 (h a ha)
  exact (plain_lit hname).append (plain_arguments a.args hargs)

/-- A modifier is written plainly. -/
theorem plain_modifierText {modifier : String} (h : Plain modifier) :
    Plain (modifierText modifier) := by
  rw [modifierText]
  split
  · decide
  · exact h

/-- So is a parameter. -/
theorem plain_param {p : Param} (h : ∀ w ∈ paramWords p, Plain w) : (paramOutput p).Plain := by
  simp only [paramWords, forall_mem_append, forall_mem_cons, forall_mem_flatMap] at h
  obtain ⟨hmodifiers, hty, hname, hattributes, hdefault⟩ := h
  have hmodifierTexts : Plain (String.join (p.modifiers.map fun m => modifierText m ++ " ")) := by
    refine plain_join ?_
    rw [forall_mem_map]
    exact fun m hm => plain_append.2 ⟨plain_modifierText (hmodifiers m hm), by decide⟩
  refine (((plain_lit hmodifierTexts).append (plain_placedType false p.ty hty)).append ?_).append ?_
    |>.append ?_
  · exact plain_lit (plain_append.2 ⟨by decide, hname⟩)
  · split
    · exact plain_nil
    · refine (plain_lit (by decide)).append (plain_separated (by decide) ?_)
      rw [forall_mem_map]
      exact fun list hlist => plain_attributeList (hattributes list hlist)
  · split
    · exact plain_nil
    · next value hvalue =>
      rw [hvalue] at hdefault
      exact (plain_lit (by decide)).append (plain_placedExpr value hdefault)

/-! ## Members -/

/-- The words of a variable. -/
def variableWords (v : VariableDecl) : List String := v.name.node :: optionalWords v.init

/-- The words of a field. -/
def fieldWords (field : FieldDecl) : List String :=
  placedTypeWords field.ty ++ field.declarators.flatMap variableWords

/-- The words of a body. -/
def bodyWords : Option (Spanned Block) → List String
  | none => []
  | some body => stmtListWords body.node.stmts

/-- The words of a method. -/
def methodWords (m : MethodDecl) : List String :=
  m.attributes.flatMap attributeListWords ++ (placedTypeWords m.returnTy ++
    (m.name.node :: (m.params.flatMap paramWords ++ bodyWords m.body)))

/-- The words of a class. -/
def classWords (c : ClassDecl) : List String :=
  c.fields.flatMap fieldWords ++ c.methods.flatMap methodWords

namespace Output

/-- An output of whole lines that starts and ends outside of all braces. -/
def Whole (o : Output) : Prop := Laid 0 o.text.toList 0

/-- No lines are whole lines. -/
theorem whole_nil : ({} : Output).Whole := .nil 0

/-- Whole lines may follow each other. -/
theorem Whole.append {a b : Output} (ha : a.Whole) (hb : b.Whole) : (a ++ b).Whole := by
  rw [Whole, text_append, String.toList_append]
  exact Laid.append ha hb

/-- Whole lines of many outputs are whole lines. -/
theorem whole_all : ∀ {os : List Output}, (∀ o ∈ os, o.Whole) → (all os).Whole
  | [], _ => whole_nil
  | _ :: _, h => (h _ (.head _)).append (whole_all fun o ho => h o (.tail _ ho))

/-- A plain output becomes a line by what ends it. -/
theorem Plain.ended {o : Output} (h : o.Plain) {tail ending : String} (htail : Shader.Plain tail)
    (hending : ending.toList = tail.toList ++ ['\n']) : (o ++ lit ending).Whole := by
  have hline := laid_line (.flat 0 (plain_append.2 ⟨h, htail⟩))
  simpa [Whole, row, hending] using hline

/-- An empty line is whole. -/
theorem whole_newline : (lit "\n").Whole := .line (.flat 0 (by decide : Shader.Plain "")) (.nil 0)

/-- Texts are joined where outputs are. -/
theorem lit_append_lit (s t : String) : lit s ++ lit t = lit (s ++ t) := rfl

/-- Joined texts of whole lines are whole lines. -/
theorem whole_join : ∀ {texts : List String}, (∀ t ∈ texts, (lit t).Whole) →
    (lit (String.join texts)).Whole
  | [], _ => whole_nil
  | t :: ts, h => by
    rw [String.join_cons, ← lit_append_lit]
    exact (h t (.head _)).append (whole_join fun t ht => h t (.tail _ ht))

end Output

/-- A variable is a whole line. -/
theorem whole_variableLine {type : String} {v : VariableDecl} (htype : Plain type)
    (h : ∀ w ∈ variableWords v, Plain w) : (variableLine type v).Whole := by
  obtain ⟨hname, hinit⟩ := forall_mem_cons.1 h
  have hdeclared :=
    plain_lit (plain_append.2 ⟨plain_append.2 ⟨htype, (by decide : Plain " ")⟩, hname⟩)
  refine (hdeclared.append ?_).ended (by decide : Plain ";") (by decide)
  split
  · exact plain_nil
  · next init hvalue =>
    rw [hvalue] at hinit
    exact (plain_lit (by decide)).append (plain_placedExpr init hinit)

/-- A field is whole lines. -/
theorem whole_fieldOutput {field : FieldDecl} (h : ∀ w ∈ fieldWords field, Plain w) :
    (fieldOutput field).Whole := by
  simp only [fieldWords, forall_mem_append, forall_mem_flatMap] at h
  have htype := plain_placedType false field.ty h.1
  refine Whole.append whole_nil (whole_all ?_)
  rw [forall_mem_map]
  exact fun v hv => whole_variableLine htype (h.2 v hv)

/-- Attributes are a whole line. -/
theorem whole_attributeLine {list : AttributeList} (h : ∀ w ∈ attributeListWords list, Plain w) :
    (.lit "[" ++ attributeListOutput list ++ .lit "]\n" : Output).Whole :=
  ((plain_lit (by decide)).append (plain_attributeList h)).ended (by decide : Plain "]") (by decide)

/-- The body of a method is one level deep. -/
theorem laid_bodyOutput {m : MethodDecl} (h : ∀ w ∈ bodyWords m.body, Plain w) :
    Laid 1 (bodyOutput m).text.toList 1 := by
  rw [bodyOutput]
  split
  · next body hbody =>
    rw [hbody] at h
    rw [toList_stmtLines]
    exact Outline.laid_rowsAll 1 _ (plainAll_outlines _ h)
  · exact .nil 1

/-- A method is whole lines. -/
theorem whole_methodOutput {m : MethodDecl} (h : ∀ w ∈ methodWords m, Plain w) :
    (methodOutput m).Whole := by
  simp only [methodWords, forall_mem_append, forall_mem_cons, forall_mem_flatMap] at h
  obtain ⟨hattributes, hreturn, hname, hparams, hbody⟩ := h
  have hlines : (Output.all (m.attributes.map fun list =>
      .lit "[" ++ attributeListOutput list ++ .lit "]\n")).Whole := by
    refine whole_all ?_
    rw [forall_mem_map]
    exact fun list hlist => whole_attributeLine (hattributes list hlist)
  have hparamTexts : (Output.separated ", " (m.params.map paramOutput)).Plain := by
    refine plain_separated (by decide) ?_
    rw [forall_mem_map]
    exact fun p hp => plain_param (hparams p hp)
  have hheader : (placedType false m.returnTy ++ .lit (" " ++ m.name.node ++ " (")
      ++ .separated ", " (m.params.map paramOutput)).Plain := by
    refine ((plain_placedType false m.returnTy hreturn).append (plain_lit ?_)).append hparamTexts
    exact hname.between (by decide) (by decide)
  have hrest := Laid.line (.opens 0)
    ((laid_bodyOutput hbody).append
      (.line (.closes 0) (.line (.flat 0 (by decide : Plain "")) (.nil 0))))
  have hmethod :=
    Laid.append hlines (.line (.flat 0 (plain_append.2 ⟨hheader, (by decide : Plain ")")⟩)) hrest)
  simpa [Whole, methodOutput, row] using hmethod

/-- The lines of entry points are whole. -/
theorem whole_entryLines {methods : List MethodDecl} (h : ∀ m ∈ methods, Plain m.name.node) :
    (entryLines methods).Whole := by
  refine whole_join ?_
  rw [forall_mem_map]
  intro m hm
  have hname :=
    plain_lit (plain_append.2 ⟨(by decide : Plain "#pragma kernel "), h m (mem_filter.1 hm).1⟩)
  rw [← lit_append_lit]
  exact hname.ended (by decide : Plain "") (by decide)

end ComputeKernel.Shader
