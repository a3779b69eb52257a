import ComputeKernel.Source.Loading
import ComputeKernel.Proofs.Json.AnyOrder

/-!
# Loading trees in any order

Every record and every tagged node of a stored file is read in any order of its members, so a file
is: when a text loads, all texts that differ from it in the order of members, whatever the objects
and however deep they lie, load as the same file (`SourceFile.load?_of_reordered`). That goes for
the tags of nodes, which need not come first, and for members under unknown names.
-/

namespace ComputeKernel

open Spanned
open Json.Value Json.Record SourceFile
open Json (Value Record Cause Refusal Content Variants Document Placed Respects)

variable {ν ε α : Type}
variable (fuel room : Nat)

/-! ## Shapes that are read in both ways -/

/-- A place has no order. -/
theorem Span.unordered_record {R : ν → ν → Prop} {word : ν → Except ε UInt32}
    (h : Respects R word) :
    (Span.record word).Unordered R :=
  (((unordered_pure _).field "start" h).field "end" h).field "line" h

/-- Nor has a node with its place. -/
theorem Spanned.unordered_record {R : ν → ν → Prop} {node : ν → Except ε α}
    {span : ν → Except ε Span} (hnode : Respects R node) (hspan : Respects R span) :
    (record node span).Unordered R :=
  ((unordered_pure _).field "node" hnode).optional "span" hspan

/-! ## Values -/

/-- A place is read in any order. -/
theorem Span.respects_ofValue? : Respects Alike Span.ofValue? :=
  (Span.unordered_record respects_word?).ofValue? _

/-- So is a node with its place. -/
theorem Spanned.respects_ofValue? {node : Value → Except Cause α} (h : Respects Alike node) :
    Respects Alike (Spanned.ofValue? node) :=
  (unordered_record h Span.respects_ofValue?).ofValue? _

/-- So is a name. -/
theorem respects_nameOfValue? : Respects Alike nameOfValue? := respects_ofValue? respects_text?

/-- So are modifiers. -/
theorem respects_modifiersOfValue? : Respects Alike modifiersOfValue? :=
  respects_list? respects_text?

/-- The forms of types have no order. -/
theorem TypeRef.unordered_variants {self : Value → Except Cause TypeRef} (h : Respects Alike self) :
    (TypeRef.variants self).Unordered := by
  have hchild := respects_ofValue? h
  have hlist := respects_list? hchild
  intro p hp
  simp only [TypeRef.variants, List.mem_cons, List.not_mem_nil, or_false] at hp
  -- One case for each variant, in the order of declaration.
  rcases hp with rfl | rfl | rfl | rfl | rfl | rfl | rfl | rfl <;> refine Unordered.record? ?_ _
  iterate 2
    · exact (unordered_pure _).field "name" respects_text?
  · exact ((unordered_pure _).field "left" hchild).field "right" hchild
  · exact ((unordered_pure _).field "name" respects_text?).optional "args"
      (respects_option? hlist)
  · exact ((unordered_pure _).field "element" hchild).field "rank" respects_word?
  iterate 2
    · exact (unordered_pure _).field "element" hchild
  · exact (unordered_pure _).field "elements" hlist

/-- A type is read in any order. -/
theorem TypeRef.respects_ofValue? : Respects Alike (TypeRef.ofValue? fuel) := by
  induction fuel with
  | zero => exact fun v v' t _ hok => nomatch hok
  | succ fuel ih => exact (TypeRef.unordered_variants ih).ofValue? "TypeRef"

/-- The forms of expressions have no order. -/
theorem Expr.unordered_variants {type : Value → Except Cause TypeRef}
    {self : Value → Except Cause Expr} (htype : Respects Alike type) (h : Respects Alike self) :
    (Expr.variants type self).Unordered := by
  have hty := respects_ofValue? htype
  have hchild := respects_ofValue? h
  have hlist := respects_list? hchild
  have hargs := respects_option? hlist
  intro p hp
  simp only [Expr.variants, List.mem_cons, List.not_mem_nil, or_false] at hp
  rcases hp with rfl | rfl | rfl | rfl | rfl | rfl | rfl | rfl | rfl | rfl | rfl | rfl |
    rfl | rfl <;>
    refine Unordered.record? ?_ _
  iterate 2
    · exact (unordered_pure _).field "text" respects_text?
  · exact (unordered_pure _).field "value" respects_bool?
  · exact (unordered_pure _).field "name" respects_text?
  · exact ((unordered_pure _).field "target" hchild).field "name" respects_nameOfValue?
  · exact ((unordered_pure _).field "callee" hchild).optional "args" hargs
  · exact ((unordered_pure _).field "ty" hty).field "operand" hchild
  · exact ((unordered_pure _).field "target" hchild).field "indices" hlist
  · exact (unordered_pure _).field "inner" hchild
  iterate 2
    · exact (((unordered_pure _).field "op" (Json.respects_operatorOfValue? _)).field "lhs"
        hchild).field "rhs"
        hchild
  · exact ((unordered_pure _).field "ty" hty).optional "args" hargs
  · exact ((unordered_pure _).field "op" (Json.respects_operatorOfValue? _)).field "operand" hchild
  · exact (((unordered_pure _).field "condition" hchild).field "when_true" hchild).field
      "when_false" hchild

/-- An expression is read in any order. -/
theorem Expr.respects_ofValue? : Respects Alike (Expr.ofValue? fuel) := by
  induction fuel with
  | zero => exact fun v v' e _ hok => nomatch hok
  | succ fuel ih =>
    exact (Expr.unordered_variants (TypeRef.respects_ofValue? fuel) ih).ofValue? "Expr"

/-- So is a variable. -/
theorem VariableDecl.respects_ofValue? : Respects Alike (VariableDecl.ofValue? fuel) :=
  (((unordered_pure _).field "name" respects_nameOfValue?).optional "init"
    (respects_option? (Spanned.respects_ofValue? (Expr.respects_ofValue? fuel)))).ofValue? _

/-- A block has no order. -/
theorem Block.unordered_record {self : Value → Except Cause Stmt} (h : Respects Alike self) :
    (Block.record self).Unordered Alike :=
  (unordered_pure _).field "stmts" (respects_list? (respects_ofValue? h))

/-- The forms of statements have no order. -/
theorem Stmt.unordered_variants {self : Value → Except Cause Stmt} (h : Respects Alike self) :
    (Stmt.variants fuel self).Unordered := by
  have hty := respects_ofValue? (TypeRef.respects_ofValue? fuel)
  have hexpr := respects_ofValue? (Expr.respects_ofValue? fuel)
  have hchild := respects_ofValue? h
  intro p hp
  simp only [Stmt.variants, List.mem_cons, List.not_mem_nil, or_false] at hp
  rcases hp with rfl | rfl | rfl | rfl | rfl | rfl | rfl | rfl | rfl | rfl
  · exact ((unordered_pure _).field "expr" hexpr).record? _
  · exact ((unordered_pure _).optional "value" (respects_option? hexpr)).record? _
  · exact ((((unordered_pure _).field "condition" hexpr).field "then_branch" hchild).optional
      "else_branch" (respects_option? hchild)).record? _
  · exact ((Block.unordered_record h).record? _).map _
  · exact (((unordered_pure _).field "ty" hty).field "variables"
      (respects_list? (VariableDecl.respects_ofValue? fuel))).record? _
  · exact (((unordered_pure _).field "condition" hexpr).field "body" hchild).record? _
  · exact ((unordered_pure _).field "body" hchild).record? _
  · exact Content.respects_unit? _
  · exact Content.respects_unit? _
  · exact Content.respects_unit? _

/-- A statement is read in any order. -/
theorem Stmt.respects_ofValue? : Respects Alike (Stmt.ofValue? fuel) := by
  induction fuel with
  | zero => exact fun v v' s _ hok => nomatch hok
  | succ fuel ih => exact (Stmt.unordered_variants fuel ih).ofValue? "Stmt"

/-- So is a block. -/
theorem Block.respects_ofValue? : Respects Alike (Block.ofValue? fuel) :=
  (Block.unordered_record (Stmt.respects_ofValue? fuel)).ofValue? _

/-- So is an attribute. -/
theorem Attribute.respects_ofValue? : Respects Alike (Attribute.ofValue? fuel) :=
  (((unordered_pure _).field "name" respects_nameOfValue?).optional "args"
    (respects_option?
      (respects_list? (Spanned.respects_ofValue? (Expr.respects_ofValue? fuel))))).ofValue? _

/-- So are attributes in brackets. -/
theorem AttributeList.respects_ofValue? : Respects Alike (AttributeList.ofValue? fuel) :=
  unordered_pure _
    |>.field "attributes" (respects_list? (Attribute.respects_ofValue? fuel))
    |>.optional "span" Span.respects_ofValue?
    |>.ofValue? _

/-- So is a parameter. -/
theorem Param.respects_ofValue? : Respects Alike (Param.ofValue? fuel) :=
  unordered_pure _
    |>.optional "attributes" (respects_list? (AttributeList.respects_ofValue? fuel))
    |>.optional "modifiers" respects_modifiersOfValue?
    |>.field "ty" (Spanned.respects_ofValue? (TypeRef.respects_ofValue? fuel))
    |>.field "name" respects_nameOfValue?
    |>.optional "default"
      (respects_option? (Spanned.respects_ofValue? (Expr.respects_ofValue? fuel)))
    |>.ofValue? _

/-- A field has no order. -/
theorem FieldDecl.unordered_record : (FieldDecl.record fuel).Unordered Alike :=
  (((unordered_pure _).optional "modifiers" respects_modifiersOfValue?).field "ty"
    (respects_ofValue? (TypeRef.respects_ofValue? fuel))).field "variables"
      (respects_list? (VariableDecl.respects_ofValue? fuel))

/-- Nor has a method. -/
theorem MethodDecl.unordered_record : (MethodDecl.record fuel).Unordered Alike :=
  unordered_pure _
    |>.optional "attributes" (respects_list? (AttributeList.respects_ofValue? fuel))
    |>.optional "modifiers" respects_modifiersOfValue?
    |>.field "return_ty" (respects_ofValue? (TypeRef.respects_ofValue? fuel))
    |>.field "name" respects_nameOfValue?
    |>.optional "params" (respects_list? (Param.respects_ofValue? fuel))
    |>.optional "body" (respects_option? (respects_ofValue? (Block.respects_ofValue? fuel)))

/-- The forms of members have no order. -/
theorem Member.unordered_variants : (Member.variants fuel).Unordered := by
  intro p hp
  simp only [Member.variants, List.mem_cons, List.not_mem_nil, or_false] at hp
  rcases hp with rfl | rfl | rfl | rfl
  · exact ((FieldDecl.unordered_record fuel).record? _).map _
  · exact ((MethodDecl.unordered_record fuel).record? _).map _
  iterate 2
    · exact ((unordered_pure _).field "name" respects_text?).record? _

/-! ## Documents -/

/-- A place is read from a document. -/
theorem Span.respects_ofDocument? : Respects Document.Alike (Span.ofDocument? room) :=
  (Span.unordered_record Document.respects_word?.placed).ofDocument? _ room

/-- So is a node with its place. -/
theorem Spanned.respects_ofDocument? {node : Placed → Except Refusal α}
    (h : Respects Placed.Alike node) (room : Nat) :
    Respects Document.Alike (Spanned.ofDocument? node room) :=
  (unordered_record h (Span.respects_ofDocument? (room - 1)).placed).ofDocument? _ room

/-- So is a member. -/
theorem Member.respects_ofPlaced? : Respects Placed.Alike (Member.ofPlaced? room) :=
  (Member.unordered_variants _).ofPlaced? _ room

/-- So is a class. -/
theorem ClassDecl.respects_ofDocument? : Respects Document.Alike (ClassDecl.ofDocument? room) :=
  unordered_pure _
    |>.field "name" (Spanned.respects_ofDocument? Document.respects_text?.placed (room - 1)).placed
    |>.optional "members" (Document.respects_list? (Spanned.respects_ofDocument?
      (Member.respects_ofPlaced? (room - 3)) (room - 2)) (room - 1)).placed
    |>.ofDocument? _ room

/-- So is a file. -/
theorem SourceFile.respects_ofDocument? : Respects Document.Alike (SourceFile.ofDocument? room) :=
  unordered_pure _
    |>.field "path" Document.respects_text?.placed
    |>.optional "text" (Document.respects_option? Document.respects_text?).placed
    |>.field "classes"
      (Document.respects_list? (ClassDecl.respects_ofDocument? (room - 2)) (room - 1)).placed
    |>.ofDocument? _ room

/-! ## Texts -/

/-- A text that loads is a page, and every page that differs from it in the order of members loads
as the same file. -/
theorem SourceFile.load?_of_reordered {text : String} {f : SourceFile} (h : load? text = .ok f) :
    (∃ p : Json.Page, p.text = text) ∧
      ∀ p p' : Json.Page, p.text = text → p.value.Reordered p'.value → load? p'.text = .ok f := by
  refine ⟨Json.Page.exists_of_parse h, fun p p' hp hreordered => ?_⟩
  rw [← hp] at h
  exact Json.Page.parse_of_reordered (SourceFile.respects_ofDocument? _).placed hreordered h

/-! ### A file in two orders -/

namespace Shuffled

open Json (Quote Script Page Named)

/-- A string without escapes. -/
def quote (s : String) : Quote where
  letters := s.toList.filterMap fun c =>
    if h : c ≠ '"' ∧ c ≠ '\\' ∧ ¬ c.toNat < 32 then some (.plain c h) else none

/-- A string as a script. -/
def string (s : String) : Script := .scalar (.string (quote s))

/-- An object without blanks. -/
def object (ms : List (String × Script)) : Script :=
  .object .nil (ms.map fun m => ⟨⟨.nil, quote m.1, .nil, .nil⟩, m.2, .nil⟩)

/-- An array without blanks. -/
def array (xs : List Script) : Script := .array .nil (xs.map fun x => ⟨.nil, x, .nil⟩)

/-- A page without blanks. -/
def page (x : Script) : Page := ⟨.nil, x, .nil⟩

/-- A file with a method, and with an object under an unknown name. -/
def file : Script :=
  object
    [("path", string "K.cs"),
     ("origin", object [("kind", string "tool"), ("name", .scalar .null)]),
     ("classes", array [object
      [("name", object [("node", string "K")]),
       ("members", array [object [("node", object
        [("kind", string "Method"),
         ("return_ty",
         object [("node", object [("kind", string "Predefined"), ("name", string "void")])]),
           ("name", object [("node", string "M")])])]])]])]

/-- What the file says. -/
def value : Value :=
  .object
    [("path", .string "K.cs"),
     ("origin", .object [("kind", .string "tool"), ("name", .null)]),
     ("classes", .array [.object
      [("name", .object [("node", .string "K")]),
       ("members", .array [.object [("node", .object
        [("kind", .string "Method"),
         ("return_ty",
         .object [("node", .object [("kind", .string "Predefined"), ("name", .string "void")])]),
         ("name", .object [("node", .string "M")])])]])]])]

/-- The text of the file. -/
theorem text_file : (page file).text = value.render := by
  have hchars : (page file).chars = value.chars := by decide +kernel
  rw [Page.text, hchars, render]

/-- Its numbers are plain. -/
theorem plain_value : value.Plain := by
  simp [value, Plain, PlainMembers, PlainItems]

/-- The same file with members in the opposite order, tags last. -/
def reversed : Script :=
  object
    [("classes", array [object
      [("members", array [object [("node", object
        [("name", object [("node", string "M")]),
         ("return_ty",
         object [("node", object [("name", string "void"), ("kind", string "Predefined")])]),
           ("kind", string "Method")])]]),
       ("name", object [("node", string "K")])]]),
     ("origin", object [("name", .scalar .null), ("kind", string "tool")]),
     ("path", string "K.cs")]

/-- Reordered members in the opposite order. -/
theorem reordered_object {ms ms' ms'' : List (String × Script)}
    (h : List.Forall₂ (Named Script.Reordered) ms ms') (hreverse : ms'.reverse = ms'') :
    (object ms).Reordered (object ms'') := by
  subst hreverse
  refine .object ?_ ?_ ((List.reverse_perm ms').symm.map _)
  · exact List.forall₂_map_left_iff.2 (List.forall₂_map_right_iff.2 (h.imp fun m m' hm =>
      congrArg quote hm.1))
  · exact List.forall₂_map_left_iff.2 (List.forall₂_map_right_iff.2 (h.imp fun m m' hm => hm.2))

/-- A member with a reordered value. -/
theorem named (name : String) {x x' : Script} (h : x.Reordered x') :
    Named Script.Reordered (name, x) (name, x') :=
  ⟨rfl, h⟩

/-- A node with reordered content. -/
theorem reordered_node {x x' : Script} (h : x.Reordered x') :
    (object [("node", x)]).Reordered (object [("node", x')]) :=
  reordered_object (.cons (named "node" h) .nil) rfl

/-- An array with a reordered item. -/
theorem reordered_array {x x' : Script} (h : x.Reordered x') : (array [x]).Reordered (array [x']) :=
  .array (.cons h .nil)

/-- The two differ in order only. -/
theorem reordered_file : file.Reordered reversed := by
  have hpair (m m' : String × Script) : (object [m, m']).Reordered (object [m', m]) :=
    reordered_object (.cons (named _ (.refl _)) (.cons (named _ (.refl _)) .nil)) rfl
  -- The file, its class, and the method of that.
  refine reordered_object
    (.cons (named _ (.refl _))
      (.cons (named _ (hpair _ _)) (.cons (named _ (reordered_array ?_)) .nil))) rfl
  refine reordered_object
    (.cons (named _ (.refl _)) (.cons (named _ (reordered_array (reordered_node ?_))) .nil)) rfl
  exact reordered_object
    (.cons (named _ (.refl _)) (.cons (named _ (reordered_node (hpair _ _)))
      (.cons (named _ (.refl _)) .nil))) rfl

/-- Both load, as the same file. -/
theorem load?_reversed : file.Reordered reversed ∧ ∃ f, load? (page file).text = .ok f ∧
    f.classes.length = 1 ∧ load? (page reversed).text = .ok f := by
  have hdocument : (SourceFile.ofDocument? Json.nestingLimit (value.document 1)).map
      (·.classes.length) = .ok 1 := by
    decide +kernel
  obtain ⟨f, hf, hclasses⟩ := Json.exists_of_map_ok hdocument
  have hload : load? (page file).text = .ok f := by
    rw [text_file]
    exact (Json.parse_render _ plain_value).trans hf
  exact ⟨reordered_file, f, hload, hclasses,
    (load?_of_reordered hload).2 (page file) (page reversed) rfl reordered_file⟩

end Shuffled

end ComputeKernel
