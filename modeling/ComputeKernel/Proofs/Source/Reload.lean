import ComputeKernel.Source.Construct
import ComputeKernel.Proofs.Source.Loading

/-!
# Stored files load again

A stored tree holds no numbers but the words of places and the ranks of arrays, so its text is read
as the value it was written for. With what loading does on that value, a stored file loads as the
same file (`SourceFile.load?_store`), unless its containers lie too deep inside one another.
-/

namespace ComputeKernel

open TypeRef Json.Value
open Json (Value nestingLimit)

/-! ## Plain values -/

/-- A word is a plain number. -/
theorem plain_word (w : UInt32) : (number (.natural w.toNat)).Plain :=
  Nat.lt_trans w.toNat_lt (by decide)

/-- Items that are written plainly are plain. -/
theorem plainItems_map {α : Type} {write : α → Value} (h : ∀ a, (write a).Plain) (as : List α) :
    PlainItems (as.map write) := by
  induction as with
  | nil => exact trivial
  | cons a as ih => exact ⟨h a, ih⟩

/-- Places are plain. -/
theorem Span.plain_toValue (s : Span) : s.toValue.Plain :=
  ⟨plain_word _, plain_word _, plain_word _, trivial⟩

/-- A value with its place is plain. -/
theorem Span.plain_wrap (s : Span) {v : Value} (hv : v.Plain) : (s.wrap v).Plain :=
  ⟨hv, s.plain_toValue, trivial⟩

/-- So is a name with its place. -/
theorem plain_nameValue (s : Spanned String) : (nameValue s).Plain := s.span.plain_wrap trivial

/-- So are modifiers. -/
theorem plain_modifiersValue (modifiers : List String) : (modifiersValue modifiers).Plain := by
  have hplain (s : String) : (string s).Plain := trivial
  exact plainItems_map hplain modifiers

mutual

/-- Types are plain, by recursion through their parts. -/
theorem TypeRef.plain_toValue : ∀ t : TypeRef, t.toValue.Plain
  | .identifier _ | .predefined _ => ⟨trivial, trivial, trivial⟩
  | .qualified left right => ⟨trivial, plain_placedValue left, plain_placedValue right, trivial⟩
  | .generic _ args => ⟨trivial, trivial, plain_argsValue args, trivial⟩
  | .array element _ => ⟨trivial, plain_placedValue element, plain_word _, trivial⟩
  | .pointer element | .nullable element => ⟨trivial, plain_placedValue element, trivial⟩
  | .tuple elements => ⟨trivial, plain_listValues elements, trivial⟩

/-- So are types with their places. -/
theorem TypeRef.plain_placedValue : ∀ s : Spanned TypeRef, (placedValue s).Plain
  | ⟨node, span⟩ => span.plain_wrap (plain_toValue node)

/-- So are lists of types. -/
theorem TypeRef.plain_listValues : ∀ ts : List (Spanned TypeRef), PlainItems (listValues ts)
  | [] => trivial
  | t :: ts => ⟨plain_placedValue t, plain_listValues ts⟩

/-- So are type arguments. -/
theorem TypeRef.plain_argsValue : ∀ args : Option (List (Spanned TypeRef)), (argsValue args).Plain
  | none => trivial
  | some args => plain_listValues args

end

mutual

/-- Expressions are plain, by recursion through their parts. -/
theorem Expr.plain_toValue : ∀ e : Expr, e.toValue.Plain
  | .numericLiteral _ | .stringLiteral _ | .boolLiteral _ | .identifier _ =>
    ⟨trivial, trivial, trivial⟩
  | .memberAccess target name =>
    ⟨trivial, Expr.plain_placedValue target, plain_nameValue name, trivial⟩
  | .invocation callee args =>
    ⟨trivial, Expr.plain_placedValue callee, Expr.plain_argsValue args, trivial⟩
  | .cast ty operand =>
    ⟨trivial, TypeRef.plain_placedValue ty, Expr.plain_placedValue operand, trivial⟩
  | .elementAccess target indices =>
    ⟨trivial, Expr.plain_placedValue target, Expr.plain_listValues indices, trivial⟩
  | .parenthesized inner => ⟨trivial, Expr.plain_placedValue inner, trivial⟩
  | .binary _ lhs rhs | .assignment _ lhs rhs =>
    ⟨trivial, trivial, Expr.plain_placedValue lhs, Expr.plain_placedValue rhs, trivial⟩
  | .objectCreation ty args =>
    ⟨trivial, TypeRef.plain_placedValue ty, Expr.plain_argsValue args, trivial⟩
  | .unary _ operand => ⟨trivial, trivial, Expr.plain_placedValue operand, trivial⟩
  | .conditional condition whenTrue whenFalse =>
    ⟨trivial, Expr.plain_placedValue condition, Expr.plain_placedValue whenTrue,
      Expr.plain_placedValue whenFalse, trivial⟩

/-- So are expressions with their places. -/
theorem Expr.plain_placedValue : ∀ s : Spanned Expr, (Expr.placedValue s).Plain
  | ⟨node, span⟩ => span.plain_wrap (Expr.plain_toValue node)

/-- So are lists of expressions. -/
theorem Expr.plain_listValues : ∀ es : List (Spanned Expr), PlainItems (Expr.listValues es)
  | [] => trivial
  | e :: es => ⟨Expr.plain_placedValue e, Expr.plain_listValues es⟩

/-- So are arguments. -/
theorem Expr.plain_argsValue : ∀ args : Option (List (Spanned Expr)), (Expr.argsValue args).Plain
  | none => trivial
  | some args => Expr.plain_listValues args

end

/-- So are expressions that may be absent. -/
theorem Expr.plain_optionalValue : ∀ o : Option (Spanned Expr), (Expr.optionalValue o).Plain
  | none => trivial
  | some e => Expr.plain_placedValue e

/-- Variables are plain. -/
theorem VariableDecl.plain_toValue (d : VariableDecl) : d.toValue.Plain :=
  ⟨plain_nameValue d.name, Expr.plain_optionalValue d.init, trivial⟩

mutual

/-- Statements are plain, by recursion through their parts. -/
theorem Stmt.plain_toValue : ∀ s : Stmt, s.toValue.Plain
  | .expression expr => ⟨trivial, Expr.plain_placedValue expr, trivial⟩
  | .return value => ⟨trivial, Expr.plain_optionalValue value, trivial⟩
  | .ifThenElse condition thenBranch elseBranch =>
    ⟨trivial, Expr.plain_placedValue condition, Stmt.plain_placedValue thenBranch,
      Stmt.plain_optionalValue elseBranch, trivial⟩
  | .block stmts => ⟨trivial, Stmt.plain_listValues stmts, trivial⟩
  | .localDeclaration ty declarators =>
    ⟨trivial, TypeRef.plain_placedValue ty,
      plainItems_map VariableDecl.plain_toValue declarators, trivial⟩
  | .while condition body =>
    ⟨trivial, Expr.plain_placedValue condition, Stmt.plain_placedValue body, trivial⟩
  | .for body => ⟨trivial, Stmt.plain_placedValue body, trivial⟩
  | .break | .continue | .empty => ⟨trivial, trivial⟩

/-- So are statements with their places. -/
theorem Stmt.plain_placedValue : ∀ s : Spanned Stmt, (Stmt.placedValue s).Plain
  | ⟨node, span⟩ => span.plain_wrap (Stmt.plain_toValue node)

/-- So are lists of statements. -/
theorem Stmt.plain_listValues : ∀ ss : List (Spanned Stmt), PlainItems (Stmt.listValues ss)
  | [] => trivial
  | s :: ss => ⟨Stmt.plain_placedValue s, Stmt.plain_listValues ss⟩

/-- So are statements that may be absent. -/
theorem Stmt.plain_optionalValue : ∀ o : Option (Spanned Stmt), (Stmt.optionalValue o).Plain
  | none => trivial
  | some s => Stmt.plain_placedValue s

end

/-- Attributes are plain. -/
theorem Attribute.plain_toValue (a : Attribute) : a.toValue.Plain :=
  ⟨plain_nameValue a.name, Expr.plain_argsValue a.args, trivial⟩

/-- So are lists of attributes. -/
theorem AttributeList.plain_toValue (l : AttributeList) : l.toValue.Plain :=
  ⟨plainItems_map Attribute.plain_toValue l.attributes, l.span.plain_toValue, trivial⟩

/-- So are parameters. -/
theorem Param.plain_toValue (p : Param) : p.toValue.Plain :=
  ⟨plainItems_map AttributeList.plain_toValue p.attributes, plain_modifiersValue p.modifiers,
    plain_placedValue p.ty, plain_nameValue p.name, Expr.plain_optionalValue p.default, trivial⟩

/-- So are bodies that may be absent. -/
theorem Block.plain_optionalValue : ∀ o : Option (Spanned Block), (Block.optionalValue o).Plain
  | none => trivial
  | some b => b.span.plain_wrap ⟨Stmt.plain_listValues b.node.stmts, trivial⟩

/-- So are members. -/
theorem Member.plain_toValue : ∀ m : Member, m.toValue.Plain
  | .field d =>
    ⟨trivial, plain_modifiersValue d.modifiers, plain_placedValue d.ty,
      plainItems_map VariableDecl.plain_toValue d.declarators, trivial⟩
  | .method d =>
    ⟨trivial, plainItems_map AttributeList.plain_toValue d.attributes,
      plain_modifiersValue d.modifiers, plain_placedValue d.returnTy, plain_nameValue d.name,
      plainItems_map Param.plain_toValue d.params, Block.plain_optionalValue d.body, trivial⟩
  | .constructor _ | .property _ => ⟨trivial, trivial, trivial⟩

/-- So are classes. -/
theorem ClassDecl.plain_toValue (c : ClassDecl) : c.toValue.Plain :=
  ⟨plain_nameValue c.name, plainItems_map (fun m => m.span.plain_wrap m.node.plain_toValue)
    c.members, trivial⟩

/-- So is a whole file. -/
theorem SourceFile.plain_toValue (f : SourceFile) : f.toValue.Plain := by
  have htext : ((f.text.map string).getD .null).Plain := by
    cases f.text with
    | none => exact trivial
    | some text => exact trivial
  exact ⟨trivial, htext, plainItems_map ClassDecl.plain_toValue f.classes, trivial⟩

/-! ## Files -/

/-- Loading undoes storing, if no more than `nestingLimit` containers lie inside one another in the
stored form. -/
theorem SourceFile.load?_store (f : SourceFile) (h : f.toValue.depth ≤ 127) :
    SourceFile.load? f.store = .ok f :=
  (Json.parse_render _ f.plain_toValue).trans (f.ofDocument?_document h 1)

open Construct in
/-- A file with quotes, backslashes, control characters and letters beyond ASCII, the largest place,
nested statements and types, and absent parts. -/
def awkwardFile : SourceFile where
  path := "C:\\kernels\\\"π\".cs"
  text := some "line\n\ttab\u0000\u001f\u007f"
  classes :=
    [{ name := ⟨"Überblick", ⟨4294967295, 0, 4294967295⟩⟩
       members :=
        [field (generic "Map" [⟨.tuple [], {}⟩, ⟨.array ⟨.nullable (predefined "int"), {}⟩ 2, {}⟩])
          "m" none,
         method (qualified (type "A") ⟨.generic "B" none, {}⟩) "Main" [numthreads 8 8 1] []
          [ifStmt ⟨.unary .not ⟨.boolLiteral true, {}⟩, {}⟩
            (block [⟨.return none, {}⟩, ⟨.break, {}⟩])
            (some (expressionStmt (call (ident "f") [⟨.stringLiteral "\"\\\u0008\r😀", {}⟩])))],
         ⟨.property "Size", {}⟩] }]

/-- The awkward file is loaded again. -/
theorem SourceFile.load?_store_awkwardFile :
    awkwardFile.toValue.depth ≤ 127 ∧ SourceFile.load? awkwardFile.store = .ok awkwardFile :=
  have h : awkwardFile.toValue.depth ≤ 127 := by decide +kernel
  ⟨h, awkwardFile.load?_store h⟩

end ComputeKernel
