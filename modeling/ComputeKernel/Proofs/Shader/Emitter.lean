import ComputeKernel.Proofs.Shader.ReadOnly
import ComputeKernel.Proofs.Shader.Words

/-!
# Writing with an indentation that changes

Kernel texts can also be written from left to right, with an indentation that goes up in front of a
nested part and down behind it. `Emitter` holds what is written so far and the indentation. Writing
a statement adds the same output as before and brings the indentation back (`Emitter.stmt_eq`), so
that it is zero between the parts of a class (`Emitter.run_eq`). All parts of a class whose words
are plain have a layout, and so has every text on the way.
-/

namespace ComputeKernel.Shader

open Output

/-- Outputs are put together in any order. -/
theorem Output.append_assoc (a b c : Output) : a ++ b ++ c = a ++ (b ++ c) := by
  show (⟨a.text ++ b.text ++ c.text, a.problems ++ b.problems ++ c.problems⟩ : Output) = _
  rw [String.append_assoc, List.append_assoc]
  rfl

/-- What is written so far, and the indentation of the next line. -/
structure Emitter where
  output : Output := {}
  indent : Nat := 0

namespace Emitter

variable (e : Emitter) (m : MethodDecl)

/-- Write some output. -/
def push (o : Output) : Emitter := { e with output := e.output ++ o }

/-- Write the indentation. -/
def pushIndent : Emitter := e.push (.blanks e.indent)

/-- Write one level deeper. -/
def nested (write : Emitter → Emitter) (e : Emitter) : Emitter :=
  let inner := write { e with indent := e.indent + indentStep }
  { inner with indent := inner.indent - indentStep }

/-! ## Statements -/

mutual

/-- Write a statement. -/
def stmt : Stmt → Span → Emitter → Emitter
  | .expression expr, _, e => (e.push (placedExpr expr)).push (.lit ";")
  | .return none, span, e =>
    ((e.push (.lit "return ")).push (.problem .bareReturn span)).push (.lit ";")
  | .return (some value), _, e =>
    ((e.push (.lit "return ")).push (placedExpr value)).push (.lit ";")
  | .ifThenElse condition thenBranch none, _, e =>
    branch thenBranch (((e.push (.lit "if (")).push (placedExpr condition)).push (.lit ")\n"))
  | .ifThenElse condition thenBranch (some elseBranch), _, e =>
    let e := branch thenBranch (((e.push (.lit "if (")).push (placedExpr condition)).push
      (.lit ")\n"))
    branch elseBranch ((e.push (.lit "\n")).pushIndent.push (.lit "else\n"))
  | .block stmts, _, e =>
    (nested (lines stmts) (e.push (.lit "\x7b\n"))).pushIndent.push (.lit "\x7d")
  | s@(.localDeclaration _ _), span, e | s@(.while _ _), span, e | s@(.for _), span, e =>
    e.push (unsupportedStmt s span)
  | .break, span, e => e.push (unsupportedStmt .break span)
  | .continue, span, e => e.push (unsupportedStmt .continue span)
  | .empty, span, e => e.push (unsupportedStmt .empty span)

/-- Write statements on lines of their own. -/
def lines : List (Spanned Stmt) → Emitter → Emitter
  | [], e => e
  | ⟨node, span⟩ :: ss, e => lines ss ((stmt node span e.pushIndent).push (.lit "\n"))

/-- Write a branch in braces. -/
def branch : Spanned Stmt → Emitter → Emitter
  | ⟨.block stmts, _⟩, e =>
    (nested (lines stmts) (e.pushIndent.push (.lit "\x7b\n"))).pushIndent.push (.lit "\x7d")
  | ⟨node, span⟩, e =>
    let e := nested (fun e => (stmt node span e.pushIndent).push (.lit "\n"))
      (e.pushIndent.push (.lit "\x7b\n"))
    e.pushIndent.push (.lit "\x7d")

end

@[simp] theorem indent_push (o : Output) : (e.push o).indent = e.indent := rfl

@[simp] theorem push_push (a b : Output) : (e.push a).push b = e.push (a ++ b) := by
  simp only [push, append_assoc]

@[simp] theorem push_nil : e.push {} = e := by
  rw [push, append_nil]

/-- What only adds output one level deeper only adds output. -/
theorem nested_eq (o : Nat → Output) {write : Emitter → Emitter}
    (h : ∀ e, write e = e.push (o e.indent)) (e : Emitter) :
    nested write e = e.push (o (e.indent + indentStep)) := by
  simp only [nested, h, indent_push, Nat.add_sub_cancel]
  rfl

mutual

/-- A statement adds its output. -/
theorem stmt_eq : ∀ (s : Stmt) (span : Span) (e : Emitter),
    stmt s span e = e.push (stmtOutput e.indent s span)
  | .expression expr, _, e => by simp [stmt, stmtOutput]
  | .return none, _, e => by simp [stmt, stmtOutput]
  | .return (some value), _, e => by simp [stmt, stmtOutput]
  | .ifThenElse condition thenBranch none, _, e => by simp [stmt, stmtOutput, branch_eq thenBranch]
  | .ifThenElse condition thenBranch (some elseBranch), _, e => by
    simp [stmt, stmtOutput, branch_eq thenBranch, branch_eq elseBranch, pushIndent]
  | .block stmts, _,
    e => by simp [stmt, stmtOutput, nested_eq (stmtLines · stmts) (lines_eq stmts), pushIndent]
  | .localDeclaration _ _, _, _ | .while _ _, _, _ | .for _, _, _ | .break, _, _ | .continue, _,
      _ | .empty, _, _ => by
    simp [stmt, stmtOutput]

/-- So do statements. -/
theorem lines_eq :
    ∀ (ss : List (Spanned Stmt)) (e : Emitter), lines ss e = e.push (stmtLines e.indent ss)
  | [], e => e.push_nil.symm
  | ⟨node, span⟩ :: ss, e => by simp [lines, stmtLines, lines_eq ss, stmt_eq node, pushIndent]

/-- So does a branch. -/
theorem branch_eq :
    ∀ (s : Spanned Stmt) (e : Emitter), branch s e = e.push (Shader.branch e.indent s)
  | ⟨node, span⟩, e => by
    have hlone := nested_eq (fun indent => .blanks indent ++
      stmtOutput indent node span ++ .lit "\n")
      fun e => show (stmt node span e.pushIndent).push (.lit "\n") =
        _ by simp [stmt_eq node, pushIndent]
    cases node with
    | block stmts =>
      simp [branch, Shader.branch, nested_eq (stmtLines · stmts) (lines_eq stmts), pushIndent]
    | _ =>
      simp only [branch, hlone]
      simp [Shader.branch, pushIndent]

end

/-! ## Members -/

/-- What stands between the braces of a method. -/
def body (e : Emitter) : Emitter :=
  match m.body with
  | some body => nested (lines body.node.stmts) e
  | none => e.push (.problem (.missingBody m.name.node) m.name.span)

/-- Write a method. -/
def method (e : Emitter) : Emitter :=
  let e := e.push (.all (m.attributes.map fun list => .lit "[" ++ attributeListOutput list ++
    .lit "]\n"))
  let e := (e.push (placedType false m.returnTy)).push (.lit (" " ++ m.name.node ++ " ("))
  let e := (e.push (.separated ", " (m.params.map paramOutput))).push (.lit ")\n\x7b\n")
  (body m e).push (.lit "\x7d\n\n")

/-- A body adds its output. -/
theorem body_eq {e : Emitter} (h : e.indent = 0) : body m e = e.push (bodyOutput m) := by
  rw [body, bodyOutput]
  cases m.body with
  | none => rfl
  | some body =>
    have hnested := nested_eq (stmtLines · body.node.stmts) (lines_eq body.node.stmts) e
    rw [h, Nat.zero_add] at hnested
    exact hnested

/-- So does a method. -/
theorem method_eq {e : Emitter} (h : e.indent = 0) : method m e = e.push (methodOutput m) := by
  simp only [method, push_push, indent_push, h, body_eq, methodOutput]

end Emitter

/-- A part of a class that is written in one go. -/
inductive Part where
  /-- The lines that name the entry points. -/
  | heading (methods : List MethodDecl)
  | field (decl : FieldDecl)
  /-- The empty line between the fields and the methods. -/
  | gap
  | method (decl : MethodDecl)

/-- What is written of a part. -/
def Part.output : Part → Output
  | .heading methods => entryLines methods ++ .lit "\n"
  | .field decl => fieldOutput decl
  | .gap => .lit "\n"
  | .method decl => methodOutput decl

/-- The parts of a class. -/
def parts (c : ClassDecl) : List Part :=
  .heading c.methods :: (c.fields.map .field ++ .gap :: c.methods.map .method)

namespace Emitter

/-- Write a part. -/
def part : Part → Emitter → Emitter
  | .method decl, e => method decl e
  | p, e => e.push p.output

/-- Write parts one after another. -/
def run (ps : List Part) (e : Emitter) : Emitter := ps.foldl (fun e p => part p e) e

/-- A part adds its output. -/
theorem part_eq (p : Part) {e : Emitter} (h : e.indent = 0) : part p e = e.push p.output := by
  cases p with
  | method decl => exact method_eq decl h
  | heading | field | gap => rfl

/-- At the margin, parts add their outputs and come back to it. -/
theorem run_eq : ∀ (ps : List Part) {e : Emitter}, e.indent = 0 →
    run ps e = e.push (.all (ps.map Part.output))
  | [], e, _ => e.push_nil.symm
  | p :: ps, e, h => by
    have hrest := run_eq ps (e := e.push p.output) h
    rw [push_push] at hrest
    rw [run, List.foldl_cons, part_eq p h]
    exact hrest

end Emitter

/-- The first of outputs in turn. -/
theorem Output.all_cons (o : Output) (os : List Output) : all (o :: os) = o ++ all os := rfl

/-- Outputs in turn, in two pieces. -/
theorem Output.all_append (os ps : List Output) : all (os ++ ps) = all os ++ all ps := by
  induction os with
  | nil => exact (nil_append _).symm
  | cons o os ih => rw [List.cons_append, all_cons, all_cons, ih, append_assoc]

/-- A class is its parts. -/
theorem classOutput_eq_all (c : ClassDecl) : classOutput c = .all ((parts c).map Part.output) := by
  rw [parts, List.map_cons, List.map_append, List.map_cons, List.map_map, List.map_map, all_cons,
    all_append, all_cons, ← append_assoc, ← append_assoc]
  rfl

/-- The parts of a plain class are whole. -/
theorem whole_part {c : ClassDecl} (h : ∀ w ∈ classWords c, Plain w) :
    ∀ p ∈ parts c, p.output.Whole := by
  simp only [classWords, List.forall_mem_append, List.forall_mem_flatMap] at h
  obtain ⟨hfields, hmethods⟩ := h
  have hname (m : MethodDecl) (hm : m ∈ c.methods) : Plain m.name.node :=
    hmethods m hm _ (List.mem_append_right _ (List.mem_append_right _ (.head _)))
  simp only [parts, List.forall_mem_cons, List.forall_mem_append, List.forall_mem_map]
  exact ⟨(whole_entryLines hname).append whole_newline,
    fun f hf => whole_fieldOutput (hfields f hf), whole_newline,
      fun m hm => whole_methodOutput (hmethods m hm)⟩

/-- **Kernel texts are well laid out, whatever the class holds.** If no name, modifier or literal
that is written has a brace or a line break, then the text of a class has a layout. Written part
by part with an indentation that changes, the same text comes out, and after each part the
indentation is zero and what is written so far has a layout. Nothing is assumed about the
problems of the class. -/
theorem layout_translateLossy (path : String) {c : ClassDecl} (h : ∀ w ∈ classWords c, Plain w) :
    Layout (translateLossy path c).source ∧
      (Emitter.run (parts c) {}).output = classOutput c ∧
      ∀ done, done <+: parts c →
        (Emitter.run done {}).indent = 0 ∧ Layout (Emitter.run done {}).output.text := by
  have hwhole := whole_part h
  have hrun (done : List Part) (hdone : done <+: parts c) :
      (Emitter.run done {}).indent = 0 ∧ Layout (Emitter.run done {}).output.text := by
    rw [Emitter.run_eq done rfl]
    refine ⟨rfl, Laid.layout (Whole.append whole_nil (whole_all ?_))⟩
    rw [List.forall_mem_map]
    exact fun p hp => hwhole p (hdone.subset hp)
  have hall : (Emitter.run (parts c) {}).output = classOutput c := by
    rw [Emitter.run_eq (parts c) rfl, classOutput_eq_all]
    exact nil_append _
  refine ⟨?_, hall, hrun⟩
  have hlast := (hrun (parts c) List.prefix_rfl).2
  rw [hall] at hlast
  exact hlast

open Construct in
/-- A kernel with constructs that have no counterpart in all places. -/
def gappyKernel : ClassDecl :=
  classOf "Gappy"
    [field (generic "NativeArray" [predefined "float"]) "cells" none,
      field (predefined "int") "limit"
        (some (conditional (ident "wide") (number "2") (number "1"))),
      method (predefined "void") "Step" [numthreads 8 8 1] [dispatchIdParam "id"]
        [ifStmt (binary .equals (ident "a") (ident "b"))
          ⟨.continue, {}⟩
          (some (block [⟨.while (ident "a") (block []), {}⟩, ⟨.return none, {}⟩,
          block [expressionStmt (ident "c")]]))],
      ⟨.method { returnTy := predefined "float", name := name "Weight" }, {}⟩]

/-- It has a layout all the same. -/
theorem gappyKernel_layout : (∀ w ∈ classWords gappyKernel, Plain w) ∧
    (translateLossy "Gappy.cs" gappyKernel).diagnostics.length = 6 ∧
    Layout (translateLossy "Gappy.cs" gappyKernel).source := by
  have hplain : ∀ w ∈ classWords gappyKernel, Plain w := by decide +kernel
  exact ⟨hplain, by decide +kernel, (layout_translateLossy "Gappy.cs" hplain).1⟩

end ComputeKernel.Shader
