import ComputeKernel.Proofs.Source.Nesting

/-!
# Storing again what was loaded

A stored file loads as the same file exactly when it is not nested too deeply
(`SourceFile.depth_of_load?_store`). So what was loaded from any text, with fields left out, in
another order or as arrays, may be stored and loaded again, as long as the places that storing adds
do not go beyond the limit. They add one container at most, and only below the name of a local
variable (`SourceFile.restored`). A text that uses up the limit there loads, and what is stored for
it does not (`Deepest.not_restored`).
-/

namespace ComputeKernel

open Json.Value Json.Record
open SourceFile
open Json (Value Record Refusal Document Placed nestingLimit)

/-! ## When a stored file loads -/

/-- There is room for a member that loads. -/
theorem Member.depth_of_document {m m' : Member} {room line : Nat}
    (h : Member.ofPlaced? room ⟨m.toValue.document line, line⟩ = .ok m') :
    m.toValue.depth ≤ room := by
  cases m <;> exact Json.Variants.depth_of_ofPlaced? h

/-- There is room for the members of a class that loads. -/
theorem ClassDecl.depth_of_document {c c' : ClassDecl} {room line : Nat}
    (h : ClassDecl.ofDocument? room (c.toValue.document line) = .ok c') :
    c.toValue.depth ≤ max 4 room := by
  obtain ⟨ms, hms⟩ := exists_read_of_put (show "members" ∉ ["name"] by decide)
    (exists_put_of_ofDocument? h (.tail _ (.head _)) (.tail _ (.head _)))
  have hmembers : itemsDepth (c.members.map fun m => m.span.wrap m.node.toValue) ≤
      max 2 (room - 2) := by
    rw [itemsDepth_le]
    intro w hw
    obtain ⟨m, hm, rfl⟩ := List.mem_map.1 hw
    obtain ⟨s, hs⟩ := Document.exists_read_of_list? hms m hm
    have hnode := exists_put_of_and (.head _) (exists_put_of_ofDocument? hs (.head _) (.head _))
    obtain ⟨m', hm'⟩ := exists_read_of_put (show "node" ∉ [] by decide) hnode
    have hdepth := Member.depth_of_document hm'
    rw [Span.depth_wrap]
    omega
  simp only [ClassDecl.toValue, depth, membersDepth, depth_nameValue]
  omega

/-- A stored file that loads is nested no deeper than the limit. -/
theorem SourceFile.depth_of_load?_store {f f' : SourceFile} (h : load? f.store = .ok f') :
    f.toValue.depth ≤ 127 := by
  have hdocument : ofDocument? nestingLimit (f.toValue.document 1) = .ok f' :=
    (Json.parse_render _ f.plain_toValue).symm.trans h
  obtain ⟨cs, hcs⟩ := Record.exists_read_of_put (show "classes" ∉ ["path", "text"] by decide)
    (exists_put_of_ofDocument? hdocument (.tail _ (.tail _ (.head _)))
      (.tail _ (.tail _ (.head _))))
  have hclasses : itemsDepth (f.classes.map ClassDecl.toValue) ≤ max 4 125 := by
    rw [itemsDepth_le]
    intro w hw
    obtain ⟨c, hc, rfl⟩ := List.mem_map.1 hw
    obtain ⟨c', hc'⟩ := Document.exists_read_of_list? hcs c hc
    exact ClassDecl.depth_of_document hc'
  have htext : ((f.text.map string).getD .null).depth = 0 := by cases f.text <;> rfl
  simp only [toValue, depth, membersDepth] at htext ⊢
  omega

/-! ## What was loaded -/

/-- Load a stored file with at most so many containers inside one another. -/
def SourceFile.loadWithin? (room : Nat) (text : String) : Except Refusal SourceFile :=
  Json.parse (ofDocument? room ·.value) text

/-- A text that loads holds a document that loads. -/
theorem SourceFile.exists_of_loadWithin? {room : Nat} {text : String} {f : SourceFile}
    (h : loadWithin? room text = .ok f) : ∃ d, ofDocument? room d = .ok f := by
  obtain ⟨f', hf', hrest⟩ := Json.exists_of_bind_ok h
  refine ⟨_, hf'.trans ?_⟩
  split at hrest
  · exact hrest
  · cases hrest
  · cases hrest

/-- One at most for a file. -/
theorem SourceFile.unplaced_le (f : SourceFile) : f.unplaced ≤ 1 := by
  refine most_le fun c _ => most_le fun m _ => ?_
  cases m.node with
  | method decl =>
    show Block.unplacedOptional decl.body ≤ 1
    cases decl.body with
    | none => exact Nat.zero_le 1
    | some b => exact Stmt.unplacedList_le b.node.stmts
  | field _ | constructor _ | property _ => exact Nat.zero_le 1

/-- **What was loaded is stored and loads again.** For every text that loads: what is stored for it
loads as the same file and is nested no deeper than the limit; or it is nested one container deeper
and does not load. The latter happens only when a local variable has no place, and the text itself
is nested as deep as the limit lets it. -/
theorem SourceFile.restored {text : String} {f : SourceFile} (h : load? text = .ok f) :
    (load? f.store = .ok f ∧ f.toValue.depth ≤ 127) ∨
      ((∃ e, load? f.store = .error e) ∧ f.toValue.depth = 128 ∧ f.unplaced = 1 ∧
        loadWithin? 126 text ≠ .ok f) := by
  have hunplaced := f.unplaced_le
  obtain ⟨d, hd⟩ := exists_of_loadWithin? h
  have hdepth : f.toValue.depth ≤ max 14 (127 + f.unplaced) := depth_of_ofDocument? hd
  by_cases hlimit : f.toValue.depth ≤ 127
  · exact .inl ⟨(Json.parse_render _ f.plain_toValue).trans
      (f.ofDocument?_document hlimit 1), hlimit⟩
  · refine .inr ⟨?_, by omega, by omega, fun hwithin => ?_⟩
    · cases hstore : load? f.store with
      | error e => exact ⟨e, rfl⟩
      | ok f' => exact absurd (depth_of_load?_store hstore) hlimit
    · obtain ⟨d, hd⟩ := exists_of_loadWithin? hwithin
      have hless := depth_of_ofDocument? hd
      omega

/-- A file in the shortest form that loads: arrays for records and nodes, no places, no empty lists
but where needed, fields out of order, and one that is unknown. -/
def terseText : String :=
  "\x7b\"version\":[3],\"classes\":[[[\"K\"],[\x7b\"node\":[\"Method\",[],[],"
    ++ "[[\"Predefined\",\"void\"]],[\"M\"],[],"
    ++ "[[[[[\"LocalDeclaration\",[[\"Predefined\",\"int\"]],[[[\"x\"]]]]]]]]]\x7d]]],"
    ++ "\"path\":\"K.cs\"\x7d"

/-- It is stored and loads again. -/
theorem SourceFile.restored_terseText : ∃ f, load? terseText = .ok f ∧ load? f.store = .ok f ∧
    f.toValue.depth = 15 ∧ f.unplaced = 1 := by
  have hload : (load? terseText).map (fun f => (f.toValue.depth, f.unplaced)) = .ok (15, 1) := by
    decide +kernel
  obtain ⟨f, hf, hboth⟩ := Json.exists_of_map_ok hload
  obtain ⟨hdepth, hunplaced⟩ := Prod.mk.inj hboth
  rcases restored hf with ⟨hstore, -⟩ | ⟨-, hdeep, -⟩
  · exact ⟨f, hf, hstore, hdepth, hunplaced⟩
  · rw [hdepth] at hdeep
    cases hdeep

/-! ## A text that uses up the limit -/

namespace Deepest

/-- A node without its place. -/
def bare (v : Value) : Value := .object [("node", v)]

/-- A block that declares a local variable without a place. -/
def block : Value :=
  taggedValue "Block"
    [("stmts", .array [bare (taggedValue "LocalDeclaration"
      [("ty", bare (taggedValue "Predefined" [("name", .string "uint")])),
       ("variables", .array [.object [("name", bare (.string "x"))]])])])]

/-- A statement inside loops. -/
def loops : Nat → Value → Value
  | 0, v => v
  | n + 1, v => taggedValue "For" [("body", bare (loops n v))]

/-- A file whose only statement is the block inside so many loops. -/
def file (n : Nat) : Value :=
  .object
    [("path", .string "K.cs"),
     ("classes", .array [.object
      [("name", bare (.string "K")),
       ("members", .array [bare (taggedValue "Method"
        [("return_ty", bare (taggedValue "Predefined" [("name", .string "void")])),
         ("name", bare (.string "M")),
         ("body", bare (.object [("stmts", .array [bare (loops n block)])]))])])]])]

/-- Loops have plain numbers. -/
theorem plain_loops (n : Nat) {v : Value} (hv : v.Plain) : (loops n v).Plain := by
  induction n with
  | zero => exact hv
  | succ n ih => exact ⟨trivial, ⟨ih, trivial⟩, trivial⟩

/-- So has the block. -/
theorem plain_block : block.Plain :=
  ⟨trivial,
    ⟨⟨⟨trivial, ⟨⟨trivial, trivial, trivial⟩, trivial⟩,
    ⟨⟨⟨trivial, trivial⟩, trivial⟩, trivial⟩, trivial⟩, trivial⟩, trivial⟩, trivial⟩

/-- So has the file. -/
theorem plain_file (n : Nat) : (file n).Plain :=
  ⟨trivial,
    ⟨⟨⟨trivial, trivial⟩, ⟨⟨⟨trivial, ⟨⟨trivial, trivial, trivial⟩, trivial⟩, ⟨trivial, trivial⟩,
    ⟨⟨⟨⟨plain_loops n plain_block, trivial⟩, trivial⟩, trivial⟩, trivial⟩, trivial⟩, trivial⟩,
    trivial⟩, trivial⟩, trivial⟩, trivial⟩

/-- A text that loads, and is nested as deep as the limit lets it. What is stored for it has the
place of the variable, one container deeper, and does not load. -/
theorem not_restored : (file 55).depth = 127 ∧ ∃ f, load? (file 55).render = .ok f ∧
    f.toValue.depth = 128 ∧ ∃ e, load? f.store = .error e := by
  refine ⟨by decide +kernel, ?_⟩
  have hdocument : (ofDocument? nestingLimit ((file 55).document 1)).map (·.toValue.depth) =
      .ok 128 := by
    decide +kernel
  obtain ⟨f, hf, hdepth⟩ := Json.exists_of_map_ok hdocument
  refine ⟨f, (Json.parse_render _ (plain_file 55)).trans hf, hdepth, ?_⟩
  cases hstore : load? f.store with
  | error e => exact ⟨e, rfl⟩
  | ok f' =>
    have hlimit := depth_of_load?_store hstore
    omega

end Deepest

end ComputeKernel
