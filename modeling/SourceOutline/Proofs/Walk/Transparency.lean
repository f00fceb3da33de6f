import Mathlib.Data.List.Basic
import SourceOutline.Proofs.Places
import SourceOutline.Proofs.Walk.Recursion
import SourceOutline.Swift.Declaration

/-!
# Transparent nodes and siblings do not matter to each other

The outline of a tree is put together from the outlines of its parts: that of a node depends
on its children only through their outlines one after the other (`Node.symbols_congr`).  So
children may be exchanged, at any place of a tree, for any others with the same outlines
(`Node.symbols_withChildrenAt`).

A transparent node has the outlines of its children.  It may therefore be dissolved into them,
or put around some of them, wherever it stands: inside a body as well as inside a type.  And
one sibling is outlined as if the others were not there, because the walk is back at the same
open scopes and bodies when it comes to the next.
-/

namespace SourceOutline

namespace Node

/-- The tree in which the node at a place has other children. -/
def withChildrenAt (children : List Node) : Place → Node → Node
  | [], n => { n with children := children }
  | i :: p, n => { n with children := n.children.modify i (withChildrenAt children p) }

/-- Changing one child does not change the outlines of the children when it does not change
that of the child. -/
theorem flatMap_modify {outlineOf : Node → List Symbol} {edit : Node → Node} {c : Node}
    {ns : List Node} {i : Nat} (hc : ns[i]? = some c) (h : outlineOf (edit c) = outlineOf c) :
    (ns.modify i edit).flatMap outlineOf = ns.flatMap outlineOf := by
  obtain ⟨hi, rfl⟩ := List.getElem?_eq_some_iff.mp hc
  have hsplit : ns = ns.take i ++ ns[i] :: ns.drop (i + 1) := by
    rw [← List.drop_eq_getElem_cons hi, List.take_append_drop]
  rw [List.modify_eq_take_cons_drop hi, List.flatMap_append, List.flatMap_cons, h,
    ← List.flatMap_cons, ← List.flatMap_append, ← hsplit]

section

variable {lineOf : Resolver} {options : OutlineOptions}

/-- The record of a node does not depend on the children. -/
theorem symbols_withChildren {n : Node} {children : List Node}
    (h : ∀ inBody, children.flatMap (symbols lineOf options inBody) =
      n.children.flatMap (symbols lineOf options inBody)) (inBody : Bool) :
    { n with children := children }.symbols lineOf options inBody =
      n.symbols lineOf options inBody := by
  refine symbols_congr ?_ ?_ h inBody
  · rfl
  · intro kind _
    rfl

/-- **Children may be exchanged for others with the same outlines**, at any place. -/
theorem symbols_withChildrenAt {root n : Node} {p : Place} {children : List Node}
    (hn : (p, n) ∈ root.located)
    (h : ∀ inBody, children.flatMap (symbols lineOf options inBody) =
      n.children.flatMap (symbols lineOf options inBody)) (inBody : Bool) :
    (root.withChildrenAt children p).symbols lineOf options inBody =
      root.symbols lineOf options inBody := by
  induction p generalizing root inBody with
  | nil =>
      rw [mem_located_nil] at hn
      subst hn
      exact symbols_withChildren h inBody
  | cons i p ih =>
      obtain ⟨c, hc, hbelow⟩ := mem_located_cons.mp hn
      apply symbols_withChildren
      intro inBody
      exact flatMap_modify hc (ih hbelow inBody)

/-- A transparent node among siblings counts as its children. -/
theorem flatMap_of_other (inBody : Bool) (before after : List Node) {w : Node}
    (hw : w.kind = .other) :
    (before ++ w :: after).flatMap (symbols lineOf options inBody) =
      (before ++ w.children ++ after).flatMap (symbols lineOf options inBody) := by
  rw [List.flatMap_append, List.flatMap_cons, symbols_of_other _ _ _ hw, List.flatMap_append,
    List.flatMap_append, List.append_assoc]

/-- Under a transparent root, the outline is that of the children. -/
theorem outline_withChildren {root : Node} (hroot : root.kind = .other)
    (children : List Node) :
    outline lineOf options { root with children := children } =
      children.flatMap (symbols lineOf options false) := by
  have hkind : ({ root with children := children } : Node).kind = .other := hroot
  rw [outline_eq_symbols, symbols_of_other _ _ _ hkind]

end

end Node

/-- The error nodes of a parser are transparent: the grammar has no declaration of this name. -/
theorem Swift.Tree.kind_toNode_of_error (source : Bytes) (t : Swift.Tree)
    (h : t.kind = "ERROR") : (t.toNode source).kind = .other := by
  have hkind : (t.toNode source).kind = t.nodeKind := by
    cases t
    rfl
  rw [hkind, Swift.Tree.nodeKind, h]
  rfl

/-- **Transparent nodes do not show and siblings do not interfere.**  Wherever a transparent
node stands in a tree, dissolving it into its children does not change the outline, and nor
does putting a transparent node, with any range and texts, around children that stand side by
side.  Under a transparent root, the outline of two lists of children is that of the first and
then that of the second; once the walk has gone through some siblings, all that they leave
behind is their symbols in the innermost open scope.  The error nodes of a parser are
transparent, so what stands in them is outlined in its order and where they stand. -/
theorem outline_through_transparent_nodes (lineOf : Resolver) (options : OutlineOptions) :
    (∀ (root n w : Node) (p : Place) (before after : List Node),
      (p, n) ∈ root.located → n.children = before ++ w :: after → w.kind = .other →
      outline lineOf options (root.withChildrenAt (before ++ w.children ++ after) p) =
        outline lineOf options root) ∧
    (∀ (root n w : Node) (p : Place) (before run after : List Node),
      (p, n) ∈ root.located → n.children = before ++ run ++ after → w.kind = .other →
      outline lineOf options
          (root.withChildrenAt (before ++ { w with children := run } :: after) p) =
        outline lineOf options root) ∧
    (∀ (root root' root'' : Node) (xs ys : List Node),
      root.kind = .other → root'.kind = .other → root''.kind = .other →
      outline lineOf options { root with children := xs ++ ys } =
        outline lineOf options { root' with children := xs } ++
          outline lineOf options { root'' with children := ys }) ∧
    (∀ (xs : List Node) (rest : List Walk.Step) (scopes : ScopeStack) (bodyDepth : Nat),
      Walk.Leads lineOf options ⟨xs.map .visit ++ rest, scopes, bodyDepth⟩
        ⟨rest, scopes.attachAll (xs.flatMap (Node.symbols lineOf options (0 < bodyDepth))),
          bodyDepth⟩) ∧
    ∀ (source : Bytes) (t : Swift.Tree), t.kind = "ERROR" →
      (t.toNode source).kind = .other ∧
      ∀ inBody, (t.toNode source).symbols lineOf options inBody =
        (Swift.Tree.toNodes source t.children).flatMap (Node.symbols lineOf options inBody) := by
  refine ⟨?_, ?_, ?_, ?_, ?_⟩
  · intro root n w p before after hn hchildren hw
    rw [outline_eq_symbols, outline_eq_symbols]
    apply Node.symbols_withChildrenAt hn
    intro inBody
    rw [hchildren, Node.flatMap_of_other inBody before after hw]
  · intro root n w p before run after hn hchildren hw
    rw [outline_eq_symbols, outline_eq_symbols]
    apply Node.symbols_withChildrenAt hn
    intro inBody
    have hwrapped : ({ w with children := run } : Node).kind = .other := hw
    rw [hchildren, Node.flatMap_of_other inBody before after hwrapped]
  · intro root root' root'' xs ys hroot hroot' hroot''
    rw [Node.outline_withChildren hroot, Node.outline_withChildren hroot',
      Node.outline_withChildren hroot'', List.flatMap_append]
  · intro xs rest scopes bodyDepth
    exact Walk.leads_visits (fun n _ => Walk.leads_visit n) rest scopes bodyDepth
  · intro source t herror
    have hkind := t.kind_toNode_of_error source herror
    have hchildren : (t.toNode source).children = Swift.Tree.toNodes source t.children := by
      cases t
      rfl
    refine ⟨hkind, ?_⟩
    intro inBody
    rw [Node.symbols_of_other _ _ _ hkind, hchildren]

/-- A method with a local variable. -/
def brokenMethod : Node :=
  { kind := .declares .funcDecl, startByte := 6, endByte := 20, name := some "f",
    children := [{ kind := .declares .varDecl, startByte := 10, endByte := 15 }] }

/-- A property. -/
def brokenProperty : Node :=
  { kind := .declares .varDecl, startByte := 21, endByte := 25, binding := some { pattern := "x" } }

/-- The part of a class that could not be read, with a method and a property in it. -/
def brokenPart : Node :=
  { kind := .other, startByte := 5, endByte := 30, children := [brokenMethod, brokenProperty] }

/-- The class around it. -/
def brokenClass : Node :=
  { kind := .declares .classDecl, startByte := 0, endByte := 40, name := some "A",
    children := [brokenPart] }

/-- The file with the class. -/
def brokenFile : Node :=
  { kind := .other, startByte := 0, endByte := 41, children := [brokenClass] }

/-- In the class, the broken part may be dissolved, or stand in one more transparent node; the
property is no local variable of the method before it. -/
theorem brokenFile_same_outline :
    let options : OutlineOptions := ⟨true, false⟩
    let wrapped : Node := { brokenPart with children := [brokenPart] }
    ([0], brokenClass) ∈ brokenFile.located ∧ brokenPart.kind = .other ∧
    outline id options (brokenFile.withChildrenAt [brokenMethod, brokenProperty] [0]) =
      outline id options brokenFile ∧
    outline id options (brokenFile.withChildrenAt [wrapped] [0]) =
      outline id options brokenFile ∧
    outline id options brokenPart =
      outline id options { brokenPart with children := [brokenMethod] } ++
        outline id options { brokenFile with children := [brokenProperty] } ∧
    ((outline id options brokenFile).flatMap Symbol.descendants).map Symbol.name =
      ["A", "f", "x"] ∧
    (Swift.Tree.toNode [] ⟨"ERROR", true, none, ⟨0, 0⟩, []⟩).kind = .other := by
  intro options wrapped
  obtain ⟨hdissolved, hwrapped, hsiblings, -, herror⟩ :=
    outline_through_transparent_nodes id options
  have hclass : ([0], brokenClass) ∈ brokenFile.located :=
    Node.mem_located_cons.mpr ⟨brokenClass, rfl, Node.mem_located_nil.mpr rfl⟩
  refine ⟨hclass, rfl, ?_, ?_, ?_, ?_, (herror [] _ rfl).1⟩
  · exact hdissolved brokenFile brokenClass brokenPart [0] [] [] hclass rfl rfl
  · exact hwrapped brokenFile brokenClass brokenPart [0] [] [brokenPart] [] hclass rfl rfl
  · exact hsiblings brokenPart brokenPart brokenFile [brokenMethod] [brokenProperty] rfl rfl rfl
  · rw [Symbol.flatMap_descendants, outline_eq_symbols]
    decide

end SourceOutline
