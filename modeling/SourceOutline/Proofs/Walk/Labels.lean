import Mathlib.Data.List.Basic
import SourceOutline.Proofs.Walk.Visibility

/-!
# Labels only decorate

The choice to show types changes nothing in an outline but the labels of variables: without
its labels, the outline is the one that is taken without types.  It enters a walk at one
point only, the record of a node (`Node.eraseLabels_symbol`), so the two walks open the same
scopes and leave out the same variables.

With types, the label of a symbol is the one of the binding of its own node.  The symbols are
told apart by their places: the table that pairs the visible nodes with the symbols says which
node a symbol comes from.
-/

namespace SourceOutline

namespace Symbol

mutual

/-- A symbol with all labels in it removed. -/
def eraseLabels : Symbol → Symbol
  | ⟨kind, name, startLine, endLine, _, members⟩ =>
    ⟨kind, name, startLine, endLine, none, eraseLabelsOfAll members⟩

/-- Several symbols with all labels in them removed. -/
def eraseLabelsOfAll : List Symbol → List Symbol
  | [] => []
  | s :: ss => eraseLabels s :: eraseLabelsOfAll ss

end

theorem eraseLabelsOfAll_eq_map (symbols : List Symbol) :
    eraseLabelsOfAll symbols = symbols.map eraseLabels := by
  induction symbols with
  | nil => rfl
  | cons s ss ih => rw [eraseLabelsOfAll, ih, List.map_cons]

/-- A symbol loses its own label and those of its members. -/
theorem eraseLabels_eq (s : Symbol) :
    s.eraseLabels = { s with typeLabel := none, members := s.members.map eraseLabels } := by
  cases s
  rw [eraseLabels, eraseLabelsOfAll_eq_map]

end Symbol

namespace Node

section

variable (lineOf : Resolver) (deep : Bool)

/-- The record of a node without its label is the record that is made without types. -/
theorem eraseLabels_symbol (n : Node) (kind : Kind) (members : List Symbol) :
    Symbol.eraseLabels { n.symbol lineOf ⟨deep, true⟩ kind with members := members } =
      { n.symbol lineOf ⟨deep, false⟩ kind with members := members.map Symbol.eraseLabels } := by
  rw [Symbol.eraseLabels_eq]
  simp [symbol]

/-- Whether types are shown does not matter for what a walk collects. -/
theorem map_eraseLabels_symbols (n : Node) (inBody : Bool) :
    (n.symbols lineOf ⟨deep, true⟩ inBody).map Symbol.eraseLabels =
      n.symbols lineOf ⟨deep, false⟩ inBody := by
  induction n using Node.childrenInduction generalizing inBody with
  | step n ih =>
      have hchildren : ∀ inBody,
          (n.children.flatMap (symbols lineOf ⟨deep, true⟩ inBody)).map Symbol.eraseLabels =
            n.children.flatMap (symbols lineOf ⟨deep, false⟩ inBody) := by
        intro inBody
        rw [List.map_flatMap]
        exact List.flatMap_congr fun c hc => ih c hc inBody
      cases hkind : n.kind with
      | other =>
          rw [symbols_of_other _ _ _ hkind, symbols_of_other _ _ _ hkind, hchildren]
      | declares kind =>
          have hleaf := eraseLabels_symbol lineOf deep n kind []
          cases hrole : kind.role with
          | container =>
              rw [symbols_of_container _ _ _ hkind hrole, symbols_of_container _ _ _ hkind hrole,
                List.map_singleton, eraseLabels_symbol, hchildren]
          | callable =>
              rw [symbols_of_callable _ _ _ hkind hrole, symbols_of_callable _ _ _ hkind hrole]
              split
              · rw [List.map_singleton, eraseLabels_symbol, hchildren]
              · exact congrArg (fun s => [s]) hleaf
          | value =>
              rw [symbols_of_value _ _ _ hkind hrole, symbols_of_value _ _ _ hkind hrole]
              split
              · rfl
              · exact congrArg (fun s => [s]) hleaf

end

/-- The label of a record that is made with types. -/
theorem typeLabel_symbol (lineOf : Resolver) (deep : Bool) (n : Node) (kind : Kind) :
    (n.symbol lineOf ⟨deep, true⟩ kind).typeLabel =
      if kind = .varDecl then n.binding.bind TypeLabel.ofBinding? else none := by
  simp [symbol]

end Node

/-- **Labels only decorate.**  Without its labels, an outline with types is the outline without
types.  With types, the symbols are paired with the visible nodes in order, as they are without
them, and the label of a symbol is the label of the first binding of its own node: there is none
for a variable without a binding, and none for what is no variable. -/
theorem labels_only_decorate (lineOf : Resolver) (deep : Bool) (root : Node) :
    (outline lineOf ⟨deep, true⟩ root).map Symbol.eraseLabels =
      outline lineOf ⟨deep, false⟩ root ∧
    ∃ rows : List Row,
      rows.map Row.declared = root.visibleNodes deep ∧
      rows.map Row.outlined = Symbol.forest 0 (outline lineOf ⟨deep, true⟩ root) ∧
      rows.map Row.symbol = (outline lineOf ⟨deep, true⟩ root).flatMap Symbol.descendants ∧
      Linked lineOf ⟨deep, true⟩ rows ∧
      ∀ r ∈ rows, r.symbol.typeLabel =
        if r.symbol.kind = .varDecl then r.node.binding.bind TypeLabel.ofBinding? else none := by
  constructor
  · rw [outline_eq_symbols, outline_eq_symbols]
    exact root.map_eraseLabels_symbols lineOf deep false
  · obtain ⟨rows, hnodes, hsymbols, hlinked⟩ := root.paired_symbols lineOf ⟨deep, true⟩ false 0
    rw [← Node.visibleNodes_eq] at hnodes
    rw [← outline_eq_symbols] at hsymbols
    refine ⟨rows, hnodes, hsymbols, ?_, hlinked, ?_⟩
    · rw [Symbol.flatMap_descendants, ← Symbol.map_snd_forest 0, ← hsymbols, List.map_map]
      rfl
    · intro r hr
      obtain ⟨kind, _, hrecord⟩ := hlinked.record r hr
      have hkind : r.symbol.kind = kind := congrArg Symbol.kind hrecord
      have hlabel : r.symbol.typeLabel = (r.node.symbol lineOf ⟨deep, true⟩ kind).typeLabel := by
        rw [← hrecord]
      rw [hlabel, Node.typeLabel_symbol, hkind]

end SourceOutline
