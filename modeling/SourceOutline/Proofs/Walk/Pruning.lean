import Mathlib.Data.List.Basic
import SourceOutline.Proofs.Walk.Recursion

/-!
# A shallow outline is a pruned deep one

A deep walk differs from a shallow one only inside callables: it opens their bodies and
leaves out the variables there.  Emptying every callable of a deep outline therefore
gives the shallow outline, symbol for symbol.

The argument stays outside all bodies: a container keeps the flag of the recursion as it
is, and what a deep walk collects below a callable is dropped whole.
-/

namespace SourceOutline

namespace Symbol

mutual

/-- A symbol with every callable in it emptied. -/
def prune : Symbol → Symbol
  | ⟨kind, name, startLine, endLine, typeLabel, members⟩ =>
    ⟨kind, name, startLine, endLine, typeLabel,
      if kind.isCallable then [] else pruneAll members⟩

/-- Several symbols, each with every callable in it emptied. -/
def pruneAll : List Symbol → List Symbol
  | [] => []
  | s :: ss => prune s :: pruneAll ss

end

theorem pruneAll_eq_map (symbols : List Symbol) : pruneAll symbols = symbols.map prune := by
  induction symbols with
  | nil => rfl
  | cons s ss ih => rw [pruneAll, ih, List.map_cons]

/-- A callable loses its members. -/
theorem prune_of_callable {s : Symbol} (h : s.kind.isCallable = true) :
    s.prune = { s with members := [] } := by
  cases s
  simp_all [prune]

/-- Any other symbol keeps its members, pruned. -/
theorem prune_of_not_callable {s : Symbol} (h : s.kind.isCallable = false) :
    s.prune = { s with members := s.members.map prune } := by
  cases s
  simp_all [prune, pruneAll_eq_map]

end Symbol

namespace Node

/-- Outside all bodies, pruning what a deep walk gives yields what a shallow walk
gives.  The record of a node itself is the same in both. -/
theorem pruneAll_symbols (lineOf : Resolver) (showType : Bool) (n : Node) :
    Symbol.pruneAll (n.symbols lineOf ⟨true, showType⟩ false) =
      n.symbols lineOf ⟨false, showType⟩ false := by
  induction n using Node.childrenInduction with
  | step n ih =>
      have hchildren :
          (n.children.flatMap (symbols lineOf ⟨true, showType⟩ false)).map Symbol.prune =
            n.children.flatMap (symbols lineOf ⟨false, showType⟩ false) := by
        rw [List.map_flatMap]
        apply List.flatMap_congr
        intro c hc
        rw [← Symbol.pruneAll_eq_map]
        exact ih c hc
      rw [Symbol.pruneAll_eq_map]
      cases hkind : n.kind with
      | other =>
          rw [symbols_of_other _ _ _ hkind, symbols_of_other _ _ _ hkind]
          exact hchildren
      | declares kind =>
          have hsymbol : n.symbol lineOf ⟨true, showType⟩ kind =
              n.symbol lineOf ⟨false, showType⟩ kind := rfl
          cases hrole : kind.role with
          | container =>
              have hcallable : kind.isCallable = false := by simp [Kind.isCallable, hrole]
              rw [symbols_of_container _ _ _ hkind hrole, symbols_of_container _ _ _ hkind hrole,
                List.map_singleton, Symbol.prune_of_not_callable (by exact hcallable), hchildren,
                hsymbol]
          | callable =>
              have hcallable : kind.isCallable = true := by simp [Kind.isCallable, hrole]
              rw [symbols_of_callable _ _ _ hkind hrole, symbols_of_callable _ _ _ hkind hrole,
                if_pos rfl, if_neg Bool.false_ne_true, List.map_singleton,
                Symbol.prune_of_callable (by exact hcallable), hsymbol]
              rfl
          | value =>
              have hcallable : kind.isCallable = false := by simp [Kind.isCallable, hrole]
              rw [symbols_of_value _ _ _ hkind hrole, symbols_of_value _ _ _ hkind hrole,
                Bool.and_false, if_neg Bool.false_ne_true, Bool.and_false,
                if_neg Bool.false_ne_true, List.map_singleton,
                Symbol.prune_of_not_callable (by exact hcallable), hsymbol]
              rfl

end Node

/-- **Pruning a deep outline gives the shallow one**, whatever the tree, the line
numbering and the choice to show types. -/
theorem pruneAll_deep_outline (lineOf : Resolver) (showType : Bool) (root : Node) :
    Symbol.pruneAll (outline lineOf ⟨true, showType⟩ root) =
      outline lineOf ⟨false, showType⟩ root := by
  rw [outline_eq_symbols, outline_eq_symbols]
  exact root.pruneAll_symbols lineOf showType

end SourceOutline
