import Mathlib.Data.List.Basic
import SourceOutline.Node
import SourceOutline.Proofs.Symbol.Listing

/-!
# Places in trees

Equal nodes can stand at several places of a tree, so a node is told apart by its place:
which child to take on each level, from the top down.  A place is above another when it
is a proper prefix of it, and listing the places of a tree parents first is listing them
in lexicographic order.

Syntax trees and outlines are both listed by `shelve`, which puts the listings of the
trees of a forest one after the other and each tree's number in front of its places.
-/

namespace SourceOutline

/-- Which child to take on each level, from the top down. -/
abbrev Place := List Nat

namespace Place

/-- The first place is that of a proper ancestor of the second. -/
def Above (q p : Place) : Prop :=
  q <+: p ∧ q ≠ p

instance (q p : Place) : Decidable (Above q p) :=
  inferInstanceAs (Decidable (_ ∧ _))

/-- The first place is that of the parent of the second. -/
def IsParent (q p : Place) : Prop :=
  ∃ i, p = q ++ [i]

theorem not_above_nil (q : Place) : ¬ Above q [] := by
  intro habove
  obtain ⟨hpre, hne⟩ := habove
  exact hne (List.prefix_nil.mp hpre)

theorem nil_above_cons (i : Nat) (p : Place) : Above [] (i :: p) :=
  ⟨List.nil_prefix, nofun⟩

/-- One place is above another when both are below the same child and the rest agrees. -/
theorem cons_above_cons {i j : Nat} {q p : Place} :
    Above (j :: q) (i :: p) ↔ j = i ∧ Above q p := by
  simp only [Above, List.cons_prefix_cons, ne_eq, List.cons.injEq]
  grind

/-- Parenthood is decided below a common child. -/
theorem cons_isParent_cons {i j : Nat} {q p : Place} :
    IsParent (j :: q) (i :: p) ↔ j = i ∧ IsParent q p := by
  simp only [IsParent, List.cons_append, List.cons.injEq]
  grind

theorem not_isParent_singleton (i j : Nat) (q : Place) : ¬ IsParent (i :: q) [j] := by
  simp [IsParent]

/-- A root has the places one step below it as its children. -/
theorem isParent_singleton {i : Nat} {p : Place} : IsParent [i] (i :: p) ↔ ∃ j, p = [j] := by
  simp [IsParent]

end Place

section

variable {α : Type}

/-- A listed item below child number `i`. -/
def under (i : Nat) (item : Place × α) : Place × α :=
  (i :: item.1, item.2)

/-- The listings of several trees one after the other, the first being tree number `i`. -/
def shelve (i : Nat) : List (List (Place × α)) → List (Place × α)
  | [] => []
  | l :: ls => l.map (under i) ++ shelve (i + 1) ls

/-- The positions of a second list go on where those of the first end. -/
theorem shelve_append (i : Nat) (xs ys : List (List (Place × α))) :
    shelve i (xs ++ ys) = shelve i xs ++ shelve (i + xs.length) ys := by
  induction xs generalizing i with
  | nil => simp [shelve]
  | cons x xs ih =>
      have hnumber : i + 1 + xs.length = i + (x :: xs).length := by
        rw [List.length_cons]
        omega
      rw [List.cons_append, shelve, shelve, ih, List.append_assoc, hnumber]

/-- An item stands on a shelf exactly when one of the trees lists it. -/
theorem mem_shelve {i : Nat} {ls : List (List (Place × α))} {item : Place × α} :
    item ∈ shelve i ls ↔
      ∃ j l q, ls[j]? = some l ∧ item.1 = (i + j) :: q ∧ (q, item.2) ∈ l := by
  induction ls generalizing i with
  | nil => simp [shelve]
  | cons l ls ih =>
      rw [shelve, List.mem_append, List.mem_map, ih]
      constructor
      · intro hitem
        rcases hitem with ⟨below, hbelow, rfl⟩ | ⟨j, l', q, hl', hplace, hmem⟩
        · exact ⟨0, l, below.1, rfl, rfl, hbelow⟩
        · exact ⟨j + 1, l', q, hl', by rw [hplace]; congr 1; omega, hmem⟩
      · intro hitem
        obtain ⟨j, l', q, hl', hplace, hmem⟩ := hitem
        cases j with
        | zero =>
            cases hl'
            exact Or.inl ⟨(q, item.2), hmem, Prod.ext hplace.symm rfl⟩
        | succ j =>
            exact Or.inr ⟨j, l', q, hl', by rw [hplace]; congr 1; omega, hmem⟩

/-- With a root in front of the shelf, the root stands at the top. -/
theorem mem_root_shelve_nil {root item : α} {ls : List (List (Place × α))} :
    ([], item) ∈ ([], root) :: shelve 0 ls ↔ item = root := by
  rw [List.mem_cons, mem_shelve]
  constructor
  · intro hmem
    rcases hmem with heq | ⟨_, _, _, _, hplace, _⟩
    · exact (Prod.mk.inj heq).2
    · cases hplace
  · intro heq
    subst heq
    exact Or.inl rfl

/-- With a root in front of the shelf, the trees stand below the top, each under its number. -/
theorem mem_root_shelve_cons {β : Type} {root item : α} {xs : List β}
    {list : β → List (Place × α)} {i : Nat} {p : Place} :
    (i :: p, item) ∈ ([], root) :: shelve 0 (xs.map list) ↔
      ∃ x, xs[i]? = some x ∧ (p, item) ∈ list x := by
  rw [List.mem_cons, mem_shelve]
  constructor
  · intro hspot
    rcases hspot with heq | ⟨j, l, q, hl, hplace, hmem⟩
    · cases (Prod.mk.inj heq).1
    · rw [Nat.zero_add] at hplace
      obtain ⟨rfl, rfl⟩ := List.cons.inj hplace
      rw [List.getElem?_map] at hl
      obtain ⟨x, hx, rfl⟩ := Option.map_eq_some_iff.mp hl
      exact ⟨x, hx, hmem⟩
  · intro hspot
    obtain ⟨x, hx, hmem⟩ := hspot
    refine Or.inr ⟨i, list x, p, ?_, by rw [Nat.zero_add], hmem⟩
    rw [List.getElem?_map, hx, Option.map_some]

/-- Shelving changes places only; what stands there is kept in order. -/
theorem map_snd_shelve (i : Nat) (ls : List (List (Place × α))) :
    (shelve i ls).map Prod.snd = ls.flatMap (List.map Prod.snd) := by
  induction ls generalizing i with
  | nil => rfl
  | cons l ls ih =>
      rw [shelve, List.map_append, List.map_map, ih, List.flatMap_cons]
      rfl

/-- Listings in lexicographic order make up a shelf in lexicographic order. -/
theorem pairwise_shelve {i : Nat} {ls : List (List (Place × α))}
    (h : ∀ l ∈ ls, (l.map Prod.fst).Pairwise (· < ·)) :
    ((shelve i ls).map Prod.fst).Pairwise (· < ·) := by
  induction ls generalizing i with
  | nil => simp [shelve]
  | cons l ls ih =>
      rw [shelve, List.map_append, List.pairwise_append]
      refine ⟨?_, ih fun l' hl' => h l' (List.mem_cons_of_mem _ hl'), ?_⟩
      · have hfirst := h l List.mem_cons_self
        rw [List.map_map]
        rw [List.pairwise_map] at hfirst ⊢
        exact hfirst.imp fun hlt => List.cons_lt_cons_iff.mpr (Or.inr ⟨rfl, hlt⟩)
      · intro p hp q hq
        obtain ⟨_, hitem, rfl⟩ := List.mem_map.mp hp
        obtain ⟨item, _, rfl⟩ := List.mem_map.mp hitem
        obtain ⟨other, hother, rfl⟩ := List.mem_map.mp hq
        obtain ⟨j, _, q, _, hplace, _⟩ := mem_shelve.mp hother
        rw [hplace]
        exact List.cons_lt_cons_iff.mpr (Or.inl (by omega))

/-- A root in front of such a shelf keeps the order. -/
theorem pairwise_root_shelve (root : α) {ls : List (List (Place × α))}
    (h : ∀ l ∈ ls, (l.map Prod.fst).Pairwise (· < ·)) :
    ((([], root) :: shelve 0 ls).map Prod.fst).Pairwise (· < ·) := by
  rw [List.map_cons, List.pairwise_cons]
  refine ⟨?_, pairwise_shelve h⟩
  intro p hp
  obtain ⟨item, hitem, rfl⟩ := List.mem_map.mp hp
  obtain ⟨j, _, q, _, hplace, _⟩ := mem_shelve.mp hitem
  rw [hplace]
  exact List.nil_lt_cons _ _

end

namespace Node

mutual

/-- Every node at and below a node with its place, parents before their children. -/
def located : Node → List (Place × Node)
  | ⟨kind, startByte, endByte, name, extendedType, parameterClause, binding, children⟩ =>
    ([], ⟨kind, startByte, endByte, name, extendedType, parameterClause, binding, children⟩) ::
      shelve 0 (locatedEach children)

/-- The listings of several nodes. -/
def locatedEach : List Node → List (List (Place × Node))
  | [] => []
  | n :: ns => located n :: locatedEach ns

end

theorem locatedEach_eq_map (ns : List Node) : locatedEach ns = ns.map located := by
  induction ns with
  | nil => rfl
  | cons n ns ih => rw [locatedEach, ih, List.map_cons]

/-- A node stands at the root, its children stand below it by position. -/
theorem located_eq (n : Node) : n.located = ([], n) :: shelve 0 (n.children.map located) := by
  cases n
  rw [located, locatedEach_eq_map]

/-- At the top of a tree stands its root. -/
theorem mem_located_nil {n m : Node} : ([], m) ∈ n.located ↔ m = n := by
  rw [located_eq]
  exact mem_root_shelve_nil

/-- Below the top of a tree stand the nodes of its children. -/
theorem mem_located_cons {n m : Node} {i : Nat} {p : Place} :
    (i :: p, m) ∈ n.located ↔ ∃ c, n.children[i]? = some c ∧ (p, m) ∈ c.located := by
  rw [located_eq]
  exact mem_root_shelve_cons

/-- What stands in a child stands in its parent. -/
theorem mem_located_of_child {n c : Node} {spot : Place × Node} (hc : c ∈ n.children)
    (hspot : spot ∈ c.located) : ∃ p, (p, spot.2) ∈ n.located := by
  obtain ⟨i, hi⟩ := List.getElem?_of_mem hc
  exact ⟨i :: spot.1, mem_located_cons.mpr ⟨c, hi, hspot⟩⟩

/-- Nodes are listed in the lexicographic order of their places. -/
theorem pairwise_located (n : Node) : (n.located.map Prod.fst).Pairwise (· < ·) := by
  induction n using Node.childrenInduction with
  | step n ih =>
      rw [located_eq]
      apply pairwise_root_shelve
      intro l hl
      obtain ⟨c, hc, rfl⟩ := List.mem_map.mp hl
      exact ih c hc

end Node

namespace Symbol

mutual

/-- Every symbol at and below a symbol with its place, parents before their members. -/
def located : Symbol → List (Place × Symbol)
  | ⟨kind, name, startLine, endLine, typeLabel, members⟩ =>
    ([], ⟨kind, name, startLine, endLine, typeLabel, members⟩) :: shelve 0 (locatedEach members)

/-- The listings of several symbols. -/
def locatedEach : List Symbol → List (List (Place × Symbol))
  | [] => []
  | s :: ss => located s :: locatedEach ss

end

theorem locatedEach_eq_map (symbols : List Symbol) :
    locatedEach symbols = symbols.map located := by
  induction symbols with
  | nil => rfl
  | cons s ss ih => rw [locatedEach, ih, List.map_cons]

/-- A symbol stands at the root, its members stand below it by position. -/
theorem located_eq (s : Symbol) : s.located = ([], s) :: shelve 0 (s.members.map located) := by
  cases s
  rw [located, locatedEach_eq_map]

/-- Every symbol of a forest with its place, the first tree being tree number `i`. -/
def forest (i : Nat) (symbols : List Symbol) : List (Place × Symbol) :=
  shelve i (symbols.map located)

/-- The roots of a second forest are numbered on from those of the first. -/
theorem forest_append (i : Nat) (xs ys : List Symbol) :
    forest i (xs ++ ys) = forest i xs ++ forest (i + xs.length) ys := by
  unfold forest
  rw [List.map_append, shelve_append, List.length_map]

/-- A forest of one tree. -/
theorem forest_singleton (i : Nat) (s : Symbol) :
    forest i [s] = ([i], s) :: (forest 0 s.members).map (under i) := by
  simp only [forest, List.map_cons, List.map_nil, shelve, List.append_nil, located_eq s]
  rfl

/-- Symbols are listed in the lexicographic order of their places. -/
theorem pairwise_located (s : Symbol) : (s.located.map Prod.fst).Pairwise (· < ·) := by
  induction s using Symbol.membersInduction with
  | step s ih =>
      rw [located_eq]
      apply pairwise_root_shelve
      intro l hl
      obtain ⟨m, hm, rfl⟩ := List.mem_map.mp hl
      exact ih m hm

/-- The places of a forest are listed in order, each once. -/
theorem pairwise_forest (i : Nat) (symbols : List Symbol) :
    ((forest i symbols).map Prod.fst).Pairwise (· < ·) := by
  apply pairwise_shelve
  intro l hl
  obtain ⟨s, _, rfl⟩ := List.mem_map.mp hl
  exact s.pairwise_located

/-- Without its places the listing is the one in pre-order. -/
theorem map_snd_located (s : Symbol) : s.located.map Prod.snd = s.listing := by
  induction s using Symbol.membersInduction with
  | step s ih =>
      rw [located_eq, List.map_cons, map_snd_shelve, List.flatMap_map, listing_eq,
        listings_eq_flatMap]
      exact congrArg (s :: ·) (List.flatMap_congr ih)

/-- A forest lists the trees one after the other. -/
theorem map_snd_forest (i : Nat) (symbols : List Symbol) :
    (forest i symbols).map Prod.snd = listings symbols := by
  rw [forest, map_snd_shelve, List.flatMap_map, listings_eq_flatMap]
  exact List.flatMap_congr fun s _ => s.map_snd_located

/-- The places of a forest start with the number of a tree. -/
theorem exists_cons_of_mem_forest {i : Nat} {symbols : List Symbol} {item : Place × Symbol}
    (h : item ∈ forest i symbols) :
    ∃ j q, item.1 = j :: q ∧ i ≤ j ∧ j < i + symbols.length := by
  obtain ⟨j, l, q, hl, hplace, _⟩ := mem_shelve.mp h
  have hj := (List.getElem?_eq_some_iff.mp hl).1
  rw [List.length_map] at hj
  exact ⟨i + j, q, hplace, by omega, by omega⟩

end Symbol

end SourceOutline
