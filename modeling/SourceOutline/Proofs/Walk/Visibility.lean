import SourceOutline.Proofs.Places
import SourceOutline.Proofs.Walk.Recursion

/-!
# The outline lists exactly the visible nodes

Whether a node shows in an outline is a condition on the nodes above it (`Node.Visible`):
it declares something, no variable is above it, and callables above it hide it in a
shallow outline and hide variables in a deep one.

The main statement pairs the visible nodes, in the order of the tree, with the symbols of
the outline, in the order of the outline.  Both orders are lexicographic in the places, a
symbol is the record of its node, and its parent is the symbol of the nearest visible
node above.

The pairing is built along the recursion as a table of rows (`Linked`).  A table is
closed under three moves: putting nodes under a parent, appending a table whose places
are separate, and putting a symbol on top of everything so far.
-/

namespace SourceOutline

namespace Node

/-- The node declares a variable. -/
def isVariable (n : Node) : Bool :=
  n.kind = .declares .varDecl

/-- The node declares something with an executable body. -/
def isCallable (n : Node) : Bool :=
  n.kind.symbolKind?.any Kind.isCallable

/-- Some node with the property is a proper ancestor of the place. -/
def SomeAbove (property : Node → Bool) (root : Node) (p : Place) : Prop :=
  ∃ above ∈ root.located, Place.Above above.1 p ∧ property above.2 = true

instance (property : Node → Bool) (root : Node) (p : Place) :
    Decidable (SomeAbove property root p) :=
  inferInstanceAs (Decidable (∃ above ∈ root.located, _))

/-- The node at this place shows in an outline of the tree. -/
def Visible (deep : Bool) (root : Node) (spot : Place × Node) : Prop :=
  spot.2.kind ≠ .other ∧ ¬ SomeAbove isVariable root spot.1 ∧
    (deep = false → ¬ SomeAbove isCallable root spot.1) ∧
    (deep = true → ¬ (spot.2.isVariable = true ∧ SomeAbove isCallable root spot.1))

instance (deep : Bool) (root : Node) (spot : Place × Node) : Decidable (Visible deep root spot) :=
  inferInstanceAs (Decidable (_ ∧ _ ∧ _ ∧ _))

/-- The visible nodes with their places, in the order of the tree. -/
def visibleNodes (deep : Bool) (root : Node) : List (Place × Node) :=
  root.located.filter (Visible deep root)

/-- Nothing is above the root. -/
theorem not_someAbove_nil (property : Node → Bool) (root : Node) :
    ¬ SomeAbove property root [] := by
  intro hsome
  obtain ⟨above, _, habove, _⟩ := hsome
  exact Place.not_above_nil _ habove

/-- What is above a place in a child is the root or above the place in the child. -/
theorem someAbove_cons {property : Node → Bool} {root c : Node} {i : Nat} {p : Place}
    (hc : root.children[i]? = some c) :
    SomeAbove property root (i :: p) ↔ property root = true ∨ SomeAbove property c p := by
  constructor
  · intro hsome
    obtain ⟨⟨q, above⟩, hmem, habove, hprop⟩ := hsome
    cases q with
    | nil =>
        rw [mem_located_nil] at hmem
        subst hmem
        exact Or.inl hprop
    | cons j q =>
        obtain ⟨rfl, hbelow⟩ := Place.cons_above_cons.mp habove
        obtain ⟨c', hc', hmem⟩ := mem_located_cons.mp hmem
        cases hc.symm.trans hc'
        exact Or.inr ⟨(q, above), hmem, hbelow, hprop⟩
  · intro hsome
    rcases hsome with hprop | ⟨⟨q, above⟩, hmem, habove, hprop⟩
    · exact ⟨([], root), mem_located_nil.mpr rfl, Place.nil_above_cons i p, hprop⟩
    · exact ⟨(i :: q, above), mem_located_cons.mpr ⟨c, hc, hmem⟩,
        Place.cons_above_cons.mpr ⟨rfl, habove⟩, hprop⟩

/-- The node at this place shows in an outline of the tree, where `inBody` says whether a
callable stands above the tree itself.  A deep walk asks for it only at variables, and a
shallow one never gets below a callable. -/
def VisibleIn (deep inBody : Bool) (root : Node) (spot : Place × Node) : Prop :=
  spot.2.kind ≠ .other ∧ ¬ SomeAbove isVariable root spot.1 ∧
    (deep = false → ¬ SomeAbove isCallable root spot.1) ∧
    (deep = true →
      ¬ (spot.2.isVariable = true ∧ (inBody = true ∨ SomeAbove isCallable root spot.1)))

instance (deep inBody : Bool) (root : Node) (spot : Place × Node) :
    Decidable (VisibleIn deep inBody root spot) :=
  inferInstanceAs (Decidable (_ ∧ _ ∧ _ ∧ _))

/-- The nodes that show, with `inBody` as in `VisibleIn`. -/
def visibleIn (deep inBody : Bool) (root : Node) : List (Place × Node) :=
  root.located.filter (VisibleIn deep inBody root)

/-- The visible nodes are those seen from outside any callable. -/
theorem visibleNodes_eq (deep : Bool) (root : Node) :
    root.visibleNodes deep = root.visibleIn deep false := by
  apply List.filter_congr
  intro spot _
  simp [Visible, VisibleIn]

/-- The walk goes on to the children of such a node. -/
def Opens (deep : Bool) (n : Node) : Prop :=
  n.isVariable = false ∧ (n.isCallable = true → deep = true)

/-- Below a node whose children are walked, what shows is what shows in the child. -/
theorem visibleIn_cons_of_opens {deep inBody : Bool} {root c : Node} {i : Nat}
    (hopens : root.Opens deep) (hc : root.children[i]? = some c) (spot : Place × Node) :
    VisibleIn deep inBody root (under i spot) ↔
      VisibleIn deep (inBody || root.isCallable) c spot := by
  obtain ⟨hvar, hcall⟩ := hopens
  simp only [VisibleIn, under, someAbove_cons hc, hvar]
  cases deep <;> cases hb : root.isCallable <;> simp_all

/-- Below any other node nothing shows. -/
theorem not_visibleIn_cons {deep inBody : Bool} {root c : Node} {i : Nat}
    (hopens : ¬ root.Opens deep) (hc : root.children[i]? = some c) (spot : Place × Node) :
    ¬ VisibleIn deep inBody root (under i spot) := by
  simp only [VisibleIn, under, someAbove_cons hc]
  intro ⟨_, hvar, hcall, _⟩
  apply hopens
  refine ⟨by simp_all, fun hroot => ?_⟩
  cases deep with
  | true => rfl
  | false => exact absurd (Or.inl hroot) (hcall rfl)

/-- The root of a tree shows when it is no variable in a body. -/
theorem visibleIn_root {deep inBody : Bool} {root : Node} :
    VisibleIn deep inBody root ([], root) ↔
      root.kind ≠ .other ∧ ¬ (deep = true ∧ inBody = true ∧ root.isVariable = true) := by
  simp only [VisibleIn, not_someAbove_nil]
  grind

/-- Filtering a shelf whose trees have filters of their own. -/
theorem filter_shelve {keep : Place × Node → Bool} {keepIn : Node → Place × Node → Bool}
    {i : Nat} {ns : List Node}
    (h : ∀ j c, ns[j]? = some c → ∀ spot, keep (under (i + j) spot) = keepIn c spot) :
    (shelve i (ns.map located)).filter keep =
      shelve i (ns.map fun c => c.located.filter (keepIn c)) := by
  induction ns generalizing i with
  | nil => rfl
  | cons n ns ih =>
      have hfirst : keep ∘ under i = keepIn n := by
        funext spot
        exact h 0 n rfl spot
      have hothers : ∀ j c, ns[j]? = some c →
          ∀ spot, keep (under (i + 1 + j) spot) = keepIn c spot := by
        intro j c hc spot
        rw [Nat.add_right_comm]
        exact h (j + 1) c hc spot
      simp only [List.map_cons, shelve, List.filter_append, List.filter_map, hfirst, ih hothers]

/-- The visible nodes of a tree whose root is walked through. -/
theorem visibleIn_of_opens {deep inBody : Bool} {root : Node} (hopens : root.Opens deep) :
    root.visibleIn deep inBody =
      (if root.kind = .other then [] else [([], root)]) ++
        shelve 0 (root.children.map (visibleIn deep (inBody || root.isCallable))) := by
  have hbelow : (shelve 0 (root.children.map located)).filter (VisibleIn deep inBody root) =
      shelve 0 (root.children.map (visibleIn deep (inBody || root.isCallable))) := by
    apply filter_shelve
    intro j c hc spot
    rw [Nat.zero_add]
    exact decide_eq_decide.mpr (visibleIn_cons_of_opens hopens hc spot)
  -- A node that is walked through is no variable, so only transparency hides it.
  have hroot : VisibleIn deep inBody root ([], root) ↔ root.kind ≠ .other := by
    rw [visibleIn_root, hopens.1]
    simp
  rw [visibleIn, located_eq, List.filter_cons, hbelow]
  by_cases hkind : root.kind = .other <;> simp [hroot, hkind]

/-- The visible nodes of a tree whose root hides everything below it. -/
theorem visibleIn_of_not_opens {deep inBody : Bool} {root : Node}
    (hopens : ¬ root.Opens deep) :
    root.visibleIn deep inBody =
      if VisibleIn deep inBody root ([], root) then [([], root)] else [] := by
  have hbelow : (shelve 0 (root.children.map located)).filter
      (VisibleIn deep inBody root) = [] := by
    rw [List.filter_eq_nil_iff]
    intro spot hspot
    obtain ⟨j, l, q, hl, hplace, _⟩ := mem_shelve.mp hspot
    rw [List.getElem?_map] at hl
    obtain ⟨c, hc, rfl⟩ := Option.map_eq_some_iff.mp hl
    rw [Nat.zero_add] at hplace
    have hunder : spot = under j (q, spot.2) := Prod.ext hplace rfl
    rw [hunder, decide_eq_true_eq]
    exact not_visibleIn_cons hopens hc _
  rw [visibleIn, located_eq, List.filter_cons, hbelow]
  by_cases hroot : VisibleIn deep inBody root ([], root) <;> simp [hroot]

end Node

/-- A node at its place beside a symbol at its place. -/
structure Row where
  nodePlace : Place
  node : Node
  symbolPlace : Place
  symbol : Symbol

namespace Row

/-- The node of a row with its place. -/
def declared (r : Row) : Place × Node :=
  (r.nodePlace, r.node)

/-- The symbol of a row with its place. -/
def outlined (r : Row) : Place × Symbol :=
  (r.symbolPlace, r.symbol)

/-- The row with its node moved under child number `i`. -/
def nodeUnder (i : Nat) (r : Row) : Row :=
  { r with nodePlace := i :: r.nodePlace }

/-- The row with its symbol moved under member number `i`. -/
def symbolUnder (i : Nat) (r : Row) : Row :=
  { r with symbolPlace := i :: r.symbolPlace }

end Row

/-- The rows pair nodes with their symbols. -/
structure Linked (lineOf : Resolver) (options : OutlineOptions) (rows : List Row) : Prop where
  /-- A symbol is the record of its node, with members added. -/
  record : ∀ r ∈ rows, ∃ kind, r.node.kind = .declares kind ∧
    { r.symbol with members := [] } = r.node.symbol lineOf options kind
  /-- One symbol is the parent of another exactly when its node is the nearest paired node
  above the node of the other. -/
  parent : ∀ r ∈ rows, ∀ s ∈ rows, Place.IsParent s.symbolPlace r.symbolPlace ↔
    Place.Above s.nodePlace r.nodePlace ∧
      ∀ t ∈ rows, Place.Above t.nodePlace r.nodePlace → t.nodePlace <+: s.nodePlace
  /-- A symbol is a root exactly when no paired node is above its node. -/
  root : ∀ r ∈ rows, (∃ i, r.symbolPlace = [i]) ↔
    ∀ s ∈ rows, ¬ Place.Above s.nodePlace r.nodePlace

namespace Linked

variable {lineOf : Resolver} {options : OutlineOptions} {rows others : List Row}

theorem nil : Linked lineOf options [] :=
  ⟨nofun, nofun, nofun⟩

/-- Nodes that are moved under a common parent stay linked. -/
theorem map_nodeUnder (h : Linked lineOf options rows) (i : Nat) :
    Linked lineOf options (rows.map (Row.nodeUnder i)) := by
  constructor
  · exact List.forall_mem_map.mpr h.record
  · simpa only [List.forall_mem_map, Row.nodeUnder, Place.cons_above_cons, true_and,
      List.cons_prefix_cons] using h.parent
  · simpa only [List.forall_mem_map, Row.nodeUnder, Place.cons_above_cons, true_and] using h.root

/-- Two places in different trees of a forest. -/
def Separate (p q : Place) : Prop :=
  ∃ i j p' q', p = i :: p' ∧ q = j :: q' ∧ i ≠ j

theorem Separate.symm {p q : Place} (h : Separate p q) : Separate q p := by
  obtain ⟨i, j, p', q', hp, hq, hne⟩ := h
  exact ⟨j, i, q', p', hq, hp, hne.symm⟩

/-- No place is above one in another tree. -/
theorem Separate.not_above {p q : Place} (h : Separate p q) : ¬ Place.Above p q := by
  obtain ⟨i, j, p', q', rfl, rfl, hne⟩ := h
  rw [Place.cons_above_cons]
  exact fun habove => hne habove.1

/-- No place is the parent of one in another tree. -/
theorem Separate.not_isParent {p q : Place} (h : Separate p q) : ¬ Place.IsParent p q := by
  obtain ⟨i, j, p', q', rfl, rfl, hne⟩ := h
  rw [Place.cons_isParent_cons]
  exact fun hparent => hne hparent.1

/-- Tables for different trees are put together. -/
theorem append (h : Linked lineOf options rows) (h' : Linked lineOf options others)
    (hnodes : ∀ r ∈ rows, ∀ s ∈ others, Separate r.nodePlace s.nodePlace)
    (hsymbols : ∀ r ∈ rows, ∀ s ∈ others, Separate r.symbolPlace s.symbolPlace) :
    Linked lineOf options (rows ++ others) := by
  -- No node of one table is above a node of the other, so each keeps its nearest nodes.
  have hrows : ∀ r ∈ rows, ∀ s ∈ others, ¬ Place.Above s.nodePlace r.nodePlace :=
    fun r hr s hs => (hnodes r hr s hs).symm.not_above
  have hothers : ∀ r ∈ others, ∀ s ∈ rows, ¬ Place.Above s.nodePlace r.nodePlace :=
    fun r hr s hs => (hnodes s hs r hr).not_above
  constructor
  · exact List.forall_mem_append.mpr ⟨h.record, h'.record⟩
  · intro r hr s hs
    rw [List.forall_mem_append]
    rcases List.mem_append.mp hr with hr | hr <;> rcases List.mem_append.mp hs with hs | hs
    · have hnone : ∀ t ∈ others, Place.Above t.nodePlace r.nodePlace →
          t.nodePlace <+: s.nodePlace :=
        fun t ht habove => absurd habove (hrows r hr t ht)
      rw [h.parent r hr s hs]
      exact and_congr_right fun _ => ⟨fun hnear => ⟨hnear, hnone⟩, And.left⟩
    · exact iff_of_false (hsymbols r hr s hs).symm.not_isParent
        fun hnear => hrows r hr s hs hnear.1
    · exact iff_of_false (hsymbols s hs r hr).not_isParent
        fun hnear => hothers r hr s hs hnear.1
    · have hnone : ∀ t ∈ rows, Place.Above t.nodePlace r.nodePlace →
          t.nodePlace <+: s.nodePlace :=
        fun t ht habove => absurd habove (hothers r hr t ht)
      rw [h'.parent r hr s hs]
      exact and_congr_right fun _ => ⟨fun hnear => ⟨hnone, hnear⟩, And.right⟩
  · intro r hr
    rw [List.forall_mem_append]
    rcases List.mem_append.mp hr with hr | hr
    · rw [h.root r hr]
      exact ⟨fun hfree => ⟨hfree, hrows r hr⟩, And.left⟩
    · rw [h'.root r hr]
      exact ⟨fun hfree => ⟨hothers r hr, hfree⟩, And.right⟩

/-- A symbol is put on top of a whole table. -/
theorem cons {n : Node} {symbol : Symbol} {kind : Kind} (h : Linked lineOf options rows)
    (hkind : n.kind = .declares kind)
    (hrecord : { symbol with members := [] } = n.symbol lineOf options kind)
    (hnodes : ∀ r ∈ rows, r.nodePlace ≠ []) (hsymbols : ∀ r ∈ rows, r.symbolPlace ≠ [])
    (i : Nat) :
    Linked lineOf options
      (⟨[], n, [i], symbol⟩ :: rows.map (Row.symbolUnder i)) := by
  have htop : ∀ r ∈ rows, Place.Above [] r.nodePlace :=
    fun r hr => ⟨List.nil_prefix, (hnodes r hr).symm⟩
  constructor
  · rw [List.forall_mem_cons, List.forall_mem_map]
    exact ⟨⟨kind, hkind, hrecord⟩, h.record⟩
  · simp only [List.forall_mem_cons, List.forall_mem_map, Row.symbolUnder]
    refine ⟨⟨?_, ?_⟩, ?_⟩
    · exact iff_of_false (Place.not_isParent_singleton i i [])
        fun hnear => Place.not_above_nil _ hnear.1
    · intro s _
      exact iff_of_false (Place.not_isParent_singleton i i s.symbolPlace)
        fun hnear => Place.not_above_nil _ hnear.1
    · intro r hr
      constructor
      · -- The new top is the parent of the former roots: nothing else is above these.
        rw [Place.isParent_singleton, h.root r hr]
        constructor
        · intro hfree
          exact ⟨htop r hr, fun _ => List.prefix_refl _, fun t ht habove =>
            absurd habove (hfree t ht)⟩
        · intro hnearest t ht habove
          obtain ⟨_, _, hnear⟩ := hnearest
          exact hnodes t ht (List.prefix_nil.mp (hnear t ht habove))
      · intro s hs
        rw [Place.cons_isParent_cons, h.parent r hr s hs]
        constructor
        · intro hnearest
          obtain ⟨_, habove, hnear⟩ := hnearest
          exact ⟨habove, fun _ => List.nil_prefix, hnear⟩
        · intro hnearest
          obtain ⟨habove, _, hnear⟩ := hnearest
          exact ⟨rfl, habove, hnear⟩
  · simp only [List.forall_mem_cons, List.forall_mem_map, Row.symbolUnder]
    refine ⟨?_, ?_⟩
    · exact iff_of_true ⟨i, rfl⟩ ⟨Place.not_above_nil _, fun s _ => Place.not_above_nil _⟩
    · intro r hr
      refine iff_of_false ?_ fun hfree => hfree.1 (htop r hr)
      intro hroot
      obtain ⟨j, hj⟩ := hroot
      exact hsymbols r hr (List.cons.inj hj).2

end Linked

/-- Some table pairs exactly these nodes with exactly these symbols, in order. -/
def Paired (lineOf : Resolver) (options : OutlineOptions) (nodes : List (Place × Node))
    (symbols : List (Place × Symbol)) : Prop :=
  ∃ rows : List Row, rows.map Row.declared = nodes ∧ rows.map Row.outlined = symbols ∧
    Linked lineOf options rows

namespace Paired

variable {lineOf : Resolver} {options : OutlineOptions}

theorem nil : Paired lineOf options [] [] :=
  ⟨[], rfl, rfl, Linked.nil⟩

/-- Paired trees make up paired forests. -/
theorem flatMap {ns : List Node} {shown : Node → List (Place × Node)}
    {symbols : Node → List Symbol}
    (h : ∀ n ∈ ns, ∀ k, Paired lineOf options (shown n) (Symbol.forest k (symbols n)))
    (i k : Nat) :
    Paired lineOf options (shelve i (ns.map shown)) (Symbol.forest k (ns.flatMap symbols)) := by
  induction ns generalizing i k with
  | nil => exact nil
  | cons n ns ih =>
      obtain ⟨rows, hnodes, hsymbols, hlinked⟩ := h n List.mem_cons_self k
      obtain ⟨others, hnodes', hsymbols', hlinked'⟩ :=
        ih (fun m hm => h m (List.mem_cons_of_mem _ hm)) (i + 1) (k + (symbols n).length)
      refine ⟨rows.map (Row.nodeUnder i) ++ others, ?_, ?_,
        (hlinked.map_nodeUnder i).append hlinked' ?_ ?_⟩
      · rw [List.map_append, hnodes', List.map_cons, shelve, ← hnodes, List.map_map,
          List.map_map]
        rfl
      · rw [List.map_append, hsymbols', List.flatMap_cons, Symbol.forest_append, ← hsymbols,
          List.map_map]
        rfl
      · rw [List.forall_mem_map]
        intro r _ s hs
        have hshelf : s.declared ∈ shelve (i + 1) (ns.map shown) :=
          hnodes' ▸ List.mem_map_of_mem hs
        obtain ⟨j, _, q, _, hplace, _⟩ := mem_shelve.mp hshelf
        exact ⟨i, i + 1 + j, r.nodePlace, q, rfl, hplace, by omega⟩
      · rw [List.forall_mem_map]
        intro r hr s hs
        have hfirst : r.outlined ∈ Symbol.forest k (symbols n) :=
          hsymbols ▸ List.mem_map_of_mem hr
        have hlater : s.outlined ∈
            Symbol.forest (k + (symbols n).length) (ns.flatMap symbols) :=
          hsymbols' ▸ List.mem_map_of_mem hs
        obtain ⟨j, q, hplace, _, hj⟩ := Symbol.exists_cons_of_mem_forest hfirst
        obtain ⟨j', q', hplace', hj', _⟩ := Symbol.exists_cons_of_mem_forest hlater
        exact ⟨j, j', q, q', hplace, hplace', by omega⟩

/-- A node with a symbol on top of a paired forest. -/
theorem top {n : Node} {symbol : Symbol} {kind : Kind} {shelves : List (List (Place × Node))}
    (h : Paired lineOf options (shelve 0 shelves) (Symbol.forest 0 symbol.members))
    (hkind : n.kind = .declares kind)
    (hrecord : { symbol with members := [] } = n.symbol lineOf options kind) (k : Nat) :
    Paired lineOf options (([], n) :: shelve 0 shelves) (Symbol.forest k [symbol]) := by
  obtain ⟨rows, hnodes, hsymbols, hlinked⟩ := h
  refine ⟨⟨[], n, [k], symbol⟩ :: rows.map (Row.symbolUnder k), ?_, ?_,
    hlinked.cons hkind hrecord ?_ ?_ k⟩
  · rw [List.map_cons, List.map_map, ← hnodes]
    rfl
  · rw [List.map_cons, List.map_map, Symbol.forest_singleton, ← hsymbols, List.map_map]
    rfl
  · intro r hr
    have hshelf : r.declared ∈ shelve 0 shelves := hnodes ▸ List.mem_map_of_mem hr
    obtain ⟨j, _, q, _, hplace, _⟩ := mem_shelve.mp hshelf
    intro hempty
    exact List.cons_ne_nil _ _ (hplace.symm.trans hempty)
  · intro r hr
    have hforest : r.outlined ∈ Symbol.forest 0 symbol.members :=
      hsymbols ▸ List.mem_map_of_mem hr
    obtain ⟨j, q, hplace, _⟩ := Symbol.exists_cons_of_mem_forest hforest
    intro hempty
    exact List.cons_ne_nil _ _ (hplace.symm.trans hempty)

/-- A node with a symbol that has no members. -/
theorem leaf {n : Node} {kind : Kind} (hkind : n.kind = .declares kind) (k : Nat) :
    Paired lineOf options [([], n)] (Symbol.forest k [n.symbol lineOf options kind]) := by
  have hempty : Paired lineOf options (shelve 0 [])
      (Symbol.forest 0 (n.symbol lineOf options kind).members) := nil
  exact top hempty hkind rfl k

end Paired

namespace Node

/-- A declaration is a variable when its kind is one. -/
theorem isVariable_of_declares {n : Node} {kind : Kind} (h : n.kind = .declares kind) :
    n.isVariable = decide (kind.role = .value) := by
  cases kind <;> simp [isVariable, h, Kind.role]

/-- A declaration is a callable when its kind is one. -/
theorem isCallable_of_declares {n : Node} {kind : Kind} (h : n.kind = .declares kind) :
    n.isCallable = decide (kind.role = .callable) := by
  simp [isCallable, h, NodeKind.symbolKind?, Kind.isCallable]

/-- The outline of a tree is paired with what shows of the tree.  The flag of the
recursion says whether a callable stands above the tree. -/
theorem paired_symbols (lineOf : Resolver) (options : OutlineOptions) (n : Node)
    (inBody : Bool) (k : Nat) :
    Paired lineOf options (n.visibleIn options.deep inBody)
      (Symbol.forest k (n.symbols lineOf options inBody)) := by
  induction n using Node.childrenInduction generalizing inBody k with
  | step n ih =>
      cases hkind : n.kind with
      | other =>
          have hvar : n.isVariable = false := by simp [isVariable, hkind]
          have hcall : n.isCallable = false := by
            simp [isCallable, hkind, NodeKind.symbolKind?]
          rw [symbols_of_other _ _ _ hkind,
            visibleIn_of_opens ⟨hvar, fun h => absurd h (by simp [hcall])⟩, if_pos hkind,
            List.nil_append, hcall, Bool.or_false]
          exact Paired.flatMap (fun c hc => ih c hc inBody) 0 k
      | declares kind =>
          have hvar := isVariable_of_declares hkind
          have hcall := isCallable_of_declares hkind
          have hdeclares : n.kind ≠ .other := by simp [hkind]
          cases hrole : kind.role with
          | container =>
              simp only [hrole, reduceCtorEq, decide_false] at hvar hcall
              rw [symbols_of_container _ _ _ hkind hrole,
                visibleIn_of_opens ⟨hvar, fun h => absurd h (by simp [hcall])⟩,
                if_neg hdeclares, hcall, Bool.or_false]
              exact Paired.top (Paired.flatMap (fun c hc => ih c hc inBody) 0 0) hkind rfl k
          | callable =>
              simp only [hrole, reduceCtorEq, decide_false, decide_true] at hvar hcall
              rw [symbols_of_callable _ _ _ hkind hrole]
              split
              · next hdeep =>
                  -- The node itself is now the callable above everything in its children.
                  rw [visibleIn_of_opens ⟨hvar, fun _ => hdeep⟩, if_neg hdeclares, hcall,
                    Bool.or_true]
                  exact Paired.top (Paired.flatMap (fun c hc => ih c hc true) 0 0) hkind rfl k
              · next hdeep =>
                  rw [visibleIn_of_not_opens fun h => hdeep (h.2 hcall),
                    if_pos (visibleIn_root.mpr ⟨hdeclares, fun h => hdeep h.1⟩)]
                  exact Paired.leaf hkind k
          | value =>
              simp only [hrole, decide_true] at hvar
              rw [symbols_of_value _ _ _ hkind hrole,
                visibleIn_of_not_opens fun h => absurd h.1 (by simp [hvar])]
              by_cases hhidden : (options.deep && inBody) = true
              · have hflags := Bool.and_eq_true_iff.mp hhidden
                rw [if_pos hhidden,
                  if_neg fun h => (visibleIn_root.mp h).2 ⟨hflags.1, hflags.2, hvar⟩]
                exact Paired.nil
              · have hroot : ¬ (options.deep = true ∧ inBody = true ∧ n.isVariable = true) :=
                  fun h => hhidden (Bool.and_eq_true_iff.mpr ⟨h.1, h.2.1⟩)
                rw [if_neg hhidden, if_pos (visibleIn_root.mpr ⟨hdeclares, hroot⟩)]
                exact Paired.leaf hkind k

/-- Every symbol of an outline is the record of a node of the tree. -/
theorem exists_record_of_mem_listings {lineOf : Resolver} {options : OutlineOptions} {n : Node}
    {inBody : Bool} {s : Symbol} (h : s ∈ Symbol.listings (n.symbols lineOf options inBody)) :
    ∃ spot ∈ n.located, ∃ kind, spot.2.kind = .declares kind ∧
      { s with members := [] } = spot.2.symbol lineOf options kind := by
  obtain ⟨rows, hnodes, hsymbols, hlinked⟩ := n.paired_symbols lineOf options inBody 0
  rw [← Symbol.map_snd_forest 0, ← hsymbols, List.map_map] at h
  obtain ⟨r, hr, rfl⟩ := List.mem_map.mp h
  have hshown : r.declared ∈ n.visibleIn options.deep inBody :=
    hnodes ▸ List.mem_map_of_mem hr
  exact ⟨r.declared, List.mem_of_mem_filter hshown, hlinked.record r hr⟩

/-- A variable in a body does not show in a deep outline, however far above the callable
is and whatever lies between. -/
theorem not_mem_visibleNodes {root : Node} {spot : Place × Node}
    (hvar : spot.2.isVariable = true) (hbody : SomeAbove isCallable root spot.1) :
    spot ∉ root.visibleNodes true := by
  intro hmem
  have hvisible := of_decide_eq_true (List.mem_filter.mp hmem).2
  exact hvisible.2.2.2 rfl ⟨hvar, hbody⟩

end Node

/-- **The outline is the visible part of the tree.**  A table pairs the visible nodes in
the order of the tree with the symbols of the outline in the order in which they are
listed, so that each symbol is the record of its node and hangs below the symbol of the
nearest visible node above, or is a root when there is none.  The places on both sides
increase strictly, so nothing is listed twice. -/
theorem visibleNodes_paired_outline (lineOf : Resolver) (options : OutlineOptions)
    (root : Node) :
    (∃ rows : List Row,
      rows.map Row.declared = root.visibleNodes options.deep ∧
      rows.map Row.outlined = Symbol.forest 0 (outline lineOf options root) ∧
      rows.map Row.symbol = (outline lineOf options root).flatMap Symbol.descendants ∧
      Linked lineOf options rows ∧
      (rows.map Row.nodePlace).Pairwise (· < ·) ∧
      (rows.map Row.symbolPlace).Pairwise (· < ·)) ∧
    ∀ spot ∈ root.located, options.deep = true → spot.2.isVariable = true →
      Node.SomeAbove Node.isCallable root spot.1 → spot ∉ root.visibleNodes options.deep := by
  constructor
  · obtain ⟨rows, hnodes, hsymbols, hlinked⟩ := root.paired_symbols lineOf options false 0
    rw [← Node.visibleNodes_eq] at hnodes
    rw [← outline_eq_symbols] at hsymbols
    refine ⟨rows, hnodes, hsymbols, ?_, hlinked, ?_, ?_⟩
    · rw [Symbol.flatMap_descendants, ← Symbol.map_snd_forest 0, ← hsymbols, List.map_map]
      rfl
    · have hsorted : ((root.visibleNodes options.deep).map Prod.fst).Pairwise (· < ·) :=
        root.pairwise_located.sublist (List.filter_sublist.map Prod.fst)
      rw [← hnodes, List.map_map] at hsorted
      exact hsorted
    · have hsorted := Symbol.pairwise_forest 0 (outline lineOf options root)
      rw [← hsymbols, List.map_map] at hsorted
      exact hsorted
  · intro spot _ hdeep hvar hbody
    rw [hdeep]
    exact Node.not_mem_visibleNodes hvar hbody

/-- A function around a structure with a variable, another function and a variable. -/
def bodySample : Node where
  kind := .declares .funcDecl
  startByte := 0
  endByte := 9
  children := [
    { kind := .declares .structDecl, startByte := 1, endByte := 4,
      children := [{ kind := .declares .varDecl, startByte := 2, endByte := 3 }] },
    { kind := .declares .funcDecl, startByte := 5, endByte := 6 },
    { kind := .declares .varDecl, startByte := 7, endByte := 8 }]

/-- The structure between does not uncover its variable, and the variable after the inner
function stays hidden with it. -/
theorem bodySample_variable_hidden :
    let spot : Place × Node :=
      ([0, 0], { kind := .declares .varDecl, startByte := 2, endByte := 3 })
    spot ∈ bodySample.located ∧ spot.2.isVariable = true ∧
      Node.SomeAbove Node.isCallable bodySample spot.1 ∧
      spot ∉ bodySample.visibleNodes true ∧
      (bodySample.visibleNodes true).map Prod.fst = [[], [0], [1]] ∧
      (bodySample.visibleNodes false).map Prod.fst = [[]] := by
  intro spot
  have hmem : spot ∈ bodySample.located :=
    Node.mem_located_cons.mpr ⟨_, rfl, Node.mem_located_cons.mpr
      ⟨_, rfl, Node.mem_located_nil.mpr rfl⟩⟩
  have hbody : Node.SomeAbove Node.isCallable bodySample spot.1 := by decide
  have hhidden : spot ∉ bodySample.visibleNodes true :=
    (visibleNodes_paired_outline id ⟨true, false⟩ bodySample).2 spot hmem rfl rfl hbody
  exact ⟨hmem, rfl, hbody, hhidden, by decide, by decide⟩

end SourceOutline
