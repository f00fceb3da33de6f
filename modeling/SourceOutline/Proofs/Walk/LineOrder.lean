import Mathlib.Data.List.Chain
import SourceOutline.Proofs.Walk.Spans

/-!
# Outlines are in source order

When the nodes of a nested tree follow each other without overlap, so do the lines of the
outline: in every list of symbols, one symbol ends at or before the line on which a later one
starts, and the whole outline is listed by growing start lines.

1.  All symbols that come from a node have their lines between those of its ends, whatever
    depth they come from (`Node.Nested.lines_between`).
2.  So the symbols of two siblings are in order, and a list of children has its symbols in
    order when each child has (`Node.Ordered.pairwise_children`).  This serves the outlines of
    the children as well as their listings.
3.  Both induction steps then follow the forms of an outline (`Node.symbols_cases`).
-/

namespace SourceOutline

/-- The first symbol ends no later than on the line on which the second starts. -/
def Symbol.EndsBefore (a b : Symbol) : Prop :=
  a.endLine ≤ b.startLine

namespace Node

/-- The bytes of the first node come before those of the second.  An empty or reversed range
has no bytes. -/
def Precedes (m n : Node) : Prop :=
  m.startByte < m.endByte → n.startByte < n.endByte → m.endByte ≤ n.startByte

/-- A nested tree in which siblings follow each other without overlap. -/
structure Ordered (root : Node) : Prop extends Nested root where
  siblings : ∀ spot ∈ root.located, spot.2.children.Pairwise Precedes

/-- The children of an ordered node are ordered. -/
theorem Ordered.child {n c : Node} (h : n.Ordered) (hc : c ∈ n.children) : c.Ordered where
  toNested := h.toNested.child hc
  siblings := by
    intro spot hspot
    obtain ⟨p, hp⟩ := mem_located_of_child hc hspot
    exact h.siblings (p, spot.2) hp

/-- The children of an ordered node come one after another in the source. -/
theorem Ordered.pairwise_precedes {n : Node} (h : n.Ordered) : n.children.Pairwise Precedes :=
  h.siblings ([], n) (mem_located_nil.mpr rfl)

/-- Ranges that are not reversed are in order when each one ends before the next starts. -/
theorem pairwise_precedes_of_adjacent {ns : List Node}
    (hforward : ∀ n ∈ ns, n.startByte ≤ n.endByte)
    (hadjacent : ns.IsChain fun a b => a.endByte ≤ b.startByte) : ns.Pairwise Precedes := by
  have hpairwise : ns.Pairwise fun a b => a.endByte ≤ b.startByte := by
    induction ns with
    | nil => exact List.Pairwise.nil
    | cons n ns ih =>
        have hothers := ih (fun m hm => hforward m (List.mem_cons_of_mem _ hm)) hadjacent.tail
        refine List.pairwise_cons.mpr ⟨?_, hothers⟩
        intro m hm
        cases ns with
        | nil => cases hm
        | cons next rest =>
            have hnext : n.endByte ≤ next.startByte := (List.isChain_cons_cons.mp hadjacent).1
            have hrange := hforward next (List.mem_cons_of_mem _ List.mem_cons_self)
            rcases List.mem_cons.mp hm with rfl | hlater
            · exact hnext
            · have hfollows := List.rel_of_pairwise_cons hothers hlater
              omega
  exact hpairwise.imp fun hends _ _ => hends

/-- A tree is ordered when its ranges are not reversed, each lies within that of the parent and
ends before the next sibling starts, and its declarations have bytes. -/
theorem Ordered.of_adjacent {root : Node}
    (hforward : ∀ spot ∈ root.located, ∀ c ∈ spot.2.children, c.startByte ≤ c.endByte)
    (hwithin : ∀ spot ∈ root.located, ∀ c ∈ spot.2.children,
      spot.2.startByte ≤ c.startByte ∧ c.endByte ≤ spot.2.endByte)
    (hadjacent : ∀ spot ∈ root.located,
      spot.2.children.IsChain fun a b => a.endByte ≤ b.startByte)
    (hnonempty : ∀ spot ∈ root.located, spot.2.kind ≠ .other →
      spot.2.startByte < spot.2.endByte) : root.Ordered where
  within spot hspot c hc _ := hwithin spot hspot c hc
  nonempty := hnonempty
  siblings spot hspot :=
    pairwise_precedes_of_adjacent (hforward spot hspot) (hadjacent spot hspot)

section

variable {lineOf : Resolver} {options : OutlineOptions}

/-- **Symbols stay between the ends of the node they come from.** -/
theorem Nested.lines_between (hmono : Monotone lineOf) {n : Node} (hnested : n.Nested)
    {inBody : Bool} {s : Symbol} (hs : s ∈ Symbol.listings (n.symbols lineOf options inBody)) :
    n.startByte < n.endByte ∧ lineOf n.startByte ≤ s.startLine ∧ s.startLine ≤ s.endLine ∧
      s.endLine ≤ lineOf n.endByte := by
  obtain ⟨⟨p, m⟩, hm, kind, hkind, hrecord⟩ := exists_record_of_mem_listings hs
  have hdeclares : m.kind ≠ .other := by
    have hm' : m.kind = .declares kind := hkind
    simp [hm']
  have hbytes : m.startByte < m.endByte := hnested.nonempty (p, m) hm hdeclares
  have hwithin := hnested.rangeWithin hm hbytes
  have hstart : s.startLine = lineOf m.startByte := congrArg Symbol.startLine hrecord
  have hend : s.endLine = max (lineOf m.lastByte) (lineOf m.startByte) :=
    congrArg Symbol.endLine hrecord
  have hfirst := hmono hwithin.1
  have hlast : lineOf m.lastByte ≤ lineOf n.endByte := by
    apply hmono
    unfold lastByte
    omega
  have hbound : lineOf m.startByte ≤ lineOf n.endByte := by
    apply hmono
    omega
  refine ⟨?_, ?_, ?_, ?_⟩ <;> omega

/-- Symbols of a node end before those of a node that it precedes start. -/
theorem endsBefore_of_precedes (hmono : Monotone lineOf) {m n : Node} (hm : m.Nested)
    (hn : n.Nested) (hprecedes : Precedes m n) {inBody : Bool} {s t : Symbol}
    (hs : s ∈ Symbol.listings (m.symbols lineOf options inBody))
    (ht : t ∈ Symbol.listings (n.symbols lineOf options inBody)) : s.EndsBefore t := by
  have hfirst := hm.lines_between hmono hs
  have hsecond := hn.lines_between hmono ht
  have hline := hmono (hprecedes hfirst.1 hsecond.1)
  unfold Symbol.EndsBefore
  omega

/-- What holds of a symbol and one that starts after it holds among the symbols taken from the
children of a node, when it does among those taken from each child. -/
theorem Ordered.pairwise_children (hmono : Monotone lineOf) {n : Node} (hordered : n.Ordered)
    {inBody : Bool} {R : Symbol → Symbol → Prop} {taken : Node → List Symbol}
    (htaken : ∀ c, taken c ⊆ Symbol.listings (c.symbols lineOf options inBody))
    (hR : ∀ s t : Symbol, s.startLine ≤ s.endLine → s.EndsBefore t → R s t)
    (hchild : ∀ c ∈ n.children, (taken c).Pairwise R) :
    (n.children.flatMap taken).Pairwise R := by
  rw [List.pairwise_flatMap]
  refine ⟨hchild, hordered.pairwise_precedes.imp_of_mem ?_⟩
  intro c d hc hd hprecedes s hs t ht
  have hc' := (hordered.child hc).toNested
  have hd' := (hordered.child hd).toNested
  apply hR
  · exact (hc'.lines_between hmono (htaken c hs)).2.2.1
  · exact endsBefore_of_precedes hmono hc' hd' hprecedes (htaken c hs) (htaken d ht)

/-- When each child of a node has its outline in order, so have the children together. -/
theorem Ordered.pairwise_flatMap_symbols (hmono : Monotone lineOf) {n : Node}
    (hordered : n.Ordered) {inBody : Bool}
    (hchild : ∀ c ∈ n.children, (c.symbols lineOf options inBody).Pairwise Symbol.EndsBefore) :
    (n.children.flatMap (symbols lineOf options inBody)).Pairwise Symbol.EndsBefore := by
  apply hordered.pairwise_children hmono (fun c => Symbol.subset_listings _) _ hchild
  intro s t _ hbefore
  exact hbefore

/-- The roots of the outline of an ordered tree are in order. -/
theorem Ordered.pairwise_symbols (hmono : Monotone lineOf) {n : Node} (hordered : n.Ordered)
    (inBody : Bool) : (n.symbols lineOf options inBody).Pairwise Symbol.EndsBefore := by
  induction n using Node.childrenInduction with
  | step n ih =>
      rcases symbols_cases lineOf options inBody n with
        ⟨-, hsymbols⟩ | ⟨kind, below, -, -, hsymbols⟩ | ⟨kind, -, hsymbols⟩ | hsymbols
      · rw [hsymbols]
        apply hordered.pairwise_flatMap_symbols hmono
        intro c hc
        exact ih c hc (hordered.child hc)
      · rw [hsymbols]
        exact List.pairwise_singleton _ _
      · rw [hsymbols]
        exact List.pairwise_singleton _ _
      · rw [hsymbols]
        exact List.Pairwise.nil

/-- The members of every symbol of the outline are in order. -/
theorem Ordered.pairwise_members (hmono : Monotone lineOf) {n : Node} (hordered : n.Ordered)
    {inBody : Bool} {s : Symbol} (hs : s ∈ Symbol.listings (n.symbols lineOf options inBody)) :
    s.members.Pairwise Symbol.EndsBefore := by
  induction n using Node.childrenInduction generalizing inBody with
  | step n ih =>
      have hbelow : ∀ inBody,
          s ∈ Symbol.listings (n.children.flatMap (symbols lineOf options inBody)) →
            s.members.Pairwise Symbol.EndsBefore := by
        intro inBody hs
        obtain ⟨c, hc, hchild⟩ := Symbol.mem_listings_flatMap.mp hs
        exact ih c hc (hordered.child hc) hchild
      rcases symbols_cases lineOf options inBody n with
        ⟨-, hsymbols⟩ | ⟨kind, below, -, -, hsymbols⟩ | ⟨kind, -, hsymbols⟩ | hsymbols
      · rw [hsymbols] at hs
        exact hbelow inBody hs
      · rw [hsymbols, Symbol.listings_singleton, Symbol.listing_eq, List.mem_cons] at hs
        rcases hs with rfl | hs
        · apply hordered.pairwise_flatMap_symbols hmono
          intro c hc
          exact (hordered.child hc).pairwise_symbols hmono below
        · exact hbelow below hs
      · rw [hsymbols] at hs
        have hleaf : s = n.symbol lineOf options kind := List.mem_singleton.mp hs
        rw [hleaf]
        exact List.Pairwise.nil
      · rw [hsymbols] at hs
        cases hs

/-- The outline of an ordered tree is listed by growing start lines. -/
theorem Ordered.pairwise_listings (hmono : Monotone lineOf) {n : Node} (hordered : n.Ordered)
    (inBody : Bool) :
    (Symbol.listings (n.symbols lineOf options inBody)).Pairwise
      fun s t => s.startLine ≤ t.startLine := by
  induction n using Node.childrenInduction generalizing inBody with
  | step n ih =>
      have hchildren : ∀ inBody,
          (Symbol.listings (n.children.flatMap (symbols lineOf options inBody))).Pairwise
            fun s t => s.startLine ≤ t.startLine := by
        intro inBody
        rw [Symbol.listings_flatMap]
        apply hordered.pairwise_children hmono (fun c => List.Subset.refl _)
        · intro s t hlines hbefore
          exact Nat.le_trans hlines hbefore
        · intro c hc
          exact ih c hc (hordered.child hc) inBody
      rcases symbols_cases lineOf options inBody n with
        ⟨-, hsymbols⟩ | ⟨kind, below, -, -, hsymbols⟩ | ⟨kind, -, hsymbols⟩ | hsymbols
      · rw [hsymbols]
        exact hchildren inBody
      · rw [hsymbols, Symbol.listings_singleton, Symbol.listing_eq, List.pairwise_cons]
        refine ⟨?_, hchildren below⟩
        intro t ht
        -- What is listed below the symbol comes from children, which start after the node.
        obtain ⟨c, hc, hchild⟩ := Symbol.mem_listings_flatMap.mp ht
        have hlines := (hordered.child hc).lines_between hmono hchild
        have hwithin := hordered.within ([], n) (mem_located_nil.mpr rfl) c hc hlines.1
        exact Nat.le_trans (hmono hwithin.1) hlines.2.1
      · rw [hsymbols]
        exact List.pairwise_singleton _ _
      · rw [hsymbols]
        exact List.Pairwise.nil

end

end Node

/-- **Outlines are in source order.**  When the ranges of a tree nest, siblings follow each
other without overlap and declarations have bytes, then among the roots of the outline and
among the members of every symbol, each symbol ends no later than on the line on which any
later one starts, and the start lines of the whole outline, listed parents first, never
decrease. -/
theorem outline_in_source_order (source : Bytes) (options : OutlineOptions) {root : Node}
    (hordered : root.Ordered) :
    let roots := outline (LineIndex.ofSource source).lineOf options root
    roots.Pairwise Symbol.EndsBefore ∧
    (∀ s ∈ roots.flatMap Symbol.descendants, s.members.Pairwise Symbol.EndsBefore) ∧
    ((roots.flatMap Symbol.descendants).map Symbol.startLine).Pairwise (· ≤ ·) := by
  intro roots
  have hroots : roots = root.symbols (LineIndex.ofSource source).lineOf options false :=
    outline_eq_symbols _ _ _
  have hmono := (LineIndex.ofSource source).lineOf_monotone
  rw [Symbol.flatMap_descendants, hroots, List.pairwise_map]
  refine ⟨hordered.pairwise_symbols hmono false, ?_, hordered.pairwise_listings hmono false⟩
  intro s hs
  exact hordered.pairwise_members hmono hs

/-- A class over three lines.  A transparent node on the second line holds two variables, a
node without width stands at its end, and a method on the third line. -/
def orderSample : Node where
  kind := .declares .classDecl
  startByte := 0
  endByte := 7
  children := [
    { kind := .other, startByte := 2, endByte := 5,
      children := [
        { kind := .declares .varDecl, startByte := 2, endByte := 3 },
        { kind := .declares .varDecl, startByte := 4, endByte := 5 }] },
    { kind := .other, startByte := 5, endByte := 5 },
    { kind := .declares .funcDecl, startByte := 6, endByte := 7 }]

/-- The bytes of three lines. -/
def orderSource : Bytes :=
  [0x63, 0x0A, 0x78, 0x20, 0x79, 0x0A, 0x66]

/-- Two declarations on one line, one after them and the container of all three are in order. -/
theorem orderSample_in_order :
    let roots := outline (LineIndex.ofSource orderSource).lineOf {} orderSample
    orderSample.Ordered ∧ roots.Pairwise Symbol.EndsBefore ∧
      (∀ s ∈ roots.flatMap Symbol.descendants, s.members.Pairwise Symbol.EndsBefore) ∧
      ((roots.flatMap Symbol.descendants).map Symbol.startLine).Pairwise (· ≤ ·) ∧
      (roots.flatMap Symbol.descendants).map (fun s => (s.startLine, s.endLine)) =
        [(1, 3), (2, 2), (2, 2), (3, 3)] := by
  intro roots
  have hordered : orderSample.Ordered :=
    Node.Ordered.of_adjacent (by decide) (by decide) (by decide) (by decide)
  obtain ⟨hroots, hmembers, hstarts⟩ := outline_in_source_order orderSource {} hordered
  refine ⟨hordered, hroots, hmembers, hstarts, ?_⟩
  show ((outline _ _ _).flatMap Symbol.descendants).map _ = _
  rw [Symbol.flatMap_descendants, outline_eq_symbols]
  decide

end SourceOutline
