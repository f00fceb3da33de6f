import Mathlib.Data.List.Basic
import SourceOutline.Proofs.Text.Utf8
import SourceOutline.Proofs.Walk.Recursion
import SourceOutline.Swift.Language

/-!
# Outlining reads inside the source

A parser may recover from mistakes in any way, with nodes for what it could not read and
nodes without width for what it missed, as long as the ranges of the tree nest and follow
each other (`Tree.WellNested`).  Then every range that an outline reads is one of the source.
The clause of parameters is the one range that joins two nodes: it is in order because the
closing parenthesis comes after the opening one.

To say that no read is ever out of range, the reads are made a second time with a check:
`outlineChecked` gives nothing as soon as one range is not within the source.
-/

namespace SourceOutline.Swift

namespace Span

instance (source : Bytes) (s : Span) : Decidable (s.InSource source) :=
  inferInstanceAs (Decidable (_ ∧ _))

/-- A range inside another one, in order. -/
def Within (s outer : Span) : Prop :=
  outer.start ≤ s.start ∧ s.start ≤ s.stop ∧ s.stop ≤ outer.stop

/-- A range within one that is in the source is in the source. -/
theorem Within.inSource {source : Bytes} {s outer : Span} (h : s.Within outer)
    (houter : outer.InSource source) : s.InSource source :=
  ⟨h.2.1, Nat.le_trans h.2.2 houter.2⟩

/-- The text of a source in a range, when it is a range of the source. -/
def text? (source : Bytes) (s : Span) : Option (List Char) :=
  if s.InSource source then some (s.text source) else none

/-- A range in the source can be sliced. -/
theorem text?_of_inSource {source : Bytes} {s : Span} (h : s.InSource source) :
    s.text? source = some (s.text source) :=
  if_pos h

end Span

/-- The parts are the name, the extended type, the parameter clause and what the binding has. -/
theorem Parts.mem_toList {α : Type} {p : Parts α} {a : α} :
    a ∈ p.toList ↔ a ∈ p.name ∨ a ∈ p.extendedType ∨ a ∈ p.parameterClause ∨
      ∃ b ∈ p.binding, a = b.pattern ∨ a ∈ b.annotation ∨ a ∈ b.initializer := by
  rw [toList]
  cases p.binding <;> simp

/-- All ranges of a binding have the property. -/
def BindingParts.All (P : Span → Prop) (b : BindingParts Span) : Prop :=
  P b.pattern ∧ (∀ s ∈ b.annotation, P s) ∧ ∀ s ∈ b.initializer, P s

namespace Tree

/-- What passes from the children of a tree to the tree holds of every tree. -/
@[elab_as_elim]
theorem childrenInduction {motive : Tree → Prop}
    (step : ∀ t, (∀ c ∈ t.children, motive c) → motive t) (t : Tree) : motive t :=
  step t fun c _ => childrenInduction step c
termination_by sizeOf t
decreasing_by
  have hless := List.sizeOf_lt_of_mem ‹_›
  obtain ⟨kind, named, field, span, children⟩ := t
  simp only [Tree.mk.sizeOf_spec] at hless ⊢
  omega

mutual

/-- A tree and every tree below it, parents before their children. -/
def nodes : Tree → List Tree
  | ⟨kind, named, field, span, children⟩ =>
    ⟨kind, named, field, span, children⟩ :: nodesOfAll children

/-- The trees at and below several trees. -/
def nodesOfAll : List Tree → List Tree
  | [] => []
  | t :: ts => nodes t ++ nodesOfAll ts

end

theorem nodesOfAll_eq_flatMap (ts : List Tree) : nodesOfAll ts = ts.flatMap nodes := by
  induction ts with
  | nil => rfl
  | cons t ts ih => rw [nodesOfAll, ih, List.flatMap_cons]

theorem nodes_eq (t : Tree) : t.nodes = t :: t.children.flatMap nodes := by
  cases t
  rw [nodes, nodesOfAll_eq_flatMap]

theorem self_mem_nodes (t : Tree) : t ∈ t.nodes := by
  rw [nodes_eq]
  exact List.mem_cons_self

theorem mem_nodes_of_child {t c n : Tree} (hc : c ∈ t.children) (hn : n ∈ c.nodes) :
    n ∈ t.nodes := by
  rw [nodes_eq]
  exact List.mem_cons_of_mem _ (List.mem_flatMap.mpr ⟨c, hc, hn⟩)

/-- What passes from trees to their children holds of all trees in a tree. -/
theorem holds_of_mem_nodes {P : Tree → Prop} (hchild : ∀ t c, P t → c ∈ t.children → P c)
    {root t : Tree} (h : P root) (ht : t ∈ root.nodes) : P t := by
  induction root using Tree.childrenInduction with
  | step root ih =>
      rw [nodes_eq, List.mem_cons, List.mem_flatMap] at ht
      rcases ht with rfl | ⟨c, hc, hbelow⟩
      · exact h
      · exact ih c hc (hchild root c h hc) hbelow

/-- What a parser promises of a tree of the source: the tree lies in the source, every range
is in order, children lie within their parents, and siblings start one after the other. -/
structure WellNested (source : Bytes) (root : Tree) : Prop where
  inSource : root.span.stop ≤ source.length
  inOrder : ∀ t ∈ root.nodes, t.span.start ≤ t.span.stop
  within : ∀ t ∈ root.nodes, ∀ c ∈ t.children,
    t.span.start ≤ c.span.start ∧ c.span.stop ≤ t.span.stop
  siblings : ∀ t ∈ root.nodes, t.children.Pairwise fun a b => a.span.start ≤ b.span.start

namespace WellNested

variable {source : Bytes} {t c : Tree}

/-- The children of a well-nested tree are well nested. -/
theorem child (h : t.WellNested source) (hc : c ∈ t.children) : c.WellNested source where
  inSource := by
    have hwithin := h.within t t.self_mem_nodes c hc
    have hsource := h.inSource
    omega
  inOrder n hn := h.inOrder n (mem_nodes_of_child hc hn)
  within n hn := h.within n (mem_nodes_of_child hc hn)
  siblings n hn := h.siblings n (mem_nodes_of_child hc hn)

theorem span_inSource (h : t.WellNested source) : t.span.InSource source :=
  ⟨h.inOrder t t.self_mem_nodes, h.inSource⟩

theorem child_within (h : t.WellNested source) (hc : c ∈ t.children) :
    c.span.Within t.span := by
  have hwithin := h.within t t.self_mem_nodes c hc
  exact ⟨hwithin.1, (h.child hc).span_inSource.1, hwithin.2⟩

/-- Every tree in a well-nested one is well nested. -/
theorem of_mem_nodes {root : Tree} (h : root.WellNested source) (ht : t ∈ root.nodes) :
    t.WellNested source :=
  holds_of_mem_nodes (fun _ _ h hc => h.child hc) h ht

end WellNested

/-- Once a clause is open, it runs from where it began to the end of a node. -/
theorem scanClause_open {start : Nat} {ts : List Tree} {s : Span}
    (h : scanClause (some start) ts = some s) : ∃ close ∈ ts, s = ⟨start, close.span.stop⟩ := by
  induction ts with
  | nil => cases h
  | cons t ts ih =>
      unfold scanClause at h
      split at h
      · cases h
        exact ⟨t, List.mem_cons_self, rfl⟩
      · obtain ⟨close, hclose, hs⟩ := ih h
        exact ⟨close, List.mem_cons_of_mem _ hclose, hs⟩

/-- A clause runs from the start of one node to the end of a later one. -/
theorem scanClause_eq_some {ts : List Tree} {s : Span} (h : scanClause none ts = some s) :
    ∃ opening closing, [opening, closing].Sublist ts ∧
      s = ⟨opening.span.start, closing.span.stop⟩ := by
  induction ts with
  | nil => cases h
  | cons t ts ih =>
      unfold scanClause at h
      split at h
      · obtain ⟨closing, hclosing, hs⟩ := scanClause_open h
        exact ⟨t, closing, List.cons_sublist_cons.mpr (List.singleton_sublist.mpr hclosing), hs⟩
      · obtain ⟨opening, closing, hpair, hs⟩ := ih h
        exact ⟨opening, closing, hpair.cons t, hs⟩

/-- The ranges of a binding are those of nodes that have been gone through. -/
theorem scanBinding_all {P : Span → Prop} {ts : List Tree} {open? : Option (BindingParts Span)}
    {b : BindingParts Span} (hts : ∀ t ∈ ts, P t.span) (hopen : ∀ o ∈ open?, o.All P)
    (h : scanBinding open? ts = some b) : b.All P := by
  induction ts generalizing open? with
  | nil =>
      cases open? <;> exact hopen b h
  | cons t ts ih =>
      have hfirst : P t.span := hts t List.mem_cons_self
      have hothers : ∀ u ∈ ts, P u.span := fun u hu => hts u (List.mem_cons_of_mem _ hu)
      cases open? with
      | none =>
          refine ih hothers ?_ h
          split
          · rintro o ⟨⟩
            exact ⟨hfirst, nofun, nofun⟩
          · exact nofun
      | some o =>
          unfold scanBinding at h
          split at h
          · exact hopen b h
          · refine ih hothers ?_ h
            rintro o' ⟨⟩
            obtain ⟨hpattern, hannotation, hinitializer⟩ := hopen o rfl
            unfold addToBinding
            split
            · exact ⟨hpattern, by rintro s ⟨⟩; exact hfirst, hinitializer⟩
            · split
              · exact ⟨hpattern, hannotation, by rintro s ⟨⟩; exact hfirst⟩
              · exact ⟨hpattern, hannotation, hinitializer⟩

/-- Every part of a node is the range of a child, or runs from one child to a later one. -/
theorem exists_ends_of_mem_parts {t : Tree} {s : Span} (h : s ∈ t.parts.toList) :
    ∃ first last, (first = last ∧ last ∈ t.children ∨ [first, last].Sublist t.children) ∧
      s = ⟨first.span.start, last.span.stop⟩ := by
  have hchild : ∀ c ∈ t.children, s = c.span →
      ∃ first last, (first = last ∧ last ∈ t.children ∨ [first, last].Sublist t.children) ∧
        s = ⟨first.span.start, last.span.stop⟩ :=
    fun c hc hs => ⟨c, c, .inl ⟨rfl, hc⟩, hs⟩
  rcases Parts.mem_toList.mp h with hname | htype | hclause | ⟨b, hbinding, hs⟩
  · obtain ⟨c, hc, rfl⟩ := Option.map_eq_some_iff.mp hname
    exact hchild c (List.mem_of_find?_eq_some hc) rfl
  · obtain ⟨c, hc, rfl⟩ := Option.map_eq_some_iff.mp htype
    refine hchild c ?_ rfl
    rcases Option.or_eq_some_iff.mp hc with hname | ⟨-, htype⟩
    · exact List.mem_of_find?_eq_some hname
    · exact List.mem_of_mem_filter (List.mem_of_find?_eq_some htype)
  · obtain ⟨opening, closing, hpair, hs⟩ := scanClause_eq_some hclause
    exact ⟨opening, closing, .inr hpair, hs⟩
  · have hall : b.All fun s => ∃ c ∈ t.children, s = c.span :=
      scanBinding_all (fun c hc => ⟨c, hc, rfl⟩) (by simp) hbinding
    obtain ⟨c, hc, hspan⟩ : ∃ c ∈ t.children, s = c.span := by
      rcases hs with rfl | hannotation | hinitializer
      · exact hall.1
      · exact hall.2.1 s hannotation
      · exact hall.2.2 s hinitializer
    exact hchild c hc hspan

/-- The parts of a node lie within it. -/
theorem WellNested.parts_within {source : Bytes} {t : Tree} (h : t.WellNested source) {s : Span}
    (hs : s ∈ t.parts.toList) : s.Within t.span := by
  obtain ⟨first, last, hends, rfl⟩ := exists_ends_of_mem_parts hs
  rcases hends with ⟨rfl, hlast⟩ | hpair
  · exact h.child_within hlast
  · have hfirst := h.child_within (hpair.subset List.mem_cons_self)
    have hlast := h.child_within (hpair.subset (List.mem_cons_of_mem _ List.mem_cons_self))
    have hordered : first.span.start ≤ last.span.start := by
      have hsiblings := (h.siblings t t.self_mem_nodes).sublist hpair
      exact List.rel_of_pairwise_cons hsiblings List.mem_cons_self
    exact ⟨hfirst.1, Nat.le_trans hordered hlast.2.1, hlast.2.2⟩

end Tree

/-! ### Reading with a check -/

/-- Reads a part that may be missing. -/
def readPart (source : Bytes) : Option Span → Option (Option String)
  | none => some none
  | some s => (s.text? source).map fun text => some (String.ofList text)

/-- Reads nodes into the binding that is open, one range at a time, as `Tree.scanBinding` goes
through them.  A range that a later one replaces is read as well. -/
def readBinding (source : Bytes) : Option Binding → List Tree → Option (Option Binding)
  | open?, [] => some open?
  | none, t :: ts =>
    if t.isPattern then do
      let text ← t.span.text? source
      readBinding source (some { pattern := String.ofList (patternText text) }) ts
    else readBinding source none ts
  | some b, t :: ts =>
    if t.isPattern then some (some b)
    else if t.kind = "type_annotation" then do
      let text ← t.span.text? source
      readBinding source
        (some { b with annotation := some (String.ofList (annotationText text)) }) ts
    else if t.field = some "value" then do
      let text ← t.span.text? source
      readBinding source (some { b with initializer := some (String.ofList (Text.trim text)) }) ts
    else readBinding source (some b) ts

namespace Tree

/-- A node without its children, each of its parts being read with a check. -/
def headChecked (source : Bytes) (t : Tree) : Option Node := do
  let name ← readPart source t.parts.name
  let extendedType ← readPart source t.parts.extendedType
  let parameterClause ← readPart source t.parts.parameterClause
  let binding ← readBinding source none t.children
  return {
    kind := t.nodeKind
    startByte := t.span.start
    endByte := t.span.stop
    name, extendedType, parameterClause, binding }

mutual

/-- A tree as the outline sees it, when all parts of all its nodes are ranges of the source. -/
def toNodeChecked (source : Bytes) : Tree → Option Node
  | ⟨kind, named, field, span, children⟩ => do
    let head ← headChecked source ⟨kind, named, field, span, children⟩
    let children ← toNodesChecked source children
    return { head with children }

/-- The named ones among several trees. -/
def toNodesChecked (source : Bytes) : List Tree → Option (List Node)
  | [] => some []
  | t :: ts =>
    if t.named then do
      let first ← toNodeChecked source t
      let others ← toNodesChecked source ts
      return first :: others
    else toNodesChecked source ts

end

end Tree

/-- The outline of a source, when no read is out of range. -/
def outlineChecked (parser : Parser) (source : Bytes) (options : OutlineOptions) :
    Option (Except Fault (List Symbol)) :=
  match Utf8.decode source with
  | .error flaw => some (.error (encodingFault flaw))
  | .ok _ =>
    match parser source with
    | none => some (.error noTreeFault)
    | some tree => do
      let root ← tree.toNodeChecked source
      return .ok (SourceOutline.outline (LineIndex.ofSource source).lineOf options root)

/-- A part that is in the source, or missing, is read without a failing slice. -/
theorem readPart_of_inSource {source : Bytes} {part : Option Span}
    (h : ∀ s ∈ part, s.InSource source) :
    readPart source part = some (part.map fun s => String.ofList (s.text source)) := by
  cases part with
  | none => rfl
  | some s =>
      rw [readPart, Span.text?_of_inSource (h s rfl)]
      rfl

/-- Reading a binding with a check gives the texts of the ranges that the scan notes. -/
theorem readBinding_of_inSource {source : Bytes} {ts : List Tree}
    (h : ∀ t ∈ ts, t.span.InSource source) (open? : Option (BindingParts Span)) :
    readBinding source (open?.map (BindingParts.read source)) ts =
      some ((Tree.scanBinding open? ts).map (BindingParts.read source)) := by
  induction ts generalizing open? with
  | nil => cases open? <;> rfl
  | cons t ts ih =>
      have htext : t.span.text? source = some (t.span.text source) :=
        Span.text?_of_inSource (h t List.mem_cons_self)
      have hothers := ih fun u hu => h u (List.mem_cons_of_mem _ hu)
      cases open? with
      | none =>
          simp only [Option.map_none, readBinding, Tree.scanBinding, htext]
          split
          · exact hothers (some { pattern := t.span })
          · exact hothers none
      | some b =>
          simp only [Option.map_some, readBinding, Tree.scanBinding, Tree.addToBinding, htext]
          split
          · rfl
          · split
            · exact hothers (some { b with annotation := some t.span })
            · split
              · exact hothers (some { b with initializer := some t.span })
              · exact hothers (some b)

namespace Tree

variable {source : Bytes} {t : Tree}

/-- All accessors of a well-nested tree slice inside the source, and give what the unchecked ones
give. -/
theorem WellNested.headChecked_eq (h : t.WellNested source) :
    t.headChecked source = some (t.head source) := by
  have hpart : ∀ s ∈ t.parts.toList, s.InSource source :=
    fun s hs => (h.parts_within hs).inSource h.span_inSource
  have hname : readPart source t.parts.name = _ :=
    readPart_of_inSource fun s hs => hpart s (Parts.mem_toList.mpr (.inl hs))
  have htype : readPart source t.parts.extendedType = _ :=
    readPart_of_inSource fun s hs => hpart s (Parts.mem_toList.mpr (.inr (.inl hs)))
  have hclause : readPart source t.parts.parameterClause = _ :=
    readPart_of_inSource fun s hs => hpart s (Parts.mem_toList.mpr (.inr (.inr (.inl hs))))
  have hbinding : readBinding source none t.children = _ :=
    readBinding_of_inSource (fun c hc => (h.child hc).span_inSource) none
  rw [headChecked, hname, htype, hclause, hbinding]
  rfl

/-- A node is what the accessors read, with the nodes of the children below it. -/
theorem toNode_eq (source : Bytes) (t : Tree) :
    t.toNode source = { t.head source with children := toNodes source t.children } := by
  cases t
  rfl

/-- The checked node reads the accessors first and then the children. -/
theorem toNodeChecked_eq (source : Bytes) (t : Tree) :
    t.toNodeChecked source = do
      let head ← t.headChecked source
      let children ← toNodesChecked source t.children
      return { head with children } := by
  cases t
  rfl

/-- With all trees read, so is their list. -/
theorem toNodesChecked_eq {ts : List Tree}
    (h : ∀ t ∈ ts, t.toNodeChecked source = some (t.toNode source)) :
    toNodesChecked source ts = some (toNodes source ts) := by
  induction ts with
  | nil => rfl
  | cons t ts ih =>
      have hfirst := h t List.mem_cons_self
      have hothers := ih fun u hu => h u (List.mem_cons_of_mem _ hu)
      unfold toNodesChecked toNodes
      rw [hfirst, hothers]
      split <;> rfl

/-- **No read is out of range.**  On a well-nested tree the check never fails, at any node. -/
theorem WellNested.toNodeChecked_eq (h : t.WellNested source) :
    t.toNodeChecked source = some (t.toNode source) := by
  induction t using Tree.childrenInduction with
  | step t ih =>
      have hchildren := toNodesChecked_eq fun c hc => ih c hc (h.child hc)
      rw [Tree.toNodeChecked_eq, h.headChecked_eq, hchildren, toNode_eq]
      rfl

end Tree

/-- A source in UTF-8 that the parser takes has the outline of its tree. -/
theorem outline_eq_ok {parser : Parser} {source : Bytes} {text : List Char} {tree : Tree}
    (options : OutlineOptions) (htext : source = Utf8.encode text)
    (htree : parser source = some tree) :
    outline parser source options = .ok (outlineTree source options tree) := by
  have hdecode : Utf8.decode source = .ok text := Utf8.decode_eq_ok_iff.mpr htext
  simp only [outline, hdecode, htree]

/-- **Outlining reads inside the source.**  For a source that is UTF-8 and a well-nested tree
of it, every range that a node may read is one of the source, the checked reads all succeed,
and there is an outline.  A source that is not UTF-8 is refused whatever the parser would
give, with the place of its first flaw as the cause: the end of the longest part of the source
that is UTF-8. -/
theorem outline_reads_inside_source (parser : Parser) (source : Bytes)
    (options : OutlineOptions) :
    (∀ text tree, source = Utf8.encode text → parser source = some tree →
      tree.WellNested source →
      (∀ t ∈ tree.nodes, ∀ s ∈ t.span :: t.parts.toList, s.InSource source) ∧
      ∃ symbols, outlineChecked parser source options = some (.ok symbols) ∧
        outline parser source options = .ok symbols) ∧
    ((¬∃ text, source = Utf8.encode text) →
      ∃ flaw fault, Utf8.decode source = .error flaw ∧
        (∃ text, source.take flaw.validUpTo = Utf8.encode text) ∧
        (∀ text, Utf8.encode text <+: source →
          (Utf8.encode text).length ≤ flaw.validUpTo) ∧
        fault.kind = .encodingError ∧ fault.cause = some (.encoding flaw) ∧
        ∀ other : Parser, outlineChecked other source options = some (.error fault) ∧
          outline other source options = .error fault) := by
  constructor
  · intro text tree htext htree hnested
    have hdecode : Utf8.decode source = .ok text := Utf8.decode_eq_ok_iff.mpr htext
    refine ⟨?_, outlineTree source options tree, ?_, ?_⟩
    · intro t ht s hs
      have hinside := (hnested.of_mem_nodes ht).span_inSource
      rcases List.mem_cons.mp hs with rfl | hpart
      · exact hinside
      · exact ((hnested.of_mem_nodes ht).parts_within hpart).inSource hinside
    · simp only [outlineChecked, hdecode, htree, hnested.toNodeChecked_eq]
      rfl
    · exact outline_eq_ok options htext htree
  · intro hinvalid
    obtain ⟨flaw, hflaw, hvalid, hlongest⟩ := Utf8.decode_error_validUpTo hinvalid
    refine ⟨flaw, encodingFault flaw, hflaw, hvalid, hlongest, rfl, rfl, fun other => ?_⟩
    simp only [outlineChecked, outline, hflaw, and_self]

/-- The source `init(a`, in which a parenthesis is missing. -/
def unclosedSource : Bytes :=
  Utf8.encode "init(a".toList

/-- A recovered tree of it: the missing parenthesis is a node without width at the end. -/
def unclosedTree : Tree :=
  ⟨"source_file", true, none, ⟨0, 6⟩, [
    ⟨"ERROR", true, none, ⟨0, 6⟩, [
      ⟨"init_declaration", true, none, ⟨0, 6⟩, [
        ⟨"init", false, some "name", ⟨0, 4⟩, []⟩,
        ⟨"(", false, none, ⟨4, 5⟩, []⟩,
        ⟨"parameter", true, none, ⟨5, 6⟩, []⟩,
        ⟨")", false, none, ⟨6, 6⟩, []⟩]⟩]⟩]⟩

/-- A clause without its closing bracket is read inside the source, and a cut sequence is refused.
-/
theorem unclosedSource_reads_inside :
    let parser : Parser := fun _ => some unclosedTree
    unclosedTree.WellNested unclosedSource ∧
    (∃ symbols, outlineChecked parser unclosedSource {} = some (.ok symbols) ∧
      symbols.map Symbol.name = ["init(a"]) ∧
    (¬∃ text, [0x61, 0xE2, 0x82] = Utf8.encode text) ∧
    ∃ fault, outline parser [0x61, 0xE2, 0x82] {} = .error fault ∧
      fault.cause = some (.encoding ⟨1, none⟩) := by
  intro parser
  have hnested : unclosedTree.WellNested unclosedSource :=
    ⟨by decide, by decide, by decide, by decide⟩
  have hcut : Utf8.decode [0x61, 0xE2, 0x82] = .error ⟨1, none⟩ := rfl
  have hinvalid : ¬∃ text, [0x61, 0xE2, 0x82] = Utf8.encode text := by
    rintro ⟨text, htext⟩
    rw [Utf8.decode_eq_ok_iff.mpr htext] at hcut
    cases hcut
  obtain ⟨-, symbols, hchecked, houtline⟩ :=
    (outline_reads_inside_source parser unclosedSource {}).1 "init(a".toList unclosedTree rfl rfl
      hnested
  obtain ⟨flaw, fault, hflaw, -, -, -, hcause, hrefused⟩ :=
    (outline_reads_inside_source parser [0x61, 0xE2, 0x82] {}).2 hinvalid
  rw [hcut] at hflaw
  cases hflaw
  refine ⟨hnested, ⟨symbols, hchecked, ?_⟩, hinvalid, fault, (hrefused parser).2, hcause⟩
  have hsymbols : symbols = outlineTree unclosedSource {} unclosedTree :=
    Except.ok.inj (houtline.symm.trans rfl)
  rw [hsymbols, outlineTree, outline_eq_symbols]
  decide

end SourceOutline.Swift
