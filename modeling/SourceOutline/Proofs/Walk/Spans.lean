import SourceOutline.Proofs.LineIndex.Bounds
import SourceOutline.Proofs.Walk.Visibility

/-!
# Line spans of an outline

A symbol takes its lines from the first and the last byte of its node.  Whatever the
offsets are, the lines are in order and within the source.

When the ranges of a tree nest and no declaration is empty, the spans of the outline
nest as well.  Two facts carry this: inclusion of ranges goes through any number of
levels, transparent nodes among them (`Node.Nested.rangeWithin`), and line numbers grow
with offsets, so the inclusive end of a range, its last byte, keeps the order of the
exclusive ends.
-/

namespace SourceOutline

namespace Node

/-- The bytes of the first node are among those of the second.  An empty or reversed range
has no bytes. -/
def RangeWithin (m n : Node) : Prop :=
  m.startByte < m.endByte → n.startByte ≤ m.startByte ∧ m.endByte ≤ n.endByte

instance (m n : Node) : Decidable (RangeWithin m n) :=
  inferInstanceAs (Decidable (_ → _))

theorem RangeWithin.refl (n : Node) : RangeWithin n n :=
  fun _ => ⟨Nat.le_refl _, Nat.le_refl _⟩

theorem RangeWithin.trans {l m n : Node} (hlm : RangeWithin l m) (hmn : RangeWithin m n) :
    RangeWithin l n := by
  intro hbytes
  have hl := hlm hbytes
  have hm := hmn (by omega)
  omega

/-- Every node lies within its parent, and every declaration has a byte. -/
structure Nested (root : Node) : Prop where
  within : ∀ spot ∈ root.located, ∀ c ∈ spot.2.children, RangeWithin c spot.2
  nonempty : ∀ spot ∈ root.located, spot.2.kind ≠ .other → spot.2.startByte < spot.2.endByte

/-- The children of a nested node are nested. -/
theorem Nested.child {n c : Node} (h : n.Nested) (hc : c ∈ n.children) : c.Nested := by
  constructor
  · intro spot hspot
    obtain ⟨p, hp⟩ := mem_located_of_child hc hspot
    exact h.within (p, spot.2) hp
  · intro spot hspot
    obtain ⟨p, hp⟩ := mem_located_of_child hc hspot
    exact h.nonempty (p, spot.2) hp

/-- Inclusion goes through every level of a nested tree. -/
theorem Nested.rangeWithin {n m : Node} {p : Place} (h : n.Nested)
    (hm : (p, m) ∈ n.located) : RangeWithin m n := by
  induction p generalizing n with
  | nil =>
      rw [mem_located_nil] at hm
      subst hm
      exact RangeWithin.refl m
  | cons i p ih =>
      obtain ⟨c, hc, hbelow⟩ := mem_located_cons.mp hm
      have hchild : c ∈ n.children := List.mem_of_getElem? hc
      have htop : ([], n) ∈ n.located := mem_located_nil.mpr rfl
      exact (ih (h.child hchild) hbelow).trans (h.within _ htop c hchild)

section

variable {lineOf : Resolver} {options : OutlineOptions}

/-- Records of nested, nonempty nodes are nested. -/
theorem encloses_of_rangeWithin (hmono : Monotone lineOf) {m n : Node} {s d : Symbol}
    {kind kind' : Kind} (hn : { s with members := [] } = n.symbol lineOf options kind)
    (hm : { d with members := [] } = m.symbol lineOf options kind')
    (hbytes : m.startByte < m.endByte) (hwithin : RangeWithin m n) :
    s.encloses d = true := by
  have hbounds := hwithin hbytes
  have hlast : m.lastByte ≤ n.lastByte := by
    unfold lastByte
    omega
  have hstart := hmono hbounds.1
  have hend := hmono hlast
  -- The end of a record is at least its start, so the start of `m` needs a bound as well.
  have hfirst : lineOf m.startByte ≤ lineOf n.lastByte := by
    apply hmono
    unfold lastByte
    omega
  have hsStart : s.startLine = lineOf n.startByte := congrArg Symbol.startLine hn
  have hsEnd : s.endLine = max (lineOf n.lastByte) (lineOf n.startByte) :=
    congrArg Symbol.endLine hn
  have hdStart : d.startLine = lineOf m.startByte := congrArg Symbol.startLine hm
  have hdEnd : d.endLine = max (lineOf m.lastByte) (lineOf m.startByte) :=
    congrArg Symbol.endLine hm
  unfold Symbol.encloses
  rw [Bool.and_eq_true_iff, decide_eq_true_eq, decide_eq_true_eq]
  omega

/-- A symbol whose members are the outlines of the children of its node encloses what is
below it, provided that the outlines of the children do so. -/
theorem encloses_of_members (hmono : Monotone lineOf) {n : Node} {kind : Kind}
    {inBody : Bool} (hnested : n.Nested)
    (hchildren : ∀ c ∈ n.children, ∀ s ∈ Symbol.listings (c.symbols lineOf options inBody),
      ∀ d ∈ s.listing, s.encloses d = true) :
    ∀ s ∈ Symbol.listing { n.symbol lineOf options kind with
        members := n.children.flatMap (symbols lineOf options inBody) },
      ∀ d ∈ s.listing, s.encloses d = true := by
  intro s hs d hd
  rw [Symbol.listing_eq, List.mem_cons] at hs
  rcases hs with hself | hs
  · rw [Symbol.listing_eq, List.mem_cons] at hd
    rcases hd with rfl | hd
    · exact d.encloses_self
    · rw [hself, Symbol.mem_listings_flatMap] at hd
      obtain ⟨c, hc, hbelow⟩ := hd
      obtain ⟨spot, hspot, kind', hkind', hrecord⟩ := exists_record_of_mem_listings hbelow
      obtain ⟨p, hp⟩ := mem_located_of_child hc hspot
      have hbytes := hnested.nonempty (p, spot.2) hp (by simp [hkind'])
      rw [hself]
      exact encloses_of_rangeWithin hmono rfl hrecord hbytes (hnested.rangeWithin hp)
  · obtain ⟨c, hc, hbelow⟩ := Symbol.mem_listings_flatMap.mp hs
    exact hchildren c hc s hbelow d hd

/-- A record without members has nothing below it but itself. -/
theorem encloses_of_leaf (n : Node) (kind : Kind) :
    ∀ s ∈ (n.symbol lineOf options kind).listing, ∀ d ∈ s.listing, s.encloses d = true := by
  intro s hs d hd
  have hs' : s = n.symbol lineOf options kind := List.mem_singleton.mp hs
  subst hs'
  have hd' : d = n.symbol lineOf options kind := List.mem_singleton.mp hd
  subst hd'
  exact Symbol.encloses_self _

/-- With any line numbering that grows with the offsets, the outline of a nested tree is
nested. -/
theorem Nested.encloses_symbols (hmono : Monotone lineOf) {n : Node} (hnested : n.Nested)
    (inBody : Bool) :
    ∀ s ∈ Symbol.listings (n.symbols lineOf options inBody),
      ∀ d ∈ s.listing, s.encloses d = true := by
  induction n using Node.childrenInduction generalizing inBody with
  | step n ih =>
      have hchildren : ∀ inBody, ∀ c ∈ n.children,
          ∀ s ∈ Symbol.listings (c.symbols lineOf options inBody),
            ∀ d ∈ s.listing, s.encloses d = true :=
        fun inBody c hc => ih c hc (hnested.child hc) inBody
      rcases symbols_cases lineOf options inBody n with
        ⟨-, hsymbols⟩ | ⟨kind, below, -, -, hsymbols⟩ | ⟨kind, -, hsymbols⟩ | hsymbols
      · rw [hsymbols]
        intro s hs
        obtain ⟨c, hc, hbelow⟩ := Symbol.mem_listings_flatMap.mp hs
        exact hchildren inBody c hc s hbelow
      · rw [hsymbols, Symbol.listings_singleton]
        exact encloses_of_members hmono hnested (hchildren below)
      · rw [hsymbols, Symbol.listings_singleton]
        exact encloses_of_leaf n kind
      · rw [hsymbols]
        exact nofun

end

end Node

/-- **Spans are within the source and nested.**  For any offsets, the lines of every
symbol are in order and between the first and the last line of the source.  When the
ranges of the tree nest and its declarations have bytes, every symbol encloses everything
below it. -/
theorem outline_spans_nested (source : Bytes) (options : OutlineOptions) (root : Node) :
    (∀ s ∈ (outline (LineIndex.ofSource source).lineOf options root).flatMap
        Symbol.descendants,
      1 ≤ s.startLine ∧ s.startLine ≤ s.endLine ∧
        s.endLine ≤ (LineIndex.ofSource source).lineCount) ∧
    (root.Nested →
      ∀ s ∈ (outline (LineIndex.ofSource source).lineOf options root).flatMap
          Symbol.descendants,
        ∀ d ∈ s.descendants, s.encloses d = true) := by
  rw [Symbol.flatMap_descendants, outline_eq_symbols]
  constructor
  · intro s hs
    obtain ⟨spot, _, kind, _, hrecord⟩ := Node.exists_record_of_mem_listings hs
    have hstart : s.startLine = (LineIndex.ofSource source).lineOf spot.2.startByte :=
      congrArg Symbol.startLine hrecord
    have hend : s.endLine = max ((LineIndex.ofSource source).lineOf spot.2.lastByte)
        ((LineIndex.ofSource source).lineOf spot.2.startByte) :=
      congrArg Symbol.endLine hrecord
    have hpos := LineIndex.one_le_lineOf_ofSource source spot.2.startByte
    have hfirst := (LineIndex.ofSource source).lineOf_le_lineCount spot.2.startByte
    have hlast := (LineIndex.ofSource source).lineOf_le_lineCount spot.2.lastByte
    omega
  · intro hnested s hs d hd
    rw [Symbol.descendants_eq_listing] at hd
    have hmono := (LineIndex.ofSource source).lineOf_monotone
    exact hnested.encloses_symbols hmono false s hs d hd

/-- A structure over two lines with a variable in a transparent node on the second. -/
def spanSample : Node where
  kind := .declares .structDecl
  startByte := 0
  endByte := 7
  children := [
    { kind := .other, startByte := 4, endByte := 7,
      children := [{ kind := .declares .varDecl, startByte := 4, endByte := 6 }] }]

/-- The bytes of two lines, the first ended by `\r\n` and the second by `\n`. -/
def spanSource : Bytes :=
  [0x61, 0x62, 0x0D, 0x0A, 0x63, 0x64, 0x0A]

/-- A structure over two lines and its variable on the second have nested lines. -/
theorem spanSample_nested :
    let symbols := (outline (LineIndex.ofSource spanSource).lineOf {} spanSample).flatMap
      Symbol.descendants
    spanSample.Nested ∧
      (∀ s ∈ symbols, ∀ d ∈ s.descendants, s.encloses d = true) ∧
      symbols.map (fun s => (s.startLine, s.endLine)) = [(1, 2), (2, 2)] := by
  intro symbols
  have hnested : spanSample.Nested := ⟨by decide, by decide⟩
  refine ⟨hnested, (outline_spans_nested spanSource {} spanSample).2 hnested, ?_⟩
  show ((outline _ _ _).flatMap Symbol.descendants).map _ = _
  rw [Symbol.flatMap_descendants, outline_eq_symbols]
  decide

end SourceOutline
