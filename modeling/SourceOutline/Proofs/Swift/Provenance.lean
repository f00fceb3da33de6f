import SourceOutline.Proofs.LineIndex.Bounds
import SourceOutline.Proofs.Swift.BindingWords
import SourceOutline.Proofs.Swift.Slices
import SourceOutline.Proofs.Walk.WellFormed

/-!
# Where the texts of an outline come from

A name or a label is cut out of the text of a part of its declaration, by steps that each
keep a contiguous piece: decoding, trimming, dropping words and colons, cutting before a
character.  With a well-nested tree whose ranges end between characters, such a text stands
in the source inside the range of the declaration (`Span.Holds`).

So an outline is determined by the tree, the lines and the bytes of the declarations: what
stands between them does not matter.  Transparent nodes do read other bytes, but nothing
that they read is shown.
-/

namespace SourceOutline.Swift

namespace Span

variable {source : Bytes} {s outer : Span}

/-- The text stands in the source at a range inside this one. -/
def Holds (source : Bytes) (outer : Span) (text : String) : Prop :=
  ∃ piece : Span, piece.Within outer ∧ piece.bytes source = Utf8.encode text.toList

/-- A range inside the source has as many bytes as its offsets say. -/
theorem length_bytes (h : s.InSource source) : (s.bytes source).length = s.stop - s.start := by
  have hstop := h.2
  rw [bytes, List.length_take, List.length_drop]
  omega

/-- A range in order holds the empty text. -/
theorem holds_empty (source : Bytes) (h : s.start ≤ s.stop) : s.Holds source "" := by
  refine ⟨⟨s.start, s.start⟩, ⟨Nat.le_refl _, Nat.le_refl _, h⟩, ?_⟩
  rw [bytes, Nat.sub_self, List.take_zero]
  rfl

/-- A piece of the bytes of a range stands at a range inside it. -/
theorem holds_of_infix (hs : s.InSource source) (hwithin : s.Within outer) {text : String}
    (h : Utf8.encode text.toList <:+: s.bytes source) : outer.Holds source text := by
  obtain ⟨before, after, hbytes⟩ := h
  have hlength := congrArg List.length hbytes
  rw [length_bytes hs, List.length_append, List.length_append] at hlength
  have horder := hs.1
  refine ⟨⟨s.start + before.length,
    s.start + before.length + (Utf8.encode text.toList).length⟩, ?_, ?_⟩
  · obtain ⟨hstart, -, hstop⟩ := hwithin
    refine ⟨?_, ?_, ?_⟩ <;> simp only <;> omega
  · have hsource : source.drop s.start =
        s.bytes source ++ (source.drop s.start).drop (s.stop - s.start) :=
      (List.take_append_drop _ _).symm
    simp only [bytes]
    rw [← List.drop_drop, hsource, ← hbytes, List.append_assoc, List.append_assoc,
      List.drop_left, Nat.add_sub_cancel_left, List.take_left]

/-- A range between characters holds the encoding of its text. -/
theorem bytes_eq_encode_text (hstart : Utf8.IsBoundary source s.start)
    (hstop : Utf8.IsBoundary source s.stop) (h : s.start ≤ s.stop) :
    s.bytes source = Utf8.encode (s.text source) := by
  obtain ⟨cs, hcs⟩ := hstart.exists_text hstop h
  have hbytes : s.bytes source = Utf8.encode cs := hcs
  rw [text, hbytes, Utf8.decodeLossy_encode]

/-- The bytes of a range inside another one are among the bytes of that one. -/
theorem bytes_of_within (h : s.Within outer) (source : Bytes) :
    s.bytes source =
      ((outer.bytes source).drop (s.start - outer.start)).take (s.stop - s.start) := by
  obtain ⟨hstart, horder, hstop⟩ := h
  have hoffset : outer.start + (s.start - outer.start) = s.start := by omega
  have hlength : min (s.stop - s.start) (outer.stop - outer.start - (s.start - outer.start)) =
      s.stop - s.start := by
    omega
  rw [bytes, bytes, List.drop_take, List.drop_drop, hoffset, List.take_take, hlength]

end Span

/-- Dropping binding words leaves the end of the text. -/
theorem dropBindingWords_suffix (cs : List Char) : dropBindingWords cs <:+ cs := by
  obtain ⟨words, _, hcs, _⟩ := exists_leadingWords cs
  exact ⟨words, hcs.symm⟩

/-- The text of a pattern is a piece of what is written. -/
theorem patternText_isInfix (cs : List Char) : patternText cs <:+: cs :=
  (dropBindingWords_suffix _).isInfix.trans (Text.trim_isInfix cs)

/-- The text of an annotation is a piece of what is written. -/
theorem annotationText_isInfix (cs : List Char) : annotationText cs <:+: cs :=
  (Text.trim_isInfix _).trans ((List.dropWhile_suffix _).isInfix.trans (Text.trim_isInfix cs))

namespace Tree

/-- Every range of the tree starts and ends between characters. -/
def OnBoundaries (source : Bytes) (root : Tree) : Prop :=
  ∀ t ∈ root.nodes, Utf8.IsBoundary source t.span.start ∧ Utf8.IsBoundary source t.span.stop

/-- Below a tree that cuts between characters, every child does. -/
theorem OnBoundaries.child {source : Bytes} {t c : Tree} (h : t.OnBoundaries source)
    (hc : c ∈ t.children) : c.OnBoundaries source :=
  fun n hn => h n (mem_nodes_of_child hc hn)

/-- In a tree that cuts between characters, every node does. -/
theorem OnBoundaries.of_mem_nodes {source : Bytes} {root t : Tree} (h : root.OnBoundaries source)
    (ht : t ∈ root.nodes) : t.OnBoundaries source :=
  holds_of_mem_nodes (fun _ _ h hc => h.child hc) h ht

/-! ### The nodes of a tree -/

theorem toNodes_eq_map (source : Bytes) (ts : List Tree) :
    toNodes source ts = (ts.filter Tree.named).map (toNode source) := by
  induction ts with
  | nil => rfl
  | cons t ts ih =>
      rw [toNodes, ih, List.filter_cons]
      split <;> rfl

theorem children_toNode (source : Bytes) (t : Tree) :
    (t.toNode source).children = t.namedChildren.map (toNode source) := by
  rw [toNode_eq, toNodes_eq_map]
  rfl

theorem mem_children_of_mem_namedChildren {t c : Tree} (h : c ∈ t.namedChildren) :
    c ∈ t.children :=
  List.mem_of_mem_filter h

theorem namedListings_eq_flatMap (ts : List Tree) :
    namedListings ts = (ts.filter Tree.named).flatMap namedListing := by
  induction ts with
  | nil => rfl
  | cons t ts ih =>
      rw [namedListings, ih, List.filter_cons]
      split <;> rfl

/-- A tree is listed first, then what its named children list. -/
theorem namedListing_eq (t : Tree) :
    t.namedListing = t :: t.namedChildren.flatMap namedListing := by
  cases t
  rw [namedListing, namedListings_eq_flatMap]
  rfl

theorem self_mem_namedListing (t : Tree) : t ∈ t.namedListing := by
  rw [namedListing_eq]
  exact List.mem_cons_self

/-- What a named child lists, its parent lists. -/
theorem mem_namedListing_of_child {t c n : Tree} (hc : c ∈ t.namedChildren)
    (hn : n ∈ c.namedListing) : n ∈ t.namedListing := by
  rw [namedListing_eq]
  exact List.mem_cons_of_mem _ (List.mem_flatMap.mpr ⟨c, hc, hn⟩)

/-- What is listed is a node of the tree. -/
theorem mem_nodes_of_mem_namedListing {t n : Tree} (h : n ∈ t.namedListing) : n ∈ t.nodes := by
  induction t using Tree.childrenInduction with
  | step t ih =>
      rw [namedListing_eq, List.mem_cons, List.mem_flatMap] at h
      rcases h with rfl | ⟨c, hc, hbelow⟩
      · exact n.self_mem_nodes
      · have hchild := mem_children_of_mem_namedChildren hc
        exact mem_nodes_of_child hchild (ih c hchild hbelow)

/-- What the outline walks over is the listing of the named nodes. -/
theorem map_snd_located_toNode (source : Bytes) (t : Tree) :
    (t.toNode source).located.map Prod.snd = t.namedListing.map (toNode source) := by
  induction t using Tree.childrenInduction with
  | step t ih =>
      have hbelow : t.namedChildren.flatMap (fun c => (c.toNode source).located.map Prod.snd) =
          t.namedChildren.flatMap fun c => c.namedListing.map (toNode source) :=
        List.flatMap_congr fun c hc => ih c (mem_children_of_mem_namedChildren hc)
      rw [Node.located_eq, children_toNode, namedListing_eq, List.map_cons, List.map_cons,
        map_snd_shelve, List.map_map, List.flatMap_map, List.map_flatMap]
      exact congrArg (t.toNode source :: ·) hbelow

/-! ### Texts of a declaration -/

section

variable {source : Bytes} {t : Tree}

/-- What is cut out of a part of a declaration stands in the declaration. -/
theorem holds_of_part (hnested : t.WellNested source) (hbounds : t.OnBoundaries source)
    {s : Span} (hs : s ∈ t.parts.toList) {text : String} (h : text.toList <:+: s.text source) :
    t.span.Holds source text := by
  have hwithin := hnested.parts_within hs
  -- A part starts with a child and ends with a child, so it is between characters as well.
  have hbytes : s.bytes source = Utf8.encode (s.text source) := by
    obtain ⟨first, last, hends, rfl⟩ := exists_ends_of_mem_parts hs
    have hchildren : first ∈ t.children ∧ last ∈ t.children := by
      rcases hends with ⟨rfl, hlast⟩ | hpair
      · exact ⟨hlast, hlast⟩
      · exact ⟨hpair.subset (by simp), hpair.subset (by simp)⟩
    have hfirst := hbounds first (mem_nodes_of_child hchildren.1 first.self_mem_nodes)
    have hlast := hbounds last (mem_nodes_of_child hchildren.2 last.self_mem_nodes)
    exact Span.bytes_eq_encode_text hfirst.1 hlast.2 hwithin.2.1
  refine Span.holds_of_infix (hwithin.inSource hnested.span_inSource) hwithin ?_
  rw [hbytes]
  exact Utf8.encode_isInfix h

/-- A name that is looked for in a part of a declaration is the placeholder or stands in the
declaration. -/
theorem holds_nameOrUnknown (hnested : t.WellNested source) (hbounds : t.OnBoundaries source)
    {text : Option String}
    (h : ∀ u ∈ text, ∃ s ∈ t.parts.toList, u.toList <:+: s.text source) :
    Node.nameOrUnknown text = "(unknown)" ∨ t.span.Holds source (Node.nameOrUnknown text) := by
  rcases Node.nameOrUnknown_cases text with hunknown | ⟨u, hu, -, hpiece⟩
  · exact .inl hunknown
  · obtain ⟨s, hs, hpart⟩ := h u hu
    exact .inr (holds_of_part hnested hbounds hs (hpiece.trans hpart))

/-- The text of an optional part is that of the part. -/
theorem exists_part_of_mem_map {part : Option Span} {u : String}
    (hpart : ∀ s ∈ part, s ∈ t.parts.toList)
    (h : u ∈ part.map fun s => String.ofList (s.text source)) :
    ∃ s ∈ t.parts.toList, u.toList <:+: s.text source := by
  obtain ⟨s, hs, rfl⟩ := Option.map_eq_some_iff.mp h
  exact ⟨s, hpart s hs, by simp⟩

end

end Tree

/-- The name of a symbol is made of words that its kind gives and a piece of the range. -/
def NameFrom (source : Bytes) (range : Span) (s : Symbol) : Prop :=
  match s.kind with
  | .deinitDecl => s.name = "deinit"
  | .initDecl => ∃ piece, s.name = "init" ++ piece ∧ range.Holds source piece
  | _ => s.name = "(unknown)" ∨ range.Holds source s.name

/-- The type label of a symbol names a literal type or is a piece of the range. -/
def LabelFrom (source : Bytes) (range : Span) (s : Symbol) : Prop :=
  ∀ label, s.typeLabel = some label →
    label ∈ ["String", "Bool", "Int", "Double", "Array", "Dictionary"] ∨
      range.Holds source label

namespace Tree

variable {source : Bytes} {t : Tree} {lineOf : Resolver} {options : OutlineOptions} {s : Symbol}

/-- The name of a symbol comes from the range of its own declaration. -/
theorem nameFrom_of_builtFrom (hnested : t.WellNested source) (hbounds : t.OnBoundaries source)
    (h : s.BuiltFrom lineOf options (t.toNode source)) : NameFrom source t.span s := by
  have hname := h.name_eq
  rw [toNode_eq] at hname
  cases hkind : s.kind with
  | deinitDecl =>
      rw [hkind] at hname
      simp only [NameFrom, hkind]
      exact hname
  | initDecl =>
      rw [hkind] at hname
      simp only [NameFrom, hkind]
      refine ⟨_, hname, ?_⟩
      cases hclause : t.parts.parameterClause with
      | none =>
          simp only [head, hclause]
          exact Span.holds_empty source hnested.span_inSource.1
      | some clause =>
          simp only [head, hclause]
          refine holds_of_part hnested hbounds
            (Parts.mem_toList.mpr (.inr (.inr (.inl hclause)))) ?_
          rw [Text.toList_trimmed, Option.map_some, Option.getD_some, String.toList_ofList]
          exact Text.trim_isInfix _
  | extensionDecl =>
      rw [hkind] at hname
      simp only [NameFrom, hkind, hname]
      exact holds_nameOrUnknown hnested hbounds fun u hu =>
        exists_part_of_mem_map (fun s hs => Parts.mem_toList.mpr (.inr (.inl hs))) hu
  | varDecl =>
      rw [hkind] at hname
      simp only [NameFrom, hkind, hname]
      refine holds_nameOrUnknown hnested hbounds fun u hu => ?_
      obtain ⟨texts, htexts, rfl⟩ := Option.map_eq_some_iff.mp hu
      obtain ⟨b, hb, rfl⟩ := Option.map_eq_some_iff.mp htexts
      refine ⟨b.pattern, Parts.mem_toList.mpr (.inr (.inr (.inr ⟨b, hb, .inl rfl⟩))), ?_⟩
      rw [BindingParts.read, String.toList_ofList]
      exact patternText_isInfix _
  | _ =>
      rw [hkind] at hname
      simp only [NameFrom, hkind, hname]
      exact holds_nameOrUnknown hnested hbounds fun u hu =>
        exists_part_of_mem_map (fun s hs => Parts.mem_toList.mpr (.inl hs)) hu

/-- The type label of a symbol comes from the range of its own declaration. -/
theorem labelFrom_of_builtFrom (hnested : t.WellNested source) (hbounds : t.OnBoundaries source)
    (h : s.BuiltFrom lineOf options (t.toNode source)) : LabelFrom source t.span s := by
  intro label hlabel
  obtain ⟨kind, _, hrecord⟩ := h
  have hshown : ((t.toNode source).symbol lineOf options kind).typeLabel = some label := by
    rw [← hrecord]
    exact hlabel
  rw [toNode_eq] at hshown
  simp only [Node.symbol] at hshown
  split at hshown
  · obtain ⟨texts, htexts, hbinding⟩ := Option.bind_eq_some_iff.mp hshown
    obtain ⟨b, hb, rfl⟩ := Option.map_eq_some_iff.mp htexts
    have hpart : ∀ s, s ∈ b.annotation ∨ s ∈ b.initializer → s ∈ t.parts.toList :=
      fun s hs => Parts.mem_toList.mpr (.inr (.inr (.inr ⟨b, hb, .inr hs⟩)))
    rcases (TypeLabel.ofBinding?_eq_some hbinding).2 with
      ⟨tag, rfl⟩ | ⟨text, htext, hpiece⟩ | ⟨text, htext, hpiece⟩
    · left
      cases tag <;> decide
    · right
      obtain ⟨s, hs, rfl⟩ := Option.map_eq_some_iff.mp htext
      rw [String.toList_ofList] at hpiece
      exact holds_of_part hnested hbounds (hpart s (.inl hs))
        (hpiece.trans (annotationText_isInfix _))
    · right
      obtain ⟨s, hs, rfl⟩ := Option.map_eq_some_iff.mp htext
      rw [String.toList_ofList] at hpiece
      exact holds_of_part hnested hbounds (hpart s (.inr hs))
        (hpiece.trans (Text.trim_isInfix _))
  · cases hshown

/-- A symbol is built from a declaration of its kind only. -/
theorem nodeKind_of_builtFrom (h : s.BuiltFrom lineOf options (t.toNode source)) :
    t.nodeKind = .declares s.kind := by
  obtain ⟨kind, hkind, hrecord⟩ := h
  rw [toNode_eq] at hkind
  have hsame : s.kind = kind := congrArg Symbol.kind hrecord
  rw [hsame]
  exact hkind

/-- Each symbol of an outline, in the order of the outline, goes back to a node of its own, in
the order of the tree. -/
theorem exists_origins (source : Bytes) (options : OutlineOptions) (tree : Tree) :
    ∃ origins : List (Tree × Symbol),
      origins.map Prod.snd = (outlineTree source options tree).flatMap Symbol.descendants ∧
      (origins.map Prod.fst).Sublist tree.namedListing ∧
      ∀ o ∈ origins, o.2.BuiltFrom (LineIndex.ofSource source).lineOf options
        (o.1.toNode source) := by
  obtain ⟨rows, hnodes, hsymbols, hlinked⟩ :=
    (tree.toNode source).paired_symbols (LineIndex.ofSource source).lineOf options false 0
  have hwalked : (rows.map Row.node).Sublist (tree.namedListing.map (toNode source)) := by
    have hshown : (rows.map Row.declared).Sublist (tree.toNode source).located := by
      rw [hnodes]
      exact List.filter_sublist
    have hbare := hshown.map Prod.snd
    rw [List.map_map, map_snd_located_toNode] at hbare
    exact hbare
  -- The nodes that show are those of some of the named trees, in the same order.
  obtain ⟨trees, htrees, hrows⟩ := List.sublist_map_iff.mp hwalked
  have hlength : trees.length = rows.length := by
    rw [← List.length_map (toNode source), ← hrows, List.length_map]
  refine ⟨trees.zip (rows.map Row.symbol), ?_, ?_, ?_⟩
  · rw [List.map_snd_zip (by simp [hlength]), outlineTree,
      Symbol.flatMap_descendants, outline_eq_symbols, ← Symbol.map_snd_forest 0, ← hsymbols,
      List.map_map]
    rfl
  · rw [List.map_fst_zip (by simp [hlength])]
    exact htrees
  · intro o ho
    obtain ⟨i, hi, rfl⟩ := List.getElem_of_mem ho
    rw [List.length_zip, List.length_map, hlength, Nat.min_self] at hi
    have hnode : rows[i].node = trees[i].toNode source := by
      have hsame : (rows.map Row.node)[i]? = (trees.map (toNode source))[i]? := by rw [hrows]
      simpa [hi, hlength] using hsame
    rw [List.getElem_zip, List.getElem_map, ← hnode]
    exact hlinked.record rows[i] (List.getElem_mem hi)

/-! ### Sources that agree on the declarations -/

section

variable {source' : Bytes}

/-- A binding is read in the same way where its parts have the same texts. -/
theorem read_congr {b : BindingParts Span}
    (h : ∀ s, s = b.pattern ∨ s ∈ b.annotation ∨ s ∈ b.initializer →
      s.text source = s.text source') : b.read source = b.read source' := by
  have hannotation : b.annotation.map (fun s => String.ofList (annotationText (s.text source))) =
      b.annotation.map fun s => String.ofList (annotationText (s.text source')) :=
    Option.map_congr fun s hs => by rw [h s (.inr (.inl hs))]
  have hinitializer : b.initializer.map (fun s => String.ofList (Text.trim (s.text source))) =
      b.initializer.map fun s => String.ofList (Text.trim (s.text source')) :=
    Option.map_congr fun s hs => by rw [h s (.inr (.inr hs))]
  rw [BindingParts.read, BindingParts.read, h b.pattern (.inl rfl), hannotation, hinitializer]

/-- A node reads nothing but the bytes of its own range. -/
theorem head_congr (hnested : t.WellNested source)
    (hbytes : t.span.bytes source = t.span.bytes source') : t.head source = t.head source' := by
  have htext : ∀ s ∈ t.parts.toList, s.text source = s.text source' := by
    intro s hs
    have hwithin := hnested.parts_within hs
    rw [Span.text, Span.text, Span.bytes_of_within hwithin, Span.bytes_of_within hwithin, hbytes]
  have hpart : ∀ part : Option Span, (∀ s ∈ part, s ∈ t.parts.toList) →
      part.map (fun s => String.ofList (s.text source)) =
        part.map fun s => String.ofList (s.text source') :=
    fun part h => Option.map_congr fun s hs => by rw [htext s (h s hs)]
  have hname := hpart t.parts.name fun s hs => Parts.mem_toList.mpr (.inl hs)
  have htype := hpart t.parts.extendedType fun s hs => Parts.mem_toList.mpr (.inr (.inl hs))
  have hclause := hpart t.parts.parameterClause
    fun s hs => Parts.mem_toList.mpr (.inr (.inr (.inl hs)))
  have hbinding : t.parts.binding.map (BindingParts.read source) =
      t.parts.binding.map (BindingParts.read source') :=
    Option.map_congr fun b hb => read_congr fun s hs =>
      htext s (Parts.mem_toList.mpr (.inr (.inr (.inr ⟨b, hb, hs⟩))))
  simp only [head]
  rw [hname, htype, hclause, hbinding]

/-- The record of a symbol reads the texts of its node, never the children. -/
theorem symbol_toNode (kind : Kind) :
    (t.toNode source).symbol lineOf options kind = (t.head source).symbol lineOf options kind := by
  rw [toNode_eq]
  rfl

/-- Sources with the same line starts and the same bytes in the range of a declaration give it the
same record. -/
theorem symbol_congr (options : OutlineOptions) (hnested : t.WellNested source)
    (hnested' : t.WellNested source')
    (hstarts : (LineIndex.ofSource source).starts = (LineIndex.ofSource source').starts)
    (hbytes : t.span.bytes source = t.span.bytes source') (kind : Kind) :
    (t.toNode source).symbol (LineIndex.ofSource source).lineOf options kind =
      (t.toNode source').symbol (LineIndex.ofSource source').lineOf options kind := by
  have hline : ∀ offset ≤ t.span.stop, (LineIndex.ofSource source).lineOf offset =
      (LineIndex.ofSource source').lineOf offset :=
    fun offset h => LineIndex.lineOf_ofSource_congr hstarts (Nat.le_trans h hnested.inSource)
      (Nat.le_trans h hnested'.inSource)
  have horder := hnested.span_inSource.1
  have hfirst := hline (t.head source).startByte horder
  have hlast := hline (t.head source).lastByte (by simp only [Node.lastByte, head]; omega)
  rw [symbol_toNode, symbol_toNode, ← head_congr hnested hbytes, Node.symbol, Node.symbol, hfirst,
    hlast]

/-- The outline of a node depends on the bytes of the declarations at and below it. -/
theorem symbols_congr (hnested : t.WellNested source) (hnested' : t.WellNested source')
    (hstarts : (LineIndex.ofSource source).starts = (LineIndex.ofSource source').starts)
    (hbytes : ∀ u ∈ t.namedListing, u.nodeKind ≠ .other →
      u.span.bytes source = u.span.bytes source') (inBody : Bool) :
    (t.toNode source).symbols (LineIndex.ofSource source).lineOf options inBody =
      (t.toNode source').symbols (LineIndex.ofSource source').lineOf options inBody := by
  induction t using Tree.childrenInduction generalizing inBody with
  | step t ih =>
      have hchildren : ∀ inBody,
          (t.toNode source).children.flatMap
            (Node.symbols (LineIndex.ofSource source).lineOf options inBody) =
          (t.toNode source').children.flatMap
            (Node.symbols (LineIndex.ofSource source').lineOf options inBody) := by
        intro inBody
        rw [children_toNode, children_toNode, List.flatMap_map, List.flatMap_map]
        refine List.flatMap_congr fun c hc => ?_
        have hchild := mem_children_of_mem_namedChildren hc
        exact ih c hchild (hnested.child hchild) (hnested'.child hchild)
          (fun u hu => hbytes u (mem_namedListing_of_child hc hu)) inBody
      have hkind : (t.toNode source).kind = t.nodeKind := by rw [toNode_eq]; rfl
      have hkind' : (t.toNode source').kind = t.nodeKind := by rw [toNode_eq]; rfl
      refine Node.symbols_congr (hkind.trans hkind'.symm) ?_ hchildren inBody
      -- Only a node that declares something needs its own bytes.
      intro kind hdeclares
      have hnode : t.nodeKind ≠ .other := by
        rw [← hkind, hdeclares]
        nofun
      exact symbol_congr options hnested hnested' hstarts
        (hbytes t t.self_mem_namedListing hnode) kind

end

end Tree

/-- **An outline says nothing that its declarations do not say.**  For a source that is UTF-8
and a well-nested tree of it with ranges between characters, each symbol of the outline goes
back to a declaration of its own, and its name and its label are made of texts that stand in
the range of this declaration.  Another source with the same tree, the same lines and the same
bytes in the declarations has the same outline. -/
theorem outline_texts_in_declarations (parser : Parser) {source : Bytes} {text : List Char}
    {tree : Tree} (htext : source = Utf8.encode text) (htree : parser source = some tree)
    (hnested : tree.WellNested source) (hbounds : tree.OnBoundaries source)
    (options : OutlineOptions) :
    (∃ (symbols : List Symbol) (origins : List (Tree × Symbol)),
      outline parser source options = .ok symbols ∧
      origins.map Prod.snd = symbols.flatMap Symbol.descendants ∧
      (origins.map Prod.fst).Sublist tree.namedListing ∧
      ∀ o ∈ origins,
        o.2.BuiltFrom (LineIndex.ofSource source).lineOf options (o.1.toNode source) ∧
        o.1.nodeKind = .declares o.2.kind ∧
        NameFrom source o.1.span o.2 ∧ LabelFrom source o.1.span o.2) ∧
    ∀ (source' : Bytes) (text' : List Char), source' = Utf8.encode text' →
      parser source' = some tree → tree.WellNested source' →
      (LineIndex.ofSource source).starts = (LineIndex.ofSource source').starts →
      (∀ t ∈ tree.namedListing, t.nodeKind ≠ .other →
        t.span.bytes source = t.span.bytes source') →
      outline parser source' options = outline parser source options := by
  have houtline := outline_eq_ok options htext htree
  constructor
  · obtain ⟨origins, hsymbols, hnodes, hbuilt⟩ := tree.exists_origins source options
    refine ⟨_, origins, houtline, hsymbols, hnodes, fun o ho => ?_⟩
    have hnode : o.1 ∈ tree.nodes :=
      Tree.mem_nodes_of_mem_namedListing (hnodes.subset (List.mem_map_of_mem ho))
    have hinner := hnested.of_mem_nodes hnode
    have hborders := hbounds.of_mem_nodes hnode
    exact ⟨hbuilt o ho, Tree.nodeKind_of_builtFrom (hbuilt o ho),
      Tree.nameFrom_of_builtFrom hinner hborders (hbuilt o ho),
      Tree.labelFrom_of_builtFrom hinner hborders (hbuilt o ho)⟩
  · intro source' text' htext' htree' hnested' hstarts hbytes
    rw [houtline, outline_eq_ok options htext' htree', outlineTree, outlineTree,
      outline_eq_symbols, outline_eq_symbols,
      Tree.symbols_congr hnested hnested' hstarts hbytes false]

/-- A comment of one character, and a variable on the line below it. -/
def commented (c : Char) : List Char :=
  ['/', '/', c, '\n'] ++ "var é: Foo".toList

/-- The tree of the source, for a character of two bytes. -/
def commentedTree : Tree :=
  ⟨"source_file", true, none, ⟨0, 16⟩, [
    ⟨"comment", true, none, ⟨0, 4⟩, []⟩,
    ⟨"property_declaration", true, none, ⟨5, 16⟩, [
      ⟨"value_binding_pattern", true, none, ⟨5, 8⟩, []⟩,
      ⟨"pattern", true, some "name", ⟨9, 11⟩, []⟩,
      ⟨"type_annotation", true, none, ⟨11, 16⟩, []⟩]⟩]⟩

/-- The tree cuts its source between characters, the comment included. -/
theorem commentedTree_onBoundaries : commentedTree.OnBoundaries (Utf8.encode (commented 'ä')) := by
  have hborder : ∀ k offset, (Utf8.encode ((commented 'ä').take k)).length = offset →
      Utf8.IsBoundary (Utf8.encode (commented 'ä')) offset := by
    intro k offset hoffset
    refine ⟨(commented 'ä').take k, (commented 'ä').drop k, ?_, hoffset⟩
    rw [← Utf8.encode_append, List.take_append_drop]
  have hstart := hborder 0 0 rfl
  have hdeclaration := hborder 4 5 rfl
  have hname := hborder 9 11 rfl
  have hend := hborder 14 16 rfl
  simp only [Tree.OnBoundaries, commentedTree, Tree.nodes, Tree.nodesOfAll]
  simp only [List.cons_append, List.nil_append, List.append_nil, List.forall_mem_cons,
    List.not_mem_nil, IsEmpty.forall_iff, implies_true, and_true]
  exact ⟨⟨hstart, hend⟩, ⟨hstart, hborder 3 4 rfl⟩, ⟨hdeclaration, hend⟩,
    ⟨hdeclaration, hborder 7 8 rfl⟩, ⟨hborder 8 9 rfl, hname⟩, ⟨hname, hend⟩⟩

/-- The comment may say something else. -/
theorem commented_same_outline :
    let parser : Parser := fun _ => some commentedTree
    let options : OutlineOptions := ⟨false, true⟩
    let source := Utf8.encode (commented 'ä')
    let other := Utf8.encode (commented 'ö')
    commentedTree.WellNested source ∧ commentedTree.OnBoundaries source ∧ source ≠ other ∧
    outline parser other options = outline parser source options ∧
    ∃ symbols, outline parser source options = .ok symbols ∧
      symbols.map (fun s => (s.name, s.typeLabel, s.startLine)) = [("é", some "Foo", 2)] ∧
      ∃ t ∈ commentedTree.namedListing, t.span.Holds source "é" ∧ t.span.Holds source "Foo" := by
  intro parser options source other
  have hnested : commentedTree.WellNested source := ⟨by decide, by decide, by decide, by decide⟩
  have hnested' : commentedTree.WellNested other := ⟨by decide, by decide, by decide, by decide⟩
  obtain ⟨⟨symbols, origins, houtline, hsymbols, hnodes, horigins⟩, hsame⟩ :=
    outline_texts_in_declarations parser (rfl : source = Utf8.encode (commented 'ä'))
      (rfl : parser source = some commentedTree) hnested commentedTree_onBoundaries options
  have hlisted : symbols = [⟨.varDecl, "é", 2, 2, some "Foo", []⟩] := by
    have heq : symbols = outlineTree source options commentedTree :=
      Except.ok.inj (houtline.symm.trans rfl)
    rw [heq, outlineTree, outline_eq_symbols]
    decide +kernel
  have hother : outline parser other options = outline parser source options :=
    hsame other (commented 'ö') rfl rfl hnested' (by decide) (by decide)
  subst hlisted
  -- There is one symbol, so there is one declaration, and it holds the two texts.
  obtain ⟨⟨t, s⟩, rfl⟩ : ∃ o, origins = [o] := by
    rw [← List.length_eq_one_iff, ← List.length_map Prod.snd, hsymbols, Symbol.flatMap_descendants]
    rfl
  have hs : s = ⟨.varDecl, "é", 2, 2, some "Foo", []⟩ := by
    rw [Symbol.flatMap_descendants] at hsymbols
    exact (List.cons.inj hsymbols).1
  subst hs
  obtain ⟨-, -, hname, hlabel⟩ := horigins _ List.mem_cons_self
  refine ⟨hnested, commentedTree_onBoundaries, by decide, hother, _, houtline, rfl, t,
    hnodes.subset List.mem_cons_self, ?_, ?_⟩
  · have hunknown : "é" ≠ "(unknown)" := by decide
    exact hname.resolve_left hunknown
  · exact (hlabel "Foo" rfl).resolve_left (by decide)

end SourceOutline.Swift
