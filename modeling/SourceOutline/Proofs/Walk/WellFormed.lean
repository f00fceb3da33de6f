import SourceOutline.Proofs.Node.Texts
import SourceOutline.Proofs.Walk.Visibility

/-!
# Symbols of an outline are well formed

Whatever texts the nodes of a tree carry, every symbol of its outline has a trimmed name,
only variables have labels, and only symbols that the walk looks into have members.

Names and labels are settled when the record of a node is made.  Members are settled by the
walk: it opens a scope for containers, and for callables when it is deep
(`Node.role_of_members`).
-/

namespace SourceOutline

namespace Symbol

/-- What holds of every symbol of an outline. -/
structure WellFormed (options : OutlineOptions) (s : Symbol) : Prop where
  name : Text.IsTrimmed s.name.toList
  label : ∀ label, s.typeLabel = some label →
    s.kind = .varDecl ∧ options.showType = true ∧ Text.IsTrimmed label.toList
  variable_leaf : s.kind = .varDecl → s.members = []
  callable_leaf : options.deep = false → s.kind.isCallable = true → s.members = []

/-- The symbol is the record of a node, with members added. -/
def BuiltFrom (lineOf : Resolver) (options : OutlineOptions) (n : Node) (s : Symbol) : Prop :=
  ∃ kind, n.kind = .declares kind ∧ { s with members := [] } = n.symbol lineOf options kind

end Symbol

namespace Node

variable {lineOf : Resolver} {options : OutlineOptions}

/-- The record of a node is labelled when it is one of a variable and labels are shown, and
then by a trimmed text. -/
theorem label_of_symbol {n : Node} {kind : Kind} {label : String}
    (h : (n.symbol lineOf options kind).typeLabel = some label) :
    kind = .varDecl ∧ options.showType = true ∧ Text.IsTrimmed label.toList := by
  simp only [symbol] at h
  split at h
  · next hshown =>
    obtain ⟨b, _, hlabel⟩ := Option.bind_eq_some_iff.mp h
    exact ⟨hshown.1, hshown.2, (TypeLabel.ofBinding?_eq_some hlabel).1⟩
  · cases h

/-- The record of a node, whose members are still to come. -/
theorem members_symbol (n : Node) (kind : Kind) : (n.symbol lineOf options kind).members = [] :=
  rfl

/-- Only containers have members, and callables in a deep outline. -/
theorem role_of_members {n : Node} {inBody : Bool} {s : Symbol}
    (h : s ∈ Symbol.listings (n.symbols lineOf options inBody)) (hmembers : s.members ≠ []) :
    s.kind.role = .container ∨ s.kind.role = .callable ∧ options.deep = true := by
  induction n using Node.childrenInduction generalizing inBody with
  | step n ih =>
      -- What is listed below a symbol comes from the children of its node.
      have hbelow : ∀ inBody, s ∈ Symbol.listings (n.children.flatMap
          (symbols lineOf options inBody)) →
          s.kind.role = .container ∨ s.kind.role = .callable ∧ options.deep = true := by
        intro inBody hs
        obtain ⟨c, hc, hchild⟩ := Symbol.mem_listings_flatMap.mp hs
        exact ih c hc hchild
      rcases symbols_cases lineOf options inBody n with
        ⟨-, hsymbols⟩ | ⟨kind, below, -, hopens, hsymbols⟩ | ⟨kind, -, hsymbols⟩ | hsymbols
      · rw [hsymbols] at h
        exact hbelow inBody h
      · rw [hsymbols, Symbol.listings_singleton, Symbol.listing_eq, List.mem_cons] at h
        rcases h with rfl | h
        · exact hopens
        · exact hbelow below h
      · rw [hsymbols] at h
        cases List.mem_singleton.mp h
        exact absurd (members_symbol n kind) hmembers
      · rw [hsymbols] at h
        cases h

end Node

variable {lineOf : Resolver} {options : OutlineOptions}

/-- The name of a symbol is the one its node gives for its kind. -/
theorem Symbol.BuiltFrom.name_eq {n : Node} {s : Symbol} (h : s.BuiltFrom lineOf options n) :
    s.name = n.symbolName s.kind := by
  obtain ⟨kind, _, hrecord⟩ := h
  have hkind : s.kind = kind := congrArg Symbol.kind hrecord
  have hname : s.name = n.symbolName kind := congrArg Symbol.name hrecord
  rw [hkind]
  exact hname

/-- A record with members where the walk puts them is well formed. -/
theorem Symbol.BuiltFrom.wellFormed {n : Node} {s : Symbol} (h : s.BuiltFrom lineOf options n)
    (hmembers : s.members ≠ [] →
      s.kind.role = .container ∨ s.kind.role = .callable ∧ options.deep = true) :
    s.WellFormed options := by
  have hname := h.name_eq
  obtain ⟨kind, _, hrecord⟩ := h
  have hkind : s.kind = kind := congrArg Symbol.kind hrecord
  have hlabel : s.typeLabel = (n.symbol lineOf options kind).typeLabel := by
    rw [← hrecord]
  constructor
  · rw [hname]
    exact n.isTrimmed_symbolName s.kind
  · intro label hsome
    rw [hlabel] at hsome
    rw [hkind]
    exact Node.label_of_symbol hsome
  · intro hvar
    by_contra hne
    have hrole := hmembers hne
    rw [hvar] at hrole
    simp [Kind.role] at hrole
  · intro hshallow hcallable
    by_contra hne
    have hrole : s.kind.role = .callable := of_decide_eq_true hcallable
    have hopened := hmembers hne
    rw [hrole, hshallow] at hopened
    simp at hopened

/-- **Every symbol of an outline is well formed**, whatever the tree, the line numbering and
the options; it is built from a node of the tree.  Symbols of initializers have the same
name exactly when the parameters of their nodes are the same but for blanks around them, a
missing clause being empty. -/
theorem outline_symbols_wellFormed (lineOf : Resolver) (options : OutlineOptions) (root : Node) :
    (∀ s ∈ (outline lineOf options root).flatMap Symbol.descendants,
      s.WellFormed options ∧ ∃ spot ∈ root.located, s.BuiltFrom lineOf options spot.2) ∧
    ∀ (lineOf' : Resolver) (options' : OutlineOptions) (m n : Node) (s t : Symbol),
      s.BuiltFrom lineOf options m → t.BuiltFrom lineOf' options' n →
      s.kind = .initDecl → t.kind = .initDecl →
      (s.name = t.name ↔
        Text.trimmed (m.parameterClause.getD "") = Text.trimmed (n.parameterClause.getD "")) := by
  constructor
  · rw [Symbol.flatMap_descendants, outline_eq_symbols]
    intro s hs
    obtain ⟨spot, hspot, hbuilt⟩ := Node.exists_record_of_mem_listings hs
    have hfrom : s.BuiltFrom lineOf options spot.2 := hbuilt
    exact ⟨hfrom.wellFormed (Node.role_of_members hs), spot, hspot, hfrom⟩
  · intro lineOf' options' m n s t hs ht hsinit htinit
    rw [hs.name_eq, ht.name_eq, hsinit, htinit]
    exact Node.symbolName_init_inj m n

/-- An initializer with blanks around its parameters. -/
def paddedInit : Node :=
  { kind := .declares .initDecl, startByte := 1, endByte := 2,
    parameterClause := some " (a: Int)\n" }

/-- The same initializer without them. -/
def plainInit : Node :=
  { kind := .declares .initDecl, startByte := 3, endByte := 4, parameterClause := some "(a: Int)" }

/-- A class with blanks around its name, two initializers, and a variable that has nothing but
blanks for a name and for a type. -/
def paddedSample : Node where
  kind := .declares .classDecl
  startByte := 0
  endByte := 9
  name := some "\u3000A\t"
  children := [paddedInit, plainInit,
    { kind := .declares .varDecl, startByte := 5, endByte := 6,
      binding := some ⟨"\u00A0", some " ", some " Foo (1)"⟩ }]

/-- Blanks around names, clauses, patterns and values are gone from every symbol. -/
theorem paddedSample_wellFormed :
    let options : OutlineOptions := ⟨false, true⟩
    let symbols := (outline id options paddedSample).flatMap Symbol.descendants
    symbols.map (fun s => (s.kind, s.name, s.typeLabel)) =
      [(.classDecl, "A", none), (.initDecl, "init(a: Int)", none),
        (.initDecl, "init(a: Int)", none), (.varDecl, "(unknown)", some "Foo")] ∧
    (∀ s ∈ symbols, s.WellFormed options) ∧
    Symbol.BuiltFrom id options paddedInit (paddedInit.symbol id options .initDecl) ∧
    (paddedInit.symbol id options .initDecl).name =
      (plainInit.symbol id options .initDecl).name := by
  intro options symbols
  have hall := outline_symbols_wellFormed id options paddedSample
  have hpadded : Symbol.BuiltFrom id options paddedInit (paddedInit.symbol id options .initDecl) :=
    ⟨.initDecl, rfl, rfl⟩
  have hplain : Symbol.BuiltFrom id options plainInit (plainInit.symbol id options .initDecl) :=
    ⟨.initDecl, rfl, rfl⟩
  refine ⟨?_, fun s hs => (hall.1 s hs).1, hpadded, ?_⟩
  · show ((outline _ _ _).flatMap Symbol.descendants).map _ = _
    rw [Symbol.flatMap_descendants, outline_eq_symbols]
    decide
  · exact (hall.2 id options paddedInit plainInit _ _ hpadded hplain rfl rfl).mpr (by decide)

end SourceOutline
