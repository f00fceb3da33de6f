import SourceOutline.Language.Basic
import SourceOutline.Swift.Tree
import SourceOutline.Text.Cut

/-!
# Declarations in Swift syntax trees

The grammar marks most declarations by a node of their own, but has one node for
classes, structures, actors, enumerations and extensions, which their keyword tells
apart.

All the text that an outline takes from a source is found in two steps: `Tree.parts`
picks byte ranges from the tree alone, and only then are the ranges read.  A variable
declaration may bind several names; only its first binding counts, and nothing after
the second pattern is looked at.
-/

namespace SourceOutline.Swift

/-- The nodes of the grammar that declare something. -/
def tokens : TokenTable :=
  [("class_declaration", .declares .classDecl),
    ("protocol_declaration", .declares .protocolDecl),
    ("function_declaration", .declares .funcDecl),
    ("protocol_function_declaration", .declares .funcDecl),
    ("init_declaration", .declares .initDecl),
    ("deinit_declaration", .declares .deinitDecl),
    ("property_declaration", .declares .varDecl),
    ("protocol_property_declaration", .declares .varDecl)]

/-- What a keyword introduces. -/
def keywordKind? (keyword : String) : Option NodeKind :=
  [("class", Kind.classDecl), ("struct", .structDecl), ("actor", .actorDecl),
    ("enum", .enumDecl), ("extension", .extensionDecl)].lookup keyword |>.map .declares

/-- The ranges of a binding: its pattern, and its annotation and initializer when they
are there. -/
structure BindingParts (α : Type) where
  pattern : α
  annotation : Option α := none
  initializer : Option α := none
  deriving DecidableEq, Repr

/-- The parts of a declaration that an outline may show. -/
structure Parts (α : Type) where
  name : Option α
  extendedType : Option α
  parameterClause : Option α
  binding : Option (BindingParts α)
  deriving DecidableEq, Repr

/-- All parts that are there. -/
def Parts.toList {α : Type} (p : Parts α) : List α :=
  p.name.toList ++ p.extendedType.toList ++ p.parameterClause.toList ++
    match p.binding with
    | none => []
    | some b => b.pattern :: (b.annotation.toList ++ b.initializer.toList)

namespace Tree

/-- The keyword of a declaration: the one in its field, else the first among the nodes
without a name. -/
def keyword? (t : Tree) : Option NodeKind :=
  ((t.child? "declaration_kind").bind fun c => keywordKind? c.kind).or
    ((t.children.filter fun c => !c.named).findSome? fun c => keywordKind? c.kind)

/-- What a node is for the outline. -/
def nodeKind (t : Tree) : NodeKind :=
  match tokens.nodeKind t.kind with
  | .declares .classDecl => t.keyword?.getD (.declares .classDecl)
  | kind => kind

/-- A node that holds a pattern. -/
def isPattern (t : Tree) : Bool :=
  t.field = some "name" || t.kind = "pattern"

/-- Notes what a node after a pattern says about the binding. -/
def addToBinding (t : Tree) (b : BindingParts Span) : BindingParts Span :=
  if t.kind = "type_annotation" then { b with annotation := some t.span }
  else if t.field = some "value" then { b with initializer := some t.span }
  else b

/-- Reads nodes into the binding that is open, up to the next pattern; while none is
open, looks for the first pattern. -/
def scanBinding : Option (BindingParts Span) → List Tree → Option (BindingParts Span)
  | open?, [] => open?
  | none, t :: ts => scanBinding (if t.isPattern then some { pattern := t.span } else none) ts
  | some b, t :: ts => if t.isPattern then some b else scanBinding (some (t.addToBinding b)) ts

/-- Reads nodes up to the first closing parenthesis after an opening one; `start` is
where the clause began. -/
def scanClause : Option Nat → List Tree → Option Span
  | _, [] => none
  | none, t :: ts => scanClause (if t.kind = "(" then some t.span.start else none) ts
  | some start, t :: ts =>
    if t.kind = ")" then some ⟨start, t.span.stop⟩ else scanClause (some start) ts

/-- What an extension extends: its name, else its first type. -/
def extended? (t : Tree) : Option Tree :=
  (t.child? "name").or <|
    t.namedChildren.find? fun c => c.kind = "user_type" || c.kind = "type_identifier"

/-- Where the parts of a node are. -/
def parts (t : Tree) : Parts Span where
  name := (t.child? "name").map Tree.span
  extendedType := t.extended?.map Tree.span
  parameterClause := scanClause none t.children
  binding := scanBinding none t.children

end Tree

/-- The words that may stand before a pattern. -/
def bindingWords : List (List Char) :=
  ["async".toList, "let".toList, "var".toList]

/-- What follows a leading word and the blanks after it. -/
def afterWord? (word cs : List Char) : Option (List Char) :=
  match Text.afterStart? word cs with
  | some (c :: rest) => if Text.isBlank c then some (Text.trimStart rest) else none
  | _ => none

/-- What follows a leading binding word. -/
def afterBindingWord? (cs : List Char) : Option (List Char) :=
  bindingWords.findSome? fun word => afterWord? word cs

theorem length_afterWord?_lt {word cs rest : List Char} (h : afterWord? word cs = some rest) :
    rest.length < cs.length := by
  unfold afterWord? at h
  split at h
  · next c tail heq =>
    split at h
    · cases h
      have hlen := Text.length_trimStart_le tail
      rw [Text.afterStart?_eq_some_iff.1 heq]
      simp only [List.length_append, List.length_cons]
      omega
    · cases h
  · cases h

theorem length_afterBindingWord?_lt {cs rest : List Char}
    (h : afterBindingWord? cs = some rest) : rest.length < cs.length := by
  obtain ⟨word, _, hword⟩ := List.exists_of_findSome?_eq_some h
  exact length_afterWord?_lt hword

/-- Drops the leading binding words of a trimmed text. -/
def dropBindingWords (cs : List Char) : List Char :=
  match h : afterBindingWord? cs with
  | none => cs
  | some rest =>
    have := length_afterBindingWord?_lt h
    dropBindingWords rest
termination_by cs.length

/-- A pattern without the words before it. -/
def patternText (cs : List Char) : List Char :=
  dropBindingWords (Text.trim cs)

/-- An annotation without its colon. -/
def annotationText (cs : List Char) : List Char :=
  Text.trim ((Text.trim cs).dropWhile (· = ':'))

/-- The texts of a binding. -/
def BindingParts.read (source : Bytes) (b : BindingParts Span) : Binding where
  pattern := String.ofList (patternText (b.pattern.text source))
  annotation := b.annotation.map fun s => String.ofList (annotationText (s.text source))
  initializer := b.initializer.map fun s => String.ofList (Text.trim (s.text source))

namespace Tree

/-- A node as the outline sees it, without its children. -/
def head (source : Bytes) (t : Tree) : Node :=
  let text (s : Span) := String.ofList (s.text source)
  { kind := t.nodeKind
    startByte := t.span.start
    endByte := t.span.stop
    name := t.parts.name.map text
    extendedType := t.parts.extendedType.map text
    parameterClause := t.parts.parameterClause.map text
    binding := t.parts.binding.map (BindingParts.read source) }

mutual

/-- A tree as the outline sees it: only the named nodes count. -/
def toNode (source : Bytes) : Tree → Node
  | ⟨kind, named, field, span, children⟩ =>
    { head source ⟨kind, named, field, span, children⟩ with children := toNodes source children }

/-- The named ones among several trees. -/
def toNodes (source : Bytes) : List Tree → List Node
  | [] => []
  | t :: ts => if t.named then toNode source t :: toNodes source ts else toNodes source ts

end

end Tree

end SourceOutline.Swift
