import SourceOutline.Text.Utf8

/-!
# Concrete syntax trees

The tree that a Swift parser gives for a source: every token is a node, with a kind
from the grammar, the byte range it covers and the field it has in its parent.  A tree
is handed over as the list of its nodes in source order, each with its depth.
-/

namespace SourceOutline.Swift

/-- A range of bytes, `start` included and `stop` not. -/
structure Span where
  start : Nat
  stop : Nat
  deriving DecidableEq, Repr

namespace Span

/-- The bytes of a source in a range. -/
def bytes (source : Bytes) (s : Span) : Bytes :=
  (source.drop s.start).take (s.stop - s.start)

/-- The text of a source in a range. -/
def text (source : Bytes) (s : Span) : List Char :=
  Utf8.decodeLossy (s.bytes source)

/-- Whether a range is one of the source. -/
def InSource (source : Bytes) (s : Span) : Prop :=
  s.start ≤ s.stop ∧ s.stop ≤ source.length

end Span

/-- A concrete syntax tree. -/
structure Tree where
  kind : String
  /-- Whether the grammar gives the node a name; punctuation and keywords have none. -/
  named : Bool
  /-- The field of the node in its parent. -/
  field : Option String
  span : Span
  children : List Tree
  deriving Repr

/-- One node of a tree, with its depth below the root. -/
structure Row where
  depth : Nat
  kind : String
  named : Bool
  field : Option String
  span : Span
  deriving DecidableEq, Repr

namespace Tree

/-- Puts a node before the trees that follow it: those deeper than the node, up to the
first that is not, are its children. -/
def addRow (row : Row) (after : List (Nat × Tree)) : List (Nat × Tree) :=
  let deeper (entry : Nat × Tree) : Bool := row.depth < entry.1
  let children := (after.takeWhile deeper).map Prod.snd
  (row.depth, ⟨row.kind, row.named, row.field, row.span, children⟩) :: after.dropWhile deeper

/-- The tree with the given nodes. -/
def ofRows? (rows : List Row) : Option Tree :=
  match rows.foldr addRow [] with
  | [(_, tree)] => some tree
  | _ => none

/-- The first child in a field. -/
def child? (t : Tree) (field : String) : Option Tree :=
  t.children.find? fun c => c.field = some field

/-- The children that the grammar names. -/
def namedChildren (t : Tree) : List Tree :=
  t.children.filter Tree.named

mutual

/-- A node and the named nodes below it that are reached through named nodes, in source
order. -/
def namedListing : Tree → List Tree
  | ⟨kind, named, field, span, children⟩ =>
    ⟨kind, named, field, span, children⟩ :: namedListings children

/-- The listings of the named ones among several nodes. -/
def namedListings : List Tree → List Tree
  | [] => []
  | t :: ts => if t.named then namedListing t ++ namedListings ts else namedListings ts

end

end Tree

end SourceOutline.Swift
