import SourceOutline.Swift.Declaration

/-!
# Outlining Swift

The parser is a parameter: any function that gives a tree for a source.  A source that
is not UTF-8 is refused before it is parsed; a source with mistakes in it is outlined
as far as the tree goes.
-/

namespace SourceOutline.Swift

/-- A parser for Swift; it may give up. -/
abbrev Parser := Bytes → Option Tree

/-- The fault of a source that is not UTF-8. -/
def encodingFault (flaw : Utf8.Flaw) : Fault :=
  (Fault.plain .encodingError "source is not valid UTF-8").withCause (.encoding flaw)

/-- The fault of a source that the parser gives no tree for. -/
def noTreeFault : Fault :=
  (Fault.plain .parseFailed "tree-sitter returned no tree for Swift source").withOperation
    "swift::outline"

/-- The outline of a tree of a source. -/
def outlineTree (source : Bytes) (options : OutlineOptions) (tree : Tree) : List Symbol :=
  let index := LineIndex.ofSource source
  SourceOutline.outline index.lineOf options (tree.toNode source)

/-- The outline of a source. -/
def outline (parser : Parser) (source : Bytes) (options : OutlineOptions) :
    Except Fault (List Symbol) :=
  match Utf8.decode source with
  | .error flaw => .error (encodingFault flaw)
  | .ok _ =>
    match parser source with
    | none => .error noTreeFault
    | some tree => .ok (outlineTree source options tree)

def language (parser : Parser) : Language where
  name := "swift"
  extensions := ["swift"]
  tokens := tokens
  outline := outline parser

end SourceOutline.Swift
