import SourceOutline.Fault
import SourceOutline.Walk

/-!
# Languages

A language knows the node names of its grammar that matter for an outline, the file
extensions of its sources, and how to outline one source.
-/

namespace SourceOutline

/-- The node names of a grammar that declare something. -/
abbrev TokenTable := List (String × NodeKind)

namespace TokenTable

/-- What a node name stands for; unlisted names are transparent. -/
def nodeKind (table : TokenTable) (token : String) : NodeKind :=
  (table.lookup token).getD .other

/-- The listed name, when there is one. -/
def token? (table : TokenTable) (token : String) : Option String :=
  (table.find? fun entry => entry.1 = token).map Prod.fst

/-- Whether a node name is listed. -/
def isToken (table : TokenTable) (token : String) : Bool :=
  table.any fun entry => entry.1 = token

end TokenTable

/-- A language that can be outlined. -/
structure Language where
  name : String
  extensions : List String
  tokens : TokenTable
  outline : Bytes → OutlineOptions → Except Fault (List Symbol)

/-- Whether sources of the language may have this file extension. -/
def Language.supportsExtension (language : Language) (extension : String) : Bool :=
  language.extensions.contains extension

end SourceOutline
