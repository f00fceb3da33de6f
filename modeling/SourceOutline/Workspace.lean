import SourceOutline.FileTree
import SourceOutline.Json.Parser
import SourceOutline.Swift.Language

/-!
# Workspaces

Parsing Swift is the work of another program, which hands over the files that it has
parsed together with their syntax trees.  A workspace is what it hands over: a list of
entries, each with its path and

1.  the text of a file, or its bytes in hexadecimal, and possibly its syntax tree;
2.  the mark of a directory;
3.  or the target of a link.

Entries are made in the order of the list, through the links that are there by then.
A syntax tree is a list of rows `[depth, kind, named, field, start, end]` in source
order.
-/

namespace SourceOutline

namespace Json

def asString? : Json → Option String
  | .string s => some s
  | _ => none

def asNat? : Json → Option Nat
  | .number (.integer (.ofNat n)) => some n
  | _ => none

def asArray? : Json → Option (List Json)
  | .array items => some items
  | _ => none

end Json

/-- One node of a syntax tree, from its row. -/
def Swift.Row.ofJson? : Json → Option Swift.Row
  | .array [depth, kind, named, field, start, stop] => do
    let field : Option String ←
      match field with
      | .null => some none
      | .string s => some (some s)
      | _ => none
    return {
      depth := ← depth.asNat?
      kind := ← kind.asString?
      named := (← named.asNat?) ≠ 0
      field
      span := ⟨← start.asNat?, ← stop.asNat?⟩ }
  | _ => none

/-- A syntax tree, from the list of its rows. -/
def Swift.Tree.ofJson? (j : Json) : Option Swift.Tree := do
  Swift.Tree.ofRows? (← (← j.asArray?).mapM Swift.Row.ofJson?)

/-- Bytes in hexadecimal. -/
def Utf8.ofHex? : List Char → Option Bytes
  | [] => some []
  | a :: b :: rest => do
    let high ← Json.Parser.hexDigit? a
    let low ← Json.Parser.hexDigit? b
    return UInt8.ofNat (high * 16 + low) :: (← ofHex? rest)
  | [_] => none

/-- The bytes that an object gives as `text` or as `hex`. -/
def Json.bytes? (j : Json) : Option Bytes :=
  match j.field? "text", j.field? "hex" with
  | some (.string text), _ => some (Utf8.encode text.toList)
  | _, some (.string hex) => Utf8.ofHex? hex.toList
  | _, _ => none

/-- Files, and the syntax trees of those that have been parsed.  The current directory is
one below the top, with nothing beside it. -/
structure Workspace where
  files : FileTree :=
    { top := { entries := [.directory "workspace" {} []] }, current := ["workspace"] }
  trees : List (Bytes × Swift.Tree) := []

namespace Workspace

/-- The trees of a workspace as a parser. -/
def parser (w : Workspace) : Swift.Parser :=
  fun source => w.trees.lookup source

/-- The entry that an object describes. -/
def entryOf? (name : Path) (j : Json) : Option Entry :=
  match j.field? "dir", j.field? "link" with
  | some (.bool true), _ => some (.directory name {} [])
  | _, some (.string target) => some (.link name target)
  | _, _ => j.bytes?.map (.file name {})

/-- Adds the entry that an object describes. -/
def add? (w : Workspace) (j : Json) : Option Workspace := do
  let path ← (← j.field? "path").asString?
  let names := (Path.names path).filter fun n => n ≠ [] ∧ n ≠ Path.ofText "."
  let entry ← entryOf? (← names.getLast?) j
  let files ← (w.files.add names.dropLast entry).toOption
  match entry, j.field? "tree" with
  | .file _ _ content, some rows =>
    return { files, trees := w.trees ++ [(content, ← Swift.Tree.ofJson? rows)] }
  | _, _ => return { w with files }

/-- The workspace with the given entries. -/
def ofEntries? (entries : List Json) : Option Workspace :=
  entries.foldlM add? {}

/-- The workspace that a JSON text describes; an empty text is an empty workspace. -/
def parse? (text : String) : Option Workspace :=
  if text.isEmpty then some {} else do ofEntries? (← (← Json.parse? text).asArray?)

end Workspace

end SourceOutline
