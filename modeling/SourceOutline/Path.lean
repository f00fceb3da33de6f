import SourceOutline.Text.Cut
import SourceOutline.Text.Utf8

/-!
# Paths

The system takes a path for what its bytes are, with `/` between the names.  Users write
paths as text (`Path.ofText`), and are shown them as text (`Path.text`); what is no UTF-8 is
shown as `U+FFFD`, so that two paths may look the same.  Nothing here looks at a file system.
-/

namespace SourceOutline

/-- A path, or one name of it. -/
abbrev Path := Bytes

namespace Path

/-- The path that a text means. -/
def ofText (text : String) : Path :=
  Utf8.encode text.toList

instance : Coe String Path :=
  ⟨ofText⟩

/-- A path as text, whatever its bytes. -/
def text (path : Path) : String :=
  String.ofList (Utf8.decodeLossy path)

/-- The byte of `/`. -/
def slash : UInt8 :=
  0x2F

/-- The byte of `.`. -/
def point : UInt8 :=
  0x2E

/-- The names between the slashes, empty ones included. -/
def names (path : Path) : List Path :=
  Text.pieces slash path

/-- Names with slashes between them. -/
def ofNames (names : List Path) : Path :=
  [slash].intercalate names

/-- The path from the top of all directories along some names. -/
def absolute (names : List Path) : Path :=
  slash :: ofNames names

/-- Whether a path starts at the top of all directories and not at the current one. -/
def isAbsolute (path : Path) : Bool :=
  path.head? = some slash

/-- A name below a path; a slash that is there already is not doubled. -/
def join (path name : Path) : Path :=
  if path.isEmpty || path.getLast? = some slash then path ++ name else path ++ slash :: name

/-- The last name of a path that means an entry of its own: empty names and `.` are passed
over, and after `..` there is none. -/
def lastName? (path : Path) : Option Path :=
  match ((names path).filter fun n => n ≠ [] ∧ n ≠ ofText ".").getLast? with
  | some name => if name = ofText ".." then none else some name
  | none => none

/-- The bytes after the last `.` of the last name.  There are none when the only `.` begins
the name. -/
def extension? (path : Path) : Option Bytes := do
  let name ← lastName? path
  let (after, before) ← Text.breakAt? point name.reverse
  if before.isEmpty then none else some after.reverse

/-- Whether a path is a single name; slashes and points after it change nothing. -/
def isOnly (name path : Path) : Bool :=
  match names path with
  | first :: rest => first = name ∧ ∀ n ∈ rest, n = [] ∨ n = ofText "."
  | [] => false

/-- Whether a path is the lone dash, which stands for standard input. -/
def isDash (path : Path) : Bool :=
  isOnly (ofText "-") path

/-- Whether a path says nothing but that it starts at the current directory. -/
def isHere (path : Path) : Bool :=
  isOnly (ofText ".") path

/-- A path without a part that it may start with. -/
def without (part path : Path) : Path :=
  (Text.afterStart? part path).getD path

/-- What the paths of entries below a directory start with, as rules compare them: the path
of the directory without one `./`.  The current directory leaves nothing to compare. -/
def base? (directory : Path) : Option Path :=
  let base := without (ofText "./") directory
  if isHere base then none else some base

/-- A path as rules compare it: without two `./` in front.  A directory with more of these
than one is therefore not recognised in it. -/
def compared (path : Path) : Path :=
  without (ofText "./") (without (ofText "./") path)

/-- A path as it is compared, seen from a directory with the given base.  It stays whole when
it is a lone name or starts otherwise. -/
def seenFrom (base : Option Path) (path : Path) : Path :=
  match base with
  | none => path
  | some base =>
    if slash ∉ path then path
    else
      match Text.afterStart? base path with
      | some rest => without [slash] rest
      | none => path

/-- Whether a name is hidden: it begins with a point. -/
def isHidden (name : Path) : Bool :=
  name.head? = some point

end Path

end SourceOutline
