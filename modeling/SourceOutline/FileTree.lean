import SourceOutline.Path
import SourceOutline.SystemError

/-!
# File trees

All directories from the top one down, with their files and symbolic links, as a value.  A
location is the list of names that leads from the top to an entry through directories only; a
path is what users write, and is followed name by name through `.`, `..` and links, from the
top or from the current directory.

An entry says what the program may do with it.  Names can only be looked up in a directory that
may be entered, and a file can be there without being readable.
-/

namespace SourceOutline

/-- What the program may do with an entry. -/
structure Access where
  /-- Read a file, or list a directory. -/
  read : Bool := true
  /-- Write a file, or make new entries in a directory. -/
  write : Bool := true
  /-- Look up names in a directory. -/
  enter : Bool := true
  deriving DecidableEq, Repr

/-- An entry of a directory. -/
inductive Entry where
  | file (name : Path) (access : Access) (content : Bytes)
  | link (name target : Path)
  | directory (name : Path) (access : Access) (entries : List Entry)
  deriving Repr

/-- A directory without its name. -/
structure Directory where
  access : Access := {}
  entries : List Entry := []
  deriving Repr

/-- The names from the top down to an entry. -/
abbrev Location := List Path

/-- All directories. -/
structure FileTree where
  top : Directory := {}
  /-- The location of the current directory. -/
  current : Location := []
  deriving Repr

def Entry.name : Entry → Path
  | .file name _ _ => name
  | .link name _ => name
  | .directory name _ _ => name

namespace FileTree

/-- The entry of a name in a directory. -/
def find? (entries : List Entry) (name : Path) : Option Entry :=
  entries.find? fun e => e.name = name

/-- The way from a directory up to the top: each directory on it with its name, without the
top itself. -/
abbrev Trail := List (Path × Directory)

namespace Trail

/-- The location to which a trail leads. -/
def location (trail : Trail) : Location :=
  (trail.map Prod.fst).reverse

/-- The trail to a directory inside another one. -/
def enter (name : Path) (directory : Directory) (trail : Trail) : Trail :=
  (name, directory) :: trail

/-- The trail to the directory above; above the top is the top itself. -/
def parent (trail : Trail) : Trail :=
  trail.tail

/-- The trail at which the target of a link starts that is met in a directory. -/
def start (trail : Trail) (target : Path) : Trail :=
  if Path.isAbsolute target then [] else trail

end Trail

/-- The directory to which a trail leads. -/
def directoryAt (t : FileTree) : Trail → Directory
  | [] => t.top
  | (_, directory) :: _ => directory

/-- The trail that goes on along some names, all of them names of directories. -/
def descend? (t : FileTree) (trail : Trail) : Location → Option Trail
  | [] => some trail
  | name :: rest =>
    match find? (t.directoryAt trail).entries name with
    | some (.directory _ access entries) => t.descend? (trail.enter name ⟨access, entries⟩) rest
    | _ => none

/-- The trail to the current directory, unless that has been removed. -/
def here? (t : FileTree) : Option Trail :=
  t.descend? [] t.current

/-- The trail at which a path starts. -/
def start? (t : FileTree) (path : Path) : Option Trail :=
  if Path.isAbsolute path then some [] else t.here?

/-- What a path leads to. -/
inductive Place where
  | file (parent : Trail) (name : Path) (access : Access) (content : Bytes)
  | directory (trail : Trail)
  /-- No such name in an existing directory. -/
  | vacant (parent : Trail) (name : Path)
  deriving Repr

/-- How many links one path may lead through. -/
def linkLimit : Nat :=
  40

/-- The longest name of an entry, in bytes. -/
def nameLimit : Nat :=
  255

/-- The longest path, in bytes. -/
def pathLimit : Nat :=
  4095

/-- What a path is followed for: to look at what is there, or to write a file. -/
inductive Purpose where
  | looking
  | writing
  deriving DecidableEq, Repr

/-- Follows names from the directory to which a trail leads, as far as the first link; from
there it goes on with `again`, the names of the target before the others.  Every name, `.`
and `..` among them, is looked up in a directory that must be one to enter.  For writing, the
last name must not have a slash after it, whatever it names. -/
def followTo (t : FileTree) (purpose : Purpose)
    (again : Trail → List Path → Except FileError Place) (trail : Trail) :
    List Path → Except FileError Place
  | [] => .ok (.directory trail)
  | name :: rest =>
    if name = [] then followTo t purpose again trail rest
    else if (t.directoryAt trail).access.enter = false then .error .accessDenied
    else if name = Path.ofText "." then followTo t purpose again trail rest
    else if name = Path.ofText ".." then followTo t purpose again trail.parent rest
    else
      let isLast := rest.all List.isEmpty
      if purpose = .writing ∧ isLast ∧ rest ≠ [] then .error .isDirectory
      else if nameLimit < name.length then .error .nameTooLong
      else
        match find? (t.directoryAt trail).entries name with
        | none => if isLast then .ok (.vacant trail name) else .error .noEntry
        | some (.file _ access content) =>
          if rest.isEmpty then .ok (.file trail name access content) else .error .notDirectory
        | some (.directory _ access entries) =>
          followTo t purpose again (trail.enter name ⟨access, entries⟩) rest
        | some (.link _ target) => again (trail.start target) (Path.names target ++ rest)

/-- Follows names from the directory to which a trail leads, through so many links at most. -/
def follow (t : FileTree) (purpose : Purpose) : Nat → Trail → List Path → Except FileError Place
  | 0 => t.followTo purpose fun _ _ => .error .linkLoop
  | links + 1 => t.followTo purpose (t.follow purpose links)

/-- Whether a path is short enough to be looked up. -/
def fits (path : Path) : Bool :=
  path.length ≤ pathLimit

/-- Looks a path up. -/
def lookup (t : FileTree) (purpose : Purpose) (path : Path) : Except SystemError Place :=
  if 0 ∈ path then
    .error (.custom .invalidInput "file name contained an unexpected NUL byte")
  else if path.isEmpty then .error (.numbered .noEntry)
  else if !fits path then .error (.numbered .nameTooLong)
  else
    match t.start? path with
    | none => .error (.numbered .noEntry)
    | some trail =>
      match t.follow purpose linkLimit trail (Path.names path) with
      | .ok place => .ok place
      | .error e => .error (.numbered e)

/-- Whether a path leads to a regular file. -/
def isFile (t : FileTree) (path : Path) : Bool :=
  match t.lookup .looking path with
  | .ok (.file ..) => true
  | _ => false

/-- Whether a path leads to a file or a directory. -/
def leadsToEntry (t : FileTree) (path : Path) : Bool :=
  match t.lookup .looking path with
  | .ok (.file ..) | .ok (.directory ..) => true
  | _ => false

/-- The directory that a path leads to, by its trail. -/
def directory? (t : FileTree) (path : Path) : Option Trail :=
  match t.lookup .looking path with
  | .ok (.directory trail) => some trail
  | _ => none

/-- Why a directory cannot be listed: its path is too long, or the program may not enter the
directory around it, or may not list it. -/
def listingError? (path : Path) (outer own : Access) : Option FileError :=
  if !fits path then some .nameTooLong
  else if outer.enter && own.read then none
  else some .accessDenied

/-- The content of the file that a path leads to. -/
def read (t : FileTree) (path : Path) : Except SystemError Bytes := do
  match ← t.lookup .looking path with
  | .file _ _ access content =>
    if access.read then return content else throw (.numbered .accessDenied)
  | .directory _ => throw (.numbered .isDirectory)
  | .vacant .. => throw (.numbered .noEntry)

/-- Puts an entry into a directory in the place of an earlier one of that name.  A
directory that is there keeps its entries. -/
def putEntry (entry : Entry) : List Entry → List Entry
  | [] => [entry]
  | e :: es =>
    if e.name = entry.name then
      match e, entry with
      | .directory .., .directory .. => e :: es
      | _, _ => entry :: es
    else e :: putEntry entry es

/-- Puts an entry below some entries, making the directories on the way. -/
def putBelow (entry : Entry) : Location → List Entry → List Entry
  | [], entries => putEntry entry entries
  | name :: rest, entries =>
    match find? entries name with
    | some (.directory ..) =>
      entries.map fun e =>
        match e with
        | .directory n access sub =>
          if n = name then .directory n access (putBelow entry rest sub) else e
        | e => e
    | _ => entries ++ [.directory name {} (putBelow entry rest [])]

/-- Puts an entry into the directory at a location, making the directories on the way. -/
def put (t : FileTree) (location : Location) (entry : Entry) : FileTree :=
  { t with top := { t.top with entries := putBelow entry location t.top.entries } }

/-- Writes a file where a path has led, if the program may: over an old one, which keeps its
access, or as a new one. -/
def writeAt (t : FileTree) (content : Bytes) : Place → Except FileError FileTree
  | .directory _ => .error .isDirectory
  | .vacant parent name =>
    if (t.directoryAt parent).access.write then
      .ok (t.put parent.location (.file name {} content))
    else .error .accessDenied
  | .file parent name access _ =>
    if access.write then .ok (t.put parent.location (.file name access content))
    else .error .accessDenied

/-- Writes a file, new or in the place of an old one.  Nothing is written in a directory
that does not exist. -/
def write (t : FileTree) (path : Path) (content : Bytes) : Except SystemError FileTree := do
  match t.writeAt content (← t.lookup .writing path) with
  | .ok t => return t
  | .error e => throw (.numbered e)

/-- The location of a directory that names lead to from another one.  Links to directories are
followed; what comes after a missing directory is missing as well. -/
def destination (t : FileTree) (trail : Trail) : List Path → Except FileError Location
  | [] => .ok trail.location
  | name :: rest =>
    match t.follow .looking linkLimit trail [name] with
    | .ok (.directory trail) => t.destination trail rest
    | .ok (.vacant trail name) => .ok (trail.location ++ name :: rest)
    | .ok _ => .error .notDirectory
    | .error e => .error e

/-- Makes the directory at a location and those on the way, as far as they are missing. -/
def makeDirectory (t : FileTree) (location : Location) : FileTree :=
  match location.getLast? with
  | some name => t.put location.dropLast (.directory name {} [])
  | none => t

/-- Adds an entry below the given directories of the current one, which are made as far as they
are missing.  A file is written through the links that it meets, and a directory that is there
already is left alone. -/
def add (t : FileTree) (parents : List Path) (entry : Entry) : Except FileError FileTree := do
  let some here := t.here? | throw .noEntry
  let location ← t.destination here parents
  let t := t.makeDirectory location
  match entry with
  | .file name _ content =>
    t.writeAt content (← t.follow .writing linkLimit [] (location ++ [name]))
  | .link .. => return t.put location entry
  | .directory name _ _ => return t.makeDirectory (← t.destination [] (location ++ [name]))

mutual

/-- The regular files at and below an entry of the directory at a location. -/
def filesOfEntry (location : Location) : Entry → List (Location × Bytes)
  | .file name _ content => [(location ++ [name], content)]
  | .link .. => []
  | .directory name _ entries => filesOfEntries (location ++ [name]) entries

/-- The regular files at and below several entries. -/
def filesOfEntries (location : Location) : List Entry → List (Location × Bytes)
  | [] => []
  | e :: es => filesOfEntry location e ++ filesOfEntries location es

end

/-- All regular files with their locations. -/
def files (t : FileTree) : List (Location × Bytes) :=
  filesOfEntries [] t.top.entries

/-- The regular files that are new or have another content than in `before`. -/
def changesSince (before t : FileTree) : List (Location × Bytes) :=
  t.files.filter fun (location, content) => before.files.lookup location ≠ some content

/-- A path to a location: from the current directory when that is above it, and from the top
otherwise. -/
def pathTo (t : FileTree) (location : Location) : Path :=
  match Text.afterStart? t.current location with
  | some names => Path.ofNames names
  | none => Path.absolute location

end FileTree

end SourceOutline
