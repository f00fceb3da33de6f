import SourceOutline.FileTree
import SourceOutline.Ignore.Rule
import SourceOutline.Outcome

/-!
# Finding source files

An input that is a file counts when its extension is one of those asked for.  An input
that is a directory is scanned: its own files, or all files below it, except

1.  what the rules of ignore files skip, together with everything inside it;
2.  hidden entries that no rule keeps;
3.  symbolic links.

The input itself is never skipped, and is followed when it is a link.  A directory that
cannot be listed is passed over with a warning.  Rules come from the scanned directories and
from all directories above them.  `.ignore` files decide first, then `.gitignore` files,
then the `exclude` file of a repository; of two files with the same name the one nearer to
the entry decides.  The last two kinds count only inside a repository, up to its top
directory, which is the one with an entry `.git` or `.jj`.  What cannot be read of an ignore
file is no rule; the warnings about such lines above an input are left out.

Files are found by their paths and handed on as text.
-/

namespace SourceOutline.Discovery

open Ignore (Rule Verdict)

/-- How a directory with rules is seen from the directory that is being scanned. -/
inductive View where
  /-- A directory above the input, by the names from it down to the scanned one. -/
  | above (names : Location)
  /-- The input or a directory below it, by what the paths of its entries start with. -/
  | within (base : Option Path)
  deriving DecidableEq, Repr

/-- The path of an entry by which the rules of a directory know it, from its name and from
its path as rules compare it. -/
def View.pathOf (name path : Path) : View → Path
  | .above names => Path.ofNames (names ++ [name])
  | .within base => Path.seenFrom base path

/-- The view from a directory inside the scanned one. -/
def View.enter (name : Path) : View → View
  | .above names => .above (names ++ [name])
  | .within base => .within base

/-- The rules that one directory brings. -/
structure Level where
  view : View
  ignore : List Rule
  gitignore : List Rule
  exclude : List Rule
  /-- Whether a repository has its top here. -/
  isTop : Bool

/-- The rules of the file at a path. -/
def rulesAt (t : FileTree) (path : Path) : List Rule :=
  match t.read path with
  | .ok content => Rule.ofFile content
  | .error _ => []

/-- The first line of the file at a path. -/
def firstLine? (t : FileTree) (path : Path) : Option (List Char) :=
  match t.read path with
  | .ok content => (Text.readLines content).head?
  | .error _ => none

/-- The directory with the data of the repository whose top is the given directory.  It is
the entry `.git`, unless that is a file: then its first line names a directory of a linked
repository, and the first line of `commondir` in that one names the directory with the
data, from there when it starts with a point. -/
def repository? (t : FileTree) (directory : Path) : Option Path :=
  let git := Path.join directory ".git"
  if t.isFile git then do
    let linked := Utf8.encode (← Text.afterStart? "gitdir: ".toList (← firstLine? t git))
    let common := Utf8.encode (← firstLine? t (Path.join linked "commondir"))
    return if common.head? = some Path.point then Path.join linked common else common
  else some git

/-- The rules of the directory with a path.  Only what is among its entries is read. -/
def levelAt (t : FileTree) (directory : Path) (entries : List Entry) (view : View) : Level :=
  let has (name : Path) : Bool := (FileTree.find? entries name).isSome
  let rules (name : Path) : List Rule :=
    if has name then rulesAt t (Path.join directory name) else []
  let isEntry (name : Path) : Bool := has name && t.leadsToEntry (Path.join directory name)
  { view
    ignore := rules ".ignore"
    gitignore := rules ".gitignore"
    exclude :=
      match if has ".git" then repository? t directory else none with
      | some data => rulesAt t (Path.join data "info/exclude")
      | none => []
    isTop := isEntry ".git" || isEntry ".jj" }

/-- The rules of the directories above the one to which a trail leads, nearest first.
`below` are the names from there down to the input. -/
def levelsAbove (t : FileTree) (below : Location) : FileTree.Trail → List Level
  | [] => []
  | (name, _) :: trail =>
    let directory := Path.absolute (FileTree.Trail.location trail)
    levelAt t directory (t.directoryAt trail).entries (.above (name :: below)) ::
      levelsAbove t (name :: below) trail

/-- The rules for the entries of the input directory to which a trail leads.  The directories
above it are reached from the top, and bring no rules when there is no way from there. -/
def levelsOf (t : FileTree) (input : Path) (trail : FileTree.Trail) : List Level :=
  let own := levelAt t input (t.directoryAt trail).entries (.within (Path.base? input))
  if (t.directory? (Path.absolute trail.location)).isSome then own :: levelsAbove t [] trail
  else [own]

/-- The rules for the entries of a directory inside the one with the given rules. -/
def enter (t : FileTree) (levels : List Level) (path name : Path) (entries : List Entry) :
    List Level :=
  levelAt t path entries (.within (Path.base? path)) ::
    levels.map fun level => { level with view := level.view.enter name }

/-- The levels up to the top of the innermost repository; none outside a repository. -/
def inRepository (levels : List Level) : List Level :=
  match levels.findIdx? Level.isTop with
  | some n => levels.take (n + 1)
  | none => []

/-- What the rules say about an entry of the directory that is being scanned. -/
def verdict? (levels : List Level) (path name : Path) (isDirectory : Bool) : Option Verdict :=
  let compared := Path.compared path
  let judge (rules : Level → List Rule) (level : Level) : Option Verdict :=
    if (rules level).isEmpty then none
    else Rule.judge? (rules level) (level.view.pathOf name compared) isDirectory
  (levels.findSome? (judge Level.ignore)).or <|
    ((inRepository levels).findSome? (judge Level.gitignore)).or
      ((inRepository levels).findSome? (judge Level.exclude))

/-- Whether a scan passes an entry over. -/
def isSkipped (levels : List Level) (path name : Path) (isDirectory : Bool) : Bool :=
  match verdict? levels path name isDirectory with
  | some .skip => true
  | some .keep => false
  | none => Path.isHidden name

/-- What is looked for. -/
structure Search where
  extensions : List String
  recursive : Bool := false
  deriving Repr

/-- Whether a path has one of the extensions looked for. -/
def Search.accepts (search : Search) (path : Path) : Bool :=
  match Path.extension? path with
  | some e => (search.extensions.map Path.ofText).contains e
  | none => false

/-- What a scan comes upon. -/
inductive Finding where
  | file (path : Path)
  /-- A directory that cannot be listed. -/
  | closed (path : Path) (error : FileError)
  deriving DecidableEq, Repr

mutual

/-- What is found at and below an entry of a directory, which has the given path, access and
rules. -/
def scanEntry (t : FileTree) (search : Search) (directory : Path) (access : Access)
    (levels : List Level) : Entry → List Finding
  | .file name _ _ =>
    let path := Path.join directory name
    if search.accepts path && !isSkipped levels path name false then [.file path] else []
  | .link .. => []
  | .directory name own entries =>
    let path := Path.join directory name
    if !search.recursive || isSkipped levels path name true then []
    else
      match FileTree.listingError? path access own with
      | some e => [.closed path e]
      | none => scanEntries t search path own (enter t levels path name entries) entries

/-- What is found at and below several entries. -/
def scanEntries (t : FileTree) (search : Search) (directory : Path) (access : Access)
    (levels : List Level) : List Entry → List Finding
  | [] => []
  | e :: es =>
    scanEntry t search directory access levels e ++
      scanEntries t search directory access levels es

end

/-- What one input leads to.  A lone dash stands for standard input, where nothing is looked
for. -/
def findings (t : FileTree) (search : Search) (input : String) : List Finding :=
  match t.directory? input with
  | some trail =>
    let directory := t.directoryAt trail
    if Path.isDash input then []
    else
      match FileTree.listingError? input {} directory.access with
      | some e => [.closed input e]
      | none =>
        scanEntries t search input directory.access (levelsOf t input trail) directory.entries
  | none => if t.isFile input && search.accepts input then [.file input] else []

/-- The fault of a directory that cannot be listed, met in the scan of an input. -/
def cannotList (input : String) (path : Path) (error : FileError) : Fault :=
  let shown := Path.text path
  let cause := SystemError.numbered error
  let message := shown ++ ": IO error for operation on " ++ shown ++ ": " ++ cause.message
  (((Fault.plain .traversalFailed message).withOperation "discovery::walk_dir").withContext
    "path" input).withCause (.system (.custom cause.kind message))

/-- The text under which a file is handed on. -/
def Finding.file? : Finding → Option String
  | .file path => some (Path.text path)
  | .closed .. => none

/-- The warning that a directory has been passed over in the scan of an input. -/
def Finding.warning? (input : String) : Finding → Option Warning
  | .file _ => none
  | .closed path error => some ⟨input, (cannotList input path error).message⟩

/-- The files that one input stands for. -/
def filesOf (t : FileTree) (search : Search) (input : String) : List String :=
  (findings t search input).filterMap Finding.file?

/-- The warnings of one input. -/
def warningsOf (t : FileTree) (search : Search) (input : String) : List Warning :=
  (findings t search input).filterMap (Finding.warning? input)

/-- Puts a path into an increasing list without repetitions; the order is that of the
bytes. -/
def insertPath (path : String) : List String → List String
  | [] => [path]
  | q :: qs =>
    if path = q then q :: qs
    else if Utf8.encode path.toList < Utf8.encode q.toList then path :: q :: qs
    else q :: insertPath path qs

/-- The paths of a list in increasing order, each once. -/
def sortPaths (paths : List String) : List String :=
  paths.foldr insertPath []

/-- The fault of inputs that stand for no file at all. -/
def nothingFound (inputs : List String) : Fault :=
  let list := ", ".intercalate inputs
  ((Fault.plain .fileNotFound ("No Swift files found at: " ++ list)).withOperation
    "discovery::discover_files").withContext "inputs" list

/-- The files that the inputs stand for, in increasing order and each once. -/
def discover (t : FileTree) (search : Search) (inputs : List String) : Outcome (List String) where
  warnings := inputs.flatMap (warningsOf t search)
  result :=
    match sortPaths (inputs.flatMap (filesOf t search)) with
    | [] => .error (nothingFound inputs)
    | files => .ok files

end SourceOutline.Discovery
