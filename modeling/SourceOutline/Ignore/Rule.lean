import SourceOutline.Ignore.Glob
import SourceOutline.Text.Blank
import SourceOutline.Text.Lines

/-!
# Rules of ignore files

Each line of an ignore file is a rule, unless it is empty or a comment.  `!` turns a
rule into an exception, a slash at the end restricts it to directories, and a slash
anywhere else ties it to the directory of the file; other rules apply at any depth.
The last rule that matches decides.
-/

namespace SourceOutline.Ignore

/-- What the rules say about an entry. -/
inductive Verdict where
  | skip
  | keep
  deriving DecidableEq, Repr

/-- One rule. -/
structure Rule where
  verdict : Verdict
  onlyDirectories : Bool
  pattern : Piece

namespace Rule

/-- What is left of a line after its comment sign, end blanks and escapes are dealt with;
nothing when it holds no rule. -/
def content? (line : List Char) : Option (List Char) :=
  if line.head? = some '#' then none
  else
    let line := if (Text.beforeEnd? ['\\', ' '] line).isSome then line else Text.trimEnd line
    if line.isEmpty then none else some line

/-- The pattern of a rule for paths below the directory of the file: a rule without a
slash applies at any depth, and `/**` at the end means what is inside only. -/
def anchored (tied : Bool) (pattern : List Char) : List Char :=
  let deep := pattern = ['*', '*'] || ['*', '*', '/'].isPrefixOf pattern
  let pattern :=
    if tied || pattern.contains '/' || deep then pattern else '*' :: '*' :: '/' :: pattern
  if (Text.beforeEnd? ['/', '*', '*'] pattern).isSome then pattern ++ ['/', '*'] else pattern

/-- The sign of a line and whether it is tied to the directory of the file, with the
pattern after them. -/
def signs (line : List Char) : Verdict × Bool × List Char :=
  match line with
  | '\\' :: c :: rest =>
    if c = '!' ∨ c = '#' then (.skip, false, c :: rest) else (.skip, false, line)
  | '!' :: '/' :: rest => (.keep, true, rest)
  | '!' :: rest => (.keep, false, rest)
  | '/' :: rest => (.skip, true, rest)
  | _ => (.skip, false, line)

/-- The pattern without a slash at its end, and whether there was one.  A backslash
before that slash goes with it. -/
def directorySign (pattern : List Char) : Bool × List Char :=
  match Text.beforeEnd? ['/'] pattern with
  | none => (false, pattern)
  | some front => (true, (Text.beforeEnd? ['\\'] front).getD front)

/-- The rule of a line; nothing when the line holds none, or none with a meaning. -/
def ofLine? (line : List Char) : Option Rule := do
  let line ← content? line
  let (verdict, tied, pattern) := signs line
  let (onlyDirectories, pattern) := directorySign pattern
  return { verdict, onlyDirectories, pattern := ← Glob.compile? (anchored tied pattern) }

/-- Byte order marks at the start of a text say nothing. -/
def dropMarks : List (List Char) → List (List Char)
  | [] => []
  | line :: lines => line.dropWhile (· = '\uFEFF') :: lines

/-- The deepest nesting of a pattern. -/
def nestingLimit : Nat :=
  250

/-- The rules of a file, in order.  One pattern that is nested too deep spoils them all. -/
def ofFile (content : Bytes) : List Rule :=
  let rules := (dropMarks (Text.readLines content)).filterMap ofLine?
  if rules.all fun r => r.pattern.depth ≤ nestingLimit then rules else []

/-- What a list of rules says about a path below the directory of their file. -/
def judge? (rules : List Rule) (path : Bytes) (isDirectory : Bool) : Option Verdict :=
  (rules.reverse.find? fun r =>
    (isDirectory || !r.onlyDirectories) && r.pattern.regex.accepts path).map Rule.verdict

end Rule

end SourceOutline.Ignore
