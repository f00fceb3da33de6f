import SourceOutline.Run
import SourceOutline.Swift.Language
import SourceOutline.Text.Terminal

/-!
# The command line

Arguments are read from left to right and the first problem is the one reported.
Options may stand anywhere among the paths, short ones may be joined (`-ro FILE`,
`-oFILE`), long ones take their value after `=` or as the next argument, and after `--`
everything is a path.

A value option holds its value back until the next argument has been recognised, so
that a second use of it is reported there and not where it stands.

`executeFor` runs a program for any one language on a file tree, and `execute` the one for
Swift.  On success the report goes to one place only: the output file when one is given,
and standard output otherwise.

Left out are the logs.  They go to standard error as well when the environment sets
`RUST_LOG`, those of a failed run before the message of its failure.
-/

namespace SourceOutline.CommandLine

/-- The options without a value. -/
inductive Switch where
  | deep
  | showType
  | recursive
  | sequential
  deriving DecidableEq, Repr

/-- The options with a value. -/
inductive Setting where
  | language
  | output
  deriving DecidableEq, Repr

/-- An option. -/
inductive Opt where
  | switch (s : Switch)
  | setting (s : Setting)
  | help
  | version
  deriving DecidableEq, Repr

def Switch.label : Switch → String
  | .deep => "--deep"
  | .showType => "--show-type"
  | .recursive => "--recursive"
  | .sequential => "--sequential"

def Setting.label : Setting → String
  | .language => "--lang <LANG>"
  | .output => "--output <FILE>"

def Opt.label : Opt → String
  | .switch s => s.label
  | .setting s => s.label
  | .help => "--help"
  | .version => "--version"

/-- The option with a long name. -/
def Opt.ofLong? (name : String) : Option Opt :=
  [("deep", Opt.switch .deep), ("show-type", .switch .showType),
    ("recursive", .switch .recursive), ("sequential", .switch .sequential),
    ("lang", .setting .language), ("output", .setting .output), ("help", .help),
    ("version", .version)].lookup name

/-- The option with a short name. -/
def Opt.ofShort? (c : Char) : Option Opt :=
  [('r', Opt.switch .recursive), ('o', .setting .output), ('h', .help),
    ('V', .version)].lookup c

/-- What is wrong with a command line. -/
inductive UsageError where
  | missingPaths
  | unexpectedArgument (argument : String)
  | missingValue (setting : Setting)
  | repeated (label : String)
  | unexpectedValue (value : String) (label : String)
  deriving DecidableEq, Repr

/-- What the user wrote, as a message shows it.  It stands in a style of its own, which a
reset ends, and neither the style nor a command inside the text reaches the output. -/
def shown (text : String) : String :=
  Terminal.plain (text ++ Terminal.reset)

def UsageError.message : UsageError → String
  | .missingPaths => "the following required arguments were not provided:"
  | .unexpectedArgument argument => "unexpected argument '" ++ shown argument ++ "' found"
  | .missingValue setting =>
    "a value is required for '" ++ setting.label ++ "' but none was supplied"
  | .repeated label => "the argument '" ++ label ++ "' cannot be used multiple times"
  | .unexpectedValue value label =>
    "unexpected value '" ++ shown value ++ "' for '" ++ label ++ "' found; no more were expected"

/-- Why reading stops before the end of the arguments. -/
inductive Stop where
  | usage (error : UsageError)
  | showHelp
  | showVersion
  deriving DecidableEq, Repr

/-- What the arguments ask for. -/
structure Arguments where
  paths : List String := []
  switches : List Switch := []
  language : Option String := none
  output : Option String := none
  deriving DecidableEq, Repr

/-- A value option that has been named, and its value once that has been read. -/
structure Pending where
  setting : Setting
  value : Option String
  deriving DecidableEq, Repr

/-- Records a value; a setting can be made only once. -/
def Arguments.set (a : Arguments) (setting : Setting) (value : String) : Except Stop Arguments :=
  match setting, a.language, a.output with
  | .language, none, _ => .ok { a with language := some value }
  | .output, _, none => .ok { a with output := some value }
  | setting, _, _ => .error (.usage (.repeated setting.label))

/-- Records the setting that is held back. -/
def Arguments.settle (a : Arguments) : Option Pending → Except Stop Arguments
  | none => .ok a
  | some ⟨setting, some value⟩ => a.set setting value
  | some ⟨setting, none⟩ => .error (.usage (.missingValue setting))

/-- Uses an option without a value. -/
def Arguments.use (a : Arguments) (pending : Option Pending) : Opt → Except Stop Arguments
  | .switch s => do
    let a ← a.settle pending
    if s ∈ a.switches then throw (.usage (.repeated s.label))
    return { a with switches := a.switches ++ [s] }
  | .setting s => .error (.usage (.missingValue s))
  | .help => do
    let _ ← a.settle pending
    throw .showHelp
  | .version => do
    let _ ← a.settle pending
    throw .showVersion

/-- Uses a value option, with its value when that is part of the same argument. -/
def Arguments.useSetting (a : Arguments) (pending : Option Pending) (setting : Setting)
    (value : Option String) : Except Stop (Arguments × Option Pending) := do
  let a ← a.settle pending
  match value with
  | some v => return (← a.set setting v, none)
  | none => return (a, some ⟨setting, none⟩)

/-- Reads an argument that starts with two dashes. -/
def readLong (a : Arguments) (pending : Option Pending) (body : List Char) :
    Except Stop (Arguments × Option Pending) :=
  let (name, value) :=
    match Text.breakAt? '=' body with
    | some (name, value) => (String.ofList name, some (String.ofList value))
    | none => (String.ofList body, none)
  match Opt.ofLong? name, value with
  | none, _ => .error (.usage (.unexpectedArgument ("--" ++ name)))
  | some (.setting s), value => a.useSetting pending s value
  | some opt, some value => .error (.usage (.unexpectedValue value opt.label))
  | some opt, none => do return (← a.use pending opt, none)

/-- Reads the letters of an argument that starts with one dash. -/
def readShort (a : Arguments) (pending : Option Pending) :
    List Char → Except Stop (Arguments × Option Pending)
  | [] => .ok (a, pending)
  | c :: cs =>
    match Opt.ofShort? c with
    | none => .error (.usage (.unexpectedArgument (String.ofList ['-', c])))
    | some (.setting s) =>
      let value :=
        match cs with
        | [] => none
        | '=' :: value => some (String.ofList value)
        | value => some (String.ofList value)
      a.useSetting pending s value
    | some opt => do
      let a ← a.use pending opt
      readShort a none cs

/-- Takes an argument as a value or as a path. -/
def readPlain (a : Arguments) (pending : Option Pending) (argument : String) :
    Except Stop (Arguments × Option Pending) :=
  match pending with
  | some ⟨setting, none⟩ => .ok (a, some ⟨setting, some argument⟩)
  | pending => do
    let a ← a.settle pending
    return ({ a with paths := a.paths ++ [argument] }, none)

/-- Reads the arguments after `--`. -/
def readPaths (a : Arguments) (pending : Option Pending) : List String → Except Stop Arguments
  | [] => a.settle pending
  | paths => do
    let a ← a.settle pending
    return { a with paths := a.paths ++ paths }

/-- Reads the arguments from left to right. -/
def readAll (a : Arguments) (pending : Option Pending) : List String → Except Stop Arguments
  | [] => a.settle pending
  | argument :: rest =>
    match argument.toList with
    | ['-', '-'] => readPaths a pending rest
    | '-' :: '-' :: body => do
      let (a, pending) ← readLong a pending body
      readAll a pending rest
    | '-' :: c :: letters => do
      let (a, pending) ← readShort a pending (c :: letters)
      readAll a pending rest
    | _ => do
      let (a, pending) ← readPlain a pending argument
      readAll a pending rest

/-- What a command line asks for. -/
def parse (arguments : List String) : Except Stop Arguments := do
  let a ← readAll {} none arguments
  if a.paths.isEmpty then throw (.usage .missingPaths)
  return a

/-- The language that is outlined when none is named. -/
def defaultLanguage : String :=
  "swift"

def Arguments.has (a : Arguments) (s : Switch) : Bool :=
  s ∈ a.switches

/-- The run that the arguments ask for. -/
def Arguments.runOptions (a : Arguments) : RunOptions where
  inputs := a.paths
  outline := { deep := a.has .deep, showType := a.has .showType }
  recursive := a.has .recursive
  schedule := if a.has .sequential then .sequential else .inOrder

/-- What a run of the program leaves behind. -/
structure Effect where
  exitCode : Nat
  stdout : String := ""
  stderr : String := ""
  files : FileTree

def versionText : String :=
  "swift-outline 0.1.0\n"

def helpText : String :=
  "Hierarchical symbol outlines of Swift sources, as JSON

Usage: swift-outline [OPTIONS] <PATH>...

Arguments:
  <PATH>...  Swift files or directories to outline

Options:
      --deep           Also collect declarations nested inside functions, initializers and deinitializers (their local variables are still skipped)
      --show-type      Attach an inferred type label to every variable
  -r, --recursive      Scan directories recursively instead of one level deep
      --sequential     Process files one at a time on the calling thread
      --lang <LANG>    Source language [default: swift]
  -o, --output <FILE>  Output file path (writes to file instead of stdout)
  -h, --help           Print help
  -V, --version        Print version
"

/-- The message about a usage error, its first line naming the error. -/
def UsageError.text (e : UsageError) : String :=
  let detail := if e = .missingPaths then "\n  <PATH>..." else ""
  "error: " ++ e.message ++ detail ++
    "\n\nUsage: swift-outline [OPTIONS] <PATH>...\n\nFor more information, try '--help'.\n"

/-- The name of the language that the arguments ask for. -/
def Arguments.languageName (a : Arguments) : String :=
  a.language.getD defaultLanguage

/-- The report that the arguments ask for, from a program for one language.  The name of any
other language is refused before any input is looked at. -/
def report (t : FileTree) (language : Language) (a : Arguments) : Outcome String :=
  if a.languageName = language.name then run t language a.runOptions
  else { result := .error (.unsupportedLanguage a.languageName) }

/-- Puts a report where it belongs. -/
def deliver (t : FileTree) (a : Arguments) (text : String) : Except Fault (String × FileTree) :=
  let line := text ++ "\n"
  match a.output with
  | none => .ok (line, t)
  | some path =>
    match t.write path (Utf8.encode line.toList) with
    | .ok t => .ok ("", t)
    | .error e => .error ((Fault.ofSystemError e).withContext "path" path)

/-- The lines on standard error: the warnings, and the fault when there is one. -/
def errorLines (warnings : List Warning) (fault? : Option Fault) : String :=
  String.join (warnings.map fun w => w.text ++ "\n") ++
    match fault? with
    | some fault => "Error: " ++ fault.message ++ "\n"
    | none => ""

/-- Does what the arguments ask for. -/
def perform (t : FileTree) (language : Language) (a : Arguments) : Effect :=
  let outcome := report t language a
  match outcome.result.bind (deliver t a) with
  | .ok (stdout, files) =>
    { exitCode := 0, stdout, stderr := errorLines outcome.warnings none, files }
  | .error fault =>
    { exitCode := 1, stderr := errorLines outcome.warnings (some fault), files := t }

/-- A run of a program for one language on a file tree. -/
def executeFor (t : FileTree) (language : Language) (arguments : List String) : Effect :=
  match parse arguments with
  | .ok a => perform t language a
  | .error .showVersion => { exitCode := 0, stdout := versionText, files := t }
  | .error .showHelp => { exitCode := 0, stdout := helpText, files := t }
  | .error (.usage e) => { exitCode := 2, stderr := e.text, files := t }

/-- A run of the program for Swift. -/
def execute (t : FileTree) (parser : Swift.Parser) (arguments : List String) : Effect :=
  executeFor t (Swift.language parser) arguments

end SourceOutline.CommandLine
