import SourceOutline.Text.Utf8

/-!
# Text without terminal commands

A terminal takes some characters as commands and not as text: the control characters,
and the sequences that an escape character starts.  `plain` is the text that is left
when all commands are taken out of it.

1.  In plain text every character passes but the controls; of those only the four that
    move on in a text pass: tab, line feed, form feed and carriage return.
2.  Inside a short command or a control sequence these four pass as well, and the text
    after them passes too, up to the next control; the command then goes on.
3.  Two controls end any command, and an escape character starts a new one.
-/

namespace SourceOutline.Terminal

/-- What a terminal is in the middle of. -/
inductive Mode where
  | text
  /-- Just after an escape character. -/
  | escape
  /-- A short command, up to its final letter. -/
  | short
  /-- A control sequence after `[`, up to its final letter. -/
  | sequence
  /-- A device string after `P`, before its first character. -/
  | device
  /-- The parameters of a device string. -/
  | parameters
  /-- The intermediate characters of a device string. -/
  | intermediate
  /-- A string of some kind, up to its terminator. -/
  | string
  /-- A system command after `]`, up to a bell. -/
  | system
  deriving DecidableEq, Repr

/-- The controls that move on in a text. -/
def isLayout (c : Char) : Bool :=
  c = '\t' || c = '\n' || c = '\x0C' || c = '\r'

/-- The byte that ends a string; it may be part of a longer character. -/
def terminator : UInt8 :=
  0x9C

/-- What follows the first character after an escape. -/
def afterEscape (c : Char) : Mode :=
  if c = '[' then .sequence
  else if c = ']' then .system
  else if c = 'P' then .device
  else if c = 'X' ∨ c = '^' ∨ c = '_' then .string
  else if ' ' ≤ c ∧ c ≤ '/' then .short
  else if '0' ≤ c ∧ c ≤ '~' then .text
  else .escape

/-- How the head of a device string goes on; `more` says which characters belong to its
parameters.  The string begins with the first character that has no place in the head,
and with a letter. -/
def deviceHead (mode : Mode) (more : Char → Bool) (c : Char) : Mode :=
  if ' ' ≤ c ∧ c ≤ '/' then .intermediate
  else if more c then .parameters
  else if '0' ≤ c ∧ c ≤ '~' then .string
  else mode

/-- What a character does to the mode, and whether it passes. -/
def step (mode : Mode) (c : Char) : Mode × Bool :=
  if c = '\x1b' then (.escape, false)
  else if c = '\x18' ∨ c = '\x1a' then (.text, false)
  else
    match mode with
    | .text => (.text, isLayout c || (' ' ≤ c && c != '\x7f'))
    | .escape => (afterEscape c, isLayout c)
    | .short => (if '0' ≤ c ∧ c ≤ '~' then .text else .short, isLayout c)
    | .sequence => (if '@' ≤ c ∧ c ≤ '~' then .text else .sequence, isLayout c)
    | .device => (deviceHead .device (fun c => '0' ≤ c && c ≤ '?') c, false)
    | .parameters => (deviceHead .parameters (fun c => '0' ≤ c && c ≤ ';') c, false)
    | .intermediate => (deviceHead .intermediate (fun _ => false) c, false)
    | .string => (if terminator ∈ String.utf8EncodeChar c then .text else .string, false)
    | .system => (if c = '\x07' then .text else .system, false)

/-- The characters that pass.  While `passing` they are judged as plain text, whatever
command they interrupt; a character beyond ASCII ends that command. -/
def strip (mode : Mode) (passing : Bool) : List Char → List Char
  | [] => []
  | c :: cs =>
    if passing && (step .text c).2 then
      c :: strip (if c.toNat < 0x80 then mode else .text) true cs
    else
      match step mode c with
      | (next, true) => c :: strip next true cs
      | (next, false) => strip next false cs

/-- A text without its commands. -/
def plain (text : String) : String :=
  String.ofList (strip .text false text.toList)

/-- The command that ends a style. -/
def reset : String :=
  "\x1b[0m"

end SourceOutline.Terminal
