import SourceOutline.Json.Basic

/-!
# Writing JSON

Two layouts of the same text: `compact` puts no blanks at all, `pretty` puts each
item and each field on a line of its own, indented by two spaces a level.  Empty
lists and objects stay closed up in both.

A string escapes the quote, the backslash and the characters below `U+0020`; all
other characters stand for themselves.
-/

namespace SourceOutline.Json

/-- A character below `U+0100` as `\u00xx`. -/
def hexEscape (c : Char) : List Char :=
  ['\\', 'u', '0', '0', Nat.digitChar (c.toNat / 16), Nat.digitChar (c.toNat % 16)]

/-- How one character stands in a JSON string. -/
def escapeChar (c : Char) : List Char :=
  match c with
  | '"' => ['\\', '"']
  | '\\' => ['\\', '\\']
  | '\x08' => ['\\', 'b']
  | '\x0c' => ['\\', 'f']
  | '\n' => ['\\', 'n']
  | '\r' => ['\\', 'r']
  | '\t' => ['\\', 't']
  | c => if c.toNat < 0x20 then hexEscape c else [c]

/-- A JSON string with its quotes. -/
def quote (s : String) : List Char :=
  '"' :: s.toList.flatMap escapeChar ++ ['"']

/-- The decimal digits of a natural number. -/
def digits (n : Nat) : List Char :=
  Nat.toDigits 10 n

/-- An integer in decimal. -/
def integerText : Int → List Char
  | .ofNat n => digits n
  | .negSucc n => '-' :: digits (n + 1)

/-- The text of a number. -/
def Number.text : Number → List Char
  | .integer value => integerText value
  | .decimal negative significand exponent =>
    (if negative then ['-'] else []) ++ digits significand ++ 'e' :: integerText exponent

/-- How a layout places the parts of a list or an object.  The numbers are the
nesting level. -/
structure Layout where
  /-- Before each item, and before the closing bracket of a list that is not empty. -/
  gap : Nat → List Char
  /-- Between a key and its value. -/
  colon : List Char

/-- Nothing but the tokens. -/
def Layout.compact : Layout :=
  ⟨fun _ => [], [':']⟩

/-- One item on a line, two spaces a level. -/
def Layout.pretty : Layout :=
  ⟨fun level => '\n' :: List.replicate (2 * level) ' ', [':', ' ']⟩

mutual

/-- The text of a value that stands at a nesting level. -/
def write (layout : Layout) (level : Nat) : Json → List Char
  | .null => "null".toList
  | .bool true => "true".toList
  | .bool false => "false".toList
  | .number n => n.text
  | .string s => quote s
  | .array [] => ['[', ']']
  | .array (item :: items) =>
    '[' :: layout.gap (level + 1) ++ write layout (level + 1) item ++
      writeItems layout (level + 1) items ++ layout.gap level ++ [']']
  | .object [] => ['\x7b', '\x7d']
  | .object ((key, value) :: fields) =>
    '\x7b' :: layout.gap (level + 1) ++ quote key ++ layout.colon ++
      write layout (level + 1) value ++ writeFields layout (level + 1) fields ++
      layout.gap level ++ ['\x7d']

/-- Further items of a list, each after a comma. -/
def writeItems (layout : Layout) (level : Nat) : List Json → List Char
  | [] => []
  | item :: items =>
    ',' :: layout.gap level ++ write layout level item ++ writeItems layout level items

/-- Further fields of an object, each after a comma. -/
def writeFields (layout : Layout) (level : Nat) : List (String × Json) → List Char
  | [] => []
  | (key, value) :: fields =>
    ',' :: layout.gap level ++ quote key ++ layout.colon ++ write layout level value ++
      writeFields layout level fields

end

/-- A value on one line, without blanks. -/
def compact (j : Json) : String :=
  String.ofList (write .compact 0 j)

/-- A value with one item or field on a line. -/
def pretty (j : Json) : String :=
  String.ofList (write .pretty 0 j)

end SourceOutline.Json
