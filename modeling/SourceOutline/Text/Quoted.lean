import SourceOutline.Text.Visible

/-!
# Quoted text in diagnostics

Diagnostics show a foreign text between double quotes.  The quote and the
backslash get a backslash, the common controls their short names, and any other
character that does not show is written by its code point in braces.
-/

namespace SourceOutline.Text

/-- A code point in braces, in lowercase hexadecimal. -/
def codePoint (c : Char) : List Char :=
  ['\\', 'u', '\x7b'] ++ Nat.toDigits 16 c.toNat ++ ['\x7d']

/-- How one character stands in a quoted text. -/
def quoteChar (c : Char) : List Char :=
  match c with
  | '\x00' => ['\\', '0']
  | '\t' => ['\\', 't']
  | '\r' => ['\\', 'r']
  | '\n' => ['\\', 'n']
  | '"' => ['\\', '"']
  | '\\' => ['\\', '\\']
  | c => if shows c then [c] else codePoint c

/-- A text between double quotes. -/
def quoted (s : String) : String :=
  String.ofList (['"'] ++ s.toList.flatMap quoteChar ++ ['"'])

end SourceOutline.Text
