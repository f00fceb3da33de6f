import SourceOutline.Json.Basic
import SourceOutline.Text.Cut

/-!
# Reading JSON

`parse?` reads one JSON value with optional blanks around it and accepts nothing
else.  Every reader takes the remaining characters and returns what it read with
the characters after it.

Two numbers bound the readers of values.  The room says how many lists and objects may
still be opened inside each other; a text that opens more is refused, so that no text can
exhaust the stack of a reader.  `parse?` has the room that readers have by default, and
`parseWithin?` any other.  The fuel bounds the steps, and the length of the input always
covers it: between two uses of fuel at least one of every two steps consumes a character.
-/

namespace SourceOutline.Json.Parser

/-- Drop the four blanks of JSON. -/
def skipBlanks : List Char → List Char
  | c :: cs => if c = ' ' ∨ c = '\n' ∨ c = '\r' ∨ c = '\t' then skipBlanks cs else c :: cs
  | [] => []

/-- The value of a hexadecimal digit, either case. -/
def hexDigit? (c : Char) : Option Nat :=
  let n := c.toNat
  if 0x30 ≤ n ∧ n ≤ 0x39 then some (n - 0x30)
  else if 0x41 ≤ n ∧ n ≤ 0x46 then some (n - 0x41 + 10)
  else if 0x61 ≤ n ∧ n ≤ 0x66 then some (n - 0x61 + 10)
  else none

/-- Four hexadecimal digits. -/
def hex4? (a b c d : Char) : Option Nat := do
  return (((← hexDigit? a) * 16 + (← hexDigit? b)) * 16 + (← hexDigit? c)) * 16 + (← hexDigit? d)

/-- The character that a short escape stands for. -/
def shortEscape? : Char → Option Char
  | '"' => some '"'
  | '\\' => some '\\'
  | '/' => some '/'
  | 'b' => some '\x08'
  | 'f' => some '\x0c'
  | 'n' => some '\n'
  | 'r' => some '\r'
  | 't' => some '\t'
  | _ => none

/-- The character of a surrogate pair. -/
def pair? (high low : Nat) : Option Char :=
  if 0xDC00 ≤ low ∧ low ≤ 0xDFFF then
    some (Char.ofNat (0x10000 + (high - 0xD800) * 0x400 + (low - 0xDC00)))
  else none

/-- The characters of a string after its opening quote, and what follows the closing
one.  A surrogate escape counts only as half of a pair. -/
def stringBody? : List Char → Option (List Char × List Char)
  | '"' :: rest => some ([], rest)
  | '\\' :: 'u' :: a :: b :: c :: d :: rest =>
    match hex4? a b c d with
    | none => none
    | some n =>
      if n < 0xD800 ∨ 0xDFFF < n then
        (stringBody? rest).map fun (cs, rest) => (Char.ofNat n :: cs, rest)
      else if n < 0xDC00 then
        match rest with
        | '\\' :: 'u' :: e :: f :: g :: h :: rest =>
          match (hex4? e f g h).bind (pair? n) with
          | none => none
          | some ch => (stringBody? rest).map fun (cs, rest) => (ch :: cs, rest)
        | _ => none
      else none
  | '\\' :: c :: rest =>
    match shortEscape? c with
    | none => none
    | some ch => (stringBody? rest).map fun (cs, rest) => (ch :: cs, rest)
  | c :: rest =>
    if c.toNat < 0x20 ∨ c = '\\' then none
    else (stringBody? rest).map fun (cs, rest) => (c :: cs, rest)
  | [] => none

/-- A string with its opening quote. -/
def string? : List Char → Option (String × List Char)
  | '"' :: rest => (stringBody? rest).map fun (cs, rest) => (String.ofList cs, rest)
  | _ => none

/-- An ASCII digit. -/
def isDigit (c : Char) : Bool :=
  c.isDigit

/-- The digits at the front, at least one. -/
def digits? (cs : List Char) : Option (List Char × List Char) :=
  match cs.takeWhile isDigit with
  | [] => none
  | ds => some (ds, cs.dropWhile isDigit)

/-- The number that decimal digits spell. -/
def valueOf (ds : List Char) : Nat :=
  Nat.ofDigitChars 10 ds 0

/-- The digits before the point: a leading zero stands alone. -/
def wholePart? : List Char → Option (List Char × List Char)
  | '0' :: rest => some (['0'], rest)
  | cs => digits? cs

/-- The digits after a point, if there is one. -/
def fraction? : List Char → Option (List Char × List Char)
  | '.' :: rest => digits? rest
  | cs => some ([], cs)

/-- Whether there is a minus in front, and what follows it. -/
def minus : List Char → Bool × List Char
  | '-' :: rest => (true, rest)
  | cs => (false, cs)

/-- The sign of an exponent: none, a minus, or a plus that changes nothing. -/
def exponentSign : List Char → Bool × List Char
  | '+' :: rest => (false, rest)
  | cs => minus cs

/-- The exponent, if there is one. -/
def exponent? : List Char → Option (Option Int × List Char)
  | c :: rest =>
    if c = 'e' ∨ c = 'E' then
      let (negative, rest) := exponentSign rest
      (digits? rest).map fun (ds, rest) =>
        (some (if negative then -(valueOf ds : Int) else valueOf ds), rest)
    else some (none, c :: rest)
  | [] => some (none, [])

/-- The value of a number given by its parts. -/
def assemble (negative : Bool) (whole fraction : List Char) (exponent : Option Int) : Number :=
  if fraction.isEmpty ∧ exponent = none ∧ ¬(negative ∧ valueOf whole = 0) then
    .integer (if negative then -(valueOf whole : Int) else valueOf whole)
  else
    .decimal negative (valueOf (whole ++ fraction)) (exponent.getD 0 - fraction.length)

/-- A number. -/
def number? (cs : List Char) : Option (Number × List Char) := do
  let (negative, cs) := minus cs
  let (whole, cs) ← wholePart? cs
  let (fraction, cs) ← fraction? cs
  let (exponent, cs) ← exponent? cs
  return (assemble negative whole fraction exponent, cs)

/-- A fixed word. -/
def word? (word : String) (j : Json) (cs : List Char) : Option (Json × List Char) :=
  (Text.afterStart? word.toList cs).map fun rest => (j, rest)

mutual

/-- One value, blanks before it allowed. -/
def value? : Nat → Nat → List Char → Option (Json × List Char)
  | 0, _, _ => none
  | fuel + 1, room, cs =>
    match skipBlanks cs with
    | [] => none
    | c :: rest =>
      if c = 'n' then word? "null" .null (c :: rest)
      else if c = 't' then word? "true" (.bool true) (c :: rest)
      else if c = 'f' then word? "false" (.bool false) (c :: rest)
      else if c = '"' then (stringBody? rest).map fun (s, rest) => (.string (String.ofList s), rest)
      else if c = '[' then
        match room with
        | 0 => none
        | room + 1 =>
          match skipBlanks rest with
          | ']' :: rest => some (.array [], rest)
          | rest => (items? fuel room rest).map fun (items, rest) => (.array items, rest)
      else if c = '\x7b' then
        match room with
        | 0 => none
        | room + 1 =>
          match skipBlanks rest with
          | '\x7d' :: rest => some (.object [], rest)
          | rest => (fields? fuel room rest).map fun (fields, rest) => (.object fields, rest)
      else (number? (c :: rest)).map fun (n, rest) => (.number n, rest)

/-- The items of a list up to its closing bracket, at least one. -/
def items? : Nat → Nat → List Char → Option (List Json × List Char)
  | 0, _, _ => none
  | fuel + 1, room, cs =>
    match value? fuel room cs with
    | none => none
    | some (item, rest) =>
      match skipBlanks rest with
      | ',' :: rest => (items? fuel room rest).map fun (items, rest) => (item :: items, rest)
      | ']' :: rest => some ([item], rest)
      | _ => none

/-- The fields of an object up to its closing bracket, at least one. -/
def fields? : Nat → Nat → List Char → Option (List (String × Json) × List Char)
  | 0, _, _ => none
  | fuel + 1, room, cs =>
    match string? (skipBlanks cs) with
    | none => none
    | some (key, rest) =>
      match skipBlanks rest with
      | ':' :: rest =>
        match value? fuel room rest with
        | none => none
        | some (value, rest) =>
          match skipBlanks rest with
          | ',' :: rest =>
            (fields? fuel room rest).map fun (fields, rest) => ((key, value) :: fields, rest)
          | '\x7d' :: rest => some ([(key, value)], rest)
          | _ => none
      | _ => none

end

end SourceOutline.Json.Parser

namespace SourceOutline.Json

/-- The value that a text spells, when the whole text is one JSON value and opens no more
lists and objects inside each other than the limit allows. -/
def parseWithin? (limit : Nat) (text : String) : Option Json :=
  let cs := text.toList
  match Parser.value? (2 * cs.length + 2) limit cs with
  | some (j, rest) => if (Parser.skipBlanks rest).isEmpty then some j else none
  | none => none

/-- How many lists and objects readers let be open at once by default. -/
def nestingLimit : Nat :=
  127

/-- The value that a text spells, for a reader with the default limit. -/
def parse? (text : String) : Option Json :=
  parseWithin? nestingLimit text

end SourceOutline.Json
