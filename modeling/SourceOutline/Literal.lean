import SourceOutline.Text.Cut

/-!
# Literal expressions

Five kinds of literals are told apart by the text of an expression alone: strings,
truth values, integers, decimals and bracketed collections.  Two of them need a scan
with state:

1.  `closesAtEnd` decides whether the body of a string literal runs up to the last
    quote, with escapes and `\( … )` interpolations, in which strings may nest;
2.  `hasTopLevelColon` looks for a colon outside nested brackets and strings, which
    makes a bracketed collection a dictionary.
-/

namespace SourceOutline.Literal

/-- The type of a literal. -/
inductive Tag where
  | string
  | bool
  | int
  | double
  | array
  | dictionary
  deriving DecidableEq, Repr

def Tag.name : Tag → String
  | .string => "String"
  | .bool => "Bool"
  | .int => "Int"
  | .double => "Double"
  | .array => "Array"
  | .dictionary => "Dictionary"

/-- Where a scan of a string body stands. -/
structure Body where
  /-- The next character is escaped. -/
  escaped : Bool := false
  /-- Open parentheses of interpolations. -/
  interpolation : Nat := 0
  /-- Inside a string that is inside an interpolation. -/
  nested : Bool := false
  deriving DecidableEq, Repr

/-- Whether the characters from `st` on reach the end of the body without meeting a
quote of the literal itself.  Parentheses count only inside an interpolation and
outside the strings nested in it. -/
def closesFrom (st : Body) : List Char → Bool
  | [] => !st.escaped && st.interpolation == 0
  | c :: cs =>
    if st.escaped then
      closesFrom
        { st with
          escaped := false
          interpolation :=
            if c = '(' ∧ st.nested = false then st.interpolation + 1 else st.interpolation } cs
    else if c = '\\' then closesFrom { st with escaped := true } cs
    else if c = '"' then
      if 0 < st.interpolation then closesFrom { st with nested := !st.nested } cs else false
    else if c = '(' ∧ 0 < st.interpolation ∧ st.nested = false then
      closesFrom { st with interpolation := st.interpolation + 1 } cs
    else if c = ')' ∧ 0 < st.interpolation ∧ st.nested = false then
      closesFrom { st with interpolation := st.interpolation - 1 } cs
    else closesFrom st cs

/-- Whether a string body holds no quote that would end the literal early. -/
def closesAtEnd (body : List Char) : Bool :=
  closesFrom {} body

/-- Three quotes, which delimit a string of several lines. -/
def tripleQuote : List Char :=
  ['"', '"', '"']

/-- The text between two delimiters that stand at its ends and do not overlap. -/
def between? (opening closing : List Char) (e : List Char) : Option (List Char) :=
  (Text.afterStart? opening e).bind (Text.beforeEnd? closing)

theorem between?_eq_some_iff {opening closing e inner : List Char} :
    between? opening closing e = some inner ↔ e = opening ++ (inner ++ closing) := by
  simp only [between?, Option.bind_eq_some_iff, Text.afterStart?_eq_some_iff,
    Text.beforeEnd?_eq_some_iff]
  constructor
  · intro ⟨rest, he, hrest⟩
    rw [he, hrest]
  · intro he
    exact ⟨inner ++ closing, he, rfl⟩

/-- A single string literal: `"…"`, or `"""…"""` over several lines. -/
def isString (e : List Char) : Bool :=
  match between? tripleQuote tripleQuote e with
  | some inner => !Text.hasPart tripleQuote inner
  | none =>
    match between? ['"'] ['"'] e with
    | some inner => closesAtEnd inner
    | none => false

/-- An ASCII digit. -/
def isDigit (c : Char) : Bool :=
  '0' ≤ c && c ≤ '9'

/-- The text after an optional sign. -/
def unsigned : List Char → List Char
  | c :: cs => if c = '-' ∨ c = '+' then cs else c :: cs
  | [] => []

/-- A decimal integer with an optional sign and `_` between or after its digits. -/
def isInteger (e : List Char) : Bool :=
  match unsigned e with
  | c :: cs => isDigit c && cs.all fun c => isDigit c || c == '_'
  | [] => false

/-- The end of a decimal: nothing, or an exponent of at least one digit. -/
def isExponent : List Char → Bool
  | [] => true
  | c :: cs =>
    (c == 'e' || c == 'E') &&
      match unsigned cs with
      | [] => false
      | ds => ds.all isDigit

/-- A decimal with a point: optional sign, digits on at least one side of the point,
optional exponent. -/
def isDecimal (e : List Char) : Bool :=
  let e := unsigned e
  let whole := e.takeWhile isDigit
  match e.dropWhile isDigit with
  | '.' :: rest =>
    let fraction := rest.takeWhile isDigit
    (!whole.isEmpty || !fraction.isEmpty) && isExponent (rest.dropWhile isDigit)
  | _ => false

/-- Where a scan of a bracketed collection stands. -/
inductive Place where
  /-- Outside strings, this many brackets deep. -/
  | code (depth : Nat)
  /-- Inside a string that began this many brackets deep. -/
  | string (depth : Nat) (escaped : Bool)
  deriving DecidableEq, Repr

/-- Whether the characters from `st` on hold a colon at depth zero, outside strings.
A closing bracket too many leaves the depth at zero. -/
def colonFrom : Place → List Char → Bool
  | _, [] => false
  | .string depth true, _ :: cs => colonFrom (.string depth false) cs
  | .string depth false, c :: cs =>
    if c = '\\' then colonFrom (.string depth true) cs
    else if c = '"' then colonFrom (.code depth) cs
    else colonFrom (.string depth false) cs
  | .code depth, c :: cs =>
    if c = '"' then colonFrom (.string depth false) cs
    else if c = '[' ∨ c = '(' ∨ c = '\x7b' then colonFrom (.code (depth + 1)) cs
    else if c = ']' ∨ c = ')' ∨ c = '\x7d' then colonFrom (.code (depth - 1)) cs
    else if c = ':' ∧ depth = 0 then true
    else colonFrom (.code depth) cs

/-- Whether a colon stands outside nested brackets and strings. -/
def hasTopLevelColon (inner : List Char) : Bool :=
  colonFrom (.code 0) inner

/-- A bracketed collection. -/
def collection? (e : List Char) : Option Tag :=
  (between? ['['] [']'] e).map fun inner =>
    if hasTopLevelColon inner then .dictionary else .array

/-- The type of a literal; nothing for any other expression. -/
def tag? (e : List Char) : Option Tag :=
  if isString e then some .string
  else if e = "true".toList ∨ e = "false".toList then some .bool
  else if '.' ∉ e ∧ isInteger e then some .int
  else if '.' ∈ e ∧ isDecimal e then some .double
  else collection? e

end SourceOutline.Literal
