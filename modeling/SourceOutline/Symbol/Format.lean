import SourceOutline.Json.Float
import SourceOutline.Symbol.Basic
import SourceOutline.Text.Quoted

/-!
# Symbols as JSON

A symbol is written as an object with its keys in alphabetical order; `type` is left
out when there is no type label.  Reading is tolerant in three places only: unknown
keys are skipped, `members` may be missing, and `type` may be missing or null.  A list
of the six values in key order is read as well.

The keys are read in alphabetical order and the first problem is the one reported;
missing keys are looked for after that, in the same order.
-/

namespace SourceOutline

namespace Symbol

mutual

/-- The JSON form of a symbol. -/
def toJson : Symbol → Json
  | ⟨kind, name, startLine, endLine, typeLabel, members⟩ =>
    .object <|
      [("endLine", .ofNat endLine), ("kind", .string kind.tag),
        ("members", .array (toJsons members)), ("name", .string name),
        ("startLine", .ofNat startLine)] ++
      match typeLabel with
      | some label => [("type", .string label)]
      | none => []

/-- The JSON forms of several symbols. -/
def toJsons : List Symbol → List Json
  | [] => []
  | s :: ss => toJson s :: toJsons ss

end

/-- What a place in the JSON form calls for. -/
inductive Expected where
  | line
  | text
  | symbols
  | symbol
  | tag
  | oneKey
  | nothing
  | sixValues
  | fewerValues
  deriving DecidableEq, Repr

def Expected.phrase : Expected → String
  | .line => "usize"
  | .text => "a string"
  | .symbols => "a sequence"
  | .symbol => "struct Symbol"
  | .tag => "string or map"
  | .oneKey => "map with a single key"
  | .nothing => "unit"
  | .sixValues => "struct Symbol with 6 elements"
  | .fewerValues => "fewer elements in array"

/-- Why a JSON value is no symbol. -/
inductive ReadError where
  /-- A value of another type. -/
  | wrongType (found : Json) (expected : Expected)
  /-- A value of the right type that is out of bounds. -/
  | wrongValue (found : Json) (expected : Expected)
  /-- A list with too few or too many values. -/
  | wrongLength (length : Nat) (expected : Expected)
  | unknownTag (word : String)
  | missingKey (key : String)
  deriving Repr

end Symbol

/-- A value in a message: strings are quoted, lists and objects only named.  Integers
are those of 64 bits, signed or unsigned. -/
def Json.describe : Json → String
  | .null => "null"
  | .bool true => "boolean `true`"
  | .bool false => "boolean `false`"
  | .number (.integer n) =>
    if -(signedLimit : Int) ≤ n ∧ n < unsignedLimit then s!"integer `{n}`"
    else "floating point `" ++ (Json.Number.integer n).floatText ++ "`"
  | .number n => "floating point `" ++ n.floatText ++ "`"
  | .string s => "string " ++ Text.quoted s
  | .array _ => "sequence"
  | .object _ => "map"

namespace Symbol

def ReadError.message : ReadError → String
  | .wrongType found expected =>
    "invalid type: " ++ found.describe ++ ", expected " ++ expected.phrase
  | .wrongValue found expected =>
    "invalid value: " ++ found.describe ++ ", expected " ++ expected.phrase
  | .wrongLength length expected => s!"invalid length {length}, expected " ++ expected.phrase
  | .unknownTag word =>
    "unknown variant `" ++ word ++ "`, expected one of " ++
      ", ".intercalate (Kind.all.map fun k => "`" ++ k.tag ++ "`")
  | .missingKey key => "missing field `" ++ key ++ "`"

/-- A line number: an integer of 64 bits without a sign. -/
def readLine : Json → Except ReadError Nat
  | .number (.integer n) =>
    if 0 ≤ n ∧ n < Json.unsignedLimit then .ok n.toNat
    else if -(Json.signedLimit : Int) ≤ n ∧ n < 0 then
      .error (.wrongValue (.number (.integer n)) .line)
    else .error (.wrongType (.number (.integer n)) .line)
  | j => .error (.wrongType j .line)

def readText : Json → Except ReadError String
  | .string s => .ok s
  | j => .error (.wrongType j .text)

def readTag (word : String) : Except ReadError Kind :=
  match Kind.ofTag? word with
  | some k => .ok k
  | none => .error (.unknownTag word)

/-- A kind: its word, or an object whose only key is the word, with the value null. -/
def readKind : Json → Except ReadError Kind
  | .string word => readTag word
  | .object [(word, value)] => do
    let k ← readTag word
    match value with
    | .null => return k
    | j => throw (.wrongType j .nothing)
  | .object fields => .error (.wrongValue (.object fields) .oneKey)
  | j => .error (.wrongType j .tag)

/-- A type label; null stands for none. -/
def readLabel : Json → Except ReadError (Option String)
  | .null => .ok none
  | j => (readText j).map some

/-- Read a value that may be missing. -/
def readIf {α β : Type} (read : α → Except ReadError β) : Option α → Except ReadError (Option β)
  | none => .ok none
  | some a => (read a).map some

/-- The value under a key that may not be missing. -/
def require {β : Type} (key : String) : Option β → Except ReadError β
  | some b => .ok b
  | none => .error (.missingKey key)

/-- A symbol from the fields of an object, its members being read already. -/
def ofFields (fields : List (String × Json)) (members : Option (Except ReadError (List Symbol))) :
    Except ReadError Symbol := do
  let endLine ← readIf readLine (Json.lookup "endLine" fields)
  let kind ← readIf readKind (Json.lookup "kind" fields)
  let members ← readIf id members
  let name ← readIf readText (Json.lookup "name" fields)
  let startLine ← readIf readLine (Json.lookup "startLine" fields)
  let label ← readIf readLabel (Json.lookup "type" fields)
  let endLine ← require "endLine" endLine
  let kind ← require "kind" kind
  let name ← require "name" name
  let startLine ← require "startLine" startLine
  return ⟨kind, name, startLine, endLine, label.join, members.getD []⟩

/-- The value at a position of a list that may not be missing. -/
def readAt {β : Type} (items : List Json) (i : Nat) (read : Json → Except ReadError β) :
    Except ReadError β :=
  match items[i]? with
  | some j => read j
  | none => .error (.wrongLength i .sixValues)

/-- A symbol from a list of its values in key order, its members being read already. -/
def ofValues (items : List Json) (members : Option (Except ReadError (List Symbol))) :
    Except ReadError Symbol := do
  let endLine ← readAt items 0 readLine
  let kind ← readAt items 1 readKind
  let members ← readIf id members
  let name ← readAt items 3 readText
  let startLine ← readAt items 4 readLine
  let label ← readIf readLabel items[5]?
  if 6 < items.length then throw (.wrongLength items.length .fewerValues)
  return ⟨kind, name, startLine, endLine, label.join, members.getD []⟩

mutual

/-- The symbol that a JSON value stands for. -/
def ofJson : Json → Except ReadError Symbol
  | .object fields => ofFields fields (membersField fields)
  | .array items => ofValues items (membersValue items)
  | j => .error (.wrongType j .symbol)

/-- The members under the key `members`, when there is one. -/
def membersField : List (String × Json) → Option (Except ReadError (List Symbol))
  | [] => none
  | (key, value) :: rest =>
    (membersField rest).or (if key = "members" then some (readMembers value) else none)

/-- The members at the third position, when there is one. -/
def membersValue : List Json → Option (Except ReadError (List Symbol))
  | _ :: _ :: value :: _ => some (readMembers value)
  | _ => none

/-- The members from the list that holds them. -/
def readMembers : Json → Except ReadError (List Symbol)
  | .array items => ofJsons items
  | j => .error (.wrongType j .symbols)

/-- The symbols that several JSON values stand for, up to the first problem. -/
def ofJsons : List Json → Except ReadError (List Symbol)
  | [] => .ok []
  | j :: js => do
    let s ← ofJson j
    let ss ← ofJsons js
    return s :: ss

end

end Symbol

end SourceOutline
