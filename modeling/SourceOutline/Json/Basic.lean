/-!
# JSON values

The values that the report writes and that symbols are read back from.  An object
keeps its fields in the order of the text.
-/

namespace SourceOutline

namespace Json

/-- A JSON number, as its text gives it.  `-0` is a decimal: no integer has a
negative zero. -/
inductive Number where
  | integer (value : Int)
  /-- The value is `significand * 10 ^ exponent`, with a sign. -/
  | decimal (negative : Bool) (significand : Nat) (exponent : Int)
  deriving DecidableEq, Repr

end Json

/-- A JSON value. -/
inductive Json where
  | null
  | bool (value : Bool)
  | number (value : Json.Number)
  | string (value : String)
  | array (items : List Json)
  | object (fields : List (String × Json))
  deriving Repr

namespace Json

/-- One more than the largest unsigned integer of 64 bits. -/
def unsignedLimit : Nat :=
  18446744073709551616

/-- One more than the largest signed integer of 64 bits. -/
def signedLimit : Nat :=
  9223372036854775808

/-- A natural number as a JSON number. -/
def ofNat (n : Nat) : Json :=
  .number (.integer n)

/-- The value of a field; when a key is repeated the last one counts. -/
def lookup (key : String) : List (String × Json) → Option Json
  | [] => none
  | (k, v) :: rest =>
    match lookup key rest with
    | some w => some w
    | none => if k = key then some v else none

mutual

/-- How many lists and objects are open at once in the text of a value, at most. -/
def nesting : Json → Nat
  | .array items => nestingOfItems items + 1
  | .object fields => nestingOfFields fields + 1
  | _ => 0

/-- How many are open at once in the texts of several items, at most. -/
def nestingOfItems : List Json → Nat
  | [] => 0
  | item :: items => max item.nesting (nestingOfItems items)

/-- How many are open at once in the texts of several fields, at most. -/
def nestingOfFields : List (String × Json) → Nat
  | [] => 0
  | (_, value) :: fields => max value.nesting (nestingOfFields fields)

end

/-- The value of a field of an object. -/
def field? (key : String) : Json → Option Json
  | .object fields => lookup key fields
  | _ => none

end Json

end SourceOutline
