import SourceOutline.Text.Utf8

/-!
# Regular expressions over bytes

Matching goes through the expression once and follows all ways to match at the same
time: the places of a byte string at which a match may have arrived are marked, and each
part of the expression moves the marks.  The string matches when its end is marked at
the end.
-/

namespace SourceOutline.Ignore

/-- A set of bytes: those in one of the ranges, or those in none of them. -/
structure ByteSet where
  negated : Bool
  ranges : List (UInt8 × UInt8)
  deriving DecidableEq, Repr

namespace ByteSet

def single (b : UInt8) : ByteSet :=
  ⟨false, [(b, b)]⟩

def contains (s : ByteSet) (b : UInt8) : Bool :=
  (s.ranges.any fun (first, last) => first ≤ b && b ≤ last) != s.negated

end ByteSet

/-- A regular expression over bytes. -/
inductive Regex where
  | never
  | empty
  /-- One byte of a set. -/
  | byte (set : ByteSet)
  /-- Any number of bytes of a set. -/
  | bytes (set : ByteSet)
  | seq (a b : Regex)
  | alt (a b : Regex)
  deriving DecidableEq, Repr

namespace Regex

/-- One after the other, simplified. -/
def andThen : Regex → Regex → Regex
  | .empty, b => b
  | a, .empty => a
  | a, b => .seq a b

/-- Either one, simplified. -/
def orElse : Regex → Regex → Regex
  | .never, b => b
  | a, .never => a
  | a, b => .alt a b

/-- All in a row. -/
def concat (rs : List Regex) : Regex :=
  rs.foldr andThen .empty

/-- Any of them. -/
def anyOf (rs : List Regex) : Regex :=
  rs.foldr orElse .never

/-- Exactly these bytes. -/
def literal (bs : Bytes) : Regex :=
  concat (bs.map fun b => .byte (.single b))

/-- Moves each mark over one byte of the set. -/
def cross (set : ByteSet) (bs : Bytes) (marks : List Bool) : List Bool :=
  false :: List.zipWith (fun b mark => mark && set.contains b) bs marks

/-- Moves each mark over any number of bytes of the set; `arrived` says whether one of
them has come to the first place. -/
def spread (set : ByteSet) (arrived : Bool) : Bytes → List Bool → List Bool
  | _, [] => []
  | [], mark :: _ => [mark || arrived]
  | b :: bs, mark :: marks =>
    let here := mark || arrived
    here :: spread set (here && set.contains b) bs marks

/-- The places to which an expression leads from the marked ones.  There is a mark before
each byte and one at the end.  From no place nothing leads anywhere. -/
def move (bs : Bytes) : Regex → List Bool → List Bool
  | .never, marks => marks.map fun _ => false
  | .empty, marks => marks
  | .byte set, marks => cross set bs marks
  | .bytes set, marks => spread set false bs marks
  | .seq a b, marks =>
    let marks := move bs a marks
    if marks.contains true then move bs b marks else marks
  | .alt a b, marks => List.zipWith (· || ·) (move bs a marks) (move bs b marks)

/-- Whether the whole byte string matches. -/
def accepts (r : Regex) (bs : Bytes) : Bool :=
  (move bs r (true :: bs.map fun _ => false)).getLast? = some true

end Regex

end SourceOutline.Ignore
