import SourceOutline.Ignore.Regex

/-!
# Glob patterns

`?` stands for one byte and `*` for any number of bytes within a name, `[…]` for one
byte of a class, `{…,…}` for alternatives, and a backslash makes the next character
stand for itself.  `**` between slashes stands for any number of whole names.

A class that is never closed is no class: its bracket, and every later one, stands for
itself.  A pattern with a reversed range, a backslash at its end or unbalanced braces
has no meaning.

How deep a pattern is nested is counted on the regular expression that says the same:
each class, repetition, group and choice counts one, and so does each row of several
elements.
-/

namespace SourceOutline.Ignore

/-- A part of a pattern as a regular expression. -/
structure Piece where
  regex : Regex
  /-- How many elements it is written with. -/
  elements : Nat
  /-- How deep these are nested. -/
  depth : Nat
  deriving DecidableEq, Repr

namespace Piece

/-- The depth of the deepest piece. -/
def deepest (ps : List Piece) : Nat :=
  ps.foldl (fun depth p => max depth p.depth) 0

/-- How many elements the pieces have together. -/
def count (ps : List Piece) : Nat :=
  ps.foldl (fun total p => total + p.elements) 0

/-- Pieces in a row. -/
def row (ps : List Piece) : Piece :=
  let elements := count ps
  { regex := .concat (ps.map Piece.regex)
    elements
    depth := if elements ≤ 1 then deepest ps else deepest ps + 1 }

/-- A group of rows to choose from; empty rows do not count. -/
def group (rows : List Piece) : Piece :=
  match rows.filter fun p => 0 < p.elements with
  | [] => ⟨.empty, 0, 0⟩
  | [p] => ⟨p.regex, 1, p.depth + 1⟩
  | ps => ⟨.anyOf (ps.map Piece.regex), 1, deepest ps + 2⟩

/-- A whole pattern, which stands between the two ends of a path. -/
def whole (ps : List Piece) : Piece :=
  let border : Piece := ⟨.empty, 1, 0⟩
  row (border :: ps ++ [border])

end Piece

/-- An element of a pattern. -/
inductive Token where
  | char (c : Char)
  | anyByte
  | anyBytes
  /-- Two stars with their slash at the start of a pattern. -/
  | leading
  /-- Two stars with their slash at the end of a pattern. -/
  | trailing
  /-- Two stars with their slashes inside a pattern. -/
  | middle
  | bytes (negated : Bool) (ranges : List (Char × Char))
  | alternatives (p : Piece)

namespace Token

def slash : UInt8 := 0x2F

/-- Any byte but a slash. -/
def inName : ByteSet :=
  ⟨true, [(slash, slash)]⟩

/-- Any bytes at all. -/
def anything : Regex :=
  .bytes ⟨true, []⟩

def slashRegex : Regex :=
  .byte (.single slash)

/-- The byte ranges of a range of characters.  A character of several bytes counts byte
by byte, and only the bytes next to the dash make a range. -/
def byteRanges (range : Char × Char) : List (UInt8 × UInt8) :=
  let first := String.utf8EncodeChar range.1
  if range.1 = range.2 then first.map fun b => (b, b)
  else
    let last := String.utf8EncodeChar range.2
    (first.dropLast ++ last.drop 1).map (fun b => (b, b)) ++
      match first.getLast?, last.head? with
      | some a, some b => [(a, b)]
      | _, _ => []

/-- An element as a piece.  A character of several bytes is a row of them; a class is
deeper when it lists several things. -/
def piece : Token → Piece
  | .char c =>
    let bytes := String.utf8EncodeChar c
    ⟨.literal bytes, bytes.length, 0⟩
  | .anyByte => ⟨.byte inName, 1, 1⟩
  | .anyBytes => ⟨.bytes inName, 1, 2⟩
  | .leading => ⟨.alt (.alt .empty slashRegex) (.seq anything slashRegex), 1, 4⟩
  | .trailing => ⟨.seq slashRegex anything, 2, 1⟩
  | .middle => ⟨.alt slashRegex (.seq slashRegex (.seq anything slashRegex)), 1, 4⟩
  | .bytes negated ranges =>
    let ranges := ranges.flatMap byteRanges
    ⟨.byte ⟨negated, ranges⟩, 1, if ranges.length ≤ 1 then 1 else 2⟩
  | .alternatives p => p

end Token

namespace Glob

/-- What comes of reading a class. -/
inductive ClassResult where
  | closed (negated : Bool) (ranges : List (Char × Char)) (rest : List Char)
  | unclosed
  | reversed

/-- Reads a class, its ranges so far with the latest first.  `first` says that nothing
has been read yet, `inRange` that a dash waits for the end of a range. -/
def scanClass (negated first inRange : Bool) (ranges : List (Char × Char)) :
    List Char → ClassResult
  | [] => .unclosed
  | c :: cs =>
    if c = ']' ∧ first = false then
      .closed negated (if inRange then ('-', '-') :: ranges else ranges) cs
    else if c = '-' ∧ first = false ∧ inRange = false then
      scanClass negated false true ranges cs
    else if inRange then
      match ranges with
      | (low, _) :: earlier =>
        if c < low then .reversed else scanClass negated false false ((low, c) :: earlier) cs
      | [] => .reversed
    else scanClass negated false false ((c, c) :: ranges) cs

/-- A class after its opening bracket. -/
def class? (cs : List Char) : ClassResult :=
  match cs with
  | c :: rest =>
    if c = '!' ∨ c = '^' then scanClass true true false [] rest
    else scanClass false true false [] cs
  | [] => .unclosed

/-- A group of alternatives that is being read: the elements of each, latest first. -/
structure Group where
  branch : List Token := []
  earlier : List (List Token) := []

/-- A closed group as a piece. -/
def Group.piece (g : Group) : Piece :=
  .group ((g.branch :: g.earlier).map fun tokens => .row (tokens.reverse.map Token.piece))

/-- What has been read of a pattern: the innermost open group, the groups around it, the
last character and whether a class was found to be unclosed. -/
structure Reader where
  group : Group := {}
  outer : List Group := []
  previous : Option Char := none
  bracketsPlain : Bool := false

namespace Reader

def push (t : Token) (r : Reader) : Reader :=
  { r with group := { r.group with branch := t :: r.group.branch } }

def after (c : Char) (r : Reader) : Reader :=
  { r with previous := some c }

/-- Two stars that can only mean one star twice. -/
def pushStars (r : Reader) : Reader :=
  ((r.push .anyBytes).push .anyBytes).after '*'

/-- Replaces the slash before a `**`; two of them in a row are one. -/
def pushDeep (t : Token) (r : Reader) : Reader :=
  match r.group.branch with
  | .leading :: _ | .trailing :: _ => r
  | _ :: branch => { r with group := { r.group with branch := t :: branch } }
  | [] => r.push t

/-- Reads `**` with what follows it, and returns what is left. -/
def doubleStar (r : Reader) (rest : List Char) : Reader × List Char :=
  if r.group.branch.isEmpty then
    match rest with
    | [] => ((r.push .leading).after '*', [])
    | c :: cs => if c = '/' then ((r.push .leading).after '/', cs) else (r.pushStars, rest)
  else
    let inGroup := !r.outer.isEmpty
    let afterSlash := r.previous = some '/'
    let atBranch := inGroup ∧ (r.previous = some ',' ∨ r.previous = some '\x7b')
    if ¬ afterSlash ∧ ¬ atBranch then (r.pushStars, rest)
    else
      match rest with
      | [] => ((r.pushDeep .trailing).after '*', [])
      | c :: cs =>
        if inGroup ∧ (c = ',' ∨ c = '\x7d') then ((r.pushDeep .trailing).after '*', rest)
        else if c = '/' then ((r.pushDeep .middle).after '/', cs)
        else (r.pushStars, rest)

end Reader

/-- Reads a pattern; the fuel is the number of characters left. -/
def readAll : Nat → Reader → List Char → Option Reader
  | _, r, [] => some r
  | 0, _, _ :: _ => none
  | fuel + 1, r, c :: cs =>
    if c = '?' then readAll fuel ((r.push .anyByte).after c) cs
    else if c = '*' then
      match cs with
      | '*' :: rest =>
        let (r, rest) := r.doubleStar rest
        readAll fuel r rest
      | cs => readAll fuel ((r.push .anyBytes).after c) cs
    else if c = '[' ∧ r.bracketsPlain = false then
      match class? cs with
      | .closed negated ranges rest =>
        readAll fuel ((r.push (.bytes negated ranges)).after ']') rest
      | .unclosed => readAll fuel (({ r with bracketsPlain := true }.push (.char c)).after c) cs
      | .reversed => none
    else if c = '\x7b' then
      readAll fuel ({ r with group := {}, outer := r.group :: r.outer }.after c) cs
    else if c = '\x7d' then
      match r.outer with
      | [] => none
      | g :: outer =>
        let closed : Token := .alternatives r.group.piece
        readAll fuel (({ r with group := g, outer }.push closed).after c) cs
    else if c = ',' ∧ ¬ r.outer.isEmpty then
      let group : Group := { earlier := r.group.branch :: r.group.earlier }
      readAll fuel ({ r with group }.after c) cs
    else if c = '\\' then
      match cs with
      | [] => none
      | d :: rest => readAll fuel ((r.push (.char d)).after d) rest
    else readAll fuel ((r.push (.char c)).after c) cs

/-- A pattern as a piece; nothing for a pattern without meaning.  `**` alone matches
everything. -/
def compile? (pattern : List Char) : Option Piece :=
  match readAll pattern.length {} pattern with
  | some ⟨group, [], _, _⟩ =>
    match group.branch with
    | [.leading] => some (.whole [⟨Token.anything, 1, 1⟩])
    | tokens => some (.whole (tokens.reverse.map Token.piece))
  | _ => none

end Glob

end SourceOutline.Ignore
