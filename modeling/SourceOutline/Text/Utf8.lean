/-!
# Reading UTF-8

`pieces` cuts a byte string into characters and the maximal broken sequences
between them, in one pass that keeps at most one unfinished sequence.  Both
readers are views of that cut:

1.  `decode` accepts a byte string only when every piece is a character, and
    otherwise says where the valid part ends and how long the first broken
    sequence is;
2.  `decodeLossy` puts `U+FFFD` in the place of each broken sequence.
-/

namespace SourceOutline

/-- The contents of a file. -/
abbrev Bytes := List UInt8

namespace Utf8

/-- The UTF-8 form of a text. -/
def encode (cs : List Char) : Bytes :=
  cs.flatMap String.utf8EncodeChar

/-- A sequence whose lead byte has been read. -/
structure Pending where
  /-- Bytes read so far, the lead byte included. -/
  seen : Nat
  /-- Continuation bytes still to come. -/
  missing : Nat
  /-- The least value of the next byte. -/
  low : Nat
  /-- The greatest value of the next byte. -/
  high : Nat
  /-- The bits of the code point read so far. -/
  value : Nat
  deriving DecidableEq, Repr

/-- A piece of a byte string. -/
inductive Piece where
  | char (c : Char)
  /-- A sequence of this many bytes that the next byte does not continue. -/
  | broken (width : Nat)
  /-- A sequence of this many bytes that the end of the input cuts off. -/
  | cut (width : Nat)
  deriving DecidableEq, Repr

/-- What a byte does at the start of a sequence: it completes some pieces by
itself, or opens a longer sequence.  The ranges for the second byte exclude
overlong forms, surrogates and values above `U+10FFFF`. -/
def lead (b : UInt8) : List Piece × Option Pending :=
  let n := b.toNat
  if n < 0x80 then ([.char (Char.ofNat n)], none)
  else if n < 0xC2 then ([.broken 1], none)
  else if n < 0xE0 then ([], some ⟨1, 1, 0x80, 0xBF, n - 0xC0⟩)
  else if n = 0xE0 then ([], some ⟨1, 2, 0xA0, 0xBF, 0⟩)
  else if n = 0xED then ([], some ⟨1, 2, 0x80, 0x9F, 0xD⟩)
  else if n < 0xF0 then ([], some ⟨1, 2, 0x80, 0xBF, n - 0xE0⟩)
  else if n = 0xF0 then ([], some ⟨1, 3, 0x90, 0xBF, 0⟩)
  else if n < 0xF4 then ([], some ⟨1, 3, 0x80, 0xBF, n - 0xF0⟩)
  else if n = 0xF4 then ([], some ⟨1, 3, 0x80, 0x8F, 4⟩)
  else ([.broken 1], none)

/-- One byte: the pieces it completes and the sequence left open after it.  A
byte that does not continue the open sequence breaks it and is itself read as a
lead byte. -/
def step : Option Pending → UInt8 → List Piece × Option Pending
  | none, b => lead b
  | some p, b =>
    let n := b.toNat
    if p.low ≤ n ∧ n ≤ p.high then
      let value := p.value * 64 + (n - 0x80)
      if p.missing ≤ 1 then ([.char (Char.ofNat value)], none)
      else ([], some ⟨p.seen + 1, p.missing - 1, 0x80, 0xBF, value⟩)
    else (.broken p.seen :: (lead b).1, (lead b).2)

/-- The pieces of a byte string, after the open sequence given. -/
def piecesFrom : Option Pending → Bytes → List Piece
  | none, [] => []
  | some p, [] => [.cut p.seen]
  | st, b :: bs => (step st b).1 ++ piecesFrom (step st b).2 bs

/-- The pieces of a byte string, in order. -/
def pieces (bs : Bytes) : List Piece :=
  piecesFrom none bs

/-- Why a byte string is not UTF-8. -/
structure Flaw where
  /-- Length of the longest valid part at the start. -/
  validUpTo : Nat
  /-- Length of the broken sequence after it; nothing when the input ends there. -/
  length : Option Nat
  deriving DecidableEq, Repr

/-- Characters up to the first piece that is none. -/
def charsOfPieces (offset : Nat) : List Piece → Except Flaw (List Char)
  | [] => .ok []
  | .char c :: ps => do
    let cs ← charsOfPieces (offset + c.utf8Size) ps
    return c :: cs
  | .broken width :: _ => .error ⟨offset, some width⟩
  | .cut _ :: _ => .error ⟨offset, none⟩

/-- The text of a byte string, when it is UTF-8. -/
def decode (bs : Bytes) : Except Flaw (List Char) :=
  charsOfPieces 0 (pieces bs)

/-- The character that stands for a piece. -/
def Piece.toChar : Piece → Char
  | .char c => c
  | .broken _ | .cut _ => '\uFFFD'

/-- The text of any byte string; each broken sequence becomes `U+FFFD`. -/
def decodeLossy (bs : Bytes) : List Char :=
  (pieces bs).map Piece.toChar

/-- The flaw in words. -/
def Flaw.message (f : Flaw) : String :=
  match f.length with
  | some n => s!"invalid utf-8 sequence of {n} bytes from index {f.validUpTo}"
  | none => s!"incomplete utf-8 byte sequence from index {f.validUpTo}"

/-- On a valid byte string the two readers agree. -/
theorem decodeLossy_eq_of_charsOfPieces {ps : List Piece} {offset : Nat} {cs : List Char}
    (h : charsOfPieces offset ps = .ok cs) : ps.map Piece.toChar = cs := by
  induction ps generalizing offset cs with
  | nil => simpa [charsOfPieces] using h
  | cons p ps ih =>
    cases p with
    | char c =>
      simp only [charsOfPieces, bind, Except.bind] at h
      split at h
      · cases h
      · next cs' hcs =>
        cases h
        simp [Piece.toChar, ih hcs]
    | broken n => cases h
    | cut n => cases h

theorem decodeLossy_eq_of_decode {bs : Bytes} {cs : List Char} (h : decode bs = .ok cs) :
    decodeLossy bs = cs :=
  decodeLossy_eq_of_charsOfPieces h

end Utf8

end SourceOutline
