import SourceOutline.Text.Utf8

/-!
# Line numbers of byte offsets

`\n`, `\r\n` and a lone `\r` each end one line, in any mixture, and the bytes of a
line ending belong to the line that they end.  The table holds the offset at which
each line starts; it is increasing, so the line of an offset is the number of starts
at or before it.
-/

namespace SourceOutline

/-- The line starts of a source text. -/
structure LineIndex where
  starts : List Nat
  /-- The length of the source; larger offsets count as the end of it. -/
  size : Nat
  deriving DecidableEq, Repr

namespace LineIndex

/-- The offsets after the line endings of a source that begins at `offset`. -/
def startsFrom (offset : Nat) : Bytes → List Nat
  | [] => []
  | 0x0D :: 0x0A :: rest => (offset + 2) :: startsFrom (offset + 2) rest
  | b :: rest =>
    if b = 0x0A ∨ b = 0x0D then (offset + 1) :: startsFrom (offset + 1) rest
    else startsFrom (offset + 1) rest

def ofSource (source : Bytes) : LineIndex :=
  ⟨0 :: startsFrom 0 source, source.length⟩

/-- The number of lines; after a final line ending there is one more, empty line. -/
def lineCount (index : LineIndex) : Nat :=
  index.starts.length

/-- The line of an offset, the first line being line 1. -/
def lineOf (index : LineIndex) (offset : Nat) : Nat :=
  (index.starts.takeWhile (· ≤ min offset index.size)).length

end LineIndex

end SourceOutline
