import SourceOutline.Text.Cut
import SourceOutline.Text.Utf8

/-!
# Lines of a file

A line ends with a line feed, and a carriage return before it belongs to the ending.
What follows the last line feed is a line of its own unless it is empty; a carriage
return at its end belongs to it.
-/

namespace SourceOutline.Text

/-- The pieces between the line feeds as lines. -/
def endLines : List Bytes → List Bytes
  | [] => []
  | [last] => if last.isEmpty then [] else [last]
  | line :: lines => (beforeEnd? [0x0D] line).getD line :: endLines lines

/-- The lines of a file without their endings. -/
def lines (content : Bytes) : List Bytes :=
  endLines (pieces 0x0A content)

/-- Lines in characters, up to the first that is not UTF-8. -/
def decodeLines : List Bytes → List (List Char)
  | [] => []
  | line :: lines =>
    match Utf8.decode line with
    | .ok cs => cs :: decodeLines lines
    | .error _ => []

/-- The lines of a file in characters, up to the first that is not UTF-8. -/
def readLines (content : Bytes) : List (List Char) :=
  decodeLines (lines content)

end SourceOutline.Text
