import SourceOutline.Json.Printer
import SourceOutline.Symbol.Format

/-!
# Reports

The outlines of a run as one JSON text.  A single file is reported by its symbols
alone; otherwise each file is reported with its path.
-/

namespace SourceOutline

/-- The outline of one file. -/
structure FileOutline where
  file : String
  symbols : List Symbol
  deriving DecidableEq, Repr

namespace FileOutline

def toJson (f : FileOutline) : Json :=
  .object [("file", .string f.file), ("symbols", .array (Symbol.toJsons f.symbols))]

end FileOutline

namespace Report

/-- The JSON value of a report. -/
def toJson : List FileOutline → Json
  | [single] => .array (Symbol.toJsons single.symbols)
  | results => .array (results.map FileOutline.toJson)

/-- The text of a report. -/
def render (results : List FileOutline) : String :=
  (toJson results).pretty

end Report

end SourceOutline
