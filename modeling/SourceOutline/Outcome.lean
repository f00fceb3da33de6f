import SourceOutline.Fault

/-!
# Outcomes

Some of what goes wrong does not end the work: it is told as a warning, and the rest is done.
-/

namespace SourceOutline

/-- Notice of an input or a file that was skipped. -/
structure Warning where
  path : String
  message : String
  deriving DecidableEq, Repr

def Warning.text (w : Warning) : String :=
  "Warning: Failed to read file: " ++ w.path ++ " (" ++ w.message ++ ")"

/-- What came of some work: the warnings in order, and the result. -/
structure Outcome (α : Type) where
  warnings : List Warning := []
  result : Except Fault α

end SourceOutline
