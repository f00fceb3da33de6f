import SourceOutline.Batch
import SourceOutline.Discovery

/-!
# A whole run

Find the files that the inputs stand for, outline them, and report.
-/

namespace SourceOutline

/-- What a run works on, and how. -/
structure RunOptions where
  inputs : List String
  outline : OutlineOptions := {}
  recursive : Bool := false
  schedule : Schedule := .inOrder

/-- The report of a run.  What was passed over on the way to the files is told before what
was skipped among them. -/
def run (t : FileTree) (language : Language) (options : RunOptions) : Outcome String :=
  let search : Discovery.Search := ⟨language.extensions, options.recursive⟩
  let found := Discovery.discover t search options.inputs
  match found.result with
  | .error fault => { found with result := .error fault }
  | .ok files =>
    let batch := Batch.process t language options.outline options.schedule files
    { warnings := found.warnings ++ batch.warnings
      result := batch.result.map Report.render }

end SourceOutline
