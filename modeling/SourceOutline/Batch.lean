import SourceOutline.FileTree
import SourceOutline.Language.Basic
import SourceOutline.Outcome
import SourceOutline.Report

/-!
# Outlining many files

The files of a batch are outlined independently, one after the other or by several
workers that finish in any order; each outcome goes to the position of its file.  Then
the outcomes are gone through in the order of the files: a fault that concerns one
input only becomes a warning and the file is skipped, any other fault ends the batch.
-/

namespace SourceOutline

/-- Outlines the file that a path leads to. -/
def outlineFile (t : FileTree) (language : Language) (options : OutlineOptions) (path : String) :
    Except Fault (List Symbol) :=
  match t.read path with
  | .error e =>
    let fault := (Fault.ofSystemError e).withOperation "pipeline::outline_file"
    .error (fault.withContext "path" path)
  | .ok source =>
    match language.outline source options with
    | .error fault => .error (fault.withContext "path" path)
    | .ok symbols => .ok symbols

/-- How the files of a batch are worked on. -/
inductive Schedule where
  | sequential
  /-- Several workers; `finish n` lists the positions of `n` files in the order in which
  they are done, each of them once. -/
  | parallel (finish : Nat → List Nat) (complete : ∀ n, (finish n).Perm (List.range n))

namespace Schedule

/-- Workers that happen to finish in the order of the files. -/
def inOrder : Schedule :=
  .parallel List.range fun _ => .rfl

/-- Applies a function to every element.  Workers deliver each result with the position
of its element, and the results are collected by position. -/
def map {α β : Type} (schedule : Schedule) (f : α → β) (xs : List α) : List β :=
  match schedule with
  | .sequential => xs.map f
  | .parallel finish _ =>
    let delivered : List (Nat × β) :=
      (finish xs.length).filterMap fun i => xs[i]?.map fun x => (i, f x)
    (List.range xs.length).filterMap fun i => delivered.lookup i

end Schedule

namespace Batch

/-- Goes through the outcomes of the files in order. -/
def gather : List (String × Except Fault (List Symbol)) → Outcome (List FileOutline)
  | [] => { result := .ok [] }
  | (file, .ok symbols) :: rest =>
    let after := gather rest
    { after with result := after.result.map (⟨file, symbols⟩ :: ·) }
  | (file, .error fault) :: rest =>
    if fault.isInputLocal then
      let after := gather rest
      { after with warnings := ⟨file, fault.message⟩ :: after.warnings }
    else { result := .error fault }

/-- Outlines the files of a batch. -/
def process (t : FileTree) (language : Language) (options : OutlineOptions) (schedule : Schedule)
    (files : List String) : Outcome (List FileOutline) :=
  gather (files.zip (schedule.map (outlineFile t language options) files))

end Batch

end SourceOutline
