import Mathlib.Data.List.Basic
import SourceOutline.Batch
import SourceOutline.Swift.Language

/-!
# Faults keep their call chain

A fault is built in steps: an operation is recorded, a fact is added, a cause is set.  What a
step does to the context is read off the context before and after it, and the log of a run
says which step appended what.

1.  Each step only appends (`Fault.context_apply`): an operation appends the one that it
    replaces, a fact appends itself, and a cause appends nothing.
2.  So the log of a run makes up the context that is added (`Fault.context_build`), with the
    facts in the order in which they were given (`Fault.appendedBy_context`).
3.  What operations append runs one step behind what they are given: together with the current
    operation it is the whole chain (`Fault.appendedBy_operation`).
-/

namespace SourceOutline

namespace Fault

/-! ## Steps -/

/-- A step of building a fault. -/
inductive Step where
  | operation (name : String)
  | context (key value : String)
  | cause (cause : Cause)

/-- The fault after a step. -/
def apply (f : Fault) : Step → Fault
  | .operation name => f.withOperation name
  | .context key value => f.withContext key value
  | .cause cause => f.withCause cause

/-- The fault after several steps. -/
def build (f : Fault) (steps : List Step) : Fault :=
  steps.foldl apply f

/-- An operation, if it has a name. -/
def named (operation : String) : List String :=
  if operation.isEmpty then [] else [operation]

/-- The operation with a name that a step records. -/
def Step.operations : Step → List String
  | .operation name => named name
  | _ => []

/-- The fact that a step adds. -/
def Step.facts : Step → List (String × String)
  | .context key value => [(key, value)]
  | _ => []

def Step.isOperation : Step → Bool
  | .operation _ => true
  | _ => false

def Step.isContext : Step → Bool
  | .context .. => true
  | _ => false

def Step.isCause : Step → Bool
  | .cause _ => true
  | _ => false

/-- What stands in the context after a step beyond what stood there before. -/
def appended (f : Fault) (step : Step) : List (String × String) :=
  (f.apply step).context.drop f.context.length

/-- The steps of a run, each with what it appends. -/
def log (f : Fault) : List Step → List (Step × List (String × String))
  | [] => []
  | step :: steps => (step, f.appended step) :: log (f.apply step) steps

/-- What the steps of one kind append, in the order of the steps. -/
def appendedBy (f : Fault) (select : Step → Bool) (steps : List Step) : List (String × String) :=
  ((f.log steps).filter fun row => select row.1).flatMap Prod.snd

/-- An operation that is replaced goes into the context. -/
theorem context_withOperation (f : Fault) (name : String) :
    (f.withOperation name).context =
      f.context ++ (named f.operation).map fun operation => ("called", operation) := by
  unfold withOperation named
  by_cases hempty : f.operation.isEmpty = true
  · simp [hempty]
  · simp [hempty]

/-- Recording an operation appends the one that it replaces, if that has a name. -/
theorem appended_operation (f : Fault) (name : String) :
    f.appended (.operation name) =
      (named f.operation).map fun operation => ("called", operation) := by
  rw [appended, apply, context_withOperation, List.drop_left]

/-- A fact is appended as it is given. -/
theorem appended_context (f : Fault) (key value : String) :
    f.appended (.context key value) = [(key, value)] := by
  rw [appended, apply, withContext, List.drop_left]

/-- Setting the cause appends nothing. -/
theorem appended_cause (f : Fault) (cause : Cause) : f.appended (.cause cause) = [] := by
  rw [appended, apply, withCause, List.drop_length]

/-- **A step only appends to the context**, and kind and message stay as they are. -/
theorem context_apply (f : Fault) (step : Step) :
    (f.apply step).context = f.context ++ f.appended step := by
  cases step with
  | operation name => rw [appended_operation, apply, context_withOperation]
  | context key value => rw [appended_context, apply, withContext]
  | cause cause => rw [appended_cause, apply, withCause, List.append_nil]

/-- No step changes the kind. -/
theorem kind_apply (f : Fault) (step : Step) : (f.apply step).kind = f.kind := by
  cases step <;> rfl

/-- No step changes the message. -/
theorem message_apply (f : Fault) (step : Step) : (f.apply step).message = f.message := by
  cases step <;> rfl

/-! ## Runs -/

/-- The first step is taken first. -/
theorem build_cons (f : Fault) (step : Step) (steps : List Step) :
    f.build (step :: steps) = (f.apply step).build steps :=
  rfl

/-- Further steps go on from what the earlier ones have built. -/
theorem build_append (f : Fault) (steps more : List Step) :
    f.build (steps ++ more) = (f.build steps).build more :=
  List.foldl_append

/-- Steps keep the kind. -/
theorem kind_build (f : Fault) (steps : List Step) : (f.build steps).kind = f.kind := by
  induction steps generalizing f with
  | nil => rfl
  | cons step steps ih => rw [build_cons, ih, kind_apply]

/-- Steps keep the message. -/
theorem message_build (f : Fault) (steps : List Step) : (f.build steps).message = f.message := by
  induction steps generalizing f with
  | nil => rfl
  | cons step steps ih => rw [build_cons, ih, message_apply]

/-- The log holds every step once, in order. -/
theorem map_fst_log (f : Fault) (steps : List Step) : (f.log steps).map Prod.fst = steps := by
  induction steps generalizing f with
  | nil => rfl
  | cons step steps ih => rw [log, List.map_cons, ih]

/-- **The log makes up the context that a run adds.** -/
theorem context_build (f : Fault) (steps : List Step) :
    (f.build steps).context = f.context ++ (f.log steps).flatMap Prod.snd := by
  induction steps generalizing f with
  | nil => exact (List.append_nil _).symm
  | cons step steps ih =>
      rw [build_cons, ih, context_apply, log, List.flatMap_cons, List.append_assoc]

/-- Further steps only append to the context. -/
theorem context_isPrefix (f : Fault) (steps more : List Step) :
    (f.build steps).context <+: (f.build (steps ++ more)).context := by
  rw [build_append, context_build _ more]
  exact List.prefix_append _ _

/-- What a selected step appends comes before what later ones append. -/
theorem appendedBy_cons_of_pos {select : Step → Bool} {step : Step} (h : select step = true)
    (f : Fault) (steps : List Step) :
    f.appendedBy select (step :: steps) =
      f.appended step ++ (f.apply step).appendedBy select steps := by
  simp [appendedBy, log, h]

/-- A step that is not selected adds nothing to what the others append. -/
theorem appendedBy_cons_of_neg {select : Step → Bool} {step : Step} (h : select step = false)
    (f : Fault) (steps : List Step) :
    f.appendedBy select (step :: steps) = (f.apply step).appendedBy select steps := by
  simp [appendedBy, log, h]

/-- **Facts are added once each**, in the order in which they are given. -/
theorem appendedBy_context (f : Fault) (steps : List Step) :
    f.appendedBy Step.isContext steps = steps.flatMap Step.facts := by
  induction steps generalizing f with
  | nil => rfl
  | cons step steps ih =>
      rw [List.flatMap_cons, ← ih (f.apply step)]
      cases step with
      | operation name => exact appendedBy_cons_of_neg rfl f steps
      | context key value =>
          rw [appendedBy_cons_of_pos rfl, appended_context]
          rfl
      | cause cause => exact appendedBy_cons_of_neg rfl f steps

/-- A cause leaves no trace in the context. -/
theorem appendedBy_cause (f : Fault) (steps : List Step) :
    f.appendedBy Step.isCause steps = [] := by
  induction steps generalizing f with
  | nil => rfl
  | cons step steps ih =>
      rw [← ih (f.apply step)]
      cases step with
      | operation name => exact appendedBy_cons_of_neg rfl f steps
      | context key value => exact appendedBy_cons_of_neg rfl f steps
      | cause cause =>
          rw [appendedBy_cons_of_pos rfl, appended_cause]
          rfl

/-- **Operations are never lost.**  Those that operations have pushed into the context and the
current one are all that were recorded. -/
theorem appendedBy_operation (f : Fault) (steps : List Step) :
    ∃ called, f.appendedBy Step.isOperation steps =
        called.map (fun operation => ("called", operation)) ∧
      called ++ named (f.build steps).operation =
        named f.operation ++ steps.flatMap Step.operations := by
  induction steps generalizing f with
  | nil => exact ⟨[], rfl, (List.append_nil _).symm⟩
  | cons step steps ih =>
      obtain ⟨called, hcalled, hchain⟩ := ih (f.apply step)
      rw [build_cons]
      cases step with
      | operation name =>
          -- The operation that is replaced is pushed in front of what is pushed later on.
          refine ⟨named f.operation ++ called, ?_, ?_⟩
          · rw [appendedBy_cons_of_pos rfl, appended_operation, hcalled, List.map_append]
          · rw [List.append_assoc, hchain]
            rfl
      | context key value =>
          exact ⟨called, (appendedBy_cons_of_neg rfl f steps).trans hcalled, hchain⟩
      | cause cause =>
          exact ⟨called, (appendedBy_cons_of_neg rfl f steps).trans hcalled, hchain⟩

/-! ## The chain in a fault -/

/-- The operations that a fault tells of, the innermost first. -/
def callChain (f : Fault) : List String :=
  (f.context.filter fun fact => fact.1 = "called").map Prod.snd ++ named f.operation

/-- Recording an operation puts it at the end of the call chain. -/
theorem callChain_withOperation (f : Fault) (name : String) :
    (f.withOperation name).callChain = f.callChain ++ named name := by
  have hcalled : ((named f.operation).map fun operation => ("called", operation)).filter
      (fun fact => fact.1 = "called") = (named f.operation).map fun operation =>
        ("called", operation) := by
    rw [List.filter_eq_self]
    simp
  have hnames : ((named f.operation).map fun operation => ("called", operation)).map Prod.snd =
      named f.operation := by
    rw [List.map_map]
    exact List.map_id _
  rw [callChain, callChain, context_withOperation, List.filter_append, hcalled, List.map_append,
    hnames]
  rfl

/-- A fact under another key leaves the chain as it is. -/
theorem callChain_withContext {key : String} (h : key ≠ "called") (f : Fault) (value : String) :
    (f.withContext key value).callChain = f.callChain := by
  simp [callChain, withContext, h]

/-- The call chain of a system error begins with its own operation. -/
theorem callChain_ofSystemError (e : SystemError) : (ofSystemError e).callChain = ["io"] :=
  rfl

end Fault

/-- What can go wrong with a file: it cannot be read, or its source cannot be outlined. -/
theorem outlineFile_eq_error {t : FileTree} {language : Language} {options : OutlineOptions}
    {path : String} {fault : Fault} (h : outlineFile t language options path = .error fault) :
    (∃ e, t.read path = .error e ∧ fault = ((Fault.ofSystemError e).withOperation
      "pipeline::outline_file").withContext "path" path) ∨
    ∃ source inner, t.read path = .ok source ∧ language.outline source options = .error inner ∧
      fault = inner.withContext "path" path := by
  unfold outlineFile at h
  split at h
  · next e hread =>
    cases h
    exact .inl ⟨e, hread, rfl⟩
  · next source hread =>
    split at h
    · next inner houtline =>
      cases h
      exact .inr ⟨source, inner, hread, houtline, rfl⟩
    · cases h

/-- **Building a fault never loses its call chain.**  From any fault and through any steps,
kind and message stay, the context is only appended to, and every entry that is appended comes
from one step.  The facts stand there once each in the order in which they were given; causes
append nothing; and what operations append are the earlier operations, which together with the
current one are all those with a name, in order.

So the fault of a file that is not outlined has the path last.  When the file cannot be read,
the operation of the system stands below the one of the file; when the source is to blame, its
fault keeps its own chain. -/
theorem build_keeps_call_chain :
    (∀ (f : Fault) (steps : List Fault.Step),
      (f.build steps).kind = f.kind ∧ (f.build steps).message = f.message ∧
      (∀ more, (f.build steps).context <+: (f.build (steps ++ more)).context) ∧
      (f.log steps).map Prod.fst = steps ∧
      (f.build steps).context = f.context ++ (f.log steps).flatMap Prod.snd ∧
      f.appendedBy Fault.Step.isContext steps = steps.flatMap Fault.Step.facts ∧
      f.appendedBy Fault.Step.isCause steps = [] ∧
      ∃ called, f.appendedBy Fault.Step.isOperation steps =
          called.map (fun operation => ("called", operation)) ∧
        called ++ Fault.named (f.build steps).operation =
          Fault.named f.operation ++ steps.flatMap Fault.Step.operations) ∧
    ∀ t language options path fault, outlineFile t language options path = .error fault →
      fault.context.getLast? = some ("path", path) ∧
      ((∃ e, t.read path = .error e ∧ fault.message = e.message ∧
          fault.operation = "pipeline::outline_file" ∧
          fault.callChain = ["io", "pipeline::outline_file"]) ∨
        ∃ source inner, t.read path = .ok source ∧
          language.outline source options = .error inner ∧ fault.kind = inner.kind ∧
          fault.message = inner.message ∧ fault.operation = inner.operation ∧
          inner.context <+: fault.context ∧ fault.callChain = inner.callChain) := by
  constructor
  · intro f steps
    exact ⟨f.kind_build steps, f.message_build steps, f.context_isPrefix steps,
      f.map_fst_log steps, f.context_build steps, f.appendedBy_context steps,
      f.appendedBy_cause steps, f.appendedBy_operation steps⟩
  · intro t language options path fault hfault
    have hkey : "path" ≠ "called" := by decide
    rcases outlineFile_eq_error hfault with
      ⟨e, hread, rfl⟩ | ⟨source, inner, hread, houtline, rfl⟩
    · refine ⟨List.getLast?_concat, .inl ⟨e, hread, rfl, rfl, ?_⟩⟩
      rw [Fault.callChain_withContext hkey, Fault.callChain_withOperation,
        Fault.callChain_ofSystemError]
      rfl
    · refine ⟨List.getLast?_concat, .inr ⟨source, inner, hread, houtline, rfl, rfl, rfl, ?_, ?_⟩⟩
      · exact List.prefix_append _ _
      · exact Fault.callChain_withContext hkey inner path

/-- A directory with one source. -/
def oneSource : FileTree :=
  { top := { entries := [.file "B.swift" {} (Utf8.encode "let".toList)] } }

/-- The steps of a caller that goes on with a fault, one of them an operation without a name. -/
def callerSteps : List Fault.Step :=
  [.operation "cli::read", .context "called" "twice", .operation "", .operation "cli::main"]

/-- One name is missing, and one file is there. -/
theorem read_oneSource :
    oneSource.read "A.swift" = .error (.numbered .noEntry) ∧
    oneSource.read "B.swift" = .ok (Utf8.encode "let".toList) :=
  ⟨rfl, rfl⟩

/-- A file that is missing, and a source that the parser gives up on. -/
theorem oneSource_call_chain :
    let language := Swift.language fun _ => none
    let gone := ((Fault.ofSystemError (.numbered .noEntry)).withOperation
      "pipeline::outline_file").withContext "path" "A.swift"
    let noTree := Swift.noTreeFault.withContext "path" "B.swift"
    outlineFile oneSource language {} "A.swift" = .error gone ∧
    gone.context.getLast? = some ("path", "A.swift") ∧
    outlineFile oneSource language {} "B.swift" = .error noTree ∧
    noTree.context.getLast? = some ("path", "B.swift") ∧
    (gone.build callerSteps).message = "No such file or directory (os error 2)" ∧
    (gone.build callerSteps).context =
      [("called", "io"), ("path", "A.swift"), ("called", "pipeline::outline_file"),
        ("called", "twice"), ("called", "cli::read")] := by
  intro language gone noTree
  obtain ⟨hgoneRead, hnoTreeRead⟩ := read_oneSource
  have hgone : outlineFile oneSource language {} "A.swift" = .error gone := by
    rw [outlineFile, hgoneRead]
  have hnoTree : outlineFile oneSource language {} "B.swift" = .error noTree := by
    rw [outlineFile, hnoTreeRead]
    rfl
  obtain ⟨hbuild, hfile⟩ := build_keeps_call_chain
  obtain ⟨-, hmessage, -, -, hcontext, -⟩ := hbuild gone callerSteps
  exact ⟨hgone, (hfile _ _ _ _ _ hgone).1, hnoTree, (hfile _ _ _ _ _ hnoTree).1,
    hmessage.trans (by decide), hcontext.trans (by decide)⟩

end SourceOutline
