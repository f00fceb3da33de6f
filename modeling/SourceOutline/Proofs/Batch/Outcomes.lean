import Mathlib.Data.List.Basic
import SourceOutline.Batch

/-!
# What comes of a batch

1.  Results are collected by position, so the order in which workers finish leaves no
    trace (`Schedule.map_eq_map`).
2.  Files without a fatal outcome add their outlines and warnings to whatever comes of the
    files after them (`Batch.gather_append`).  A fatal outcome forgets what comes after it.

Together: a batch is decided by its first fatal file, and without one it gives all
outlines and all warnings, in the order of the files.
-/

namespace SourceOutline

namespace Schedule

/-- What has been delivered for a position is the result of the element there. -/
theorem lookup_delivered {α β : Type} {f : α → β} {xs : List α} {order : List Nat} {i : Nat}
    {x : α} (hx : xs[i]? = some x) (hi : i ∈ order) :
    (order.filterMap fun j => xs[j]?.map fun y => (j, f y)).lookup i = some (f x) := by
  induction order with
  | nil => cases hi
  | cons j js ih =>
      by_cases hij : i = j
      · subst hij
        rw [List.filterMap_cons_some (by rw [hx]; rfl), List.lookup_cons_self]
      · have hjs : i ∈ js := List.mem_of_ne_of_mem hij hi
        cases hy : xs[j]? with
        | none =>
            rw [List.filterMap_cons_none (by rw [hy]; rfl)]
            exact ih hjs
        | some y =>
            have hkey : (i == j) = false := beq_false_of_ne hij
            rw [List.filterMap_cons_some (by rw [hy]; rfl), List.lookup_cons, hkey]
            exact ih hjs

/-- Reading all positions of a list in order gives the list. -/
theorem filterMap_range_getElem? {α : Type} (xs : List α) :
    (List.range xs.length).filterMap (fun i => xs[i]?) = xs := by
  induction xs with
  | nil => rfl
  | cons x xs ih =>
      rw [List.length_cons, List.range_succ_eq_map, List.filterMap_cons, List.filterMap_map]
      exact congrArg (x :: ·) ih

/-- Whatever the order in which the workers finish, each result stands at the position of
its element. -/
theorem map_eq_map {α β : Type} (schedule : Schedule) (f : α → β) (xs : List α) :
    schedule.map f xs = xs.map f := by
  cases schedule with
  | sequential => rfl
  | parallel finish complete =>
      have hlookup : ∀ i ∈ List.range xs.length,
          ((finish xs.length).filterMap fun j => xs[j]?.map fun y => (j, f y)).lookup i =
            (xs.map f)[i]? := by
        intro i hi
        have hlt : i < xs.length := List.mem_range.mp hi
        have hx : xs[i]? = some xs[i] := List.getElem?_eq_getElem hlt
        have hdone : i ∈ finish xs.length := (complete xs.length).mem_iff.mpr hi
        rw [lookup_delivered hx hdone, List.getElem?_map, hx]
        rfl
      have hall := filterMap_range_getElem? (xs.map f)
      rw [List.length_map] at hall
      exact (List.filterMap_congr hlookup).trans hall

end Schedule

namespace Batch

/-- Whether the outcome of a file ends the batch: a fault that concerns more than this
file. -/
def isFatal : Except Fault (List Symbol) → Bool
  | .ok _ => false
  | .error fault => !fault.isInputLocal

/-- What a file adds to the results. -/
def outlined? (file : String) : Except Fault (List Symbol) → Option FileOutline
  | .ok symbols => some ⟨file, symbols⟩
  | .error _ => none

/-- The warning with which a file is skipped. -/
def skipped? (file : String) : Except Fault (List Symbol) → Option Warning
  | .ok _ => none
  | .error fault => if fault.isInputLocal then some ⟨file, fault.message⟩ else none

/-- A fatal outcome is a fault that concerns more than one input. -/
theorem exists_fault_of_isFatal {outcome : Except Fault (List Symbol)}
    (h : isFatal outcome = true) :
    ∃ fault, outcome = .error fault ∧ fault.isInputLocal = false := by
  cases outcome with
  | ok symbols => cases h
  | error fault => exact ⟨fault, rfl, by simpa [isFatal] using h⟩

/-- A fault is fatal unless it concerns one input only. -/
theorem isFatal_error (fault : Fault) : isFatal (.error fault) = !fault.isInputLocal :=
  rfl

/-- Files that are not fatal add their outlines and their warnings in front of what the
other files give. -/
theorem gather_append (before rest : List (String × Except Fault (List Symbol)))
    (h : ∀ o ∈ before, isFatal o.2 = false) :
    gather (before ++ rest) =
      { warnings := before.filterMap (fun o => skipped? o.1 o.2) ++ (gather rest).warnings
        result := (gather rest).result.map
          (before.filterMap (fun o => outlined? o.1 o.2) ++ ·) } := by
  induction before with
  | nil =>
      cases hrest : gather rest with
      | mk warnings result => cases result <;> simp [hrest, Except.map]
  | cons o before ih =>
      have hothers := ih fun p hp => h p (List.mem_cons_of_mem o hp)
      obtain ⟨file, outcome⟩ := o
      cases outcome with
      | ok symbols =>
          rw [List.cons_append, gather, hothers]
          cases (gather rest).result <;> simp [skipped?, outlined?, Except.map]
      | error fault =>
          have hlocal : fault.isInputLocal = true := by
            simpa [isFatal] using h _ List.mem_cons_self
          rw [List.cons_append, gather, hothers]
          simp [skipped?, outlined?, hlocal]

/-- The batch is the same under every schedule: the outcomes are gone through in the order
of the files. -/
theorem process_eq_gather (t : FileTree) (language : Language) (options : OutlineOptions)
    (schedule : Schedule) (files : List String) :
    process t language options schedule files =
      gather (files.map fun file => (file, outlineFile t language options file)) := by
  unfold process
  have hzip := List.zip_map' (f := id) (g := outlineFile t language options) (l := files)
  rw [List.map_id] at hzip
  rw [Schedule.map_eq_map, hzip]
  rfl

section

variable {t : FileTree} {language : Language} {options : OutlineOptions} {schedule : Schedule}
  {files : List String}

/-- Without a fatal file, all outlines and all warnings come out. -/
theorem process_of_no_fatal
    (h : ∀ file ∈ files, isFatal (outlineFile t language options file) = false) :
    process t language options schedule files =
      { warnings := files.filterMap fun file =>
          skipped? file (outlineFile t language options file)
        result := .ok (files.filterMap fun file =>
          outlined? file (outlineFile t language options file)) } := by
  have hgather := gather_append
    (files.map fun file => (file, outlineFile t language options file)) [] (by simpa using h)
  rw [List.append_nil] at hgather
  rw [process_eq_gather, hgather]
  simp [gather, Except.map]

/-- The first fatal file gives the fault, and the files before it the warnings. -/
theorem process_of_first_fatal {before after : List String} {file : String} {fault : Fault}
    (hbefore : ∀ f ∈ before, isFatal (outlineFile t language options f) = false)
    (hfile : outlineFile t language options file = .error fault)
    (hfatal : fault.isInputLocal = false) :
    process t language options schedule (before ++ file :: after) =
      { warnings := before.filterMap fun f => skipped? f (outlineFile t language options f)
        result := .error fault } := by
  have hgather := gather_append (before.map fun f => (f, outlineFile t language options f))
    ((file :: after).map fun f => (f, outlineFile t language options f)) (by simpa using hbefore)
  rw [process_eq_gather, List.map_append, hgather, List.map_cons, hfile, gather]
  simp [hfatal, Except.map]

/-- A list of files has no fatal file or a first one. -/
theorem no_fatal_or_first (t : FileTree) (language : Language) (options : OutlineOptions)
    (files : List String) :
    (∀ file ∈ files, isFatal (outlineFile t language options file) = false) ∨
      ∃ before file after fault, files = before ++ file :: after ∧
        (∀ f ∈ before, isFatal (outlineFile t language options f) = false) ∧
        outlineFile t language options file = .error fault ∧ fault.isInputLocal = false := by
  cases hfind : files.find? fun file => isFatal (outlineFile t language options file) with
  | none =>
      left
      simpa using hfind
  | some file =>
      right
      obtain ⟨hfatal, before, after, hfiles, hbefore⟩ := List.find?_eq_some_iff_append.mp hfind
      obtain ⟨fault, hfault, hlocal⟩ := exists_fault_of_isFatal hfatal
      exact ⟨before, file, after, fault, hfiles, by simpa using hbefore, hfault, hlocal⟩

/-- A batch fails with the fault of its first fatal file, and with nothing else. -/
theorem process_result_eq_error_iff {fault : Fault} :
    (process t language options schedule files).result = .error fault ↔
      ∃ before file after, files = before ++ file :: after ∧
        (∀ f ∈ before, isFatal (outlineFile t language options f) = false) ∧
        outlineFile t language options file = .error fault ∧ fault.isInputLocal = false ∧
        (process t language options schedule files).warnings =
          before.filterMap fun f => skipped? f (outlineFile t language options f) := by
  constructor
  · intro hresult
    rcases no_fatal_or_first t language options files with
      hnone | ⟨before, file, after, first, rfl, hbefore, hfile, hfatal⟩
    · rw [process_of_no_fatal hnone] at hresult
      cases hresult
    · rw [process_of_first_fatal hbefore hfile hfatal] at hresult ⊢
      cases hresult
      exact ⟨before, file, after, rfl, hbefore, hfile, hfatal, rfl⟩
  · rintro ⟨before, file, after, rfl, hbefore, hfile, hfatal, -⟩
    rw [process_of_first_fatal hbefore hfile hfatal]

/-- A batch succeeds when no file is fatal, and then with all outlines there are. -/
theorem process_result_eq_ok_iff {results : List FileOutline} :
    (process t language options schedule files).result = .ok results ↔
      (∀ f ∈ files, isFatal (outlineFile t language options f) = false) ∧
        results = files.filterMap (fun f => outlined? f (outlineFile t language options f)) ∧
        (process t language options schedule files).warnings =
          files.filterMap fun f => skipped? f (outlineFile t language options f) := by
  constructor
  · intro hresult
    rcases no_fatal_or_first t language options files with
      hnone | ⟨before, file, after, first, rfl, hbefore, hfile, hfatal⟩
    · rw [process_of_no_fatal hnone] at hresult ⊢
      cases hresult
      exact ⟨hnone, rfl, rfl⟩
    · rw [process_of_first_fatal hbefore hfile hfatal] at hresult
      cases hresult
  · rintro ⟨hnone, rfl, -⟩
    rw [process_of_no_fatal hnone]

/-- A batch fails when some file is fatal, wherever it stands. -/
theorem process_fails_iff :
    (∃ fault, (process t language options schedule files).result = .error fault) ↔
      ∃ file ∈ files, ∃ fault, outlineFile t language options file = .error fault ∧
        fault.isInputLocal = false := by
  constructor
  · rintro ⟨fault, hfault⟩
    obtain ⟨before, file, after, hfiles, _, hfile, hfatal, _⟩ :=
      process_result_eq_error_iff.mp hfault
    exact ⟨file, by simp [hfiles], fault, hfile, hfatal⟩
  · rintro ⟨file, hmem, fault, hfile, hfatal⟩
    cases hresult : (process t language options schedule files).result with
    | error first => exact ⟨first, rfl⟩
    | ok results =>
        have hcalm := (process_result_eq_ok_iff.mp hresult).1 file hmem
        rw [hfile, isFatal_error, hfatal] at hcalm
        cases hcalm

end

end Batch

/-- **What comes of a batch** does not depend on the schedule.  It fails exactly when some
file is fatal, with the fault of the first fatal file and the warnings of the files before
it.  Otherwise it gives the outlines of the files that have one and the warnings of the
others, in the order of the files. -/
theorem process_result_by_order (t : FileTree) (language : Language) (options : OutlineOptions)
    (schedule : Schedule) (files : List String) :
    let outcome := outlineFile t language options
    let batch := Batch.process t language options schedule files
    batch = Batch.process t language options .sequential files ∧
    ((∃ fault, batch.result = .error fault) ↔
      ∃ file ∈ files, ∃ fault, outcome file = .error fault ∧ fault.isInputLocal = false) ∧
    (∀ fault, batch.result = .error fault ↔
      ∃ before file after, files = before ++ file :: after ∧
        (∀ f ∈ before, Batch.isFatal (outcome f) = false) ∧
        outcome file = .error fault ∧ fault.isInputLocal = false ∧
        batch.warnings = before.filterMap fun f => Batch.skipped? f (outcome f)) ∧
    (∀ results, batch.result = .ok results ↔
      (∀ f ∈ files, Batch.isFatal (outcome f) = false) ∧
        results = files.filterMap (fun f => Batch.outlined? f (outcome f)) ∧
        batch.warnings = files.filterMap fun f => Batch.skipped? f (outcome f)) := by
  intro outcome batch
  have hschedule : batch = Batch.process t language options .sequential files := by
    rw [Batch.process_eq_gather]
    exact Batch.process_eq_gather t language options schedule files
  exact ⟨hschedule, Batch.process_fails_iff, fun fault => Batch.process_result_eq_error_iff,
    fun results => Batch.process_result_eq_ok_iff⟩

end SourceOutline
