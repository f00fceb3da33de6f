import SourceOutline.Language.Toy
import SourceOutline.Proofs.Batch.Outcomes
import SourceOutline.Proofs.Discovery.Sorting
import SourceOutline.Proofs.FileTree.Lookup
import SourceOutline.Run

/-!
# What a run makes of its inputs

A run takes its inputs as a set: neither their order, nor repetitions, nor the schedule
can be seen in its report or its fault.  Warnings come in the order of the inputs, and again
for an input that is given again; they are the same as a set.  Inputs that only lead to
skipped files leave no trace in the report either, not even when the report is on a single
file.

The reason is the same both times.  The files of a run are an increasing list, so they
are determined by their members, and so are the results among them.
-/

namespace SourceOutline

namespace Discovery

/-- What is found depends on the inputs as a set. -/
theorem found_congr (t : FileTree) (search : Search) {inputs others : List String}
    (h : ∀ p, p ∈ inputs ↔ p ∈ others) : found t search inputs = found t search others := by
  apply sortPaths_congr
  intro p
  simp only [List.mem_flatMap, h]

/-- What is passed over on the way depends on the inputs as a set. -/
theorem mem_warnings_congr (t : FileTree) (search : Search) {inputs others : List String}
    (h : ∀ p, p ∈ inputs ↔ p ∈ others) (w : Warning) :
    w ∈ (discover t search inputs).warnings ↔ w ∈ (discover t search others).warnings := by
  simp only [discover, List.mem_flatMap, h]

/-- An input that is no directory stands for itself or for nothing. -/
theorem eq_of_mem_filesOf {t : FileTree} {search : Search} {input p : String}
    (hinput : t.directory? input = none) (h : p ∈ filesOf t search input) : p = input := by
  simp only [filesOf, findings, hinput] at h
  split at h
  · exact (List.mem_singleton.mp h).trans (Path.text_ofText input)
  · cases h

/-- What is found for more inputs. -/
theorem mem_found_append {t : FileTree} {search : Search} {inputs others : List String}
    {p : String} :
    p ∈ found t search (inputs ++ others) ↔
      p ∈ found t search inputs ∨ p ∈ found t search others := by
  simp only [mem_found, List.mem_append, or_and_right, exists_or]

/-- What is found for inputs that are no directories is among them. -/
theorem mem_of_mem_found {t : FileTree} {search : Search} {inputs : List String} {p : String}
    (hinputs : ∀ input ∈ inputs, t.directory? input = none) (h : p ∈ found t search inputs) :
    p ∈ inputs := by
  obtain ⟨input, hinput, hp⟩ := mem_found.mp h
  rw [eq_of_mem_filesOf (hinputs input hinput) hp]
  exact hinput

end Discovery

open Discovery

section

variable {t : FileTree} {language : Language} {inputs : List String} {outline : OutlineOptions}
  {recursive : Bool} {schedule : Schedule} {files : List String}

/-- A run that finds nothing says so. -/
theorem run_of_nothing_found (h : found t ⟨language.extensions, recursive⟩ inputs = []) :
    run t language ⟨inputs, outline, recursive, schedule⟩ =
      { warnings := (discover t ⟨language.extensions, recursive⟩ inputs).warnings
        result := .error (nothingFound inputs) } := by
  simp only [run, discover_of_found_eq_nil h]

/-- A run that finds files is decided by their batch. -/
theorem run_of_found (h : found t ⟨language.extensions, recursive⟩ inputs = files)
    (hne : files ≠ []) :
    run t language ⟨inputs, outline, recursive, schedule⟩ =
      { warnings := (discover t ⟨language.extensions, recursive⟩ inputs).warnings ++
          (Batch.process t language outline schedule files).warnings
        result := (Batch.process t language outline schedule files).result.map Report.render } := by
  subst h
  simp only [run, discover_of_found_ne_nil hne]

/-- A run succeeds when something is found and nothing of it is fatal, and then reports all
outlines there are. -/
theorem run_result_eq_ok_iff (h : found t ⟨language.extensions, recursive⟩ inputs = files)
    {text : String} :
    (run t language ⟨inputs, outline, recursive, schedule⟩).result = .ok text ↔
      files ≠ [] ∧ (∀ f ∈ files, Batch.isFatal (outlineFile t language outline f) = false) ∧
        text = Report.render
          (files.filterMap fun f => Batch.outlined? f (outlineFile t language outline f)) := by
  by_cases hne : files = []
  · rw [run_of_nothing_found (h.trans hne)]
    exact ⟨nofun, fun hfiles => absurd hne hfiles.1⟩
  · rw [run_of_found h hne]
    constructor
    · intro htext
      cases hresult : (Batch.process t language outline schedule files).result with
      | error fault =>
          rw [hresult] at htext
          cases htext
      | ok results =>
          rw [hresult] at htext
          cases htext
          obtain ⟨hnone, hresults, _⟩ := Batch.process_result_eq_ok_iff.mp hresult
          exact ⟨hne, hnone, by rw [hresults]⟩
    · rintro ⟨_, hnone, rfl⟩
      rw [Batch.process_of_no_fatal hnone]
      rfl

/-- Runs that find something have the same result and the same warnings on the same inputs,
whatever the schedules. -/
theorem run_congr {others : List String} {schedule' : Schedule}
    (hsame : ∀ p, p ∈ inputs ↔ p ∈ others)
    (hne : found t ⟨language.extensions, recursive⟩ inputs ≠ []) :
    let first := run t language ⟨inputs, outline, recursive, schedule⟩
    let second := run t language ⟨others, outline, recursive, schedule'⟩
    first.result = second.result ∧ ∀ w, w ∈ first.warnings ↔ w ∈ second.warnings := by
  intro first second
  have hfiles := found_congr t ⟨language.extensions, recursive⟩ hsame
  have hfirst : first = _ := run_of_found rfl hne
  have hsecond : second = _ := run_of_found hfiles.symm hne
  rw [hfirst, hsecond, Batch.process_eq_gather, Batch.process_eq_gather]
  refine ⟨rfl, fun w => ?_⟩
  rw [List.mem_append, List.mem_append, mem_warnings_congr t _ hsame]

/-- Further inputs leave a report as it is when all their files are skipped. -/
theorem run_result_append {skipped : List String} {schedule' : Schedule} {text : String}
    (hskipped : ∀ p ∈ skipped, t.directory? p = none ∧
      ∃ fault, outlineFile t language outline p = .error fault ∧ fault.isInputLocal = true)
    (htext : (run t language ⟨inputs, outline, recursive, schedule⟩).result = .ok text) :
    (run t language ⟨inputs ++ skipped, outline, recursive, schedule'⟩).result = .ok text := by
  obtain ⟨hne, hnone, rfl⟩ := (run_result_eq_ok_iff rfl).mp htext
  have hnew : ∀ p ∈ found t ⟨language.extensions, recursive⟩ skipped,
      ∃ fault, outlineFile t language outline p = .error fault ∧ fault.isInputLocal = true :=
    fun p hp => (hskipped p (mem_of_mem_found (fun q hq => (hskipped q hq).1) hp)).2
  refine (run_result_eq_ok_iff rfl).mpr ⟨?_, ?_, ?_⟩
  · obtain ⟨p, hp⟩ := List.exists_mem_of_ne_nil _ hne
    exact List.ne_nil_of_mem (mem_found_append.mpr (.inl hp))
  · intro p hp
    rcases mem_found_append.mp hp with hp | hp
    · exact hnone p hp
    · obtain ⟨fault, hfault, hlocal⟩ := hnew p hp
      rw [hfault, Batch.isFatal_error, hlocal]
      rfl
  · -- Both lists of files are increasing, and they differ in skipped files only.
    congr 1
    apply filterMap_eq_of_pairwise pairwise_found pairwise_found
    intro p hp
    refine ⟨fun hold => mem_found_append.mpr (.inl hold), fun hall => ?_⟩
    rcases mem_found_append.mp hall with hold | hadded
    · exact hold
    · obtain ⟨fault, hfault, _⟩ := hnew p hadded
      rw [hfault] at hp
      exact absurd rfl hp

end

/-- **A run takes its inputs as a set.**  Two runs on the same inputs, in any order and
under any schedules, give the same report or fault; only the fault of finding nothing names
the inputs as they were given.  Their warnings are the same as a set.  Further inputs whose
files are skipped leave a report as it is. -/
theorem run_takes_inputs_as_set (t : FileTree) (language : Language) (outline : OutlineOptions)
    (recursive : Bool) :
    (∀ (inputs others : List String) (schedule schedule' : Schedule),
      (∀ p, p ∈ inputs ↔ p ∈ others) →
      let first := run t language ⟨inputs, outline, recursive, schedule⟩
      let second := run t language ⟨others, outline, recursive, schedule'⟩
      ((∃ text, first.result = .ok text ∧ second.result = .ok text) ∨
        (∃ fault, first.result = .error fault ∧ second.result = .error fault) ∨
        (first.result = .error (nothingFound inputs) ∧
          second.result = .error (nothingFound others))) ∧
      ∀ w, w ∈ first.warnings ↔ w ∈ second.warnings) ∧
    (∀ (inputs skipped : List String) (schedule schedule' : Schedule) (text : String),
      (∀ p ∈ skipped, t.directory? p = none ∧
        ∃ fault, outlineFile t language outline p = .error fault ∧ fault.isInputLocal = true) →
      (run t language ⟨inputs, outline, recursive, schedule⟩).result = .ok text →
      (run t language ⟨inputs ++ skipped, outline, recursive, schedule'⟩).result = .ok text) := by
  constructor
  · intro inputs others schedule schedule' hsame first second
    by_cases hne : found t ⟨language.extensions, recursive⟩ inputs = []
    · have hnone := (found_congr t ⟨language.extensions, recursive⟩ hsame).symm.trans hne
      have hfirst : first = _ := run_of_nothing_found hne
      have hsecond : second = _ := run_of_nothing_found hnone
      rw [hfirst, hsecond]
      exact ⟨.inr (.inr ⟨rfl, rfl⟩), mem_warnings_congr t _ hsame⟩
    · obtain ⟨hresult, hwarnings⟩ := run_congr hsame hne
      refine ⟨?_, hwarnings⟩
      cases hfirst : first.result with
      | ok text => exact .inl ⟨text, rfl, hresult.symm.trans hfirst⟩
      | error fault => exact .inr (.inl ⟨fault, rfl, hresult.symm.trans hfirst⟩)
  · intro inputs skipped schedule schedule' text hskipped htext
    exact run_result_append hskipped htext

/-- Below the current directory a source that can be outlined, two whose outline fails, and
one that cannot be read. -/
def skippingSample : FileTree :=
  { top := { entries := [.directory "home" {}
      [.file "a.toy" {} (Utf8.encode "x".toList),
        .file "b.toy" {} (Utf8.encode "!ParseFailed y".toList),
        .file "c.toy" {} (Utf8.encode "!EncodingError z".toList),
        .file "d.toy" { read := false } (Utf8.encode "x".toList)]] }
    current := ["home"] }

/-- Workers that finish in the opposite order of the files. -/
def Schedule.backwards : Schedule :=
  .parallel (fun n => (List.range n).reverse) fun n => (List.range n).reverse_perm

/-- The other three inputs are skipped, whether they are given by a relative or an absolute path.
-/
theorem skippingSample_skips : ∀ p ∈ ["b.toy", "../home/c.toy", "/home/d.toy"],
    skippingSample.directory? p = none ∧
      ∃ fault, outlineFile skippingSample Toy.language {} p = .error fault ∧
        fault.isInputLocal = true := by
  have hb : skippingSample.read "b.toy" = .ok (Utf8.encode "!ParseFailed y".toList) := rfl
  have hc : skippingSample.read "../home/c.toy" = .ok (Utf8.encode "!EncodingError z".toList) :=
    rfl
  have hd : skippingSample.read "/home/d.toy" = .error (.numbered .accessDenied) := rfl
  intro p hp
  simp only [List.mem_cons, List.not_mem_nil, or_false] at hp
  obtain rfl | rfl | rfl := hp
  · refine ⟨rfl, ?_⟩
    simp only [outlineFile, hb]
    exact ⟨_, rfl, rfl⟩
  · refine ⟨rfl, ?_⟩
    simp only [outlineFile, hc]
    exact ⟨_, rfl, rfl⟩
  · refine ⟨rfl, ?_⟩
    simp only [outlineFile, hd]
    exact ⟨_, rfl, rfl⟩

/-- Skipped inputs leave the report as it is, and repetitions give no other warnings. -/
theorem skippingSample_same_report :
    let skipped := ["b.toy", "../home/c.toy", "/home/d.toy"]
    ∃ text,
      (run skippingSample Toy.language ⟨["a.toy"], {}, false, .sequential⟩).result = .ok text ∧
      (run skippingSample Toy.language ⟨["a.toy"] ++ skipped, {}, false, .backwards⟩).result =
        .ok text ∧
      ∀ w,
        w ∈ (run skippingSample Toy.language ⟨["a.toy", "b.toy"], {}, false, .backwards⟩).warnings ↔
          w ∈ (run skippingSample Toy.language ⟨["b.toy", "a.toy", "b.toy"], {}, false,
            .inOrder⟩).warnings := by
  intro skipped
  have hset := run_takes_inputs_as_set skippingSample Toy.language {} false
  have hfound : found skippingSample ⟨Toy.language.extensions, false⟩ ["a.toy"] = ["a.toy"] := by
    decide +kernel
  have hread : skippingSample.read "a.toy" = .ok (Utf8.encode "x".toList) := rfl
  have halone : ∃ text, (run skippingSample Toy.language
      ⟨["a.toy"], {}, false, .sequential⟩).result = .ok text := by
    refine ⟨_, (run_result_eq_ok_iff hfound).mpr ⟨List.cons_ne_nil _ _, ?_, rfl⟩⟩
    intro file hfile
    cases List.mem_singleton.mp hfile
    simp only [outlineFile, hread]
    rfl
  have hsame : ∀ p, p ∈ ["a.toy", "b.toy"] ↔ p ∈ ["b.toy", "a.toy", "b.toy"] := by
    intro p
    simp only [List.mem_cons, List.not_mem_nil, or_false]
    tauto
  obtain ⟨text, htext⟩ := halone
  refine ⟨text, htext, hset.2 _ _ _ _ text skippingSample_skips htext, ?_⟩
  exact (hset.1 _ _ _ _ hsame).2

end SourceOutline
