import SourceOutline.CommandLine
import SourceOutline.Proofs.FileTree.Writing
import SourceOutline.Proofs.Run.Inputs

/-!
# A run delivers all or nothing

A run goes through its stages in order: the language is checked, the files are found, they are
outlined, the report is put into words, and only then is anything delivered.

1.  A stage that fails is the first one to do so (`FirstFailure`), and it is all that comes of
    the run: a message, after all warnings, and no other trace.  Putting a report into words
    cannot fail.
2.  A report goes to one place (`Delivered`).  What is written is there, and leaves everything
    but the output file as it was (`FileTree.Written`).
-/

namespace SourceOutline.CommandLine

/-- What the files of a run are looked for by. -/
def Arguments.search (a : Arguments) (language : Language) : Discovery.Search :=
  ⟨language.extensions, a.has .recursive⟩

/-- What comes of one file of a run. -/
def Arguments.outcomeOf (a : Arguments) (t : FileTree) (language : Language) (file : String) :
    Except Fault (List Symbol) :=
  outlineFile t language a.runOptions.outline file

/-- What comes of the files of a run. -/
def Arguments.batchOf (a : Arguments) (t : FileTree) (language : Language)
    (files : List String) : Outcome (List FileOutline) :=
  Batch.process t language a.runOptions.outline a.runOptions.schedule files

/-- A stage of a run fails with a fault, all stages before it having succeeded. -/
inductive FirstFailure (t : FileTree) (language : Language) (a : Arguments) : Fault → Prop where
  | language :
      a.languageName ≠ language.name →
      FirstFailure t language a (.unsupportedLanguage a.languageName)
  | discovery :
      a.languageName = language.name →
      (∀ input ∈ a.paths, Discovery.filesOf t (a.search language) input = []) →
      FirstFailure t language a (Discovery.nothingFound a.paths)
  | batch {before after : List String} {file : String} {fault : Fault} :
      a.languageName = language.name →
      (Discovery.discover t (a.search language) a.paths).result = .ok (before ++ file :: after) →
      (∀ f ∈ before, Batch.isFatal (a.outcomeOf t language f) = false) →
      a.outcomeOf t language file = .error fault → fault.isInputLocal = false →
      FirstFailure t language a fault

/-- The text has gone to one place: to standard output, or to the file of the path, where it
is found afterwards. -/
def Delivered (t : FileTree) (text : String) (effect : Effect) : Option String → Prop
  | none => effect.stdout = text ∧ effect.files = t
  | some path =>
    effect.stdout = "" ∧ ∃ location access,
      t.Written effect.files location access (Utf8.encode text.toList) ∧
        effect.files.LeadsToFile path location access (Utf8.encode text.toList)

/-- Standard error ends with the message of a fault. -/
def Effect.EndsWith (effect : Effect) (fault : Fault) : Prop :=
  ∃ before, effect.stderr = before ++ ("Error: " ++ fault.message ++ "\n")

section

variable {t : FileTree} {language : Language} {a : Arguments} {fault : Fault} {text : String}

/-- The program for a language runs when no other one is asked for. -/
theorem report_of_supported (h : a.languageName = language.name) :
    report t language a = run t language a.runOptions :=
  if_pos h

/-- Any other language is refused. -/
theorem report_of_unsupported (h : a.languageName ≠ language.name) :
    report t language a = { result := .error (.unsupportedLanguage a.languageName) } :=
  if_neg h

/-- A run that finds files is decided by their batch. -/
theorem result_of_files {files : List String}
    (hfiles : Discovery.found t (a.search language) a.paths = files) (hne : files ≠ []) :
    (run t language a.runOptions).result =
      (a.batchOf t language files).result.map Report.render := by
  have hrun : run t language a.runOptions = _ := run_of_found hfiles hne
  exact congrArg Outcome.result hrun

/-- Putting a report into words does not fail. -/
theorem result_of_map_render {result : Except Fault (List FileOutline)}
    (h : result.map Report.render = .error fault) : result = .error fault := by
  cases result with
  | ok results => cases h
  | error first =>
      cases h
      rfl

/-- The report of a run fails where a first stage fails, and nowhere else. -/
theorem report_eq_error_iff :
    (report t language a).result = .error fault ↔ FirstFailure t language a fault := by
  constructor
  · intro h
    by_cases hname : a.languageName = language.name
    · rw [report_of_supported hname] at h
      by_cases hfound : Discovery.found t (a.search language) a.paths = []
      · have hrun : run t language a.runOptions = _ := run_of_nothing_found hfound
        cases (congrArg Outcome.result hrun).symm.trans h
        exact .discovery hname (Discovery.found_eq_nil_iff.mp hfound)
      · rw [result_of_files rfl hfound] at h
        obtain ⟨before, file, after, hfiles, hbefore, hfile, hfatal, -⟩ :=
          Batch.process_result_eq_error_iff.mp (result_of_map_render h)
        have hdiscovered : (Discovery.discover t (a.search language) a.paths).result =
            .ok (before ++ file :: after) := by
          rw [← hfiles]
          exact Discovery.discover_of_found_ne_nil hfound
        exact .batch hname hdiscovered hbefore hfile hfatal
    · rw [report_of_unsupported hname] at h
      cases h
      exact .language hname
  · intro h
    cases h with
    | language hname => exact congrArg Outcome.result (report_of_unsupported hname)
    | discovery hname hnone =>
        rw [report_of_supported hname]
        exact congrArg Outcome.result (run_of_nothing_found (Discovery.found_eq_nil_iff.mpr hnone))
    | batch hname hfiles hbefore hfile hfatal =>
        have hfound := (Discovery.discover_eq_ok_iff.mp hfiles).2.symm
        rw [report_of_supported hname, result_of_files hfound (by simp), Arguments.batchOf,
          Batch.process_of_first_fatal hbefore hfile hfatal]
        rfl

/-- Without a report there are the warnings and the message. -/
theorem perform_of_error (h : (report t language a).result = .error fault) :
    perform t language a =
      { exitCode := 1, stderr := errorLines (report t language a).warnings (some fault),
        files := t } := by
  simp only [perform, h]
  rfl

/-- With a report, delivering it decides. -/
theorem perform_of_ok (h : (report t language a).result = .ok text) :
    perform t language a =
      match deliver t a text with
      | .ok (stdout, files) =>
        { exitCode := 0, stdout, stderr := errorLines (report t language a).warnings none, files }
      | .error fault =>
        { exitCode := 1, stderr := errorLines (report t language a).warnings (some fault),
          files := t } := by
  simp only [perform, h]
  rfl

/-- What is delivered has gone to one place. -/
theorem delivered_of_deliver {stdout stderr : String} {files : FileTree} {exitCode : Nat}
    (h : deliver t a text = .ok (stdout, files)) :
    Delivered t (text ++ "\n") { exitCode, stdout, stderr, files } a.output := by
  simp only [deliver] at h
  split at h
  · next houtput =>
    cases h
    rw [houtput]
    exact ⟨rfl, rfl⟩
  · next path houtput =>
    split at h
    · next hwrite =>
      cases h
      rw [houtput]
      exact ⟨rfl, FileTree.written_of_write hwrite⟩
    · cases h

/-- A report is not delivered when its file cannot be written. -/
theorem write_of_deliver (h : deliver t a text = .error fault) :
    ∃ path e, a.output = some path ∧
      t.write path (Utf8.encode (text ++ "\n").toList) = .error e := by
  simp only [deliver] at h
  split at h
  · cases h
  · next path houtput =>
    split at h
    · cases h
    · next e hwrite => exact ⟨path, e, houtput, hwrite⟩

/-- A report is that of a run, in a supported language. -/
theorem run_of_report (h : (report t language a).result = .ok text) :
    a.languageName = language.name ∧ (run t language a.runOptions).result = .ok text := by
  by_cases hname : a.languageName = language.name
  · rw [report_of_supported hname] at h
    exact ⟨hname, h⟩
  · rw [report_of_unsupported hname] at h
    cases h

/-- What comes of a first failure. -/
theorem perform_of_firstFailure (h : FirstFailure t language a fault) :
    (perform t language a).exitCode = 1 ∧ (perform t language a).stdout = "" ∧
      (perform t language a).files = t ∧ (perform t language a).EndsWith fault := by
  rw [perform_of_error (report_eq_error_iff.mpr h)]
  exact ⟨rfl, rfl, rfl, _, rfl⟩

end

/-- What the arguments ask for comes to one of three ends: a first failure, a report that is
delivered, or a report whose file cannot be written. -/
theorem perform_cases (t : FileTree) (language : Language) (a : Arguments) :
    let effect := perform t language a
    (∃ fault, FirstFailure t language a fault ∧ effect.exitCode = 1 ∧ effect.stdout = "" ∧
      effect.files = t) ∨
    (∃ text, a.languageName = language.name ∧
      (run t language a.runOptions).result = .ok text ∧ effect.exitCode = 0 ∧
      Delivered t (text ++ "\n") effect a.output) ∨
    (∃ text path e, (run t language a.runOptions).result = .ok text ∧ a.output = some path ∧
      t.write path (Utf8.encode (text ++ "\n").toList) = .error e ∧ effect.exitCode = 1 ∧
      effect.stdout = "" ∧ effect.files = t) := by
  intro effect
  cases hreport : (report t language a).result with
  | error fault =>
      left
      have hfirst := report_eq_error_iff.mp hreport
      obtain ⟨hexit, hstdout, hfiles, -⟩ := perform_of_firstFailure hfirst
      exact ⟨fault, hfirst, hexit, hstdout, hfiles⟩
  | ok text =>
      right
      obtain ⟨hname, hrun⟩ := run_of_report hreport
      have heffect : effect = _ := perform_of_ok hreport
      cases hdeliver : deliver t a text with
      | ok places =>
          left
          rw [hdeliver] at heffect
          rw [heffect]
          exact ⟨text, hname, hrun, rfl, delivered_of_deliver hdeliver⟩
      | error fault =>
          right
          obtain ⟨path, e, houtput, hwrite⟩ := write_of_deliver hdeliver
          rw [hdeliver] at heffect
          rw [heffect]
          exact ⟨text, path, e, hrun, houtput, hwrite, rfl, rfl, rfl⟩

/-- **A run delivers all or nothing**, for every command line that is accepted, every file tree
and every language; `execute` is the case of Swift.

1.  It ends with exit code 0 or 1.
2.  With 0, the report of the run and a line ending have gone to one place.
3.  When a stage fails, the exit code is 1, nothing is on standard output, no file is new or
    changed, and standard error ends with the message of the first stage that failed.
4.  The exit code is 1 for no other reason than that or a file that cannot be written, and
    there are no other traces then either.
5.  A language that is not supported is refused before any input is looked at: the same comes
    of it in every tree. -/
theorem execute_all_or_nothing (t : FileTree) (language : Language) {arguments : List String}
    {a : Arguments} (haccepted : parse arguments = .ok a) :
    let effect := executeFor t language arguments
    (effect.exitCode = 0 ∨ effect.exitCode = 1) ∧
    (effect.exitCode = 0 → ∃ text, a.languageName = language.name ∧
      (run t language a.runOptions).result = .ok text ∧
      Delivered t (text ++ "\n") effect a.output) ∧
    (∀ fault, FirstFailure t language a fault →
      effect.exitCode = 1 ∧ effect.stdout = "" ∧ effect.files = t ∧ effect.EndsWith fault) ∧
    (effect.exitCode = 1 → effect.stdout = "" ∧ effect.files = t ∧
      ((∃ fault, FirstFailure t language a fault) ∨
        ∃ text path e, (run t language a.runOptions).result = .ok text ∧
          a.output = some path ∧
          t.write path (Utf8.encode (text ++ "\n").toList) = .error e)) ∧
    (a.languageName ≠ language.name → ∀ (t' : FileTree) (language' : Language),
      language'.name = language.name →
      executeFor t' language' arguments = { effect with files := t' }) := by
  intro effect
  have hexecute : ∀ (t' : FileTree) (language' : Language),
      executeFor t' language' arguments = perform t' language' a := by
    intro t' language'
    rw [executeFor, haccepted]
  have heffect : effect = perform t language a := hexecute t language
  rw [heffect]
  have hcases := perform_cases t language a
  refine ⟨?_, ?_, ?_, ?_, ?_⟩
  · rcases hcases with ⟨_, _, hexit, _⟩ | ⟨_, _, _, hexit, _⟩ | ⟨_, _, _, _, _, _, hexit, _⟩
    · exact .inr hexit
    · exact .inl hexit
    · exact .inr hexit
  · intro hzero
    rcases hcases with ⟨_, _, hexit, _⟩ | ⟨text, hname, hrun, _, hplace⟩ |
      ⟨_, _, _, _, _, _, hexit, _⟩
    · omega
    · exact ⟨text, hname, hrun, hplace⟩
    · omega
  · exact fun fault hfirst => perform_of_firstFailure hfirst
  · intro hone
    rcases hcases with ⟨fault, hfirst, _, hstdout, hfiles⟩ | ⟨_, _, _, hexit, _⟩ |
      ⟨text, path, e, hrun, houtput, hwrite, _, hstdout, hfiles⟩
    · exact ⟨hstdout, hfiles, .inl ⟨fault, hfirst⟩⟩
    · omega
    · exact ⟨hstdout, hfiles, .inr ⟨text, path, e, hrun, houtput, hwrite⟩⟩
  · intro hname t' language' hsame
    have hname' : a.languageName ≠ language'.name := hsame ▸ hname
    rw [hexecute, perform_of_error (congrArg Outcome.result (report_of_unsupported hname)),
      perform_of_error (congrArg Outcome.result (report_of_unsupported hname')),
      report_of_unsupported hname, report_of_unsupported hname']

/-- Below the current directory a source, one that is skipped, one that ends the batch, and a
link to an old report in another directory. -/
def deliverySample : FileTree :=
  { top := { entries :=
      [.directory "home" {}
        [.file "a.toy" {} (Utf8.encode "x".toList),
          .file "b.toy" {} (Utf8.encode "!ParseFailed odd".toList),
          .file "c.toy" {} (Utf8.encode "!Unexpected boom".toList),
          .link "out" "/reports/old.json"],
        .directory "reports" {} [.file "old.json" {} (Utf8.encode "old".toList)]] }
    current := ["home"] }

/-- The first source alone has a report. -/
theorem deliverySample_run :
    ∃ text, (run deliverySample Toy.language ⟨["a.toy"], {}, false, .inOrder⟩).result =
      .ok text := by
  have hread : deliverySample.read "a.toy" = .ok (Utf8.encode "x".toList) := rfl
  have hfound : Discovery.found deliverySample ⟨Toy.language.extensions, false⟩ ["a.toy"] =
      ["a.toy"] := by
    decide +kernel
  refine ⟨_, (run_result_eq_ok_iff hfound).mpr ⟨List.cons_ne_nil _ _, ?_, rfl⟩⟩
  intro f hf
  cases List.mem_singleton.mp hf
  simp only [outlineFile, hread]
  rfl

/-- The third source ends the batch, after the second one has been skipped. -/
theorem deliverySample_firstFailure :
    FirstFailure deliverySample Toy.language ⟨["c.toy", "b.toy"], [], some "toy", some "out"⟩
      (((Fault.plain .unexpected "boom").withOperation "toy::outline").withContext
        "path" "c.toy") := by
  have hb : deliverySample.read "b.toy" = .ok (Utf8.encode "!ParseFailed odd".toList) := rfl
  have hc : deliverySample.read "c.toy" = .ok (Utf8.encode "!Unexpected boom".toList) := rfl
  have hfound : Discovery.found deliverySample ⟨["toy", "ty"], false⟩ ["c.toy", "b.toy"] =
      ["b.toy"] ++ "c.toy" :: [] := by
    decide +kernel
  have hdiscovered := Discovery.discover_eq_ok_iff.mpr ⟨hfound ▸ List.cons_ne_nil _ _, hfound.symm⟩
  refine .batch rfl hdiscovered ?_ ?_ rfl
  · intro f hf
    cases List.mem_singleton.mp hf
    simp only [Arguments.outcomeOf, outlineFile, hb]
    rfl
  · simp only [Arguments.outcomeOf, outlineFile, hc]
    rfl

/-- One command line delivers, one fails in its batch, and one is refused. -/
theorem deliverySample_all_or_nothing :
    let delivered :=
      executeFor deliverySample Toy.language ["--lang=toy", "a.toy", "-o", "out"]
    let failed :=
      executeFor deliverySample Toy.language ["c.toy", "-oout", "b.toy", "--lang", "toy"]
    let refused := execute deliverySample (fun _ => none) ["a.swift", "--lang=toy"]
    (∃ text, (run deliverySample Toy.language ⟨["a.toy"], {}, false, .inOrder⟩).result = .ok text ∧
      delivered.exitCode = 0 ∧ Delivered deliverySample (text ++ "\n") delivered (some "out")) ∧
    (failed.exitCode = 1 ∧ failed.stdout = "" ∧ failed.files = deliverySample ∧
      ∃ before, failed.stderr = before ++ "Error: boom\n") ∧
    refused.exitCode = 1 ∧ ∃ before, refused.stderr =
      before ++ "Error: language 'toy' is not supported\n" := by
  intro delivered failed refused
  refine ⟨?_, ?_, ?_⟩
  · have haccepted : parse ["--lang=toy", "a.toy", "-o", "out"] =
        .ok ⟨["a.toy"], [], some "toy", some "out"⟩ := rfl
    have hall := execute_all_or_nothing deliverySample Toy.language haccepted
    -- There is a report and its file can be written, so nothing makes the exit code 1.
    have hexit : delivered.exitCode = 0 := by
      refine hall.1.resolve_right fun hone => ?_
      obtain ⟨-, -, ⟨fault, hfirst⟩ | ⟨text, path, e, -, houtput, hwrite⟩⟩ := hall.2.2.2.1 hone
      · have hfailed := report_eq_error_iff.mpr hfirst
        rw [report_of_supported rfl] at hfailed
        obtain ⟨text, hrun⟩ := deliverySample_run
        cases hrun.symm.trans hfailed
      · cases houtput
        cases hwrite
    obtain ⟨text, -, hrun, hdelivered⟩ := hall.2.1 hexit
    exact ⟨text, hrun, hexit, hdelivered⟩
  · have haccepted : parse ["c.toy", "-oout", "b.toy", "--lang", "toy"] =
        .ok ⟨["c.toy", "b.toy"], [], some "toy", some "out"⟩ := rfl
    have hall := execute_all_or_nothing deliverySample Toy.language haccepted
    exact hall.2.2.1 _ deliverySample_firstFailure
  · have haccepted : parse ["a.swift", "--lang=toy"] =
        .ok ⟨["a.swift"], [], some "toy", none⟩ := rfl
    have hall := execute_all_or_nothing deliverySample (Swift.language fun _ => none) haccepted
    obtain ⟨hexit, -, -, hstderr⟩ := hall.2.2.1 _ (.language (by decide))
    exact ⟨hexit, hstderr⟩

/-- The report is written where the link leads. -/
example :
    let effect := executeFor deliverySample Toy.language ["--lang=toy", "a.toy", "-o", "out"]
    (deliverySample.changesSince effect.files).map Prod.fst =
      ([["reports", "old.json"]] : List Location) := by
  decide +kernel

end SourceOutline.CommandLine
