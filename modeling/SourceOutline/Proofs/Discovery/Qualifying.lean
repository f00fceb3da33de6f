import SourceOutline.Proofs.Discovery.Sorting
import SourceOutline.Proofs.FileTree.Lookup

/-!
# Which files are found

Where no ignore file applies, what is found can be said without a scan.  A path qualifies
when it is an input that is a file, or the path of a file below an input directory to
which no hidden name leads; the file is one of the directory's own entries unless the
search is recursive.  A scan finds these, with one restriction: what is in a directory that
cannot be listed is not found (`Listed`).  Paths are compared as bytes and given as text.

An ignore file applies when one of its rules speaks of an entry that a scan meets
(`ruleFree`).  There is none in a tree without entries that could hold rules
(`ruleFree_of_plain`).
-/

namespace SourceOutline

open FileTree (Trail Way)

namespace Discovery

/-! ## Where no ignore file applies -/

mutual

/-- Whether no rule speaks of an entry, nor of anything below it.  Hidden directories are not
entered. -/
def ruleFreeEntry (t : FileTree) (directory : Path) (levels : List Level) : Entry → Bool
  | .file name _ _ => (verdict? levels (Path.join directory name) name false).isNone
  | .link .. => true
  | .directory name _ entries =>
    let path := Path.join directory name
    (verdict? levels path name true).isNone &&
      (Path.isHidden name || ruleFreeEntries t path (enter t levels path name entries) entries)

/-- Whether no rule speaks of several entries, nor of anything below them. -/
def ruleFreeEntries (t : FileTree) (directory : Path) (levels : List Level) :
    List Entry → Bool
  | [] => true
  | e :: es => ruleFreeEntry t directory levels e && ruleFreeEntries t directory levels es

end

/-- Whether no ignore file applies to what is below an input. -/
def ruleFree (t : FileTree) (input : String) : Bool :=
  match t.directory? input with
  | some trail => ruleFreeEntries t input (levelsOf t input trail) (t.directoryAt trail).entries
  | none => true

/-- The entries from which rules are read. -/
def ruleFiles : List Path :=
  [".ignore", ".gitignore", ".git"]

mutual

/-- Whether there is nothing at or below an entry from which rules are read. -/
def plainEntry : Entry → Bool
  | .file name _ _ => !ruleFiles.contains name
  | .link name _ => !ruleFiles.contains name
  | .directory name _ entries => !ruleFiles.contains name && plainEntries entries

/-- Whether there is nothing among several entries, or below them, from which rules are
read. -/
def plainEntries : List Entry → Bool
  | [] => true
  | e :: es => plainEntry e && plainEntries es

end

/-- Among entries without rules every entry is one without. -/
theorem plainEntry_of_mem {e : Entry} {entries : List Entry} (h : plainEntries entries = true)
    (he : e ∈ entries) : plainEntry e = true := by
  induction entries with
  | nil => cases he
  | cons f entries ih =>
      rw [plainEntries, Bool.and_eq_true] at h
      rcases List.mem_cons.mp he with rfl | he
      · exact h.1
      · exact ih h.2 he

/-- Below a directory without rules there are none either. -/
theorem plainEntries_passesDown : FileTree.PassesDown fun es => plainEntries es = true := by
  intro entries name access sub h hsub
  have hentry := plainEntry_of_mem h hsub
  rw [plainEntry, Bool.and_eq_true] at hentry
  exact hentry.2

/-- Among entries without rules none has the name of a file with rules. -/
theorem find?_of_plain {name : Path} {entries : List Entry} (h : plainEntries entries = true)
    (hname : name ∈ ruleFiles) : FileTree.find? entries name = none := by
  apply List.find?_eq_none.mpr
  intro e he heq
  have hplain := plainEntry_of_mem h he
  have hcontains : ruleFiles.contains e.name = true := by
    rw [of_decide_eq_true heq]
    exact List.contains_iff_mem.mpr hname
  cases e <;> simp_all [plainEntry, Entry.name]

/-- A directory that brings no rules. -/
def Level.IsBare (level : Level) : Prop :=
  level.ignore = [] ∧ level.gitignore = [] ∧ level.exclude = []

/-- A directory without entries that could hold rules brings none. -/
theorem levelAt_isBare {t : FileTree} {directory : Path} {entries : List Entry} {view : View}
    (h : plainEntries entries = true) : (levelAt t directory entries view).IsBare := by
  have hignore := find?_of_plain h (by decide : Path.ofText ".ignore" ∈ ruleFiles)
  have hgitignore := find?_of_plain h (by decide : Path.ofText ".gitignore" ∈ ruleFiles)
  have hgit := find?_of_plain h (by decide : Path.ofText ".git" ∈ ruleFiles)
  simp [Level.IsBare, levelAt, hignore, hgitignore, hgit]

/-- Directories above the input bring no rules when there are none in the tree. -/
theorem levelsAbove_isBare {t : FileTree} (ht : plainEntries t.top.entries = true)
    {trail : Trail} :
    ∀ {below : Location}, (trail.Along fun es => plainEntries es = true) →
      ∀ level ∈ levelsAbove t below trail, level.IsBare := by
  induction trail with
  | nil => exact fun _ _ hlevel => nomatch hlevel
  | cons step trail ih =>
      intro below htrail level hlevel
      have hrest : Trail.Along (fun es => plainEntries es = true) trail := htrail.parent
      rcases List.mem_cons.mp hlevel with rfl | hlevel
      · exact levelAt_isBare (hrest.directoryAt ht)
      · exact ih hrest level hlevel

/-- In a tree without entries that could hold rules no directory brings any. -/
theorem levelsOf_isBare {t : FileTree} (ht : plainEntries t.top.entries = true) {trail : Trail}
    (htrail : trail.Along fun es => plainEntries es = true) (input : Path) :
    ∀ level ∈ levelsOf t input trail, level.IsBare := by
  intro level hlevel
  have hown : (levelAt t input (t.directoryAt trail).entries
      (.within (Path.base? input))).IsBare := levelAt_isBare (htrail.directoryAt ht)
  simp only [levelsOf] at hlevel
  split at hlevel
  · rcases List.mem_cons.mp hlevel with rfl | hlevel
    · exact hown
    · exact levelsAbove_isBare ht htrail level hlevel
  · cases List.mem_singleton.mp hlevel
    exact hown

/-- Directories without rules say nothing. -/
theorem verdict?_of_isBare {levels : List Level} (h : ∀ level ∈ levels, level.IsBare)
    (path name : Path) (isDirectory : Bool) : verdict? levels path name isDirectory = none := by
  have hrepository : ∀ level ∈ inRepository levels, level.IsBare := by
    intro level hlevel
    unfold inRepository at hlevel
    split at hlevel
    · exact h level (List.mem_of_mem_take hlevel)
    · cases hlevel
  simp only [verdict?, Option.or_eq_none_iff, List.findSome?_eq_none_iff]
  refine ⟨?_, ?_, ?_⟩
  · intro level hlevel
    simp [(h level hlevel).1]
  · intro level hlevel
    simp [(hrepository level hlevel).2.1]
  · intro level hlevel
    simp [(hrepository level hlevel).2.2]

/-- Going into a directory without rules brings none. -/
theorem enter_isBare {t : FileTree} {levels : List Level} {path name : Path}
    {entries : List Entry} (h : ∀ level ∈ levels, level.IsBare)
    (hentries : plainEntries entries = true) :
    ∀ level ∈ enter t levels path name entries, level.IsBare := by
  intro level hlevel
  rcases List.mem_cons.mp hlevel with rfl | hlevel
  · exact levelAt_isBare hentries
  · obtain ⟨outer, houter, rfl⟩ := List.mem_map.mp hlevel
    exact h outer houter

mutual

/-- Without rules in the tree no rule speaks of an entry. -/
theorem ruleFreeEntry_of_plain {t : FileTree} {directory : Path} {levels : List Level}
    (h : ∀ level ∈ levels, level.IsBare) :
    ∀ e, plainEntry e = true → ruleFreeEntry t directory levels e = true
  | .file name _ _, _ => by
      rw [ruleFreeEntry, verdict?_of_isBare h]
      rfl
  | .link .., _ => rfl
  | .directory name _ entries, hplain => by
      rw [plainEntry, Bool.and_eq_true] at hplain
      rw [ruleFreeEntry, verdict?_of_isBare h,
        ruleFreeEntries_of_plain (enter_isBare h hplain.2) entries hplain.2]
      simp

/-- Without rules in the tree no rule speaks of any of several entries. -/
theorem ruleFreeEntries_of_plain {t : FileTree} {directory : Path} {levels : List Level}
    (h : ∀ level ∈ levels, level.IsBare) :
    ∀ es, plainEntries es = true → ruleFreeEntries t directory levels es = true
  | [], _ => rfl
  | e :: es, hplain => by
      rw [plainEntries, Bool.and_eq_true] at hplain
      rw [ruleFreeEntries, ruleFreeEntry_of_plain h e hplain.1,
        ruleFreeEntries_of_plain h es hplain.2]
      rfl

end

/-- In a tree without entries that could hold rules no ignore file applies. -/
theorem ruleFree_of_plain {t : FileTree} (ht : plainEntries t.top.entries = true)
    (input : String) : ruleFree t input = true := by
  unfold ruleFree
  split
  · next trail htrail =>
    have halong : trail.Along fun es => plainEntries es = true :=
      FileTree.along_of_directory? ht plainEntries_passesDown htrail
    exact ruleFreeEntries_of_plain (levelsOf_isBare ht halong input) _ (halong.directoryAt ht)
  · rfl

/-! ## What a scan finds -/

/-- The path of a file below a directory. -/
def pathOf (directory : Path) (way : Way) (name : Path) : Path :=
  Path.below directory (way.names ++ [name])

/-- A way leads from a directory with a path and entries to a file that is looked for. -/
structure Sought (search : Search) (directory : Path) (entries : List Entry) (way : Way)
    (name : Path) : Prop where
  file : FileAt entries way name
  visible : ∀ n ∈ way.names ++ [name], Path.isHidden n = false
  shallow : search.recursive = false → way = []
  accepted : search.accepts (pathOf directory way name) = true

/-- A path is that of a file that is looked for below a directory, and all directories on the
way from there can be listed. -/
def Reached (search : Search) (directory : Path) (access : Access) (entries : List Entry)
    (path : Path) : Prop :=
  ∃ way name, path = pathOf directory way name ∧ Sought search directory entries way name ∧
    way.CanList directory access

section

variable {search : Search} {directory path : Path} {access : Access} {entries : List Entry}

/-- Where there are no entries nothing is reached. -/
theorem not_reached_nil : ¬Reached search directory access [] path := by
  rintro ⟨_, _, _, hsought, _⟩
  exact FileAt.not_nil hsought.file

/-- What is reached is at or below the first entry, or among the others. -/
theorem reached_cons {e : Entry} :
    Reached search directory access (e :: entries) path ↔
      Reached search directory access [e] path ∨ Reached search directory access entries path := by
  constructor
  · rintro ⟨way, name, hpath, hsought, hlist⟩
    rcases FileAt.cons_iff.mp hsought.file with hfile | hfile
    · exact .inl ⟨way, name, hpath, { hsought with file := hfile }, hlist⟩
    · exact .inr ⟨way, name, hpath, { hsought with file := hfile }, hlist⟩
  · rintro (⟨way, name, hpath, hsought, hlist⟩ | ⟨way, name, hpath, hsought, hlist⟩)
    · have hfile : FileAt (e :: entries) way name := FileAt.cons_iff.mpr (.inl hsought.file)
      exact ⟨way, name, hpath, { hsought with file := hfile }, hlist⟩
    · have hfile : FileAt (e :: entries) way name := FileAt.cons_iff.mpr (.inr hsought.file)
      exact ⟨way, name, hpath, { hsought with file := hfile }, hlist⟩

/-- Links are not followed. -/
theorem not_reached_link {name target : Path} :
    ¬Reached search directory access [.link name target] path := by
  rintro ⟨_, _, _, hsought, _⟩
  exact FileAt.not_link hsought.file

/-- A file is reached when it is looked for and not hidden. -/
theorem reached_file {name : Path} {own : Access} {content : Bytes} :
    Reached search directory access [.file name own content] path ↔
      path = Path.join directory name ∧ Path.isHidden name = false ∧
        search.accepts path = true := by
  constructor
  · rintro ⟨way, other, hpath, hsought, _⟩
    obtain ⟨rfl, rfl⟩ := FileAt.file_iff.mp hsought.file
    exact ⟨hpath, hsought.visible other (by simp), hpath ▸ hsought.accepted⟩
  · rintro ⟨rfl, hvisible, haccepted⟩
    refine ⟨[], name, rfl, ⟨FileAt.file_iff.mpr ⟨rfl, rfl⟩, ?_, fun _ => rfl, haccepted⟩, trivial⟩
    intro n hn
    cases List.mem_singleton.mp hn
    exact hvisible

/-- What is below a directory is reached when the search is recursive and the directory is
visible and can be listed. -/
theorem reached_directory {name : Path} {own : Access} :
    Reached search directory access [.directory name own entries] path ↔
      search.recursive = true ∧ Path.isHidden name = false ∧
        FileTree.listingError? (Path.join directory name) access own = none ∧
        Reached search (Path.join directory name) own entries path := by
  constructor
  · rintro ⟨way, file, hpath, hsought, hlist⟩
    obtain ⟨rest, rfl, hfile⟩ := FileAt.directory_iff.mp hsought.file
    have hdeep : search.recursive = true := by
      by_contra hshallow
      cases hsought.shallow (by simpa using hshallow)
    refine ⟨hdeep, hsought.visible name List.mem_cons_self, hlist.1, rest, file, hpath,
      ⟨hfile, ?_, ?_, hsought.accepted⟩, hlist.2⟩
    · exact fun n hn => hsought.visible n (List.mem_cons_of_mem _ hn)
    · exact fun hshallow => absurd (hdeep.symm.trans hshallow) nofun
  · rintro ⟨hdeep, hvisible, hopen, way, file, hpath, hsought, hlist⟩
    refine ⟨(name, own) :: way, file, hpath,
      ⟨FileAt.directory_iff.mpr ⟨way, rfl, hsought.file⟩, ?_, ?_, hsought.accepted⟩, hopen, hlist⟩
    · intro n hn
      rcases List.mem_cons.mp hn with rfl | hn
      · exact hvisible
      · exact hsought.visible n hn
    · exact fun hshallow => absurd (hdeep.symm.trans hshallow) nofun

end

/-- Without a rule, hidden entries are skipped and no others. -/
theorem isSkipped_of_verdict? {levels : List Level} {path name : Path} {isDirectory : Bool}
    (h : (verdict? levels path name isDirectory).isNone = true) :
    isSkipped levels path name isDirectory = Path.isHidden name := by
  rw [isSkipped, Option.isNone_iff_eq_none.mp h]

mutual

/-- A scan finds at and below an entry what is reached there. -/
theorem mem_scanEntry {t : FileTree} {search : Search} {directory path : Path} {access : Access}
    {levels : List Level} :
    ∀ e, ruleFreeEntry t directory levels e = true →
      (.file path ∈ scanEntry t search directory access levels e ↔
        Reached search directory access [e] path)
  | .file name own content, hfree => by
      rw [ruleFreeEntry] at hfree
      rw [reached_file, scanEntry, isSkipped_of_verdict? hfree]
      split
      · next hgood =>
        rw [Bool.and_eq_true, Bool.not_eq_true'] at hgood
        rw [List.mem_singleton, Finding.file.injEq]
        exact ⟨fun h => ⟨h, hgood.2, h ▸ hgood.1⟩, fun h => h.1⟩
      · next hbad =>
        refine ⟨nofun, ?_⟩
        rintro ⟨rfl, hvisible, haccepted⟩
        simp [hvisible, haccepted] at hbad
  | .link .., _ => by simp [scanEntry, not_reached_link]
  | .directory name own entries, hfree => by
      rw [ruleFreeEntry, Bool.and_eq_true, Bool.or_eq_true] at hfree
      obtain ⟨hnone, hbelow⟩ := hfree
      rw [reached_directory, scanEntry, isSkipped_of_verdict? hnone]
      split
      · next hshut =>
        refine ⟨nofun, ?_⟩
        rintro ⟨hdeep, hvisible, _⟩
        simp [hdeep, hvisible] at hshut
      · next hopen =>
        simp only [Bool.or_eq_true, Bool.not_eq_true', not_or, Bool.not_eq_false,
          Bool.not_eq_true] at hopen
        obtain ⟨hdeep, hvisible⟩ := hopen
        split
        · next e herror =>
          constructor
          · intro h
            cases List.mem_singleton.mp h
          · rintro ⟨_, _, hlist, _⟩
            cases herror.symm.trans hlist
        · next hlist =>
          have hentries := hbelow.resolve_left (by simp [hvisible])
          rw [mem_scanEntries entries hentries]
          exact ⟨fun h => ⟨hdeep, hvisible, hlist, h⟩, fun h => h.2.2.2⟩

/-- A scan finds at and below several entries what is reached there. -/
theorem mem_scanEntries {t : FileTree} {search : Search} {directory path : Path}
    {access : Access} {levels : List Level} :
    ∀ es, ruleFreeEntries t directory levels es = true →
      (.file path ∈ scanEntries t search directory access levels es ↔
        Reached search directory access es path)
  | [], _ => by simp [scanEntries, not_reached_nil]
  | e :: es, hfree => by
      rw [ruleFreeEntries, Bool.and_eq_true] at hfree
      rw [scanEntries, List.mem_append, reached_cons, mem_scanEntry e hfree.1,
        mem_scanEntries es hfree.2]

end

/-! ## Qualifying paths -/

/-- An input is the path itself: a file that is looked for. -/
def Given (t : FileTree) (search : Search) (input path : String) : Prop :=
  path = input ∧ t.isFile input = true ∧ search.accepts input = true

/-- A path qualifies by an input: it is the input, or the path of a file below it. -/
def Qualifies (t : FileTree) (search : Search) (input path : String) : Prop :=
  Given t search input path ∨
    ∃ trail way name, t.directory? input = some trail ∧
      path = Path.text (pathOf input way name) ∧
      Sought search input (t.directoryAt trail).entries way name

/-- A path qualifies by an input, and all directories from the input to the file can be
listed. -/
def Listed (t : FileTree) (search : Search) (input path : String) : Prop :=
  Given t search input path ∨
    ∃ trail way name, t.directory? input = some trail ∧
      path = Path.text (pathOf input way name) ∧
      Sought search input (t.directoryAt trail).entries way name ∧
      FileTree.listingError? input {} (t.directoryAt trail).access = none ∧
      way.CanList input (t.directoryAt trail).access

section

variable {t : FileTree} {search : Search} {input path : String} {trail : Trail}

/-- A directory is not given as a file. -/
theorem not_given (h : t.directory? input = some trail) : ¬Given t search input path := by
  rintro ⟨_, hfile, _⟩
  rw [FileTree.directory?_eq_none_of_isFile hfile] at h
  cases h

/-- What is listed by a directory is what is reached in it, when it can be listed itself. -/
theorem listed_directory (h : t.directory? input = some trail) :
    Listed t search input path ↔
      FileTree.listingError? input {} (t.directoryAt trail).access = none ∧
        ∃ bytes, path = Path.text bytes ∧ Reached search input (t.directoryAt trail).access
          (t.directoryAt trail).entries bytes := by
  constructor
  · rintro (hgiven | ⟨other, way, name, hother, hpath, hsought, hopen, hlist⟩)
    · exact absurd hgiven (not_given h)
    · cases h.symm.trans hother
      exact ⟨hopen, _, hpath, way, name, rfl, hsought, hlist⟩
  · rintro ⟨hopen, _, hpath, way, name, rfl, hsought, hlist⟩
    exact .inr ⟨trail, way, name, h, hpath, hsought, hopen, hlist⟩

/-- What is no directory lists nothing but itself. -/
theorem listed_not_directory (h : t.directory? input = none) :
    Listed t search input path ↔ Given t search input path := by
  constructor
  · rintro (hgiven | ⟨_, _, _, htrail, _⟩)
    · exact hgiven
    · cases h.symm.trans htrail
  · exact .inl

/-- A file is handed on when its path is found and has the text. -/
theorem mem_filesOf_iff_findings :
    path ∈ filesOf t search input ↔
      ∃ bytes, path = Path.text bytes ∧ .file bytes ∈ findings t search input := by
  rw [filesOf, List.mem_filterMap]
  constructor
  · rintro ⟨finding, hmem, hfile⟩
    cases finding with
    | file bytes =>
        cases hfile
        exact ⟨bytes, rfl, hmem⟩
    | closed _ _ => cases hfile
  · rintro ⟨bytes, rfl, hmem⟩
    exact ⟨_, hmem, rfl⟩

/-- The files that an input stands for are the listed ones. -/
theorem mem_filesOf (hfree : ruleFree t input = true)
    (hdash : t.directory? input ≠ none → Path.isDash input = false) :
    path ∈ filesOf t search input ↔ Listed t search input path := by
  rw [mem_filesOf_iff_findings]
  cases htrail : t.directory? input with
  | none =>
      rw [listed_not_directory htrail]
      simp only [findings, htrail]
      split
      · next hgood =>
        rw [Bool.and_eq_true] at hgood
        constructor
        · rintro ⟨_, rfl, hmem⟩
          cases List.mem_singleton.mp hmem
          exact ⟨Path.text_ofText input, hgood⟩
        · rintro ⟨rfl, _⟩
          exact ⟨_, (Path.text_ofText path).symm, List.mem_singleton.mpr rfl⟩
      · next hbad =>
        constructor
        · rintro ⟨_, _, hmem⟩
          cases hmem
        · rintro ⟨_, hfile, haccepted⟩
          simp [hfile, haccepted] at hbad
  | some trail =>
      have hnot := hdash (by rw [htrail]; exact nofun)
      simp only [ruleFree, htrail] at hfree
      rw [listed_directory htrail]
      simp only [findings, htrail, hnot]
      cases hopen : FileTree.listingError? input {} (t.directoryAt trail).access with
      | some e =>
          refine ⟨?_, nofun⟩
          rintro ⟨_, _, hmem⟩
          cases List.mem_singleton.mp hmem
      | none =>
          simp only [true_and]
          exact exists_congr fun bytes => and_congr_right fun _ => mem_scanEntries _ hfree

/-- What a search finds, a recursive search finds as well. -/
theorem Listed.recursive {extensions : List String} (h : Listed t ⟨extensions, false⟩ input path) :
    Listed t ⟨extensions, true⟩ input path := by
  rcases h with hgiven | ⟨trail, way, name, htrail, hpath, hsought, hlist⟩
  · exact .inl hgiven
  · exact .inr ⟨trail, way, name, htrail, hpath,
      ⟨hsought.file, hsought.visible, nofun, hsought.accepted⟩, hlist⟩

end

end Discovery

open Discovery

/-- **Exactly the listed paths are found.**  Where no ignore file applies and no directory is
given as the lone dash, a search succeeds when some path is listed; it gives the listed paths
of all inputs in increasing order, each once.  A recursive search finds all that a search of
the directories' own entries finds. -/
theorem discover_finds_listed (t : FileTree) (extensions inputs : List String)
    (hfree : ∀ input ∈ inputs, ruleFree t input = true)
    (hdash : ∀ input ∈ inputs, t.directory? input ≠ none → Path.isDash input = false) :
    (∀ recursive,
      ((∃ files, (discover t ⟨extensions, recursive⟩ inputs).result = .ok files) ↔
        ∃ path, ∃ input ∈ inputs, Listed t ⟨extensions, recursive⟩ input path) ∧
      ∀ files, (discover t ⟨extensions, recursive⟩ inputs).result = .ok files →
        files.Pairwise PathBefore ∧ files.Nodup ∧
          ∀ path, path ∈ files ↔
            ∃ input ∈ inputs, Listed t ⟨extensions, recursive⟩ input path) ∧
    ∀ files, (discover t ⟨extensions, false⟩ inputs).result = .ok files →
      ∃ all, (discover t ⟨extensions, true⟩ inputs).result = .ok all ∧ files ⊆ all := by
  have hfound (recursive : Bool) (path : String) :
      path ∈ found t ⟨extensions, recursive⟩ inputs ↔
        ∃ input ∈ inputs, Listed t ⟨extensions, recursive⟩ input path := by
    rw [mem_found]
    refine exists_congr fun input => and_congr_right fun hinput => ?_
    exact mem_filesOf (hfree input hinput) (hdash input hinput)
  constructor
  · intro recursive
    constructor
    · constructor
      · rintro ⟨files, hfiles⟩
        obtain ⟨path, hpath⟩ := List.exists_mem_of_ne_nil _ (discover_eq_ok_iff.mp hfiles).1
        exact ⟨path, (hfound recursive path).mp hpath⟩
      · rintro ⟨path, hpath⟩
        have hne := List.ne_nil_of_mem ((hfound recursive path).mpr hpath)
        exact ⟨_, discover_of_found_ne_nil hne⟩
    · intro files hfiles
      obtain ⟨_, rfl⟩ := discover_eq_ok_iff.mp hfiles
      exact ⟨pairwise_found, nodup_of_pairwise pairwise_found, hfound recursive⟩
  · intro files hfiles
    obtain ⟨hne, rfl⟩ := discover_eq_ok_iff.mp hfiles
    have hsub : found t ⟨extensions, false⟩ inputs ⊆ found t ⟨extensions, true⟩ inputs := by
      intro path hpath
      obtain ⟨input, hinput, hlisted⟩ := (hfound false path).mp hpath
      exact (hfound true path).mpr ⟨input, hinput, hlisted.recursive⟩
    obtain ⟨path, hpath⟩ := List.exists_mem_of_ne_nil _ hne
    exact ⟨_, discover_of_found_ne_nil (List.ne_nil_of_mem (hsub hpath)), hsub⟩

/-- A directory with a file and a directory. -/
def scanSub : Directory :=
  { entries := [.file "D.swift" {} [], .directory "x.swift" {} []] }

/-- A directory with files, one of them with a name that is no text, hidden entries, a
directory, and one that cannot be listed. -/
def scanSource : Directory :=
  { entries :=
      [.file "A.swift" {} [], .file ".B.swift" {} [],
        .directory ".build" {} [.file "C.swift" {} []], .directory "sub" {} scanSub.entries,
        .directory "shut" { read := false } [.file "E.swift" {} []],
        .file (0xFF :: Path.ofText ".swift") {} []] }

/-- The source directory in the current one. -/
def scanHome : Directory :=
  { entries := [.directory "src" {} scanSource.entries] }

def scanSample : FileTree :=
  { top := { entries := [.directory "home" {} scanHome.entries] }, current := ["home"] }

/-- Files are found below a relative and an absolute input, under the paths of both. -/
theorem scanSample_finds :
    let inputs := ["src", "/home/src/sub"]
    let files := ["/home/src/sub/D.swift", "src/A.swift", "src/sub/D.swift", "src/\uFFFD.swift"]
    (discover scanSample ⟨["swift"], true⟩ inputs).result = .ok files ∧
      ∀ path, path ∈ files ↔ ∃ input ∈ inputs, Listed scanSample ⟨["swift"], true⟩ input path := by
  intro inputs files
  have hfound : found scanSample ⟨["swift"], true⟩ inputs = files := by decide +kernel
  have hdiscover : (discover scanSample ⟨["swift"], true⟩ inputs).result = .ok files :=
    discover_eq_ok_iff.mpr ⟨hfound ▸ List.cons_ne_nil _ _, hfound.symm⟩
  have hdash : ∀ input ∈ inputs, Path.isDash input = false := by decide
  have hlisted := discover_finds_listed scanSample ["swift"] inputs
    (fun input _ => ruleFree_of_plain (by decide) input) (fun input hinput _ => hdash input hinput)
  exact ⟨hdiscover, ((hlisted.1 true).2 _ hdiscover).2.2⟩

/-- A directory that cannot be listed is passed over with a warning. -/
example : (discover scanSample ⟨["swift"], true⟩ ["src"]).warnings.map Warning.text =
    ["Warning: Failed to read file: src (src/shut: IO error for operation on src/shut: " ++
      "Permission denied (os error 13))"] := by
  decide +kernel

/-- A directory with the name of standard input. -/
def dashSample : FileTree :=
  { top := { entries := [.directory "-" {} [.file "A.swift" {} []]] } }

/-- A directory that cannot be listed. -/
def shutSample : FileTree :=
  { top := { entries := [.directory "p" { read := false } [.file "A.swift" {} []]] } }

/-- A name of one letter only, as long as names can be. -/
def longName : Path :=
  List.replicate FileTree.nameLimit 0x64

/-- A file below directories with the longest names there are. -/
def nested : Nat → List Entry
  | 0 => [.file "A.swift" {} []]
  | n + 1 => [.directory longName {} (nested n)]

/-- A directory in which the innermost one cannot be listed: its path is too long. -/
def deepSample : FileTree :=
  { top := { entries := [.directory "p" {} (nested 16)] } }

/-- The way to the file leads through all long names. -/
theorem fileAt_nested (n : Nat) :
    FileAt (nested n) (List.replicate n (longName, {})) "A.swift" := by
  induction n with
  | zero => exact .file List.mem_cons_self
  | succ n ih => exact .inside List.mem_cons_self ih

/-- A path can qualify and not be found: in a directory given as the lone dash, and in one
that cannot be listed, be it closed or its path longer than any that can be looked up. -/
theorem qualifying_not_found :
    (ruleFree dashSample "-" = true ∧
      Qualifies dashSample ⟨["swift"], false⟩ "-" "-/A.swift" ∧
      (discover dashSample ⟨["swift"], false⟩ ["-"]).result = .error (nothingFound ["-"])) ∧
    (ruleFree shutSample "p" = true ∧
      Qualifies shutSample ⟨["swift"], false⟩ "p" "p/A.swift" ∧
      (discover shutSample ⟨["swift"], false⟩ ["p"]).result = .error (nothingFound ["p"])) ∧
    (ruleFree deepSample "p" = true ∧
      Qualifies deepSample ⟨["swift"], true⟩ "p"
        (Path.text (pathOf "p" (List.replicate 16 (longName, {})) "A.swift")) ∧
      (discover deepSample ⟨["swift"], true⟩ ["p"]).result = .error (nothingFound ["p"])) := by
  refine ⟨⟨ruleFree_of_plain (by decide) "-", ?_, ?_⟩, ⟨ruleFree_of_plain (by decide) "p", ?_, ?_⟩,
    ⟨ruleFree_of_plain (by decide +kernel) "p", ?_, ?_⟩⟩
  · refine .inr ⟨_, [], "A.swift", rfl, rfl, ?_⟩
    exact ⟨.file List.mem_cons_self, by decide, fun _ => rfl, by decide⟩
  · exact discover_of_found_eq_nil (by decide +kernel)
  · refine .inr ⟨_, [], "A.swift", rfl, rfl, ?_⟩
    exact ⟨.file List.mem_cons_self, by decide, fun _ => rfl, by decide⟩
  · exact discover_of_found_eq_nil (by decide +kernel)
  · refine .inr ⟨_, List.replicate 16 (longName, {}), "A.swift", rfl, rfl, ?_⟩
    exact ⟨fileAt_nested 16, by decide +kernel, nofun, by decide +kernel⟩
  · exact discover_of_found_eq_nil (by decide +kernel)

end SourceOutline
