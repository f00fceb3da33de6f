import SourceOutline.FileTree
import SourceOutline.Proofs.Text.Utf8

/-!
# What paths lead to

Facts on `lookup` that do not depend on how names are followed, and one that does: what every
step of a path keeps holds of the place to which the path leads (`FileTree.Kept`).  A directory
that is found therefore lies in the tree, together with all directories above it
(`FileTree.along_of_directory?`).

Files below a directory are given by `FileAt`, which knows only the directories on the way and
a name; `Path.below` is the path under which a scan meets them.
-/

namespace SourceOutline

/-- A path that is a text is shown as that text. -/
theorem Path.text_ofText (text : String) : Path.text (ofText text) = text := by
  rw [Path.text, ofText, Utf8.decodeLossy_encode, String.ofList_toList]

/-- The path of the entry to which names lead from the directory with a path. -/
def Path.below (directory : Path) (names : Location) : Path :=
  names.foldl Path.join directory

namespace FileTree

section

variable {t : FileTree} {purpose : Purpose} {path : Path} {trail : Trail}

/-- A path that can be followed is looked up by following it. -/
theorem lookup_of_follow {place : Place} (hnul : 0 ∉ path) (hne : path.isEmpty = false)
    (hfits : fits path = true) (hstart : t.start? path = some trail)
    (h : t.follow purpose linkLimit trail (Path.names path) = .ok place) :
    t.lookup purpose path = .ok place := by
  simp [lookup, hnul, hne, hfits, hstart, h]

/-- A path that leads somewhere can be looked up, starts somewhere and is followed from
there. -/
theorem follow_of_lookup {place : Place} (h : t.lookup purpose path = .ok place) :
    0 ∉ path ∧ path.isEmpty = false ∧ fits path = true ∧ ∃ trail, t.start? path = some trail ∧
      t.follow purpose linkLimit trail (Path.names path) = .ok place := by
  unfold lookup at h
  split at h
  · cases h
  · next hnul =>
    split at h
    · cases h
    · next hempty =>
      split at h
      · cases h
      · next hfits =>
        split at h
        · cases h
        · next trail hstart =>
          split at h
          · next hplace =>
            cases h
            exact ⟨hnul, by simpa using hempty, by simpa using hfits, trail, hstart, hplace⟩
          · cases h

/-- A directory that is found is what the path leads to. -/
theorem lookup_of_directory? (h : t.directory? path = some trail) :
    t.lookup .looking path = .ok (.directory trail) := by
  unfold directory? at h
  split at h
  · next hplace =>
    cases h
    exact hplace
  · cases h

/-- A regular file is no directory. -/
theorem directory?_eq_none_of_isFile (h : t.isFile path = true) : t.directory? path = none := by
  cases htrail : t.directory? path with
  | none => rfl
  | some trail =>
      rw [isFile, lookup_of_directory? htrail] at h
      cases h

/-- What is done with a name that is no point depends on the entry of that name. -/
theorem followTo_name {again : Trail → List Path → Except FileError Place} {name : Path}
    {rest : List Path} (hempty : name ≠ []) (henter : (t.directoryAt trail).access.enter ≠ false)
    (hhere : name ≠ Path.ofText ".") (habove : name ≠ Path.ofText "..")
    (hslash : ¬(purpose = .writing ∧ rest.all List.isEmpty = true ∧ rest ≠ []))
    (hlength : ¬nameLimit < name.length) :
    t.followTo purpose again trail (name :: rest) =
      match find? (t.directoryAt trail).entries name with
      | none =>
        if rest.all List.isEmpty then .ok (.vacant trail name) else .error .noEntry
      | some (.file _ access content) =>
        if rest.isEmpty then .ok (.file trail name access content) else .error .notDirectory
      | some (.directory _ access entries) =>
        t.followTo purpose again (trail.enter name ⟨access, entries⟩) rest
      | some (.link _ target) => again (trail.start target) (Path.names target ++ rest) := by
  rw [followTo, if_neg hempty, if_neg henter, if_neg hhere, if_neg habove, if_neg hslash]
  exact if_neg hlength

end

/-! ### What the steps of a path keep -/

/-- A property of trails that holds at the top and is kept by every step of a path, with what it
says of the place to which the path leads. -/
structure Kept (t : FileTree) (P : Trail → Prop) (Q : Place → Prop) : Prop where
  top : P []
  parent : ∀ {trail : Trail}, P trail → P trail.parent
  enter : ∀ {trail : Trail} {name own access entries}, P trail →
    find? (t.directoryAt trail).entries name = some (.directory own access entries) →
    P (trail.enter name ⟨access, entries⟩)
  directory : ∀ {trail}, P trail → Q (.directory trail)
  file : ∀ {trail name own access content}, P trail →
    find? (t.directoryAt trail).entries name = some (.file own access content) →
    Q (.file trail name access content)
  vacant : ∀ {trail name}, P trail → find? (t.directoryAt trail).entries name = none →
    Q (.vacant trail name)

namespace Kept

variable {t : FileTree} {P : Trail → Prop} {Q : Place → Prop} {purpose : Purpose}
  {trail found : Trail} {place : Place} {path : Path}

/-- The target of a link starts at the top or where the link stands. -/
theorem start (h : Kept t P Q) (htrail : P trail) (path : Path) : P (trail.start path) := by
  unfold Trail.start
  split
  · exact h.top
  · exact htrail

/-- Following names keeps the property, if going on from links does. -/
theorem of_followTo (h : Kept t P Q) {again : Trail → List Path → Except FileError Place}
    (hagain : ∀ {trail names}, P trail → again trail names = .ok place → Q place)
    {names : List Path} (htrail : P trail)
    (hplace : t.followTo purpose again trail names = .ok place) : Q place := by
  -- The names go on after an empty name, after `.`, after `..`, into a directory and through
  -- a link; they end at the last directory, at a file, or at a name that is not there.
  fun_induction followTo t purpose again trail names with
  | case1 =>
      cases hplace
      exact h.directory htrail
  | case2 _ _ ih => exact ih htrail hplace
  | case4 _ _ _ _ ih => exact ih htrail hplace
  | case5 _ _ _ _ _ ih => exact ih (h.parent htrail) hplace
  | case8 =>
      cases hplace
      exact h.vacant htrail ‹_›
  | case10 =>
      cases hplace
      exact h.file htrail ‹_›
  | case12 _ _ _ _ _ _ _ _ _ _ _ _ _ hfind ih => exact ih (h.enter htrail hfind) hplace
  | case13 => exact hagain (h.start htrail _) hplace
  | _ => cases hplace

/-- However many links there are on the way. -/
theorem of_follow (h : Kept t P Q) {links : Nat} {names : List Path} (htrail : P trail)
    (hplace : t.follow purpose links trail names = .ok place) : Q place := by
  induction links generalizing trail names with
  | zero =>
      refine h.of_followTo ?_ htrail hplace
      intro _ _ _ hlink
      cases hlink
  | succ links ih => exact h.of_followTo (fun htrail hlink => ih htrail hlink) htrail hplace

/-- Going on along names of directories keeps the property. -/
theorem of_descend? (h : Kept t P Q) {names : Location} (htrail : P trail)
    (hfound : t.descend? trail names = some found) : P found := by
  fun_induction descend? t trail names with
  | case1 =>
      cases hfound
      exact htrail
  | case2 trail name rest own access entries hfind ih => exact ih (h.enter htrail hfind) hfound
  | case3 => cases hfound

/-- A path starts at the top or at the current directory. -/
theorem of_start? (h : Kept t P Q) (hstart : t.start? path = some trail) : P trail := by
  unfold start? at hstart
  split at hstart
  · cases hstart
    exact h.top
  · exact h.of_descend? h.top hstart

/-- **What the steps of a path keep holds where it leads.** -/
theorem of_lookup (h : Kept t P Q) (hplace : t.lookup purpose path = .ok place) : Q place := by
  obtain ⟨_, _, _, trail, hstart, hfollow⟩ := follow_of_lookup hplace
  exact h.of_follow (h.of_start? hstart) hfollow

end Kept

/-- Every directory on the way from a trail up to the top has the property. -/
def Trail.Along (P : List Entry → Prop) (trail : Trail) : Prop :=
  ∀ step ∈ trail, P step.2.entries

section

variable {t : FileTree} {P : List Entry → Prop} {trail : Trail}

/-- What holds along a trail holds along its parent. -/
theorem Trail.Along.parent (h : trail.Along P) : trail.parent.Along P :=
  fun step hstep => h step (List.mem_of_mem_tail hstep)

/-- What holds along a trail and of a directory in it holds along the trail to that one. -/
theorem Trail.Along.enter {name : Path} {directory : Directory} (h : trail.Along P)
    (hdirectory : P directory.entries) : (trail.enter name directory).Along P := by
  intro step hstep
  rcases List.mem_cons.mp hstep with rfl | hstep
  · exact hdirectory
  · exact h step hstep

/-- What holds of the top and along a trail holds where the trail leads. -/
theorem Trail.Along.directoryAt (h : trail.Along P) (htop : P t.top.entries) :
    P (t.directoryAt trail).entries := by
  cases trail with
  | nil => exact htop
  | cons step trail => exact h step List.mem_cons_self

/-- A property that passes from a directory to the directories in it. -/
def PassesDown (P : List Entry → Prop) : Prop :=
  ∀ ⦃entries name access sub⦄, P entries → Entry.directory name access sub ∈ entries → P sub

/-- A property that passes down from the top is kept by every step. -/
theorem Trail.Along.kept (htop : P t.top.entries) (hsub : PassesDown P) :
    Kept t (Trail.Along P) fun place => ∀ trail, place = .directory trail → trail.Along P where
  top := nofun
  parent := Trail.Along.parent
  enter htrail hfind :=
    htrail.enter (hsub (htrail.directoryAt htop) (List.mem_of_find?_eq_some hfind))
  directory := by
    intro trail htrail found hfound
    cases hfound
    exact htrail
  file _ _ := nofun
  vacant _ _ := nofun

/-- A directory that is found, and all directories above it, have the properties that pass
down from the top. -/
theorem along_of_directory? {path : Path} (htop : P t.top.entries) (hsub : PassesDown P)
    (h : t.directory? path = some trail) : trail.Along P :=
  (Trail.Along.kept htop hsub).of_lookup (lookup_of_directory? h) trail rfl

end

/-- The directories on the way to an entry, with what the program may do with them. -/
abbrev Way := List (Path × Access)

/-- The names of the directories on a way. -/
def Way.names (way : Way) : Location :=
  way.map Prod.fst

/-- All directories on a way can be listed, below the one with a path and an access. -/
def Way.CanList (path : Path) (access : Access) : Way → Prop
  | [] => True
  | (name, own) :: way =>
    listingError? (Path.join path name) access own = none ∧
      CanList (Path.join path name) own way

end FileTree

open FileTree (Way)

/-- A regular file below some entries, by the directories on the way to it and its own name.
Links are not followed. -/
inductive FileAt : List Entry → Way → Path → Prop where
  | file {entries : List Entry} {name : Path} {access : Access} {content : Bytes} :
      .file name access content ∈ entries → FileAt entries [] name
  | inside {entries sub : List Entry} {directory name : Path} {access : Access} {way : Way} :
      .directory directory access sub ∈ entries → FileAt sub way name →
      FileAt entries ((directory, access) :: way) name

namespace FileAt

variable {entries : List Entry} {way : Way} {name : Path}

/-- There is no file where there are no entries. -/
theorem not_nil : ¬FileAt [] way name := by
  intro h
  cases h with
  | file hmem => cases hmem
  | inside hmem _ => cases hmem

/-- Further entries take no file away. -/
theorem mono {others : List Entry} (hsub : entries ⊆ others) (h : FileAt entries way name) :
    FileAt others way name := by
  cases h with
  | file hmem => exact .file (hsub hmem)
  | inside hmem hbelow => exact .inside (hsub hmem) hbelow

/-- A file is at or below the first entry, or among the others. -/
theorem cons_iff {e : Entry} :
    FileAt (e :: entries) way name ↔ FileAt [e] way name ∨ FileAt entries way name := by
  constructor
  · intro h
    cases h with
    | file hmem =>
        rcases List.mem_cons.mp hmem with rfl | hmem
        · exact .inl (.file List.mem_cons_self)
        · exact .inr (.file hmem)
    | inside hmem hbelow =>
        rcases List.mem_cons.mp hmem with rfl | hmem
        · exact .inl (.inside List.mem_cons_self hbelow)
        · exact .inr (.inside hmem hbelow)
  · rintro (h | h)
    · exact h.mono (by simp)
    · exact h.mono (List.subset_cons_self _ _)

/-- A single file is found under its own name only. -/
theorem file_iff {own : Path} {access : Access} {content : Bytes} :
    FileAt [.file own access content] way name ↔ way = [] ∧ name = own := by
  constructor
  · intro h
    cases h with
    | file hmem =>
        cases List.mem_singleton.mp hmem
        exact ⟨rfl, rfl⟩
    | inside hmem _ => cases List.mem_singleton.mp hmem
  · rintro ⟨rfl, rfl⟩
    exact .file List.mem_cons_self

/-- A link is not a file. -/
theorem not_link {own target : Path} : ¬FileAt [.link own target] way name := by
  intro h
  cases h with
  | file hmem => cases List.mem_singleton.mp hmem
  | inside hmem _ => cases List.mem_singleton.mp hmem

/-- Files in a directory are found through it. -/
theorem directory_iff {own : Path} {access : Access} {sub : List Entry} :
    FileAt [.directory own access sub] way name ↔
      ∃ rest, way = (own, access) :: rest ∧ FileAt sub rest name := by
  constructor
  · intro h
    cases h with
    | file hmem => cases List.mem_singleton.mp hmem
    | inside hmem hbelow =>
        cases List.mem_singleton.mp hmem
        exact ⟨_, rfl, hbelow⟩
  · rintro ⟨rest, rfl, hbelow⟩
    exact .inside List.mem_cons_self hbelow

end FileAt

end SourceOutline
