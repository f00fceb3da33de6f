import Mathlib.Data.List.Basic
import SourceOutline.Proofs.FileTree.Lookup

/-!
# What writing changes

A file tree is seen through what stands at its locations (`FileTree.itemAt?`).  Writing a file
changes one location and no other (`FileTree.Written`), and the path that was written leads to
the file afterwards (`FileTree.LeadsToFile`).

That is not the same lookup once more: the directories on the way have changed with the file in
them.  It goes to directories at the same locations all along (`SameTrail`), and what it meets
there is unchanged up to the last name.
-/

namespace SourceOutline

/-- What stands at a location, without the entries of a directory. -/
inductive Item where
  | file (access : Access) (content : Bytes)
  | link (target : Path)
  | directory (access : Access)
  deriving DecidableEq, Repr

def Entry.item : Entry → Item
  | .file _ access content => .file access content
  | .link _ target => .link target
  | .directory _ access _ => .directory access

namespace FileTree

/-- What stands at a location below a directory.  Links are not followed. -/
def itemIn? : Location → Directory → Option Item
  | [], directory => some (.directory directory.access)
  | name :: rest, directory =>
    match find? directory.entries name with
    | some (.directory _ access entries) => itemIn? rest ⟨access, entries⟩
    | some e => if rest = [] then some e.item else none
    | none => none

/-- What stands at a location. -/
def itemAt? (t : FileTree) (location : Location) : Option Item :=
  itemIn? location t.top

/-- The second tree is the first one with a file at a location: a new one, or an old one with
its access and another content. -/
structure Written (t t' : FileTree) (location : Location) (access : Access) (content : Bytes) :
    Prop where
  file : t'.itemAt? location = some (.file access content)
  old : ∀ item, t.itemAt? location = some item → ∃ content, item = .file access content
  others : ∀ other, other ≠ location → t'.itemAt? other = t.itemAt? other
  current : t'.current = t.current

/-- A path leads to the file at a location, and the file has the content. -/
def LeadsToFile (t : FileTree) (path : Path) (location : Location) (access : Access)
    (content : Bytes) : Prop :=
  ∃ parent name, t.lookup .looking path = .ok (.file parent name access content) ∧
    parent.location ++ [name] = location

/-- A file to which a path leads is read when it may be. -/
theorem LeadsToFile.read {t : FileTree} {path : Path} {location : Location} {access : Access}
    {content : Bytes} (h : t.LeadsToFile path location access content)
    (haccess : access.read = true) : t.read path = .ok content := by
  obtain ⟨parent, name, hlookup, -⟩ := h
  rw [FileTree.read, hlookup]
  exact if_pos haccess

section

variable {directory : Directory} {name own : Path} {rest : Location} {access : Access}

/-- Under a single name stands the entry of that name. -/
theorem itemIn?_singleton (name : Path) (directory : Directory) :
    itemIn? [name] directory = (find? directory.entries name).map Entry.item := by
  rw [itemIn?]
  split <;> simp_all [itemIn?, Entry.item]

/-- What stands below a directory is found by going into it. -/
theorem itemIn?_directory {sub : List Entry}
    (h : find? directory.entries name = some (.directory own access sub)) :
    itemIn? (name :: rest) directory = itemIn? rest ⟨access, sub⟩ := by
  rw [itemIn?, h]

/-- Below what is no directory there is nothing. -/
theorem itemIn?_eq_none (h : ∀ access, itemIn? [name] directory ≠ some (.directory access))
    (hrest : rest ≠ []) : itemIn? (name :: rest) directory = none := by
  rw [itemIn?_singleton] at h
  rw [itemIn?]
  split
  · next own access _ hfind =>
    rw [hfind] at h
    exact absurd rfl (h access)
  · exact if_neg hrest
  · rfl

/-- A location with a directory starts with the name of a directory. -/
theorem exists_directory (h : itemIn? (name :: rest) directory = some (.directory access)) :
    ∃ own access sub, find? directory.entries name = some (.directory own access sub) := by
  rw [itemIn?] at h
  split at h
  · next own access sub hfind => exact ⟨own, access, sub, hfind⟩
  · next e hne _ =>
    cases e with
    | directory own access sub => exact absurd rfl (hne own access sub)
    | _ => split at h <;> cases h
  · cases h

/-- What stands at a location depends on the entry of its first name. -/
theorem itemIn?_congr {other : Directory}
    (h : find? directory.entries name = find? other.entries name) :
    itemIn? (name :: rest) directory = itemIn? (name :: rest) other := by
  rw [itemIn?, itemIn?, h]

/-- The first entry of a name is the one that is found. -/
theorem find?_cons (e : Entry) (es : List Entry) (name : Path) :
    find? (e :: es) name = if e.name = name then some e else find? es name := by
  by_cases h : e.name = name <;> simp [find?, h]

/-- A file takes the place of an entry of its name, and goes past all others. -/
theorem putEntry_file_cons (name : Path) (access : Access) (content : Bytes) (e : Entry)
    (es : List Entry) :
    putEntry (.file name access content) (e :: es) =
      if e.name = name then .file name access content :: es
      else e :: putEntry (.file name access content) es := by
  cases e <;> rfl

/-- A file that is put into a directory is found there, and other entries are found as
before. -/
theorem find?_putEntry_file (name : Path) (access : Access) (content : Bytes)
    (entries : List Entry) (other : Path) :
    find? (putEntry (.file name access content) entries) other =
      if name = other then some (.file name access content) else find? entries other := by
  induction entries with
  | nil =>
      rw [putEntry, find?_cons]
      rfl
  | cons e es ih =>
      have hfile : (Entry.file name access content).name = name := rfl
      rw [putEntry_file_cons]
      by_cases hname : e.name = name
      · rw [if_pos hname, find?_cons, find?_cons, hfile, hname]
        split <;> rfl
      · rw [if_neg hname, find?_cons, find?_cons, ih]
        by_cases hother : name = other
        · rw [if_pos hother, if_pos hother, if_neg (hother ▸ hname)]
        · rw [if_neg hother, if_neg hother]

/-- An entry that is found has the name. -/
theorem name_of_find? {entries : List Entry} {e : Entry} (h : find? entries name = some e) :
    e.name = name := by
  rw [find?] at h
  simpa using List.find?_some h

/-- A directory with an entry put below it, if it is the one of the name. -/
def putInto (entry : Entry) (name : Path) (rest : Location) : Entry → Entry
  | .directory n access sub =>
    if n = name then .directory n access (putBelow entry rest sub) else .directory n access sub
  | e => e

/-- Putting something into an entry keeps its name. -/
theorem name_putInto (entry : Entry) (name : Path) (rest : Location) (e : Entry) :
    (putInto entry name rest e).name = e.name := by
  unfold putInto
  split
  · split <;> rfl
  · rfl

/-- Entries of other names stay as they are. -/
theorem putInto_of_ne {entry e : Entry} (h : e.name ≠ name) : putInto entry name rest e = e := by
  unfold putInto
  split
  · exact if_neg h
  · rfl

/-- Putting an entry below a directory that is there changes that directory only. -/
theorem putBelow_directory {entry : Entry} {entries sub : List Entry}
    (h : find? entries name = some (.directory own access sub)) :
    putBelow entry (name :: rest) entries = entries.map (putInto entry name rest) := by
  rw [putBelow, h]
  exact List.map_congr_left fun e _ => by cases e <;> rfl

/-- A directory on the way keeps its place, with the entry put below it. -/
theorem find?_putBelow (entry : Entry) (rest : Location) {entries sub : List Entry}
    (h : find? entries name = some (.directory own access sub)) (other : Path) :
    find? (putBelow entry (name :: rest) entries) other =
      if name = other then some (.directory own access (putBelow entry rest sub))
      else find? entries other := by
  have hfind : find? (entries.map (putInto entry name rest)) other =
      (find? entries other).map (putInto entry name rest) := by
    rw [find?, List.find?_map]
    simp only [Function.comp_def, name_putInto]
    rfl
  rw [putBelow_directory h, hfind]
  by_cases hother : name = other
  · subst hother
    have hown : own = name := name_of_find? h
    rw [if_pos rfl, h, Option.map_some, putInto, if_pos hown]
  · rw [if_neg hother]
    cases hentry : find? entries other with
    | none => rfl
    | some e =>
        have hne : e.name ≠ name := by
          rw [name_of_find? hentry]
          exact Ne.symm hother
        rw [Option.map_some, putInto_of_ne hne]

/-- **Putting a file into a directory changes one location**, unless a directory stands
there. -/
theorem itemIn?_putBelow {location : Location} (file : Access) (content : Bytes)
    (hdirectory : itemIn? location directory = some (.directory access))
    (hfree : ∀ access, itemIn? (location ++ [name]) directory ≠ some (.directory access))
    (other : Location) :
    itemIn? other
        { directory with
          entries := putBelow (.file name file content) location directory.entries } =
      if other = location ++ [name] then some (.file file content)
      else itemIn? other directory := by
  induction location generalizing directory other with
  | nil =>
      rw [List.nil_append] at hfree
      rw [putBelow, List.nil_append]
      cases other with
      | nil => rfl
      | cons first others =>
          have hfind := find?_putEntry_file name file content directory.entries first
          by_cases hfirst : name = first
          · subst hfirst
            rw [if_pos rfl] at hfind
            by_cases hothers : others = []
            · subst hothers
              rw [itemIn?_singleton, hfind, if_pos rfl]
              rfl
            · have hfile : ∀ access, itemIn? [name] { directory with
                  entries := putEntry (.file name file content) directory.entries } ≠
                    some (.directory access) := by
                intro access
                rw [itemIn?_singleton, hfind]
                nofun
              rw [itemIn?_eq_none hfile hothers, itemIn?_eq_none hfree hothers,
                if_neg (by simp [hothers])]
          · rw [if_neg hfirst] at hfind
            rw [itemIn?_congr hfind, if_neg (by simp [Ne.symm hfirst])]
  | cons step location ih =>
      obtain ⟨own, inner, sub, hstep⟩ := exists_directory hdirectory
      rw [itemIn?_directory hstep] at hdirectory
      rw [List.cons_append, itemIn?_directory hstep] at hfree
      cases other with
      | nil => rfl
      | cons first others =>
          have hfind := find?_putBelow (.file name file content) location hstep first
          by_cases hfirst : step = first
          · subst hfirst
            rw [if_pos rfl] at hfind
            rw [itemIn?_directory hfind, itemIn?_directory hstep, ih hdirectory hfree]
            simp only [List.cons_append, List.cons.injEq, true_and]
          · rw [if_neg hfirst] at hfind
            rw [itemIn?_congr hfind, if_neg (by simp [Ne.symm hfirst])]

end

/-! ### Trails of a tree -/

namespace Trail

/-- The directories of a trail are those of the tree. -/
def Genuine (t : FileTree) : Trail → Prop
  | [] => True
  | (name, directory) :: trail =>
    (∃ own, find? (t.directoryAt trail).entries name =
        some (.directory own directory.access directory.entries)) ∧
      Genuine t trail

/-- Going into a directory adds its name to the location. -/
theorem location_enter (trail : Trail) (name : Path) (directory : Directory) :
    (trail.enter name directory).location = trail.location ++ [name] := by
  simp [enter, location]

/-- The parent is one name shorter. -/
theorem location_parent (trail : Trail) : trail.parent.location = trail.location.dropLast := by
  simp [parent, location]

/-- The target of a link starts at the top or where the link stands. -/
theorem location_start (trail : Trail) (path : Path) :
    (trail.start path).location = if Path.isAbsolute path then [] else trail.location := by
  unfold start
  split <;> rfl

variable {t : FileTree} {trail : Trail}

/-- The directory above one of the tree is one of the tree. -/
theorem Genuine.parent (h : trail.Genuine t) : trail.parent.Genuine t := by
  cases trail with
  | nil => trivial
  | cons step trail => exact h.2

/-- A directory that is found in one of the tree is one of the tree. -/
theorem Genuine.enter {name own : Path} {access : Access} {entries : List Entry}
    (h : trail.Genuine t)
    (hfind : find? (t.directoryAt trail).entries name = some (.directory own access entries)) :
    (trail.enter name ⟨access, entries⟩).Genuine t :=
  ⟨⟨own, hfind⟩, h⟩

/-- What stands below a directory of the tree stands in the tree. -/
theorem Genuine.itemAt?_append (h : trail.Genuine t) (below : Location) :
    t.itemAt? (trail.location ++ below) = itemIn? below (t.directoryAt trail) := by
  induction trail generalizing below with
  | nil => rfl
  | cons step trail ih =>
      obtain ⟨⟨own, hfind⟩, htrail⟩ := h
      have hlocation : Trail.location (step :: trail) = Trail.location trail ++ [step.1] :=
        location_enter trail step.1 step.2
      rw [hlocation, List.append_assoc, ih htrail, List.singleton_append,
        itemIn?_directory hfind]
      rfl

/-- Where a trail leads stands its directory. -/
theorem Genuine.itemAt? (h : trail.Genuine t) :
    t.itemAt? trail.location = some (.directory (t.directoryAt trail).access) := by
  rw [← List.append_nil trail.location, h.itemAt?_append, itemIn?]

/-- What a directory has under a name stands in the tree. -/
theorem Genuine.item_find? (h : trail.Genuine t) (name : Path) :
    (find? (t.directoryAt trail).entries name).map Entry.item =
      t.itemAt? (trail.location ++ [name]) := by
  rw [h.itemAt?_append, itemIn?_singleton]

end Trail

namespace Place

/-- The place is one of the tree. -/
def Genuine (t : FileTree) : Place → Prop
  | .file parent name access content =>
    parent.Genuine t ∧
      ∃ own, find? (t.directoryAt parent).entries name = some (.file own access content)
  | .directory trail => trail.Genuine t
  | .vacant parent name =>
    parent.Genuine t ∧ find? (t.directoryAt parent).entries name = none

/-- The location of a place that is no directory. -/
def target? : Place → Option Location
  | .file parent name _ _ => some (parent.location ++ [name])
  | .vacant parent name => some (parent.location ++ [name])
  | .directory _ => none

end Place

/-- A path leads from directories of the tree to places of the tree. -/
theorem kept_genuine (t : FileTree) : Kept t (Trail.Genuine t) (Place.Genuine t) where
  top := trivial
  parent := Trail.Genuine.parent
  enter := Trail.Genuine.enter
  directory htrail := htrail
  file htrail hfind := ⟨htrail, _, hfind⟩
  vacant htrail hfind := ⟨htrail, hfind⟩

/-! ### The same way in two trees -/

/-- Trails of two trees to the same location. -/
structure SameTrail (t t' : FileTree) (trail trail' : Trail) : Prop where
  location : trail.location = trail'.location
  first : trail.Genuine t
  second : trail'.Genuine t'

namespace SameTrail

variable {t t' : FileTree} {trail trail' : Trail} {name : Path}

/-- The directories above have the same location. -/
theorem parent (h : SameTrail t t' trail trail') : SameTrail t t' trail.parent trail'.parent where
  location := by rw [Trail.location_parent, Trail.location_parent, h.location]
  first := h.first.parent
  second := h.second.parent

/-- The target of a link starts at the same location. -/
theorem start (h : SameTrail t t' trail trail') (path : Path) :
    SameTrail t t' (trail.start path) (trail'.start path) where
  location := by rw [Trail.location_start, Trail.location_start, h.location]
  first := (kept_genuine t).start h.first path
  second := (kept_genuine t').start h.second path

/-- Directories of one name in both have the same location. -/
theorem enter {own own' : Path} {access access' : Access} {entries entries' : List Entry}
    (h : SameTrail t t' trail trail')
    (hfind : find? (t.directoryAt trail).entries name = some (.directory own access entries))
    (hfind' : find? (t'.directoryAt trail').entries name =
      some (.directory own' access' entries')) :
    SameTrail t t' (trail.enter name ⟨access, entries⟩) (trail'.enter name ⟨access', entries'⟩)
    where
  location := by rw [Trail.location_enter, Trail.location_enter, h.location]
  first := h.first.enter hfind
  second := h.second.enter hfind'

variable {target : Location} {access : Access} {content : Bytes}

/-- What the program may do with a directory on the way is as before. -/
theorem access_eq (h : SameTrail t t' trail trail')
    (hwritten : Written t t' target access content) :
    (t'.directoryAt trail').access = (t.directoryAt trail).access := by
  have hitem := h.first.itemAt?
  have hitem' := h.second.itemAt?
  rw [← h.location] at hitem'
  have hother : trail.location ≠ target := by
    intro htarget
    rw [htarget, hwritten.file] at hitem'
    cases hitem'
  rw [hwritten.others _ hother, hitem] at hitem'
  exact (Item.directory.inj (Option.some.inj hitem')).symm

/-- At the last name, the file that was written is found. -/
theorem find?_written (h : SameTrail t t' trail trail')
    (hwritten : Written t t' target access content) (htarget : trail.location ++ [name] = target) :
    ∃ own, find? (t'.directoryAt trail').entries name = some (.file own access content) := by
  have hitem := h.second.item_find? name
  rw [← h.location, htarget, hwritten.file] at hitem
  obtain ⟨e, hfind, he⟩ := Option.map_eq_some_iff.mp hitem
  cases e with
  | file own _ _ =>
      cases he
      exact ⟨own, hfind⟩
  | link _ _ => cases he
  | directory _ _ _ => cases he

/-- Before the last name, what is met is there as before. -/
theorem find?_unchanged (h : SameTrail t t' trail trail')
    (hwritten : Written t t' target access content) {e : Entry}
    (hfind : find? (t.directoryAt trail).entries name = some e)
    (he : ∀ access content, e.item ≠ .file access content) :
    ∃ e', find? (t'.directoryAt trail').entries name = some e' ∧ e'.item = e.item := by
  have hitem := h.first.item_find? name
  rw [hfind, Option.map_some] at hitem
  have hother : trail.location ++ [name] ≠ target := by
    rintro rfl
    obtain ⟨content, hcontent⟩ := hwritten.old _ hitem.symm
    exact he access content hcontent
  have hitem' := h.second.item_find? name
  rw [← h.location, hwritten.others _ hother, ← hitem] at hitem'
  exact Option.map_eq_some_iff.mp hitem'

/-- Names of directories lead on to the same location. -/
theorem exists_descend? (h : SameTrail t t' trail trail')
    (hwritten : Written t t' target access content) {names : Location} {found : Trail}
    (hfound : t.descend? trail names = some found) :
    ∃ found', t'.descend? trail' names = some found' ∧ SameTrail t t' found found' := by
  fun_induction descend? t trail names generalizing trail' with
  | case1 =>
      cases hfound
      exact ⟨trail', rfl, h⟩
  | case2 trail name rest own own' entries hfind ih =>
      obtain ⟨e, hfind', hitem⟩ := h.find?_unchanged hwritten hfind (by simp [Entry.item])
      cases e with
      | directory _ _ _ =>
          rw [descend?, hfind']
          exact ih (h.enter hfind hfind') hfound
      | file _ _ _ => cases hitem
      | link _ _ => cases hitem
  | case3 => cases hfound

/-- A path starts at the same location. -/
theorem exists_start? (hwritten : Written t t' target access content) {path : Path}
    (hstart : t.start? path = some trail) :
    ∃ trail', t'.start? path = some trail' ∧ SameTrail t t' trail trail' := by
  have htop : SameTrail t t' [] [] := ⟨rfl, trivial, trivial⟩
  unfold start? at hstart ⊢
  split at hstart
  · next habsolute =>
    cases hstart
    exact ⟨[], if_pos habsolute, htop⟩
  · next hrelative =>
    rw [if_neg hrelative, here?, hwritten.current]
    exact htop.exists_descend? hwritten hstart

end SameTrail

section

variable {t t' : FileTree} {target : Location} {access : Access} {content : Bytes}
  {trail trail' : Trail} {place : Place} {path : Path}

/-- The way to a file that was written leads to it again, if it does from links. -/
theorem followTo_written {again again' : Trail → List Path → Except FileError Place}
    (hwritten : Written t t' target access content) (htarget : place.target? = some target)
    (hagain : ∀ {trail trail' : Trail} {names}, SameTrail t t' trail trail' →
      again trail names = .ok place → ∃ parent name,
        again' trail' names = .ok (.file parent name access content) ∧
          parent.location ++ [name] = target)
    {names : List Path} (hsame : SameTrail t t' trail trail')
    (h : t.followTo .writing again trail names = .ok place) :
    ∃ parent name,
      t'.followTo .looking again' trail' names = .ok (.file parent name access content) ∧
        parent.location ++ [name] = target := by
  -- A slash after the last name is no matter for looking.
  have hlooking : ∀ rest : List Path,
      ¬(Purpose.looking = .writing ∧ rest.all List.isEmpty = true ∧ rest ≠ []) := by
    rintro rest ⟨hpurpose, -⟩
    cases hpurpose
  -- Each step goes to the same location in both trees.  On the way there are directories and
  -- links, which are as before; the way ends at the target, where the new file is.
  fun_induction followTo t .writing again trail names generalizing trail' with
  | case1 =>
      cases h
      cases htarget
  | case2 trail rest ih =>
      rw [followTo, if_pos rfl]
      exact ih hsame h
  | case4 trail rest henter hempty ih =>
      rw [followTo, if_neg hempty, hsame.access_eq hwritten, if_neg henter, if_pos rfl]
      exact ih hsame h
  | case5 trail rest henter hempty hhere ih =>
      rw [followTo, if_neg hempty, hsame.access_eq hwritten, if_neg henter, if_neg hhere,
        if_pos rfl]
      exact ih hsame.parent h
  | case8 trail name rest hempty henter hhere habove last hslash hlength _ =>
      rename_i hlast
      cases h
      have hrest : rest = [] := by
        by_contra hne
        exact hslash ⟨rfl, hlast, hne⟩
      have hplace : trail'.location ++ [name] = target := by
        rw [← hsame.location]
        exact Option.some.inj htarget
      obtain ⟨own, hfind⟩ := hsame.find?_written hwritten (Option.some.inj htarget)
      rw [← hsame.access_eq hwritten] at henter
      rw [followTo_name hempty henter hhere habove (hlooking rest) hlength, hfind, hrest]
      exact ⟨trail', name, rfl, hplace⟩
  | case10 trail name rest hempty henter hhere habove last hslash hlength _ _ old _ =>
      rename_i hrest
      cases h
      have hplace : trail'.location ++ [name] = target := by
        rw [← hsame.location]
        exact Option.some.inj htarget
      obtain ⟨own, hfind⟩ := hsame.find?_written hwritten (Option.some.inj htarget)
      rw [← hsame.access_eq hwritten] at henter
      rw [followTo_name hempty henter hhere habove (hlooking rest) hlength, hfind]
      exact ⟨trail', name, if_pos hrest, hplace⟩
  | case12 trail name rest hempty henter hhere habove last hslash hlength own inner entries
      hfind =>
      rename_i ih
      obtain ⟨e, hfind', hitem⟩ := hsame.find?_unchanged hwritten hfind (by simp [Entry.item])
      rw [← hsame.access_eq hwritten] at henter
      cases e with
      | directory own' inner' entries' =>
          rw [followTo_name hempty henter hhere habove (hlooking rest) hlength, hfind']
          exact ih (hsame.enter hfind hfind') h
      | file _ _ _ => cases hitem
      | link _ _ => cases hitem
  | case13 trail name rest hempty henter hhere habove last hslash hlength own path =>
      rename_i hfind
      obtain ⟨e, hfind', hitem⟩ := hsame.find?_unchanged hwritten hfind (by simp [Entry.item])
      rw [← hsame.access_eq hwritten] at henter
      cases e with
      | link own' path' =>
          cases hitem
          rw [followTo_name hempty henter hhere habove (hlooking rest) hlength, hfind']
          exact hagain (hsame.start path) h
      | file _ _ _ => cases hitem
      | directory _ _ _ => cases hitem
  | _ => cases h

/-- However many links there are on the way. -/
theorem follow_written {links : Nat} {names : List Path}
    (hwritten : Written t t' target access content) (htarget : place.target? = some target)
    (hsame : SameTrail t t' trail trail')
    (h : t.follow .writing links trail names = .ok place) :
    ∃ parent name, t'.follow .looking links trail' names =
      .ok (.file parent name access content) ∧ parent.location ++ [name] = target := by
  induction links generalizing trail trail' names with
  | zero =>
      refine followTo_written hwritten htarget ?_ hsame h
      intro _ _ _ _ hlink
      cases hlink
  | succ links ih =>
      refine followTo_written hwritten htarget ?_ hsame h
      intro _ _ _ hsame hlink
      exact ih hsame hlink

/-- A path that was written leads to the file. -/
theorem leadsToFile_of_written (hwritten : Written t t' target access content)
    (htarget : place.target? = some target) (h : t.lookup .writing path = .ok place) :
    t'.LeadsToFile path target access content := by
  obtain ⟨hnul, hempty, hfits, trail, hstart, hfollow⟩ := follow_of_lookup h
  obtain ⟨trail', hstart', hsame⟩ := SameTrail.exists_start? hwritten hstart
  obtain ⟨parent, name, hfollow', hplace⟩ := follow_written hwritten htarget hsame hfollow
  exact ⟨parent, name, lookup_of_follow hnul hempty hfits hstart' hfollow', hplace⟩

/-- What is written is put into the directory of the place to which the path leads. -/
theorem exists_place_of_write (h : t.write path content = .ok t') :
    ∃ place, t.lookup .writing path = .ok place ∧ t.writeAt content place = .ok t' := by
  cases hlookup : t.lookup .writing path with
  | error e =>
      rw [write, hlookup] at h
      cases h
  | ok place =>
      refine ⟨place, rfl, ?_⟩
      rw [write, hlookup] at h
      simp only [bind, Except.bind] at h
      split at h
      · next hwrite =>
        cases h
        exact hwrite
      · cases h

/-- Putting a file into a directory of the tree changes its location and no other. -/
theorem written_put {parent : Trail} {name : Path} (hparent : parent.Genuine t)
    (hold : ∀ item, t.itemAt? (parent.location ++ [name]) = some item →
      ∃ content, item = .file access content) :
    Written t (t.put parent.location (.file name access content)) (parent.location ++ [name])
      access content := by
  have hfree : ∀ other, t.itemAt? (parent.location ++ [name]) ≠ some (.directory other) := by
    intro other hitem
    obtain ⟨_, hfile⟩ := hold _ hitem
    cases hfile
  have hitem := itemIn?_putBelow access content hparent.itemAt? hfree
  exact {
    file := (hitem _).trans (if_pos rfl)
    old := hold
    others := fun other hother => (hitem other).trans (if_neg hother)
    current := rfl }

/-- A file is written at the location of the place. -/
theorem written_of_writeAt (hplace : place.Genuine t) (h : t.writeAt content place = .ok t') :
    ∃ target access, place.target? = some target ∧ Written t t' target access content := by
  cases place with
  | directory trail => cases h
  | vacant parent name =>
      obtain ⟨hparent, hfind⟩ := hplace
      simp only [writeAt] at h
      split at h
      · cases h
        refine ⟨_, {}, rfl, written_put hparent ?_⟩
        intro item hitem
        rw [← hparent.item_find?, hfind] at hitem
        cases hitem
      · cases h
  | file parent name access old =>
      obtain ⟨hparent, own, hfind⟩ := hplace
      simp only [writeAt] at h
      split at h
      · cases h
        refine ⟨_, access, rfl, written_put hparent ?_⟩
        intro item hitem
        rw [← hparent.item_find?, hfind] at hitem
        cases hitem
        exact ⟨old, rfl⟩
      · cases h

/-- **A file that is written is there**, at one location and under the path, and nothing else
has changed. -/
theorem written_of_write (h : t.write path content = .ok t') :
    ∃ location access, Written t t' location access content ∧
      t'.LeadsToFile path location access content := by
  obtain ⟨place, hlookup, hwrite⟩ := exists_place_of_write h
  obtain ⟨target, access, htarget, hwritten⟩ :=
    written_of_writeAt ((kept_genuine t).of_lookup hlookup) hwrite
  exact ⟨target, access, hwritten, leadsToFile_of_written hwritten htarget hlookup⟩

end

end FileTree

end SourceOutline
