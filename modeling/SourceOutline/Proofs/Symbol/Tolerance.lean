import Mathlib.Data.List.Basic
import Mathlib.Logic.Relation
import SourceOutline.Proofs.Symbol.Reading

/-!
# What reading a symbol tolerates

The JSON form of a symbol has levels: the object of the symbol itself, those of its members,
and so on down.  Some changes of an object leave what is read from it as it is, others leave
nothing to read.

1.  Reading an object only looks up its six keys (`Symbol.ofJson_object`), so a change is known
    by what it does to the lookups.
2.  Unknown keys, a missing list of no members and a label of null make no difference
    (`Symbol.ofJson_of_loosening`), at no level (`Symbol.ofJson_of_atLevel`).
3.  A missing key or a line out of bounds is the first problem that a reader of an otherwise
    readable object meets (`Symbol.ofJson_of_defect`), and the reader of the members around it
    passes the problem on (`Symbol.ofJson_of_defect_atLevel`).
-/

namespace SourceOutline

namespace Json

/-! ## Looking up fields -/

/-- A later field of a key hides the earlier ones. -/
theorem lookup_append (key : String) (xs ys : List (String × Json)) :
    lookup key (xs ++ ys) = (lookup key ys).or (lookup key xs) := by
  induction xs with
  | nil => simp [lookup]
  | cons x xs ih =>
      obtain ⟨k, v⟩ := x
      rw [List.cons_append, lookup, lookup, ih]
      cases lookup key ys <;> rfl

/-- A key that no field has is not found. -/
theorem lookup_eq_none {key : String} {fields : List (String × Json)}
    (h : key ∉ fields.map Prod.fst) : lookup key fields = none := by
  induction fields with
  | nil => rfl
  | cons field fields ih =>
      obtain ⟨k, v⟩ := field
      rw [List.map_cons, List.mem_cons, not_or] at h
      rw [lookup, ih h.2]
      exact if_neg fun heq => h.1 heq.symm

/-- A key that is nowhere in the fields is nowhere in the later ones. -/
theorem not_mem_after {key : String} {before after : List (String × Json)}
    (h : key ∉ (before ++ after).map Prod.fst) : key ∉ after.map Prod.fst := by
  rw [List.map_append, List.mem_append, not_or] at h
  exact h.2

/-- A field can be looked up when no field after it has its key. -/
theorem lookup_insert {key : String} {after : List (String × Json)}
    (h : key ∉ after.map Prod.fst) (before : List (String × Json)) (value : Json) :
    lookup key (before ++ (key, value) :: after) = some value := by
  rw [lookup_append, lookup, lookup_eq_none h]
  simp

/-- A field makes no difference for other keys. -/
theorem lookup_insert_of_ne {key other : String} (h : other ≠ key)
    (before after : List (String × Json)) (value : Json) :
    lookup key (before ++ (other, value) :: after) = lookup key (before ++ after) := by
  rw [lookup_append, lookup_append, lookup, if_neg h]
  cases lookup key after <;> rfl

/-- Without the fields of a key, nothing is found under it and all else is as before. -/
theorem lookup_without (key gone : String) (fields : List (String × Json)) :
    lookup key (fields.filter fun field => field.1 ≠ gone) =
      if key = gone then none else lookup key fields := by
  induction fields with
  | nil => simp [lookup]
  | cons field fields ih =>
      obtain ⟨k, v⟩ := field
      by_cases hgone : k = gone
      · rw [List.filter_cons_of_neg (by simpa using hgone), ih, lookup]
        by_cases hkey : key = gone
        · rw [if_pos hkey, if_pos hkey]
        · have hne : k ≠ key := fun heq => hkey (heq.symm.trans hgone)
          rw [if_neg hkey, if_neg hkey, if_neg hne]
          cases lookup key fields <;> rfl
      · rw [List.filter_cons_of_pos (by simpa using hgone), lookup, lookup, ih]
        by_cases hkey : key = gone
        · have hne : k ≠ key := fun heq => hgone (heq.trans hkey)
          rw [if_pos hkey, if_pos hkey, if_neg hne]
        · rw [if_neg hkey, if_neg hkey]

end Json

namespace Symbol

open Json (lookup)

/-! ## Changes -/

/-- The keys that a symbol is read from. -/
def keys : List String :=
  ["endLine", "kind", "members", "name", "startLine", "type"]

/-- The keys that may not be missing. -/
def requiredKeys : List String :=
  ["endLine", "kind", "name", "startLine"]

/-- The keys of lines. -/
def lineKeys : List String :=
  ["endLine", "startLine"]

/-- A change of one object that the format allows. -/
inductive Loosening : Json → Json → Prop where
  /-- A key that is not one of a symbol is added, with any value. -/
  | extraKey (before after : List (String × Json)) (key : String) (value : Json) :
      key ∉ keys →
      Loosening (.object (before ++ after)) (.object (before ++ (key, value) :: after))
  /-- The empty list of members is left out. -/
  | noMembers (before after : List (String × Json)) :
      "members" ∉ (before ++ after).map Prod.fst →
      Loosening (.object (before ++ ("members", .array []) :: after)) (.object (before ++ after))
  /-- Null is written where there is no label. -/
  | nullLabel (before after : List (String × Json)) :
      "type" ∉ (before ++ after).map Prod.fst →
      Loosening (.object (before ++ after)) (.object (before ++ ("type", .null) :: after))

/-- The problem with an integer that is no line. -/
def lineError (n : Int) : ReadError :=
  if -(Json.signedLimit : Int) ≤ n ∧ n < 0 then .wrongValue (.number (.integer n)) .line
  else .wrongType (.number (.integer n)) .line

/-- A change of one object that spoils it, with the problem that comes of it. -/
inductive Defect : ReadError → Json → Json → Prop where
  /-- A key that may not be missing is removed. -/
  | missing (fields : List (String × Json)) (key : String) : key ∈ requiredKeys →
      Defect (.missingKey key) (.object fields)
        (.object (fields.filter fun field => field.1 ≠ key))
  /-- A line is replaced by an integer that is negative or has more than 64 bits. -/
  | line (before after : List (String × Json)) (key : String) (value : Json) (n : Int) :
      key ∈ lineKeys → key ∉ after.map Prod.fst → n < 0 ∨ (Json.unsignedLimit : Int) ≤ n →
      Defect (lineError n) (.object (before ++ (key, value) :: after))
        (.object (before ++ (key, .number (.integer n)) :: after))

/-- A change at one level: that of the whole, or that of a member at any depth.  All else is
the same. -/
inductive AtLevel (change : Json → Json → Prop) : Json → Json → Prop where
  | here {j j' : Json} : change j j' → AtLevel change j j'
  | member (before after : List (String × Json)) (items others : List Json) {j j' : Json} :
      "members" ∉ after.map Prod.fst → AtLevel change j j' →
      AtLevel change
        (.object (before ++ ("members", .array (items ++ j :: others)) :: after))
        (.object (before ++ ("members", .array (items ++ j' :: others)) :: after))

/-- Any number of allowed changes, each at any level. -/
def Loosened : Json → Json → Prop :=
  Relation.ReflTransGen (AtLevel Loosening)

/-! ## Reading an object -/

/-- The members are read from the last field of their key. -/
theorem membersField_eq_lookup (fields : List (String × Json)) :
    membersField fields = (lookup "members" fields).map readMembers := by
  induction fields with
  | nil => simp [membersField, lookup]
  | cons field fields ih =>
      obtain ⟨key, value⟩ := field
      rw [membersField, ih, lookup]
      cases lookup "members" fields with
      | some found => rfl
      | none => by_cases hkey : key = "members" <;> simp [hkey]

/-- An object is read from what is found under its keys, the members among them. -/
theorem ofJson_object (fields : List (String × Json)) :
    ofJson (.object fields) =
      ofFields fields ((lookup "members" fields).map readMembers) := by
  rw [ofJson, membersField_eq_lookup]

/-- What is read from an object besides its members depends on five lookups. -/
theorem ofFields_congr {fields fields' : List (String × Json)}
    (h : ∀ key ∈ keys, key ≠ "members" → lookup key fields' = lookup key fields)
    (members : Option (Except ReadError (List Symbol))) :
    ofFields fields' members = ofFields fields members := by
  unfold ofFields
  rw [h "endLine" (by decide) (by decide), h "kind" (by decide) (by decide),
    h "name" (by decide) (by decide), h "startLine" (by decide) (by decide),
    h "type" (by decide) (by decide)]

/-- No list of members is the same as an empty one. -/
theorem ofFields_noMembers (fields : List (String × Json)) :
    ofFields fields none = ofFields fields (some (.ok [])) :=
  rfl

/-- No label is the same as null. -/
theorem ofFields_nullLabel {fields fields' : List (String × Json)}
    (h : ∀ key ∈ keys, key ≠ "type" → lookup key fields' = lookup key fields)
    (hnull : lookup "type" fields' = some .null) (hnone : lookup "type" fields = none)
    (members : Option (Except ReadError (List Symbol))) :
    ofFields fields' members = ofFields fields members := by
  unfold ofFields
  rw [h "endLine" (by decide) (by decide), h "kind" (by decide) (by decide),
    h "name" (by decide) (by decide), h "startLine" (by decide) (by decide), hnull, hnone]
  rfl

/-! ## Allowed changes make no difference -/

/-- One edit of the fields of an object leaves what is read. -/
theorem ofJson_of_loosening {j j' : Json} (h : Loosening j j') : ofJson j' = ofJson j := by
  cases h with
  | extraKey before after key value hkey =>
      have hsame : ∀ known ∈ keys,
          lookup known (before ++ (key, value) :: after) = lookup known (before ++ after) := by
        intro known hknown
        have hne : key ≠ known := by
          intro heq
          subst heq
          exact hkey hknown
        exact Json.lookup_insert_of_ne hne before after value
      rw [ofJson_object, ofJson_object, hsame "members" (by decide)]
      exact ofFields_congr (fun known hknown _ => hsame known hknown) _
  | noMembers before after hmembers =>
      have hfound := Json.lookup_insert (Json.not_mem_after hmembers) before (.array [])
      have hread : readMembers (.array []) = .ok [] := by rw [readMembers, ofJsons]
      rw [ofJson_object, ofJson_object, Json.lookup_eq_none hmembers, hfound, Option.map_none,
        Option.map_some, hread, ofFields_noMembers]
      refine (ofFields_congr ?_ _).symm
      intro key _ hne
      exact Json.lookup_insert_of_ne hne.symm before after (.array [])
  | nullLabel before after hlabel =>
      have hfound := Json.lookup_insert (Json.not_mem_after hlabel) before .null
      have hsame : ∀ key ∈ keys, key ≠ "type" →
          lookup key (before ++ ("type", .null) :: after) = lookup key (before ++ after) :=
        fun key _ hne => Json.lookup_insert_of_ne hne.symm before after .null
      rw [ofJson_object, ofJson_object, hsame "members" (by decide) (by decide)]
      exact ofFields_nullLabel hsame hfound (Json.lookup_eq_none hlabel) _

/-- A list is read the same when one of its items is read the same. -/
theorem ofJsons_congr {j j' : Json} (h : ofJson j' = ofJson j) (items others : List Json) :
    ofJsons (items ++ j' :: others) = ofJsons (items ++ j :: others) := by
  induction items with
  | nil => rw [List.nil_append, List.nil_append, ofJsons, ofJsons, h]
  | cons item items ih => rw [List.cons_append, List.cons_append, ofJsons, ofJsons, ih]

/-- The lookups of an object whose members are replaced. -/
theorem lookup_members {key : String} (hne : key ≠ "members") (before after : List (String × Json))
    (value value' : Json) :
    lookup key (before ++ ("members", value') :: after) =
      lookup key (before ++ ("members", value) :: after) := by
  rw [Json.lookup_insert_of_ne hne.symm, Json.lookup_insert_of_ne hne.symm]

/-- **What makes no difference for an object makes none at any level.** -/
theorem ofJson_of_atLevel {change : Json → Json → Prop}
    (hchange : ∀ {j j' : Json}, change j j' → ofJson j' = ofJson j) {j j' : Json}
    (h : AtLevel change j j') : ofJson j' = ofJson j := by
  induction h with
  | here hhere => exact hchange hhere
  | member before after items others hmembers _ ih =>
      rw [ofJson_object, ofJson_object, Json.lookup_insert hmembers, Json.lookup_insert hmembers,
        Option.map_some, Option.map_some, readMembers, readMembers, ofJsons_congr ih]
      exact ofFields_congr (fun key _ hne => lookup_members hne before after _ _) _

/-- Any number of edits at any levels leave what is read. -/
theorem ofJson_of_loosened {j j' : Json} (h : Loosened j j') : ofJson j' = ofJson j := by
  induction h with
  | refl => rfl
  | tail _ hlast ih => exact (ofJson_of_atLevel ofJson_of_loosening hlast).trans ih

/-! ## Defects are met -/

/-- A sequence of readers that succeeds has a value at every stage. -/
theorem exists_of_bind_eq_ok {α β : Type} {x : Except ReadError α} {f : α → Except ReadError β}
    {b : β} (h : x >>= f = .ok b) : ∃ a, x = .ok a ∧ f a = .ok b := by
  cases x with
  | ok a => exact ⟨a, rfl, h⟩
  | error e => cases h

/-- A required field that is accepted was there. -/
theorem eq_some_of_require {β : Type} {key : String} {found : Option β} {b : β}
    (h : require key found = .ok b) : found = some b := by
  cases found with
  | none => cases h
  | some a =>
      cases h
      rfl

/-- Every field of an object that is read can be read. -/
structure FieldsRead (fields : List (String × Json))
    (members : Option (Except ReadError (List Symbol))) (s : Symbol) : Prop where
  endLine : readIf readLine (lookup "endLine" fields) = .ok (some s.endLine)
  kind : readIf readKind (lookup "kind" fields) = .ok (some s.kind)
  members : ∃ found, readIf id members = .ok found
  name : readIf readText (lookup "name" fields) = .ok (some s.name)
  startLine : readIf readLine (lookup "startLine" fields) = .ok (some s.startLine)
  label : ∃ label, readIf readLabel (lookup "type" fields) = .ok label

/-- An object that is read has no field that cannot be. -/
theorem fieldsRead_of_ofFields {fields : List (String × Json)}
    {members : Option (Except ReadError (List Symbol))} {s : Symbol}
    (h : ofFields fields members = .ok s) : FieldsRead fields members s := by
  unfold ofFields at h
  obtain ⟨endLine?, hend, h⟩ := exists_of_bind_eq_ok h
  obtain ⟨kind?, hkind, h⟩ := exists_of_bind_eq_ok h
  obtain ⟨members?, hmembers, h⟩ := exists_of_bind_eq_ok h
  obtain ⟨name?, hname, h⟩ := exists_of_bind_eq_ok h
  obtain ⟨startLine?, hstart, h⟩ := exists_of_bind_eq_ok h
  obtain ⟨label?, hlabel, h⟩ := exists_of_bind_eq_ok h
  obtain ⟨endLine, hend', h⟩ := exists_of_bind_eq_ok h
  obtain ⟨kind, hkind', h⟩ := exists_of_bind_eq_ok h
  obtain ⟨name, hname', h⟩ := exists_of_bind_eq_ok h
  obtain ⟨startLine, hstart', h⟩ := exists_of_bind_eq_ok h
  cases eq_some_of_require hend'
  cases eq_some_of_require hkind'
  cases eq_some_of_require hname'
  cases eq_some_of_require hstart'
  cases h
  exact ⟨hend, hkind, ⟨members?, hmembers⟩, hname, hstart, ⟨label?, hlabel⟩⟩

/-- A line number below zero or past the limit is refused with its own message. -/
theorem readLine_of_lineError {n : Int} (h : n < 0 ∨ (Json.unsignedLimit : Int) ≤ n) :
    readLine (.number (.integer n)) = .error (lineError n) := by
  have hout : ¬ (0 ≤ n ∧ n < (Json.unsignedLimit : Int)) := by omega
  rw [readLine, if_neg hout, lineError]
  split <;> rfl

/-- A missing key is reported when all else can be read. -/
theorem ofFields_missing {fields fields' : List (String × Json)}
    {members : Option (Except ReadError (List Symbol))} {s : Symbol} {key : String}
    (hkey : key ∈ requiredKeys) (h : FieldsRead fields members s)
    (hgone : lookup key fields' = none)
    (hothers : ∀ other, other ≠ key → lookup other fields' = lookup other fields) :
    ofFields fields' members = .error (.missingKey key) := by
  obtain ⟨hend, hkind, ⟨found, hmembers⟩, hname, hstart, ⟨label, hlabel⟩⟩ := h
  unfold ofFields
  rw [hmembers]
  simp only [requiredKeys, List.mem_cons, List.not_mem_nil, or_false] at hkey
  rcases hkey with rfl | rfl | rfl | rfl
  · rw [hgone, hothers "kind" (by decide), hothers "name" (by decide),
      hothers "startLine" (by decide), hothers "type" (by decide), hkind, hname, hstart, hlabel]
    rfl
  · rw [hgone, hothers "endLine" (by decide), hothers "name" (by decide),
      hothers "startLine" (by decide), hothers "type" (by decide), hend, hname, hstart, hlabel]
    rfl
  · rw [hgone, hothers "endLine" (by decide), hothers "kind" (by decide),
      hothers "startLine" (by decide), hothers "type" (by decide), hend, hkind, hstart, hlabel]
    rfl
  · rw [hgone, hothers "endLine" (by decide), hothers "kind" (by decide),
      hothers "name" (by decide), hothers "type" (by decide), hend, hkind, hname, hlabel]
    rfl

/-- A line out of bounds is reported when all before it can be read. -/
theorem ofFields_line {fields fields' : List (String × Json)}
    {members : Option (Except ReadError (List Symbol))} {s : Symbol} {key : String} {n : Int}
    (hkey : key ∈ lineKeys) (h : FieldsRead fields members s)
    (hbounds : n < 0 ∨ (Json.unsignedLimit : Int) ≤ n)
    (hline : lookup key fields' = some (.number (.integer n)))
    (hothers : ∀ other, other ≠ key → lookup other fields' = lookup other fields) :
    ofFields fields' members = .error (lineError n) := by
  obtain ⟨hend, hkind, ⟨found, hmembers⟩, hname, -, -⟩ := h
  unfold ofFields
  rw [hmembers]
  simp only [lineKeys, List.mem_cons, List.not_mem_nil, or_false] at hkey
  rcases hkey with rfl | rfl
  · rw [hline, readIf, readLine_of_lineError hbounds]
    rfl
  · rw [hline, hothers "endLine" (by decide), hothers "kind" (by decide),
      hothers "name" (by decide), hend, hkind, hname, readIf, readLine_of_lineError hbounds]
    rfl

/-- **A defect is what the reader of the object reports.** -/
theorem ofJson_of_defect {e : ReadError} {j j' : Json} {s : Symbol} (h : Defect e j j')
    (hj : ofJson j = .ok s) : ofJson j' = .error e := by
  cases h with
  | missing fields key hkey =>
      have hothers : ∀ other, other ≠ key →
          lookup other (fields.filter fun field => field.1 ≠ key) = lookup other fields := by
        intro other hne
        rw [Json.lookup_without, if_neg hne]
      have hgone : lookup key (fields.filter fun field => field.1 ≠ key) = none := by
        rw [Json.lookup_without, if_pos rfl]
      have hmembers : "members" ≠ key := by
        intro heq
        subst heq
        exact absurd hkey (by decide)
      rw [ofJson_object] at hj ⊢
      rw [hothers _ hmembers]
      exact ofFields_missing hkey (fieldsRead_of_ofFields hj) hgone hothers
  | line before after key value n hkey hlast hbounds =>
      have hothers : ∀ other, other ≠ key →
          lookup other (before ++ (key, .number (.integer n)) :: after) =
            lookup other (before ++ (key, value) :: after) := by
        intro other hne
        rw [Json.lookup_insert_of_ne hne.symm, Json.lookup_insert_of_ne hne.symm]
      have hmembers : "members" ≠ key := by
        intro heq
        subst heq
        exact absurd hkey (by decide)
      rw [ofJson_object] at hj ⊢
      rw [hothers _ hmembers]
      exact ofFields_line hkey (fieldsRead_of_ofFields hj) hbounds
        (Json.lookup_insert hlast before _) hothers

/-- In a list that can be read each item can, and the problem of an item put in its place is
the one that is reported. -/
theorem ofJsons_item {items others : List Json} {j : Json} {symbols : List Symbol}
    (h : ofJsons (items ++ j :: others) = .ok symbols) :
    (∃ m, ofJson j = .ok m) ∧
      ∀ j' e, ofJson j' = .error e → ofJsons (items ++ j' :: others) = .error e := by
  induction items generalizing symbols with
  | nil =>
      rw [List.nil_append, ofJsons] at h
      obtain ⟨m, hm, -⟩ := exists_of_bind_eq_ok h
      refine ⟨⟨m, hm⟩, ?_⟩
      intro j' e he
      rw [List.nil_append, ofJsons, he]
      rfl
  | cons item items ih =>
      rw [List.cons_append, ofJsons] at h
      obtain ⟨first, hfirst, h⟩ := exists_of_bind_eq_ok h
      obtain ⟨rest, hrest, -⟩ := exists_of_bind_eq_ok h
      obtain ⟨hm, herror⟩ := ih hrest
      refine ⟨hm, ?_⟩
      intro j' e he
      rw [List.cons_append, ofJsons, hfirst, herror j' e he]
      rfl

/-- A problem with the members is reported when the lines before them can be read. -/
theorem ofFields_members {fields fields' : List (String × Json)}
    {members : Option (Except ReadError (List Symbol))} {s : Symbol} {e : ReadError}
    (h : FieldsRead fields members s)
    (hothers : ∀ key, key ≠ "members" → lookup key fields' = lookup key fields) :
    ofFields fields' (some (.error e)) = .error e := by
  unfold ofFields
  rw [hothers "endLine" (by decide), hothers "kind" (by decide), h.endLine, h.kind]
  rfl

/-- **A defect at any level is what is reported of the whole.** -/
theorem ofJson_of_defect_atLevel {e : ReadError} {j j' : Json} {s : Symbol}
    (h : AtLevel (Defect e) j j') (hj : ofJson j = .ok s) : ofJson j' = .error e := by
  induction h generalizing s with
  | here hhere => exact ofJson_of_defect hhere hj
  | member before after items others hmembers _ ih =>
      rw [ofJson_object, Json.lookup_insert hmembers, Option.map_some, readMembers] at hj
      have hread := fieldsRead_of_ofFields hj
      obtain ⟨found, hfound⟩ := hread.members
      obtain ⟨symbols, hsymbols, -⟩ := exists_of_bind_eq_ok (f := fun a => .ok (some a)) hfound
      obtain ⟨⟨m, hm⟩, herror⟩ := ofJsons_item hsymbols
      rw [ofJson_object, Json.lookup_insert hmembers, Option.map_some, readMembers,
        herror _ _ (ih hm)]
      exact ofFields_members hread fun key hne => lookup_members hne before after _ _

/-- **Reading is tolerant where the format says so, and only there.**  Whatever unknown keys
are added to the JSON form of a symbol, wherever an empty list of members is left out or a
missing label is written as null, at any levels and any number of times, the symbol is read.
But a key that may not be missing, or a line that is no number of 64 bits, is reported as the
problem of the whole, at whatever level it is. -/
theorem loosened_form_reads_back {s : Symbol} (hlines : s.LinesFit) {j : Json}
    (hj : Loosened s.toJson j) :
    ofJson j = .ok s ∧ ∀ e j', AtLevel (Defect e) j j' → ofJson j' = .error e := by
  have hread : ofJson j = .ok s := (ofJson_of_loosened hj).trans (ofJson_toJson hlines)
  exact ⟨hread, fun e j' hdefect => ofJson_of_defect_atLevel hdefect hread⟩

/-- A class with a variable and a function in it. -/
def toleranceSample : Symbol where
  kind := .classDecl
  name := "A"
  startLine := 1
  endLine := 9
  members :=
    [{ kind := .varDecl, name := "x", startLine := 2, endLine := 2, typeLabel := some "Int" },
      { kind := .funcDecl, name := "f", startLine := 3, endLine := 4 }]

/-- The fields of the variable. -/
def variableFields : List (String × Json) :=
  [("endLine", .ofNat 2), ("kind", .string "var"), ("members", .array []), ("name", .string "x"),
    ("startLine", .ofNat 2), ("type", .string "Int")]

/-- The JSON form of the class, with the given form of the function. -/
def classForm (function : Json) : Json :=
  .object ([("endLine", .ofNat 9), ("kind", .string "class")] ++
    ("members", .array ([.object variableFields] ++ function :: [])) ::
    [("name", .string "A"), ("startLine", .ofNat 1)])

/-- The first fields of the function, without members and with a key of another tool. -/
def functionHead : List (String × Json) :=
  [("endLine", .ofNat 4), ("kind", .string "func"), ("doc", .array [.bool true]),
    ("name", .string "f")]

/-- The fields of the function, with null for its label. -/
def functionFields (line : Json) : List (String × Json) :=
  functionHead ++ ("startLine", line) :: [("type", .null)]

/-- Three changes of the function are tolerated; a missing name or a negative line in it spoil
the class. -/
theorem functionForm_tolerated :
    let j := classForm (.object (functionFields (.ofNat 3)))
    let unnamed := (functionFields (.ofNat 3)).filter fun field => field.1 ≠ "name"
    toleranceSample.LinesFit ∧ Loosened toleranceSample.toJson j ∧
    ofJson j = .ok toleranceSample ∧
    ofJson (classForm (.object unnamed)) = .error (.missingKey "name") ∧
    ofJson (classForm (.object (functionFields (.number (.integer (-1)))))) =
      .error (.wrongValue (.number (.integer (-1))) .line) := by
  intro j unnamed
  have hlines : toleranceSample.LinesFit := by
    unfold LinesFit
    rw [descendants_eq_listing]
    decide
  have hlevel : ∀ {change : Json → Json → Prop} {f f' : Json}, change f f' →
      AtLevel change (classForm f) (classForm f') := by
    intro change f f' hchange
    exact .member [("endLine", .ofNat 9), ("kind", .string "class")] _ [.object variableFields] []
      (by decide) (.here hchange)
  have hform : Loosened toleranceSample.toJson j := by
    have hmembers := hlevel (Loosening.noMembers [("endLine", .ofNat 4), ("kind", .string "func")]
      [("name", .string "f"), ("startLine", .ofNat 3)] (by decide))
    have hdoc := hlevel (Loosening.extraKey [("endLine", .ofNat 4), ("kind", .string "func")]
      [("name", .string "f"), ("startLine", .ofNat 3)] "doc" (.array [.bool true]) (by decide))
    have hnull := hlevel (Loosening.nullLabel
      (functionHead ++ [("startLine", .ofNat 3)]) [] (by decide))
    exact .tail (.tail (.single hmembers) hdoc) hnull
  obtain ⟨hread, hspoiled⟩ := loosened_form_reads_back hlines hform
  refine ⟨hlines, hform, hread, ?_, ?_⟩
  · exact hspoiled _ _ (hlevel (.missing (functionFields (.ofNat 3)) "name" (by decide)))
  · have hproblem : lineError (-1) = .wrongValue (.number (.integer (-1))) .line :=
      if_pos (by decide)
    rw [← hproblem]
    exact hspoiled _ _ (hlevel (Defect.line functionHead [("type", .null)] "startLine" (.ofNat 3)
      (-1) (by decide) (by decide) (.inl (by decide))))

end Symbol

end SourceOutline
