import SourceOutline.Proofs.Symbol.Listing
import SourceOutline.Symbol.Format

/-!
# Reading symbols back

The JSON form of a symbol determines it (`Symbol.toJson_injective`), and reading the form
gives the symbol back as long as its lines are numbers of 64 bits
(`Symbol.ofJson_toJson`).  Both go by induction over the members; a symbol is read field
by field (`Symbol.ofFields_eq_ok`), so only the fields that are looked up matter.
-/

namespace SourceOutline

/-- No two kinds have the same tag. -/
theorem Kind.tag_injective {k k' : Kind} (h : k.tag = k'.tag) : k = k' := by
  have hread : ofTag? k.tag = some k := ofTag?_tag k
  rw [h, ofTag?_tag] at hread
  exact (Option.some.inj hread).symm

namespace Symbol

/-- All lines at and below a symbol are numbers of 64 bits. -/
def LinesFit (s : Symbol) : Prop :=
  ∀ d ∈ s.descendants, d.startLine < Json.unsignedLimit ∧ d.endLine < Json.unsignedLimit

theorem LinesFit.self {s : Symbol} (h : s.LinesFit) :
    s.startLine < Json.unsignedLimit ∧ s.endLine < Json.unsignedLimit := by
  apply h
  rw [descendants_eq_listing, listing_eq]
  exact List.mem_cons_self

theorem LinesFit.member {s m : Symbol} (h : s.LinesFit) (hm : m ∈ s.members) : m.LinesFit := by
  intro d hd
  apply h
  rw [descendants_eq_listing] at hd ⊢
  rw [listing_eq, List.mem_cons, listings_eq_flatMap]
  exact .inr (List.mem_flatMap.mpr ⟨m, hm, hd⟩)

/-! ## The parts of a symbol -/

/-- A line number below the limit is read back. -/
theorem readLine_ofNat {n : Nat} (h : n < Json.unsignedLimit) : readLine (.ofNat n) = .ok n := by
  unfold Json.ofNat readLine
  simp only
  rw [if_pos ⟨Int.natCast_nonneg n, Int.ofNat_lt.mpr h⟩, Int.toNat_natCast]

/-- The tag of a kind is read as the kind. -/
theorem readKind_tag (k : Kind) : readKind (.string k.tag) = .ok k := by
  simp only [readKind, readTag, Kind.ofTag?_tag]

/-- A field that is there is read as its reader says. -/
theorem readIf_some {α β : Type} {read : α → Except ReadError β} {a : α} {b : β}
    (h : read a = .ok b) : readIf read (some a) = .ok (some b) := by
  rw [readIf, h]
  rfl

/-- A symbol is read when each of its fields is. -/
theorem ofFields_eq_ok {fields : List (String × Json)}
    {members : Option (Except ReadError (List Symbol))} {s : Symbol}
    {label : Option (Option String)} {found : Option (List Symbol)}
    (hend : readIf readLine (Json.lookup "endLine" fields) = .ok (some s.endLine))
    (hkind : readIf readKind (Json.lookup "kind" fields) = .ok (some s.kind))
    (hmembers : readIf id members = .ok found) (hfound : found.getD [] = s.members)
    (hname : readIf readText (Json.lookup "name" fields) = .ok (some s.name))
    (hstart : readIf readLine (Json.lookup "startLine" fields) = .ok (some s.startLine))
    (hlabel : readIf readLabel (Json.lookup "type" fields) = .ok label)
    (hjoin : label.join = s.typeLabel) :
    ofFields fields members = .ok s := by
  unfold ofFields
  rw [hend, hkind, hmembers, hname, hstart, hlabel]
  obtain ⟨kind, name, startLine, endLine, typeLabel, members⟩ := s
  subst hjoin hfound
  rfl

/-! ## Whole symbols -/

/-- A list is read back when each of its symbols is. -/
theorem ofJsons_toJsons {symbols : List Symbol} (h : ∀ s ∈ symbols, ofJson s.toJson = .ok s) :
    ofJsons (toJsons symbols) = .ok symbols := by
  induction symbols with
  | nil => rfl
  | cons s ss ih =>
      have hothers := ih fun r hr => h r (List.mem_cons_of_mem s hr)
      rw [toJsons, ofJsons, h s List.mem_cons_self, hothers]
      rfl

/-- Reading the JSON form of a symbol gives the symbol back. -/
theorem ofJson_toJson {s : Symbol} (h : s.LinesFit) : ofJson s.toJson = .ok s := by
  induction s using membersInduction with
  | step s ih =>
      have hmembers := ofJsons_toJsons fun m hm => ih m hm (h.member hm)
      obtain ⟨hstart, hend⟩ := h.self
      obtain ⟨kind, name, startLine, endLine, typeLabel, members⟩ := s
      have hname : readIf readText (some (.string name)) = .ok (some name) := rfl
      have hread : readIf id (some (ofJsons (toJsons members))) = .ok (some members) :=
        readIf_some hmembers
      unfold toJson ofJson
      cases typeLabel <;>
        exact ofFields_eq_ok (readIf_some (readLine_ofNat hend)) (readIf_some (readKind_tag kind))
          hread rfl hname (readIf_some (readLine_ofNat hstart)) rfl rfl

/-- Lists are told apart by their JSON when their symbols are. -/
theorem eq_of_toJsons_eq {xs ys : List Symbol}
    (h : ∀ x ∈ xs, ∀ y : Symbol, x.toJson = y.toJson → x = y) (heq : toJsons xs = toJsons ys) :
    xs = ys := by
  induction xs generalizing ys with
  | nil =>
      cases ys with
      | nil => rfl
      | cons y ys => cases heq
  | cons x xs ih =>
      cases ys with
      | nil => cases heq
      | cons y ys =>
          obtain ⟨hhead, htail⟩ := List.cons.inj heq
          have hothers := ih (fun z hz => h z (List.mem_cons_of_mem x hz)) htail
          rw [h x List.mem_cons_self y hhead, hothers]

/-- Symbols with the same JSON form are equal, whatever their lines are. -/
theorem toJson_injective {s r : Symbol} (h : s.toJson = r.toJson) : s = r := by
  induction s using membersInduction generalizing r with
  | step s ih =>
      obtain ⟨kind, name, startLine, endLine, typeLabel, members⟩ := s
      obtain ⟨kind', name', startLine', endLine', typeLabel', members'⟩ := r
      simp only [toJson, Json.ofNat, Json.object.injEq, List.cons_append, List.nil_append,
        List.cons.injEq, Prod.mk.injEq, Json.number.injEq, Json.Number.integer.injEq,
        Json.string.injEq, Json.array.injEq, true_and] at h
      obtain ⟨hend, hkind, hmembers, rfl, hstart, hlabel⟩ := h
      cases Int.ofNat_inj.mp hend
      cases Int.ofNat_inj.mp hstart
      cases Kind.tag_injective hkind
      have hsame : members = members' := eq_of_toJsons_eq (fun m hm r => ih m hm) hmembers
      have hlabels : typeLabel = typeLabel' := by
        cases typeLabel <;> cases typeLabel' <;> simp_all
      rw [hsame, hlabels]

/-- Lists of symbols are told apart by their JSON. -/
theorem toJsons_injective {xs ys : List Symbol} (h : toJsons xs = toJsons ys) : xs = ys :=
  eq_of_toJsons_eq (fun _ _ _ => toJson_injective) h

end Symbol

end SourceOutline
