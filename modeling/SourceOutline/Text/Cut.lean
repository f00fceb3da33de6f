/-!
# Cutting text

Splitting a text at a character, and looking for one text inside another.  All
functions work on lists, so that the same ones serve characters and bytes.
-/

namespace SourceOutline.Text

variable {α : Type} [DecidableEq α]

/-- Cut at the first occurrence of `d`, which belongs to neither part. -/
def breakAt? (d : α) : List α → Option (List α × List α)
  | [] => none
  | a :: as =>
    if a = d then some ([], as)
    else (breakAt? d as).map fun (before, after) => (a :: before, after)

/-- The pieces between the occurrences of `d`; always at least one piece. -/
def pieces (d : α) : List α → List (List α)
  | [] => [[]]
  | a :: as =>
    if a = d then [] :: pieces d as
    else
      match pieces d as with
      | [] => [[a]]
      | p :: ps => (a :: p) :: ps

/-- What follows `part` in a text that starts with it. -/
def afterStart? : List α → List α → Option (List α)
  | [], as => some as
  | _ :: _, [] => none
  | p :: ps, a :: as => if p = a then afterStart? ps as else none

/-- What comes before `part` in a text that ends with it. -/
def beforeEnd? (part as : List α) : Option (List α) :=
  (afterStart? part.reverse as.reverse).map List.reverse

/-- Whether `part` occurs as a contiguous piece of the list. -/
def hasPart (part : List α) : List α → Bool
  | [] => part.isEmpty
  | a :: as => part.isPrefixOf (a :: as) || hasPart part as

/-- What a successful cut says: the parts with `d` between them give back the text,
and the first part is free of `d`. -/
theorem breakAt?_eq_some {d : α} {as before after : List α}
    (h : breakAt? d as = some (before, after)) :
    as = before ++ d :: after ∧ d ∉ before := by
  induction as generalizing before with
  | nil => simp [breakAt?] at h
  | cons a as ih =>
    by_cases ha : a = d
    · simp only [breakAt?, ha, if_true, Option.some.injEq, Prod.mk.injEq] at h
      obtain ⟨rfl, rfl⟩ := h
      simp [ha]
    · simp only [breakAt?, ha, if_false, Option.map_eq_some_iff] at h
      obtain ⟨⟨b, r⟩, hb, hr⟩ := h
      simp only [Prod.mk.injEq] at hr
      obtain ⟨rfl, rfl⟩ := hr
      obtain ⟨rfl, hd⟩ := ih hb
      exact ⟨rfl, by simpa [hd] using fun h => ha h.symm⟩

/-- A cut fails exactly on a text without the separator. -/
theorem breakAt?_eq_none_iff {d : α} {as : List α} : breakAt? d as = none ↔ d ∉ as := by
  induction as with
  | nil => simp [breakAt?]
  | cons a as ih =>
    by_cases ha : a = d
    · simp [breakAt?, ha]
    · simpa [breakAt?, ha, ih] using fun _ h => ha h.symm

theorem afterStart?_eq_some_iff {part as rest : List α} :
    afterStart? part as = some rest ↔ as = part ++ rest := by
  induction part generalizing as with
  | nil => simp [afterStart?, eq_comm]
  | cons p ps ih =>
    cases as with
    | nil => simp [afterStart?]
    | cons a as =>
      by_cases h : p = a
      · simp [afterStart?, h, ih]
      · simp [afterStart?, h, Ne.symm h]

theorem beforeEnd?_eq_some_iff {part as rest : List α} :
    beforeEnd? part as = some rest ↔ as = rest ++ part := by
  simp only [beforeEnd?, Option.map_eq_some_iff, afterStart?_eq_some_iff]
  constructor
  · rintro ⟨r, hr, rfl⟩
    simpa using congrArg List.reverse hr
  · rintro rfl
    exact ⟨rest.reverse, by simp⟩

theorem hasPart_iff {part as : List α} : hasPart part as = true ↔ part <:+: as := by
  induction as with
  | nil => simp [hasPart]
  | cons a as ih =>
    rw [hasPart, Bool.or_eq_true, List.isPrefixOf_iff_prefix, ih, List.infix_cons_iff]

end SourceOutline.Text
