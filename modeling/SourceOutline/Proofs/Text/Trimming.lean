import Mathlib.Data.List.Basic
import Mathlib.Data.List.TakeWhile
import SourceOutline.Text.Blank
import SourceOutline.Text.Cut

/-!
# Trimmed texts

Trimming cuts a contiguous piece out of a text.  Unless nothing is left, the piece has no
blank at either end, whatever the text was.  Nothing is left of blank texts only, and blanks
put around a text do not change the piece.
-/

namespace SourceOutline.Text

/-- A text with a character in it and no blank at either end. -/
def IsTrimmed (cs : List Char) : Prop :=
  cs ≠ [] ∧ (∀ c ∈ cs.head?, isBlank c = false) ∧ ∀ c ∈ cs.getLast?, isBlank c = false

instance (cs : List Char) : Decidable (IsTrimmed cs) :=
  decidable_of_iff
    ((!cs.isEmpty && cs.head?.all (!isBlank ·) && cs.getLast?.all (!isBlank ·)) = true)
    (by simp [IsTrimmed, Option.all_eq_true, and_assoc])

/-- Without its leading blanks, a text starts with no blank. -/
theorem not_isBlank_of_head?_dropWhile {cs : List Char} {c : Char}
    (h : c ∈ (cs.dropWhile isBlank).head?) : isBlank c = false := by
  have hhead := List.head?_dropWhile_not isBlank cs
  rw [Option.mem_def.mp h] at hhead
  exact hhead

theorem trimStart_suffix (cs : List Char) : trimStart cs <:+ cs :=
  List.dropWhile_suffix _

theorem trimEnd_isPrefix (cs : List Char) : trimEnd cs <+: cs := by
  have hsuffix := List.dropWhile_suffix isBlank (l := cs.reverse)
  rw [← List.reverse_prefix, List.reverse_reverse] at hsuffix
  exact hsuffix

theorem trim_isInfix (cs : List Char) : trim cs <:+: cs :=
  (trimEnd_isPrefix _).isInfix.trans (trimStart_suffix cs).isInfix

/-- What is left after trimming is trimmed. -/
theorem isTrimmed_trim {cs : List Char} (h : trim cs ≠ []) : IsTrimmed (trim cs) := by
  refine ⟨h, ?_, ?_⟩
  · intro c hc
    -- The start is that of the text without its leading blanks.
    have hstart : c ∈ (trimStart cs).head? := by
      obtain ⟨blanks, hblanks⟩ := trimEnd_isPrefix (trimStart cs)
      rw [← hblanks, List.head?_append, ← trim, Option.mem_def.mp hc]
      rfl
    exact not_isBlank_of_head?_dropWhile hstart
  · intro c hc
    rw [trim, trimEnd, List.getLast?_reverse] at hc
    exact not_isBlank_of_head?_dropWhile hc

/-- A text that starts with no blank has nothing to trim there. -/
theorem trimStart_eq_self {cs : List Char} (h : ∀ c ∈ cs.head?, isBlank c = false) :
    trimStart cs = cs := by
  cases cs with
  | nil => rfl
  | cons c cs => exact trimStart_cons_of_not_blank (h c rfl)

/-- A trimmed text stays as it is. -/
theorem IsTrimmed.trim_eq {cs : List Char} (h : IsTrimmed cs) : trim cs = cs := by
  obtain ⟨-, hhead, hlast⟩ := h
  have hend : trimStart cs.reverse = cs.reverse := by
    apply trimStart_eq_self
    rw [List.head?_reverse]
    exact hlast
  rw [trim, trimStart_eq_self hhead, trimEnd, ← trimStart, hend, List.reverse_reverse]

/-- A text that is not blank is given as a trimmed piece of it. -/
theorem nonBlank?_eq_some {s t : String} (h : nonBlank? s = some t) :
    t = trimmed s ∧ IsTrimmed t.toList ∧ t.toList <:+: s.toList := by
  simp only [nonBlank?] at h
  split at h
  · cases h
  · next hne =>
    cases h
    rw [String.isEmpty_iff, ← String.toList_eq_nil_iff, toList_trimmed] at hne
    rw [toList_trimmed]
    exact ⟨rfl, isTrimmed_trim hne, trim_isInfix _⟩

/-- What stands before a trimmed end of a text does not matter for its end. -/
theorem IsTrimmed.append_trim {cs : List Char} (h : IsTrimmed cs) (ds : List Char) :
    IsTrimmed (cs ++ trim ds) := by
  obtain ⟨hne, hhead, hlast⟩ := h
  by_cases hds : trim ds = []
  · rw [hds, List.append_nil]
    exact ⟨hne, hhead, hlast⟩
  · refine ⟨by simp [hne], ?_, ?_⟩
    · intro c hc
      rw [List.head?_append_of_ne_nil _ hne] at hc
      exact hhead c hc
    · intro c hc
      rw [List.getLast?_append_of_ne_nil _ hds] at hc
      exact (isTrimmed_trim hds).2.2 c hc

/-! ## Blank texts -/

/-- A text of blanks only. -/
def IsBlankText (cs : List Char) : Prop :=
  ∀ c ∈ cs, isBlank c = true

instance (cs : List Char) : Decidable (IsBlankText cs) :=
  decidable_of_iff (cs.all isBlank = true) (by simp [IsBlankText])

/-- Only a blank text is trimmed away. -/
theorem trimStart_eq_nil_iff {cs : List Char} : trimStart cs = [] ↔ IsBlankText cs :=
  List.dropWhile_eq_nil_iff

/-- Characters other than blanks are never trimmed away. -/
theorem mem_dropWhile_of_not_blank {cs : List Char} {c : Char} (hmem : c ∈ cs)
    (hc : isBlank c = false) : c ∈ cs.dropWhile isBlank := by
  rw [← List.takeWhile_append_dropWhile (p := isBlank) (l := cs), List.mem_append] at hmem
  apply hmem.resolve_left
  intro hblank
  rw [List.mem_takeWhile_imp hblank] at hc
  cases hc

/-- Trimming keeps everything but blanks. -/
theorem mem_trim {cs : List Char} {c : Char} (hmem : c ∈ cs) (hc : isBlank c = false) :
    c ∈ trim cs := by
  have hstart : c ∈ trimStart cs := mem_dropWhile_of_not_blank hmem hc
  rw [trim, trimEnd, List.mem_reverse]
  exact mem_dropWhile_of_not_blank (List.mem_reverse.mpr hstart) hc

/-- Only blank texts are trimmed away. -/
theorem trim_eq_nil_iff {cs : List Char} : trim cs = [] ↔ IsBlankText cs := by
  constructor
  · intro hnil c hmem
    by_contra hc
    have hkept := mem_trim hmem (Bool.eq_false_iff.mpr hc)
    rw [hnil] at hkept
    cases hkept
  · intro hblank
    rw [trim, trimStart_eq_nil_iff.mpr hblank]
    rfl

/-- Blanks in front make no difference. -/
theorem trimStart_append {before : List Char} (h : IsBlankText before) (cs : List Char) :
    trimStart (before ++ cs) = trimStart cs :=
  List.dropWhile_append_of_pos h

/-- Blanks at the end make no difference. -/
theorem trimEnd_append (cs : List Char) {after : List Char} (h : IsBlankText after) :
    trimEnd (cs ++ after) = trimEnd cs := by
  have hafter : ∀ c ∈ after.reverse, isBlank c = true := fun c hc => h c (List.mem_reverse.mp hc)
  rw [trimEnd, List.reverse_append, List.dropWhile_append_of_pos hafter, ← trimEnd]

/-- **Blanks around a text do not count.** -/
theorem trim_pad {before after : List Char} (hbefore : IsBlankText before)
    (hafter : IsBlankText after) (cs : List Char) : trim (before ++ cs ++ after) = trim cs := by
  rw [List.append_assoc, trim, trimStart_append hbefore]
  by_cases hblank : IsBlankText cs
  · have hnothing : trimStart (cs ++ after) = [] := by
      rw [trimStart_append hblank, trimStart_eq_nil_iff]
      exact hafter
    rw [hnothing, trim, trimStart_eq_nil_iff.mpr hblank]
  · have hstart : trimStart (cs ++ after) = trimStart cs ++ after := by
      rw [trimStart, List.dropWhile_append, ← trimStart, if_neg]
      rw [List.isEmpty_iff, trimStart_eq_nil_iff]
      exact hblank
    rw [hstart, trimEnd_append _ hafter, ← trim]

/-- A text is its trimmed piece with blanks around it. -/
theorem exists_pad (cs : List Char) :
    ∃ before after, IsBlankText before ∧ IsBlankText after ∧ cs = before ++ trim cs ++ after := by
  refine ⟨cs.takeWhile isBlank, ((trimStart cs).reverse.takeWhile isBlank).reverse, ?_, ?_, ?_⟩
  · exact fun c hc => List.mem_takeWhile_imp hc
  · exact fun c hc => List.mem_takeWhile_imp (List.mem_reverse.mp hc)
  · have hend : trim cs ++ ((trimStart cs).reverse.takeWhile isBlank).reverse = trimStart cs := by
      rw [trim, trimEnd, ← List.reverse_append, List.takeWhile_append_dropWhile,
        List.reverse_reverse]
    rw [List.append_assoc, hend, trimStart, List.takeWhile_append_dropWhile]

/-- A blank text counts as missing. -/
theorem nonBlank?_of_blank {s : String} (h : IsBlankText s.toList) : nonBlank? s = none := by
  simp [nonBlank?, trimmed, trim_eq_nil_iff.mpr h]

/-- A text that is not blank counts, trimmed. -/
theorem nonBlank?_of_not_blank {s : String} (h : ¬ IsBlankText s.toList) :
    nonBlank? s = some (trimmed s) := by
  rw [← trim_eq_nil_iff] at h
  simp [nonBlank?, trimmed, h]

/-- Blanks around a text make no difference to whether it counts and as what. -/
theorem nonBlank?_pad {before after : String} (hbefore : IsBlankText before.toList)
    (hafter : IsBlankText after.toList) (s : String) :
    nonBlank? (before ++ s ++ after) = nonBlank? s := by
  have hsame : trimmed (before ++ s ++ after) = trimmed s := by
    rw [← String.toList_inj, toList_trimmed, toList_trimmed, String.toList_append,
      String.toList_append, trim_pad hbefore hafter]
  rw [nonBlank?, hsame, nonBlank?]

end SourceOutline.Text
