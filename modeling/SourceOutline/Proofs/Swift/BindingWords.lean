import Mathlib.Data.List.Basic
import SourceOutline.Proofs.Text.Trimming
import SourceOutline.Swift.Declaration

/-!
# The words before a pattern

The text of a pattern may have binding words in front of it.  What counts is the text after
them, and a word is one only when a blank follows it: `variable` and a lone `let` stay.

1.  At most one binding word can stand at the start of a text, as their first letters differ;
    so the search for a word finds it (`afterBindingWord?_eq_some_iff`).
2.  One turn takes off a word and the blanks after it (`dropBindingWords_word`), and so the
    turns take off all the words there are (`dropBindingWords_leading`).
3.  What they take off is nothing but words with their blanks (`exists_leadingWords`).
-/

namespace SourceOutline.Swift

open Text (IsTrimmed IsBlankText isBlank trimStart trim)

/-- A text that starts with a binding word and a blank after it. -/
def StartsWithWord (cs : List Char) : Prop :=
  ∃ word ∈ bindingWords, ∃ c rest, cs = word ++ c :: rest ∧ isBlank c = true

/-- Binding words, each with at least one blank after it. -/
inductive LeadingWords : List Char → Prop where
  | nil : LeadingWords []
  | word {word blanks more : List Char} : word ∈ bindingWords → blanks ≠ [] →
      IsBlankText blanks → LeadingWords more → LeadingWords (word ++ blanks ++ more)

/-! ## One word -/

/-- Every binding word has a character, so dropping one makes the text shorter. -/
theorem bindingWords_ne_nil : ∀ word ∈ bindingWords, word ≠ [] := by
  decide

/-- No binding word starts with a blank, so trimming never cuts into one. -/
theorem bindingWords_head_not_blank :
    ∀ word ∈ bindingWords, ∀ c ∈ word.head?, isBlank c = false := by
  have hheads : ∀ word ∈ bindingWords, word.head?.all (!isBlank ·) = true := by decide
  intro word hword c hc
  have hhead := hheads word hword
  rw [Option.mem_def.mp hc] at hhead
  simpa using hhead

/-- Binding words start with different letters. -/
theorem bindingWords_eq_of_head : ∀ word ∈ bindingWords, ∀ other ∈ bindingWords,
    word.head? = other.head? → word = other := by
  decide

/-- A word is dropped exactly when a blank follows it, and the blanks go with it. -/
theorem afterWord?_eq_some_iff {word cs rest : List Char} :
    afterWord? word cs = some rest ↔
      ∃ c tail, cs = word ++ c :: tail ∧ isBlank c = true ∧ rest = trimStart tail := by
  constructor
  · intro h
    unfold afterWord? at h
    split at h
    · next c tail hafter =>
      split at h
      · next hblank =>
        cases h
        exact ⟨c, tail, Text.afterStart?_eq_some_iff.mp hafter, hblank, rfl⟩
      · cases h
    · cases h
  · intro h
    obtain ⟨c, tail, hcs, hblank, rfl⟩ := h
    rw [afterWord?, Text.afterStart?_eq_some_iff.mpr hcs]
    exact if_pos hblank

/-- The search finds the word that the text starts with. -/
theorem afterBindingWord?_eq_some_iff {cs rest : List Char} :
    afterBindingWord? cs = some rest ↔
      ∃ word ∈ bindingWords, ∃ c tail, cs = word ++ c :: tail ∧ isBlank c = true ∧
        rest = trimStart tail := by
  constructor
  · intro h
    obtain ⟨word, hword, hafter⟩ := List.exists_of_findSome?_eq_some h
    exact ⟨word, hword, afterWord?_eq_some_iff.mp hafter⟩
  · intro h
    obtain ⟨word, hword, hstart⟩ := h
    have hafter : afterWord? word cs = some rest := afterWord?_eq_some_iff.mpr hstart
    cases hfound : afterBindingWord? cs with
    | none =>
        rw [afterBindingWord?, List.findSome?_eq_none_iff] at hfound
        rw [hfound word hword] at hafter
        cases hafter
    | some found =>
        -- Any word that is found is this one.
        obtain ⟨other, hother, hafter'⟩ := List.exists_of_findSome?_eq_some hfound
        obtain ⟨c, tail, hcs, -, -⟩ := hstart
        obtain ⟨c', tail', hcs', -, -⟩ := afterWord?_eq_some_iff.mp hafter'
        have hhead : cs.head? = word.head? := by
          rw [hcs, List.head?_append_of_ne_nil word (bindingWords_ne_nil word hword)]
        have hhead' : cs.head? = other.head? := by
          rw [hcs', List.head?_append_of_ne_nil other (bindingWords_ne_nil other hother)]
        have hheads : word.head? = other.head? := hhead.symm.trans hhead'
        cases bindingWords_eq_of_head word hword other hother hheads
        exact hafter'.symm.trans hafter

/-- Nothing is dropped exactly when no binding word and blank stand in front. -/
theorem afterBindingWord?_eq_none_iff {cs : List Char} :
    afterBindingWord? cs = none ↔ ¬ StartsWithWord cs := by
  rw [Option.eq_none_iff_forall_ne_some]
  constructor
  · intro hnone hstart
    obtain ⟨word, hword, c, tail, hcs, hblank⟩ := hstart
    exact hnone _ (afterBindingWord?_eq_some_iff.mpr ⟨word, hword, c, tail, hcs, hblank, rfl⟩)
  · intro hstart rest hrest
    obtain ⟨word, hword, c, tail, hcs, hblank, -⟩ := afterBindingWord?_eq_some_iff.mp hrest
    exact hstart ⟨word, hword, c, tail, hcs, hblank⟩

instance (cs : List Char) : Decidable (StartsWithWord cs) :=
  decidable_of_iff ((afterBindingWord? cs).isSome = true) <| by
    rw [Option.isSome_iff_ne_none, ne_eq, afterBindingWord?_eq_none_iff, not_not]

/-! ## All words -/

/-- A text without a binding word in front is left as it is. -/
theorem dropBindingWords_of_not_startsWithWord {cs : List Char} (h : ¬ StartsWithWord cs) :
    dropBindingWords cs = cs := by
  rw [dropBindingWords]
  split
  · rfl
  · next rest hrest =>
    rw [afterBindingWord?_eq_none_iff.mpr h] at hrest
    cases hrest

/-- One word dropped, the loop goes on with the rest. -/
theorem dropBindingWords_of_some {cs rest : List Char} (h : afterBindingWord? cs = some rest) :
    dropBindingWords cs = dropBindingWords rest := by
  rw [dropBindingWords]
  split
  · next hnone =>
    rw [hnone] at h
    cases h
  · next other hother =>
    rw [hother] at h
    cases h
    rfl

/-- **One turn takes off a word and the blanks after it.** -/
theorem dropBindingWords_word {word blanks cs : List Char} (hword : word ∈ bindingWords)
    (hne : blanks ≠ []) (hblanks : IsBlankText blanks) (hcs : ∀ c ∈ cs.head?, isBlank c = false) :
    dropBindingWords (word ++ blanks ++ cs) = dropBindingWords cs := by
  obtain ⟨b, more, rfl⟩ := List.exists_cons_of_ne_nil hne
  have hmore : IsBlankText more := fun c hc => hblanks c (List.mem_cons_of_mem b hc)
  apply dropBindingWords_of_some
  rw [afterBindingWord?_eq_some_iff]
  refine ⟨word, hword, b, more ++ cs, by rw [List.append_assoc, List.cons_append],
    hblanks b List.mem_cons_self, ?_⟩
  rw [Text.trimStart_append hmore, Text.trimStart_eq_self hcs]

/-- Words in front of a text that starts with no blank make another such text. -/
theorem LeadingWords.head_not_blank {words cs : List Char} (h : LeadingWords words)
    (hcs : ∀ c ∈ cs.head?, isBlank c = false) : ∀ c ∈ (words ++ cs).head?, isBlank c = false := by
  cases h with
  | nil => exact hcs
  | @word word blanks more hword _ _ _ =>
      rw [List.append_assoc, List.append_assoc,
        List.head?_append_of_ne_nil word (bindingWords_ne_nil word hword)]
      exact bindingWords_head_not_blank word hword

/-- **All words are taken off.** -/
theorem dropBindingWords_leading {words cs : List Char} (h : LeadingWords words)
    (hcs : ∀ c ∈ cs.head?, isBlank c = false) :
    dropBindingWords (words ++ cs) = dropBindingWords cs := by
  induction h with
  | nil => rfl
  | word hword hne hblanks hmore ih =>
      rw [List.append_assoc, dropBindingWords_word hword hne hblanks (hmore.head_not_blank hcs), ih]

/-- The rest of a trimmed text after a word and the blanks after it is trimmed too: were there
nothing left, the text would end with a blank. -/
theorem isTrimmed_trimStart {before tail : List Char} {c : Char} (hblank : isBlank c = true)
    (h : IsTrimmed (before ++ c :: tail)) : IsTrimmed (trimStart tail) := by
  obtain ⟨-, -, hlast⟩ := h
  have hsplit : tail.takeWhile isBlank ++ trimStart tail = tail :=
    List.takeWhile_append_dropWhile
  have hne : trimStart tail ≠ [] := by
    intro hnil
    have hblanks : IsBlankText (c :: tail) :=
      List.forall_mem_cons.mpr ⟨hblank, Text.trimStart_eq_nil_iff.mp hnil⟩
    have hend : (c :: tail).getLast? = some ((c :: tail).getLast (by simp)) :=
      List.getLast?_eq_some_getLast _
    have hnot := hlast _ (by rw [List.getLast?_append_of_ne_nil _ (by simp), hend]; rfl)
    rw [hblanks _ (List.getLast_mem _)] at hnot
    cases hnot
  refine ⟨hne, fun d hd => Text.not_isBlank_of_head?_dropWhile hd, ?_⟩
  intro d hd
  apply hlast
  rw [← hsplit, ← List.cons_append, ← List.append_assoc, List.getLast?_append_of_ne_nil _ hne]
  exact hd

/-- **Nothing but words is taken off.** -/
theorem exists_leadingWords (cs : List Char) :
    ∃ words, LeadingWords words ∧ cs = words ++ dropBindingWords cs ∧
      ¬ StartsWithWord (dropBindingWords cs) ∧
      (IsTrimmed cs → IsTrimmed (dropBindingWords cs)) := by
  fun_induction dropBindingWords cs with
  | case1 cs hnone =>
      exact ⟨[], .nil, rfl, afterBindingWord?_eq_none_iff.mp hnone, id⟩
  | case2 cs rest hrest _ ih =>
      obtain ⟨words, hwords, hcs, hbare, htrimmed⟩ := ih
      obtain ⟨word, hword, c, tail, rfl, hblank, rfl⟩ := afterBindingWord?_eq_some_iff.mp hrest
      have hblanks : IsBlankText (c :: tail.takeWhile isBlank) :=
        List.forall_mem_cons.mpr ⟨hblank, fun d hd => List.mem_takeWhile_imp hd⟩
      refine ⟨word ++ (c :: tail.takeWhile isBlank) ++ words,
        .word hword (List.cons_ne_nil _ _) hblanks hwords, ?_, hbare, ?_⟩
      · rw [List.append_assoc, ← hcs, List.append_assoc, List.cons_append, trimStart,
          List.takeWhile_append_dropWhile]
      · exact fun h => htrimmed (isTrimmed_trimStart hblank h)

/-! ## Patterns -/

/-- A blank pattern has no text. -/
theorem patternText_of_blank {cs : List Char} (h : IsBlankText cs) : patternText cs = [] := by
  rw [patternText, Text.trim_eq_nil_iff.mpr h]
  exact dropBindingWords_of_not_startsWithWord (by decide)

/-- A pattern with words before it and blanks around is found. -/
theorem patternText_of_leadingWords {before words pattern after : List Char}
    (hbefore : IsBlankText before) (hwords : LeadingWords words) (hpattern : IsTrimmed pattern)
    (hbare : ¬ StartsWithWord pattern) (hafter : IsBlankText after) :
    patternText (before ++ words ++ pattern ++ after) = pattern := by
  obtain ⟨hne, hhead, hlast⟩ := hpattern
  have htrimmed : IsTrimmed (words ++ pattern) := by
    refine ⟨by simp [hne], hwords.head_not_blank hhead, ?_⟩
    rw [List.getLast?_append_of_ne_nil _ hne]
    exact hlast
  rw [patternText, List.append_assoc before, Text.trim_pad hbefore hafter, htrimmed.trim_eq,
    dropBindingWords_leading hwords hhead, dropBindingWords_of_not_startsWithWord hbare]

/-- What is found is a bare pattern, unless the text is blank. -/
theorem patternText_bare {cs : List Char} (h : ¬ IsBlankText cs) :
    IsTrimmed (patternText cs) ∧ ¬ StartsWithWord (patternText cs) := by
  rw [← Text.trim_eq_nil_iff] at h
  obtain ⟨_, _, _, hbare, htrimmed⟩ := exists_leadingWords (trim cs)
  exact ⟨htrimmed (Text.isTrimmed_trim h), hbare⟩

/-- The text of a pattern is its own pattern text. -/
theorem patternText_idem (cs : List Char) : patternText (patternText cs) = patternText cs := by
  by_cases hblank : IsBlankText cs
  · rw [patternText_of_blank hblank]
    exact patternText_of_blank (by decide)
  · obtain ⟨htrimmed, hbare⟩ := patternText_bare hblank
    rw [patternText, htrimmed.trim_eq, dropBindingWords_of_not_startsWithWord hbare]

/-- **A pattern is what follows the binding words.**  Whatever binding words stand before a
pattern, each with blanks after it, and whatever blanks stand around them, the pattern is
found.  Conversely, every text is blanks, binding words with blanks after each, what is found
in it, and blanks; what is found starts with no binding word, has no blank at its ends, and is
empty for blank texts only.  So looking for the pattern once more changes nothing. -/
theorem pattern_follows_words :
    (∀ before words pattern after, IsBlankText before → LeadingWords words → IsTrimmed pattern →
      ¬ StartsWithWord pattern → IsBlankText after →
      patternText (before ++ words ++ pattern ++ after) = pattern) ∧
    ∀ cs, (∃ before words after, IsBlankText before ∧ LeadingWords words ∧ IsBlankText after ∧
        cs = before ++ words ++ patternText cs ++ after) ∧
      ¬ StartsWithWord (patternText cs) ∧
      (patternText cs = [] ↔ IsBlankText cs) ∧
      (patternText cs ≠ [] → IsTrimmed (patternText cs)) ∧
      patternText (patternText cs) = patternText cs := by
  constructor
  · intro before words pattern after hbefore hwords hpattern hbare hafter
    exact patternText_of_leadingWords hbefore hwords hpattern hbare hafter
  · intro cs
    obtain ⟨before, after, hbefore, hafter, hcs⟩ := Text.exists_pad cs
    obtain ⟨words, hwords, htrim, hbare, -⟩ := exists_leadingWords (trim cs)
    have hempty : patternText cs = [] ↔ IsBlankText cs := by
      constructor
      · intro hnil
        by_contra hblank
        exact (patternText_bare hblank).1.1 hnil
      · exact patternText_of_blank
    refine ⟨⟨before, words, after, hbefore, hwords, hafter, ?_⟩, hbare, hempty, ?_,
      patternText_idem cs⟩
    · rw [List.append_assoc before, patternText, ← htrim]
      exact hcs
    · intro hne
      exact (patternText_bare fun hblank => hne (hempty.mpr hblank)).1

/-- Two words are taken off, and nothing of the name that starts with a third one. -/
theorem variable_follows_words :
    let words := "async".toList ++ [' '] ++ ("let".toList ++ ['\u2003', '\t'] ++ [])
    LeadingWords words ∧ IsTrimmed "variable".toList ∧ ¬ StartsWithWord "variable".toList ∧
    patternText (['\u00a0'] ++ words ++ "variable".toList ++ ['\n']) = "variable".toList := by
  intro words
  have hwords : LeadingWords words :=
    .word (by decide) (by decide) (by decide) (.word (by decide) (by decide) (by decide) .nil)
  have hname : IsTrimmed "variable".toList := by decide
  have hbare : ¬ StartsWithWord "variable".toList := by decide
  exact ⟨hwords, hname, hbare,
    pattern_follows_words.1 _ _ _ _ (by decide) hwords hname hbare (by decide)⟩

end SourceOutline.Swift
