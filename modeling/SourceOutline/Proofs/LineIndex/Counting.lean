import Mathlib.Data.Finset.Card
import Mathlib.Order.Interval.Finset.Nat
import SourceOutline.Proofs.LineIndex.Bounds

/-!
# Lines are counted by their ends

A line ends after a `\n`, and after a `\r` that no `\n` follows.  So both bytes of `\r\n`
together end one line, and every other `\n` or `\r` ends one by itself.

1.  The table of line starts is 0 followed by the offsets at which a line ends
    (`LineIndex.starts_ofSource`), although the scan steps over two bytes at a `\r\n`.
2.  The table is increasing, so the starts up to an offset are those that the search for the
    offset passes (`LineIndex.takeWhile_eq_filter`).

Hence the line of an offset is one more than the number of line ends up to it.
-/

namespace SourceOutline

namespace LineIndex

/-- A line of the source ends just before the offset `j`, which is at least 1. -/
def EndsLineAt (source : Bytes) (j : Nat) : Prop :=
  source[j - 1]? = some 0x0A ∨ source[j - 1]? = some 0x0D ∧ source[j]? ≠ some 0x0A

instance (source : Bytes) : DecidablePred (EndsLineAt source) :=
  fun _ => inferInstanceAs (Decidable (_ ∨ _))

/-- A byte in front moves the later line ends by one. -/
theorem endsLineAt_cons {b : UInt8} {source : Bytes} {j : Nat} (hj : 1 ≤ j) :
    EndsLineAt (b :: source) (j + 1) ↔ EndsLineAt source j := by
  obtain ⟨i, rfl⟩ : ∃ i, j = i + 1 := ⟨j - 1, by omega⟩
  rfl

/-- The offsets at which a line of the source ends, in increasing order. -/
def lineEnds (source : Bytes) : List Nat :=
  (List.range' 1 source.length).filter (EndsLineAt source)

/-- The line ends of a source are the offsets at which a line ends. -/
theorem mem_lineEnds {source : Bytes} {j : Nat} :
    j ∈ lineEnds source ↔ 1 ≤ j ∧ j ≤ source.length ∧ EndsLineAt source j := by
  rw [lineEnds, List.mem_filter, List.mem_range'_1, decide_eq_true_eq, and_assoc]
  constructor
  · intro ⟨hfirst, hlast, hends⟩
    exact ⟨hfirst, by omega, hends⟩
  · intro ⟨hfirst, hlast, hends⟩
    exact ⟨hfirst, by omega, hends⟩

/-- Line ends increase. -/
theorem pairwise_lineEnds (source : Bytes) : (lineEnds source).Pairwise (· < ·) :=
  List.Pairwise.filter _ (List.pairwise_lt_range' 1)

/-- A byte in front moves the line ends by one, and may end a line itself. -/
theorem lineEnds_cons (b : UInt8) (source : Bytes) :
    lineEnds (b :: source) =
      (if EndsLineAt (b :: source) 1 then [1] else []) ++ (lineEnds source).map (1 + ·) := by
  have hmoved : ∀ j ∈ List.range' 1 source.length,
      decide (EndsLineAt (b :: source) (1 + j)) = decide (EndsLineAt source j) := by
    intro j hj
    rw [Nat.add_comm, decide_eq_decide]
    exact endsLineAt_cons (List.mem_range'_1.mp hj).1
  have hrest : (List.range' 2 source.length).filter (EndsLineAt (b :: source)) =
      (lineEnds source).map (1 + ·) := by
    rw [← List.map_add_range' 1 source.length 1 (a := 1), List.filter_map, lineEnds]
    exact congrArg _ (List.filter_congr hmoved)
  rw [lineEnds, List.length_cons, List.range'_succ, List.filter_cons, hrest]
  by_cases hends : EndsLineAt (b :: source) 1
  · simp [hends]
  · simp [hends]

/-- The scan finds the line ends. -/
theorem startsFrom_eq (offset : Nat) (source : Bytes) :
    startsFrom offset source = (lineEnds source).map (offset + ·) := by
  fun_induction startsFrom offset source with
  | case1 => rfl
  | case2 offset rest ih =>
      -- No line ends between the two bytes, and one ends after them.
      have hinside : ¬EndsLineAt (0x0D :: 0x0A :: rest) 1 := by simp [EndsLineAt]
      have hafter : EndsLineAt (0x0A :: rest) 1 := by simp [EndsLineAt]
      have hmoved : ∀ j, offset + 2 + j = offset + (1 + (1 + j)) := by omega
      rw [lineEnds_cons, if_neg hinside, lineEnds_cons, if_pos hafter, ih]
      simp [hmoved]
  | case3 offset b rest hpair hb ih =>
      have hends : EndsLineAt (b :: rest) 1 := by
        rcases hb with rfl | rfl
        · simp [EndsLineAt]
        · refine .inr ⟨rfl, ?_⟩
          intro hnext
          cases rest with
          | nil => cases hnext
          | cons c rest =>
              cases hnext
              exact hpair rest rfl rfl
      rw [lineEnds_cons, if_pos hends, ih]
      simp [Nat.add_assoc]
  | case4 offset b rest _ hb ih =>
      have hends : ¬EndsLineAt (b :: rest) 1 := by
        intro hends
        rcases hends with hline | ⟨hreturn, _⟩
        · exact hb (.inl (Option.some.inj hline))
        · exact hb (.inr (Option.some.inj hreturn))
      rw [lineEnds_cons, if_neg hends, ih]
      simp [Nat.add_assoc]

/-- A line starts at offset 0 and wherever a line ends. -/
theorem starts_ofSource (source : Bytes) : (ofSource source).starts = 0 :: lineEnds source := by
  show 0 :: startsFrom 0 source = _
  rw [startsFrom_eq]
  simp

/-- Line starts increase. -/
theorem pairwise_starts (source : Bytes) : (ofSource source).starts.Pairwise (· < ·) := by
  rw [starts_ofSource, List.pairwise_cons]
  exact ⟨fun j hj => (mem_lineEnds.mp hj).1, pairwise_lineEnds source⟩

/-- No line starts beyond the end of the source. -/
theorem le_length_of_mem_starts {source : Bytes} {start : Nat}
    (h : start ∈ (ofSource source).starts) : start ≤ source.length := by
  rw [starts_ofSource, List.mem_cons] at h
  rcases h with rfl | h
  · exact Nat.zero_le _
  · exact (mem_lineEnds.mp h).2.1

/-- In an increasing table nothing after the first larger entry is small again. -/
theorem takeWhile_eq_filter {starts : List Nat} (h : starts.Pairwise (· < ·)) (bound : Nat) :
    starts.takeWhile (· ≤ bound) = starts.filter (· ≤ bound) := by
  induction starts with
  | nil => rfl
  | cons start starts ih =>
      obtain ⟨hlater, hrest⟩ := List.pairwise_cons.mp h
      by_cases hstart : start ≤ bound
      · simp [hstart, ih hrest]
      · have hnone : starts.filter (· ≤ bound) = [] := by
          rw [List.filter_eq_nil_iff]
          intro later hmem
          have := hlater later hmem
          simp only [decide_eq_true_eq]
          omega
        simp [hstart, hnone]

/-- The entries of an increasing table up to a bound come first in it. -/
theorem le_iff_lt_length_takeWhile {starts : List Nat} (h : starts.Pairwise (· < ·))
    {i start : Nat} (hi : starts[i]? = some start) (bound : Nat) :
    start ≤ bound ↔ i < (starts.takeWhile (· ≤ bound)).length := by
  induction starts generalizing i with
  | nil => simp at hi
  | cons first starts ih =>
      obtain ⟨hlater, hrest⟩ := List.pairwise_cons.mp h
      cases i with
      | zero =>
          obtain rfl : first = start := Option.some.inj hi
          by_cases hfirst : first ≤ bound
          · simp [hfirst]
          · simp [hfirst]
      | succ i =>
          rw [List.getElem?_cons_succ] at hi
          have hlt := hlater start (List.mem_of_getElem? hi)
          by_cases hfirst : first ≤ bound
          · simpa [hfirst] using ih hrest hi
          · simp only [List.takeWhile_cons, hfirst, decide_false, Bool.false_eq_true, if_false,
              List.length_nil]
            omega

/-- The line of an offset, counted. -/
theorem lineOf_ofSource (source : Bytes) (offset : Nat) :
    (ofSource source).lineOf offset =
      1 + ((Finset.Icc 1 (min offset source.length)).filter (EndsLineAt source)).card := by
  have hcounted : ((lineEnds source).filter (· ≤ min offset source.length)).toFinset =
      (Finset.Icc 1 (min offset source.length)).filter (EndsLineAt source) := by
    ext j
    rw [List.mem_toFinset, List.mem_filter, mem_lineEnds, Finset.mem_filter, Finset.mem_Icc,
      decide_eq_true_eq]
    constructor
    · intro ⟨⟨hfirst, _, hends⟩, hle⟩
      exact ⟨⟨hfirst, hle⟩, hends⟩
    · intro ⟨⟨hfirst, hle⟩, hends⟩
      exact ⟨⟨hfirst, by omega, hends⟩, hle⟩
  have hnodup : ((lineEnds source).filter (· ≤ min offset source.length)).Nodup :=
    ((pairwise_lineEnds source).filter _).imp Nat.ne_of_lt
  calc (ofSource source).lineOf offset
      = ((ofSource source).starts.filter (· ≤ min offset source.length)).length := by
        rw [← takeWhile_eq_filter (pairwise_starts source)]
        rfl
    _ = 1 + ((lineEnds source).filter (· ≤ min offset source.length)).length := by
        rw [starts_ofSource, List.filter_cons_of_pos (by simp), List.length_cons, Nat.add_comm]
    _ = _ := by rw [← List.toFinset_card_of_nodup hnodup, hcounted]

/-- The next offset is on the next line if a line ends there, and else on the same one. -/
theorem lineOf_succ {source : Bytes} {offset : Nat} (h : offset < source.length) :
    (ofSource source).lineOf (offset + 1) =
      (ofSource source).lineOf offset + if EndsLineAt source (offset + 1) then 1 else 0 := by
  have hstep : Finset.Icc 1 (offset + 1) = insert (offset + 1) (Finset.Icc 1 offset) := by
    ext j
    rw [Finset.mem_insert, Finset.mem_Icc, Finset.mem_Icc]
    omega
  rw [lineOf_ofSource, lineOf_ofSource, Nat.min_eq_left (by omega), Nat.min_eq_left (by omega),
    hstep, Finset.filter_insert]
  by_cases hends : EndsLineAt source (offset + 1)
  · rw [if_pos hends, if_pos hends, Finset.card_insert_of_notMem (by simp), Nat.add_assoc]
  · rw [if_neg hends, if_neg hends, Nat.add_zero]

/-- The three line endings; a lone `\r` is one when no `\n` follows it. -/
inductive LineEnding (after : Bytes) : Bytes → Prop where
  | lf : LineEnding after [0x0A]
  | crlf : LineEnding after [0x0D, 0x0A]
  | cr : after.head? ≠ some 0x0A → LineEnding after [0x0D]

/-- A line ending belongs to the line that it ends, and the next line starts right after it. -/
theorem LineEnding.lineOf_eq {before ending after : Bytes} (h : LineEnding after ending) :
    let index := ofSource (before ++ ending ++ after)
    index.lineOf (before.length + ending.length) = index.lineOf before.length + 1 ∧
      ∀ k < ending.length, index.lineOf (before.length + k) = index.lineOf before.length := by
  intro index
  -- A single byte that ends a line leaves nothing to show for the offsets inside the ending.
  have hsingle : ∀ b, ending = [b] →
      EndsLineAt (before ++ ending ++ after) (before.length + 1) →
      index.lineOf (before.length + ending.length) = index.lineOf before.length + 1 ∧
        ∀ k < ending.length, index.lineOf (before.length + k) = index.lineOf before.length := by
    intro b hb hends
    subst hb
    refine ⟨(lineOf_succ (by simp)).trans (by rw [if_pos hends]), ?_⟩
    intro k hk
    obtain rfl : k = 0 := by simpa using hk
    rfl
  cases h with
  | lf => exact hsingle 0x0A rfl (by simp [EndsLineAt])
  | cr hnext =>
      refine hsingle 0x0D rfl (.inr ⟨by simp, ?_⟩)
      rwa [List.getElem?_append_right (by simp), List.length_append, List.length_singleton,
        Nat.sub_self, ← List.head?_eq_getElem?]
  | crlf =>
      have hinside : ¬EndsLineAt (before ++ [0x0D, 0x0A] ++ after) (before.length + 1) := by
        simp [EndsLineAt]
      have hends : EndsLineAt (before ++ [0x0D, 0x0A] ++ after) (before.length + 1 + 1) := by
        simp [EndsLineAt]
      have hfirst : index.lineOf (before.length + 1) = index.lineOf before.length :=
        (lineOf_succ (by simp)).trans (by rw [if_neg hinside, Nat.add_zero])
      have hsecond : index.lineOf (before.length + 1 + 1) = index.lineOf (before.length + 1) + 1 :=
        (lineOf_succ (by simp)).trans (by rw [if_pos hends])
      refine ⟨hsecond.trans (by rw [hfirst]), ?_⟩
      intro k hk
      have hcases : k = 0 ∨ k = 1 := by
        simp only [List.length_cons, List.length_nil] at hk
        omega
      rcases hcases with rfl | rfl
      · rfl
      · exact hfirst

/-- **The line of an offset is one more than the number of line ends up to it.**  The line
starts increase and lie within the source, the search for an offset stops where they pass it,
the end of the source is on the last line, and each ending ends one line, to which all its
bytes belong. -/
theorem lineOf_counts_line_ends (source : Bytes) :
    let index := ofSource source
    (∀ offset, index.lineOf offset =
      1 + ((Finset.Icc 1 (min offset source.length)).filter (EndsLineAt source)).card) ∧
    (∀ before ending after, source = before ++ ending ++ after → LineEnding after ending →
      index.lineOf (before.length + ending.length) = index.lineOf before.length + 1 ∧
      ∀ k < ending.length, index.lineOf (before.length + k) = index.lineOf before.length) ∧
    index.lineCount = index.lineOf source.length ∧
    index.starts.Pairwise (· < ·) ∧
    (∃ last, index.starts.getLast? = some last ∧ last ≤ source.length) ∧
    (∀ offset i start, index.starts[i]? = some start →
      (start ≤ min offset source.length ↔ i < index.lineOf offset)) ∧
    Monotone index.lineOf := by
  intro index
  have hincreasing : index.starts.Pairwise (· < ·) := pairwise_starts source
  refine ⟨lineOf_ofSource source, ?_, ?_, hincreasing, ?_, ?_, index.lineOf_monotone⟩
  · intro before ending after hsource hending
    subst hsource
    exact hending.lineOf_eq
  · -- No line starts beyond the end, so the search for the end passes all starts.
    have hall : ∀ start ∈ index.starts, decide (start ≤ min source.length index.size) = true := by
      intro start hstart
      have hle := le_length_of_mem_starts hstart
      exact decide_eq_true (Nat.le_min.mpr ⟨hle, hle⟩)
    rw [lineCount, lineOf, takeWhile_eq_filter hincreasing, List.filter_eq_self.mpr hall]
  · have hne : index.starts ≠ [] := List.cons_ne_nil _ _
    refine ⟨_, List.getLast?_eq_some_getLast hne, ?_⟩
    exact le_length_of_mem_starts (List.getLast_mem hne)
  · intro offset i start hstart
    exact le_iff_lt_length_takeWhile hincreasing hstart _

/-- A source with all three line endings, two of them next to each other. -/
def mixedSource : Bytes :=
  [0x61, 0x0D, 0x0A, 0x0D, 0x62, 0x0D, 0x0D, 0x0A]

/-- All three line endings in one source. -/
theorem mixedSource_line_ends :
    let index := ofSource mixedSource
    (List.range 10).map index.lineOf = [1, 1, 1, 2, 3, 3, 4, 4, 5, 5] ∧
    (index.lineOf 3 = index.lineOf 1 + 1 ∧ index.lineOf 2 = index.lineOf 1) ∧
    index.lineOf 6 = index.lineOf 5 + 1 ∧
    index.starts[3]? = some 6 ∧ (6 ≤ min 9 8 ↔ 3 < index.lineOf 9) := by
  intro index
  obtain ⟨-, hending, -, -, -, hsearch, -⟩ := lineOf_counts_line_ends mixedSource
  have hpair := hending [0x61] [0x0D, 0x0A] [0x0D, 0x62, 0x0D, 0x0D, 0x0A] rfl .crlf
  have hlone := hending [0x61, 0x0D, 0x0A, 0x0D, 0x62] [0x0D] [0x0D, 0x0A] rfl (.cr (by decide))
  have hstart : index.starts[3]? = some 6 := by decide
  exact ⟨by decide, ⟨hpair.1, hpair.2 1 (by decide)⟩, hlone.1, hstart, hsearch 9 3 6 hstart⟩

end LineIndex

end SourceOutline
