import Mathlib.Data.Nat.Basic
import Mathlib.Order.Monotone.Defs
import SourceOutline.LineIndex

/-!
# Bounds on line numbers

The line of an offset is a number of line starts, so it never decreases when the offset
grows and never exceeds the number of lines.  The first line starts at offset 0, which
makes every line number positive.
-/

namespace SourceOutline

namespace LineIndex

/-- A larger bound stops no earlier. -/
theorem length_takeWhile_le {a b : Nat} (hab : a ≤ b) (starts : List Nat) :
    (starts.takeWhile (· ≤ a)).length ≤ (starts.takeWhile (· ≤ b)).length := by
  induction starts with
  | nil => exact Nat.le_refl _
  | cons start starts ih =>
      by_cases hstart : start ≤ a
      · have hlater : start ≤ b := Nat.le_trans hstart hab
        simpa [List.takeWhile_cons, hstart, hlater] using ih
      · simp [List.takeWhile_cons, hstart]

/-- Later offsets are on later lines. -/
theorem lineOf_monotone (index : LineIndex) : Monotone index.lineOf := by
  intro a b hab
  have hclamped : min a index.size ≤ min b index.size := by omega
  exact length_takeWhile_le hclamped index.starts

/-- No offset is beyond the last line. -/
theorem lineOf_le_lineCount (index : LineIndex) (offset : Nat) :
    index.lineOf offset ≤ index.lineCount :=
  (List.takeWhile_sublist _).length_le

/-- Lines are counted from one. -/
theorem one_le_lineOf_ofSource (source : Bytes) (offset : Nat) :
    1 ≤ (ofSource source).lineOf offset := by
  unfold lineOf ofSource
  rw [List.takeWhile_cons]
  simp

/-- Offsets in two sources with the same lines are on the same lines. -/
theorem lineOf_ofSource_congr {source source' : Bytes} {offset : Nat}
    (hstarts : (ofSource source).starts = (ofSource source').starts)
    (h : offset ≤ source.length) (h' : offset ≤ source'.length) :
    (ofSource source).lineOf offset = (ofSource source').lineOf offset := by
  have hsize : min offset (ofSource source).size = offset := Nat.min_eq_left h
  have hsize' : min offset (ofSource source').size = offset := Nat.min_eq_left h'
  rw [lineOf, lineOf, hsize, hsize', hstarts]

end LineIndex

end SourceOutline
