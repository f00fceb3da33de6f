import Mathlib.Data.List.Basic
import Mathlib.Data.List.TakeWhile
import SourceOutline.Swift.Declaration

/-!
# Only the first binding counts

A variable declaration may bind several names.  Its binding is read from the first group of
its children: the first pattern and what stands between it and the next pattern, or the end.

The scan is followed in three stretches: before the first pattern it keeps nothing, between
two patterns it keeps the last annotation and the last value, and at the second pattern it
stops (`Tree.scanBinding_before`, `Tree.scanBinding_between`, `Tree.scanBinding_after`).
-/

namespace SourceOutline.Swift

namespace Tree

/-- A node that may hold what a binding binds. -/
def PatternLike (t : Tree) : Prop :=
  t.field = some "name" ∨ t.kind = "pattern"

instance (t : Tree) : Decidable t.PatternLike :=
  inferInstanceAs (Decidable (_ ∨ _))

theorem isPattern_iff {t : Tree} : t.isPattern = true ↔ t.PatternLike := by
  simp [isPattern, PatternLike]

/-- A type annotation. -/
def IsAnnotation (t : Tree) : Prop :=
  t.kind = "type_annotation"

instance (t : Tree) : Decidable t.IsAnnotation :=
  inferInstanceAs (Decidable (_ = _))

/-- A node in the field of values that is no type annotation. -/
def IsValue (t : Tree) : Prop :=
  t.field = some "value" ∧ ¬ t.IsAnnotation

instance (t : Tree) : Decidable t.IsValue :=
  inferInstanceAs (Decidable (_ ∧ _))

/-- The last node with a property. -/
def last? (property : Tree → Prop) [DecidablePred property] (ts : List Tree) : Option Tree :=
  (ts.filter property).getLast?

/-- The last hit of a list is the last of its tail, else its head when that is one. -/
theorem last?_cons (property : Tree → Prop) [DecidablePred property] (t : Tree)
    (ts : List Tree) :
    last? property (t :: ts) = (last? property ts).or (if property t then some t else none) := by
  unfold last?
  by_cases h : property t
  · rw [List.filter_cons_of_pos (by simpa using h), List.getLast?_cons, if_pos h]
    cases (ts.filter property).getLast? <;> rfl
  · rw [List.filter_cons_of_neg (by simpa using h), if_neg h, Option.or_none]

/-- The first pattern among nodes, and the nodes between it and the next pattern or the end. -/
def FirstGroup (ts : List Tree) (p : Tree) (between : List Tree) : Prop :=
  ∃ before after, ts = before ++ p :: between ++ after ∧
    (∀ t ∈ before, ¬ t.PatternLike) ∧ p.PatternLike ∧ (∀ t ∈ between, ¬ t.PatternLike) ∧
    ∀ q ∈ after.head?, q.PatternLike

/-- Among nodes with a pattern there is a first group. -/
theorem exists_firstGroup {ts : List Tree} (h : ∃ t ∈ ts, t.PatternLike) :
    ∃ p between, FirstGroup ts p between := by
  have hfind : (ts.find? fun t => decide t.PatternLike).isSome = true := by
    simpa [List.find?_isSome] using h
  obtain ⟨p, hp⟩ := Option.isSome_iff_exists.mp hfind
  obtain ⟨hpattern, before, after, rfl, hbefore⟩ := List.find?_eq_some_iff_append.mp hp
  let other (t : Tree) : Bool := !decide t.PatternLike
  refine ⟨p, after.takeWhile other, before, after.dropWhile other, ?_, ?_, ?_, ?_, ?_⟩
  · rw [List.append_assoc, List.cons_append, List.takeWhile_append_dropWhile]
  · intro t ht
    simpa using hbefore t ht
  · simpa using hpattern
  · intro t ht
    simpa [other] using List.mem_takeWhile_imp ht
  · intro q hq
    have hstop := List.head?_dropWhile_not other after
    rw [Option.mem_def.mp hq] at hstop
    simpa [other] using hstop

/-- A node after the pattern replaces the annotation or the initializer, or changes nothing. -/
theorem addToBinding_eq (t : Tree) (b : BindingParts Span) :
    t.addToBinding b = {
      pattern := b.pattern
      annotation := (if t.IsAnnotation then some t.span else none).or b.annotation
      initializer := (if t.IsValue then some t.span else none).or b.initializer } := by
  unfold addToBinding IsValue IsAnnotation
  by_cases htyped : t.kind = "type_annotation"
  · simp [htyped]
  · by_cases hvalue : t.field = some "value" <;> simp [htyped, hvalue]

/-- Before the first pattern, the scan keeps nothing. -/
theorem scanBinding_before {before : List Tree} (h : ∀ t ∈ before, ¬ t.PatternLike)
    (ts : List Tree) : scanBinding none (before ++ ts) = scanBinding none ts := by
  induction before with
  | nil => rfl
  | cons t before ih =>
      have ht : t.isPattern ≠ true := fun hpattern =>
        h t List.mem_cons_self (isPattern_iff.mp hpattern)
      have hothers := ih fun u hu => h u (List.mem_cons_of_mem _ hu)
      rw [List.cons_append, scanBinding, if_neg ht, hothers]

/-- The first pattern opens the binding. -/
theorem scanBinding_pattern {p : Tree} (h : p.PatternLike) (ts : List Tree) :
    scanBinding none (p :: ts) = scanBinding (some { pattern := p.span }) ts := by
  rw [scanBinding, if_pos (isPattern_iff.mpr h)]

/-- Between two patterns, the scan keeps the last annotation and the last value. -/
theorem scanBinding_between {between : List Tree} (h : ∀ t ∈ between, ¬ t.PatternLike)
    (b : BindingParts Span) (ts : List Tree) :
    scanBinding (some b) (between ++ ts) =
      scanBinding (some {
        pattern := b.pattern
        annotation := ((last? IsAnnotation between).map span).or b.annotation
        initializer := ((last? IsValue between).map span).or b.initializer }) ts := by
  induction between generalizing b with
  | nil => rfl
  | cons t between ih =>
      have ht : t.isPattern ≠ true := fun hpattern =>
        h t List.mem_cons_self (isPattern_iff.mp hpattern)
      have hothers := ih fun u hu => h u (List.mem_cons_of_mem _ hu)
      rw [List.cons_append, scanBinding, if_neg ht, hothers, addToBinding_eq, last?_cons,
        last?_cons, Option.map_or, Option.map_or, Option.or_assoc, Option.or_assoc]
      by_cases htyped : t.IsAnnotation <;> by_cases hvalue : t.IsValue <;>
        simp [htyped, hvalue]

/-- The second pattern ends the binding. -/
theorem scanBinding_after {after : List Tree} (h : ∀ q ∈ after.head?, q.PatternLike)
    (b : BindingParts Span) : scanBinding (some b) after = some b := by
  cases after with
  | nil => rfl
  | cons q after => rw [scanBinding, if_pos (isPattern_iff.mpr (h q rfl))]

/-- The binding of nodes is read from their first group. -/
theorem scanBinding_firstGroup {ts between : List Tree} {p : Tree}
    (h : FirstGroup ts p between) :
    scanBinding none ts = some {
      pattern := p.span
      annotation := (last? IsAnnotation between).map span
      initializer := (last? IsValue between).map span } := by
  obtain ⟨before, after, rfl, hbefore, hp, hbetween, hafter⟩ := h
  rw [List.append_assoc, List.cons_append, scanBinding_before hbefore, scanBinding_pattern hp,
    scanBinding_between hbetween, scanBinding_after hafter, Option.or_none, Option.or_none]

/-- The binding of a node is what the scan of its children finds, read from the source. -/
theorem binding_toNode (source : Bytes) (t : Tree) :
    (t.toNode source).binding =
      (scanBinding none t.children).map (BindingParts.read source) := by
  cases t
  rfl

end Tree

/-- The source of two bindings. -/
def pairSource : Bytes :=
  Utf8.encode "let a = 1, b: T = x".toList

/-- The pattern of the first one. -/
def pairPattern : Tree :=
  ⟨"pattern", true, some "name", ⟨4, 5⟩, []⟩

/-- What stands between the patterns. -/
def pairBetween : List Tree :=
  [⟨"=", false, none, ⟨6, 7⟩, []⟩, ⟨"integer_literal", true, some "value", ⟨8, 9⟩, []⟩,
    ⟨",", false, none, ⟨9, 10⟩, []⟩]

/-- The second binding. -/
def pairAfter : List Tree :=
  [⟨"pattern", true, some "name", ⟨11, 12⟩, []⟩, ⟨"type_annotation", true, none, ⟨12, 15⟩, []⟩,
    ⟨"=", false, none, ⟨16, 17⟩, []⟩, ⟨"simple_identifier", true, some "value", ⟨18, 19⟩, []⟩]

/-- The keyword of the declaration. -/
def pairKeyword : Tree :=
  ⟨"value_binding_pattern", true, none, ⟨0, 3⟩, []⟩

/-- The tree of a declaration with the given children. -/
def pairTree (children : List Tree) : Tree :=
  ⟨"property_declaration", true, none, ⟨0, 19⟩, children⟩

end SourceOutline.Swift
