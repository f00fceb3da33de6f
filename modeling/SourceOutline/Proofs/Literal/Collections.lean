import SourceOutline.Proofs.Literal.Forms

/-!
# Arrays and dictionaries

What stands between the brackets of a collection is a sequence of plain characters, strings
and groups in brackets, which nest.  The scan for a colon knows of these only a depth and
whether it is in a string.  It leaves a string or a group as it entered it, at any depth
(`colonFrom_text`), so the colons that it finds are the plain characters of the sequence
itself.
-/

namespace SourceOutline.Literal

/-- A kind of brackets. -/
inductive Bracket where
  | square
  | round
  | curly
  deriving DecidableEq, Repr

namespace Bracket

def opening : Bracket → Char
  | .square => '['
  | .round => '('
  | .curly => '\x7b'

def closing : Bracket → Char
  | .square => ']'
  | .round => ')'
  | .curly => '\x7d'

end Bracket

/-- Neither a quote nor a bracket. -/
def IsPlain (c : Char) : Prop :=
  c ≠ '"' ∧ ∀ bracket : Bracket, c ≠ bracket.opening ∧ c ≠ bracket.closing

/-- What a string is made of. -/
inductive StringUnit where
  | plain (c : Char) (h : c ≠ '"' ∧ c ≠ '\\')
  | escaped (c : Char)

def StringUnit.text : StringUnit → List Char
  | .plain c _ => [c]
  | .escaped c => ['\\', c]

/-- What stands between the brackets of a collection.  The two brackets of a group need not be
of one kind. -/
inductive Elements where
  | empty
  | plain (c : Char) (h : IsPlain c) (rest : Elements)
  | string (units : List StringUnit) (rest : Elements)
  | group (first last : Bracket) (inside rest : Elements)

namespace Elements

def text : Elements → List Char
  | .empty => []
  | .plain c _ rest => c :: rest.text
  | .string units rest => '"' :: (units.flatMap StringUnit.text ++ '"' :: rest.text)
  | .group first last inside rest => first.opening :: (inside.text ++ last.closing :: rest.text)

/-- Whether a colon stands outside all strings and groups. -/
def topColon : Elements → Bool
  | .empty => false
  | .plain c _ rest => c == ':' || rest.topColon
  | .string _ rest => rest.topColon
  | .group _ _ _ rest => rest.topColon

end Elements

section Scan

variable (depth : Nat) (cs : List Char)

/-- An opening bracket goes one level down. -/
theorem colonFrom_opening (bracket : Bracket) :
    colonFrom (.code depth) (bracket.opening :: cs) = colonFrom (.code (depth + 1)) cs := by
  cases bracket <;> simp [colonFrom, Bracket.opening]

/-- A closing bracket goes one level up. -/
theorem colonFrom_closing (bracket : Bracket) :
    colonFrom (.code (depth + 1)) (bracket.closing :: cs) = colonFrom (.code depth) cs := by
  cases bracket <;> simp [colonFrom, Bracket.closing]

/-- Only a colon at the top counts; other characters change nothing. -/
theorem colonFrom_plain {c : Char} (h : IsPlain c) :
    colonFrom (.code depth) (c :: cs) =
      ((c == ':' && depth == 0) || colonFrom (.code depth) cs) := by
  obtain ⟨hquote, hbracket⟩ := h
  have hopening : ¬(c = '[' ∨ c = '(' ∨ c = '\x7b') := by
    intro h
    rcases h with h | h | h
    · exact (hbracket .square).1 h
    · exact (hbracket .round).1 h
    · exact (hbracket .curly).1 h
  have hclosing : ¬(c = ']' ∨ c = ')' ∨ c = '\x7d') := by
    intro h
    rcases h with h | h | h
    · exact (hbracket .square).2 h
    · exact (hbracket .round).2 h
    · exact (hbracket .curly).2 h
  rw [colonFrom, if_neg hquote, if_neg hopening, if_neg hclosing]
  by_cases hcolon : c = ':' ∧ depth = 0
  · simp [hcolon]
  · rw [if_neg hcolon]
    simp [hcolon]

/-- The scan leaves a string at the depth at which it entered it. -/
theorem colonFrom_string (units : List StringUnit) :
    colonFrom (.string depth false) (units.flatMap StringUnit.text ++ '"' :: cs) =
      colonFrom (.code depth) cs := by
  induction units with
  | nil => simp [colonFrom]
  | cons unit units ih =>
      cases unit with
      | plain c h => simpa [StringUnit.text, colonFrom, h] using ih
      | escaped c => simpa [StringUnit.text, colonFrom] using ih

end Scan

/-- **The scan finds the colons outside strings and groups.**  Inside a group the depth is
positive, so none of its colons is found. -/
theorem colonFrom_text (t : Elements) (depth : Nat) (cs : List Char) :
    colonFrom (.code depth) (t.text ++ cs) =
      ((depth == 0 && t.topColon) || colonFrom (.code depth) cs) := by
  induction t generalizing depth cs with
  | empty => simp [Elements.text, Elements.topColon]
  | plain c h rest ih =>
      rw [Elements.text, List.cons_append, colonFrom_plain _ _ h, ih, Elements.topColon]
      cases depth == 0 <;> simp [Bool.or_assoc]
  | string units rest ih =>
      have hquote : ∀ more, colonFrom (.code depth) ('"' :: more) =
          colonFrom (.string depth false) more := fun more => by simp [colonFrom]
      rw [Elements.text, List.cons_append, hquote, List.append_assoc, List.cons_append,
        colonFrom_string, ih, Elements.topColon]
  | group first last inside rest ihinside ihrest =>
      have hdeep : (depth + 1 == 0) = false := rfl
      rw [Elements.text, List.cons_append, colonFrom_opening, List.append_assoc, ihinside, hdeep,
        Bool.false_and, Bool.false_or, List.cons_append, colonFrom_closing, ihrest,
        Elements.topColon]

/-- The scan finds the colons of the top level and no others. -/
theorem hasTopLevelColon_text (t : Elements) : hasTopLevelColon t.text = t.topColon := by
  have hscan := colonFrom_text t 0 []
  rw [List.append_nil] at hscan
  simpa [colonFrom, hasTopLevelColon] using hscan

/-- A colon outside strings and groups stands between elements. -/
theorem Elements.topColon_iff {t : Elements} :
    t.topColon = true ↔ ∃ before after : Elements, t.text = before.text ++ ':' :: after.text := by
  constructor
  · intro h
    induction t with
    | empty => cases h
    | plain c hc rest ih =>
        by_cases hcolon : c = ':'
        · exact ⟨.empty, rest, by simp [text, hcolon]⟩
        · obtain ⟨before, after, hsplit⟩ := ih (by simpa [topColon, hcolon] using h)
          exact ⟨.plain c hc before, after, by rw [text, hsplit]; rfl⟩
    | string units rest ih =>
        obtain ⟨before, after, hsplit⟩ := ih h
        exact ⟨.string units before, after, by simp [text, hsplit]⟩
    | group first last inside rest _ ih =>
        obtain ⟨before, after, hsplit⟩ := ih h
        exact ⟨.group first last inside before, after, by simp [text, hsplit]⟩
  · intro ⟨before, after, hsplit⟩
    rw [← hasTopLevelColon_text, hsplit, hasTopLevelColon, colonFrom_text]
    simp [colonFrom]

/-- What stands in square brackets is a dictionary with such a colon and an array without. -/
theorem tag?_bracketed (inner : List Char) :
    tag? ('[' :: (inner ++ [']'])) =
      some (if hasTopLevelColon inner then .dictionary else .array) :=
  tag?_eq_some_iff.mpr ⟨.collection, collection?_bracketed inner⟩

/-- **A bracketed literal is a dictionary exactly when a colon stands among its elements**, and
an array otherwise, whatever colons its strings and groups hold.  Such a colon is one that has
whole elements on both sides. -/
theorem collections_by_top_colon (t : Elements) :
    (tag? ('[' :: (t.text ++ [']'])) = some .dictionary ↔ t.topColon = true) ∧
    (tag? ('[' :: (t.text ++ [']'])) = some .array ↔ t.topColon = false) ∧
    (t.topColon = true ↔
      ∃ before after : Elements, t.text = before.text ++ ':' :: after.text) := by
  rw [tag?_bracketed, hasTopLevelColon_text]
  refine ⟨?_, ?_, t.topColon_iff⟩
  · cases t.topColon <;> simp
  · cases t.topColon <;> simp

example : tag? "[[1: 2], f(x: 3), \"k:\\\"\"]".toList = some .array := by decide

end SourceOutline.Literal
