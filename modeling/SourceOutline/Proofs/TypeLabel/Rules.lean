import SourceOutline.Proofs.Literal.Forms
import SourceOutline.Proofs.Node.Texts

/-!
# Which rule gives a label

Three rules compete for the label of an initializer: the text before the first parenthesis,
the type of a literal, and the text before the first point.  A rule that cuts gives nothing
exactly when its delimiter is absent or stands first (`textBefore?_of_first`,
`textBefore?_of_inside`): a trimmed text starts with a character that is no blank, so what
is cut off before a later delimiter is not blank.

1.  An annotation that is not blank is the label, whatever the initializer is.
2.  A parenthesis after the first character makes a call, whatever literal the text is.
3.  Without parentheses, literals come before qualified names.
4.  A text that starts with a parenthesis is no call and no literal, so it falls through to
    the last rule (`ofTrimmed?_of_parenthesis`): its label ends at the first point, and there
    is none without a point.
-/

namespace SourceOutline

namespace Text

/-- The text before the first `d`; all of it when there is none. -/
def untilFirst (d : Char) (cs : List Char) : List Char :=
  cs.takeWhile (· ≠ d)

theorem not_mem_untilFirst (d : Char) (cs : List Char) : d ∉ untilFirst d cs := by
  intro h
  simpa using List.mem_takeWhile_imp h

/-- A text that has the separator is cut at the first one. -/
theorem breakAt?_of_mem {d : Char} {cs : List Char} (h : d ∈ cs) :
    ∃ after, breakAt? d cs = some (untilFirst d cs, after) := by
  cases hcut : breakAt? d cs with
  | none => exact absurd h (breakAt?_eq_none_iff.mp hcut)
  | some parts =>
      obtain ⟨before, after⟩ := parts
      obtain ⟨hcs, hbefore⟩ := breakAt?_eq_some hcut
      have huntil : untilFirst d cs = before := by
        have hfree : ∀ c ∈ before, decide (c ≠ d) = true := by
          intro c hc
          apply decide_eq_true
          intro heq
          exact hbefore (heq ▸ hc)
        rw [untilFirst, hcs, List.takeWhile_append_of_pos hfree]
        simp
      rw [huntil]
      exact ⟨after, rfl⟩

/-- What comes before a later separator starts like the text itself. -/
theorem head?_untilFirst {d : Char} {cs : List Char} (h : cs.head? ≠ some d) :
    (untilFirst d cs).head? = cs.head? := by
  cases cs with
  | nil => rfl
  | cons c cs =>
      have hc : c ≠ d := fun heq => h (congrArg some heq)
      simp [untilFirst, hc]

/-- Nothing comes before a separator in front. -/
theorem untilFirst_of_first {d : Char} {cs : List Char} (h : cs.head? = some d) :
    untilFirst d cs = [] := by
  cases cs with
  | nil => rfl
  | cons c cs =>
      obtain rfl : c = d := Option.some.inj h
      simp [untilFirst]

/-- A text of which a character is left after trimming is trimmed without being empty. -/
theorem isTrimmed_of_mem {cs : List Char} {c : Char} (h : c ∈ trim cs) : IsTrimmed (trim cs) :=
  isTrimmed_trim (List.ne_nil_of_mem h)

/-- The first character of a trimmed text is kept when the text is cut later on. -/
theorem IsTrimmed.mem_trim_untilFirst {d : Char} {cs : List Char} (h : IsTrimmed cs)
    (hhead : cs.head? ≠ some d) : ∃ c ∈ cs.head?, c ∈ trim (untilFirst d cs) := by
  obtain ⟨hne, hfirst, -⟩ := h
  obtain ⟨c, rest, rfl⟩ := List.exists_cons_of_ne_nil hne
  refine ⟨c, rfl, mem_trim ?_ (hfirst c rfl)⟩
  apply List.mem_of_mem_head?
  rw [head?_untilFirst hhead]
  rfl

end Text

namespace TypeLabel

open Text

/-! ## Cutting at a delimiter -/

/-- Without the separator no text is before it. -/
theorem textBefore?_of_not_mem {d : Char} {e : List Char} (h : d ∉ e) :
    textBefore? d e = none := by
  rw [textBefore?, breakAt?_eq_none_iff.mpr h]

/-- The text before the first separator counts unless it is blank. -/
theorem textBefore?_of_mem {d : Char} {e : List Char} (h : d ∈ e) :
    textBefore? d e =
      if (trim (untilFirst d e)).isEmpty then none else some (trim (untilFirst d e)) := by
  obtain ⟨after, hcut⟩ := breakAt?_of_mem h
  rw [textBefore?, hcut]

/-- Nothing stands before a delimiter that comes first. -/
theorem textBefore?_of_first {d : Char} {e : List Char} (h : e.head? = some d) :
    textBefore? d e = none := by
  rw [textBefore?_of_mem (List.mem_of_mem_head? h), untilFirst_of_first h]
  rfl

/-- Something stands before a delimiter that comes later. -/
theorem textBefore?_of_inside {d : Char} {e : List Char} (he : IsTrimmed e) (hmem : d ∈ e)
    (hhead : e.head? ≠ some d) : textBefore? d e = some (trim (untilFirst d e)) := by
  obtain ⟨c, -, hc⟩ := he.mem_trim_untilFirst hhead
  rw [textBefore?_of_mem hmem, if_neg]
  rw [List.isEmpty_iff]
  exact List.ne_nil_of_mem hc

/-! ## Trimmed expressions -/

/-- A call is labelled by what stands before its first parenthesis. -/
theorem ofTrimmed?_of_call {e : List Char} (he : IsTrimmed e) (hmem : '(' ∈ e)
    (hhead : e.head? ≠ some '(') : ofTrimmed? e = some (trim (untilFirst '(' e)) := by
  rw [ofTrimmed?, textBefore?_of_inside he hmem hhead]
  rfl

/-- A literal without a parenthesis is labelled by its type. -/
theorem ofTrimmed?_of_literal {e : List Char} {tag : Literal.Tag} (hcall : '(' ∉ e)
    (htag : Literal.tag? e = some tag) : ofTrimmed? e = some tag.name.toList := by
  rw [ofTrimmed?, textBefore?_of_not_mem hcall, htag]
  rfl

/-- What no earlier rule labels is left to the last one. -/
theorem ofTrimmed?_of_no_literal {e : List Char} (hcall : textBefore? '(' e = none)
    (htag : Literal.tag? e = none) : ofTrimmed? e = textBefore? '.' e := by
  rw [ofTrimmed?, hcall, htag]
  rfl

/-- Without parentheses there is no call. -/
theorem ofTrimmed?_of_member {e : List Char} (hcall : '(' ∉ e) (htag : Literal.tag? e = none) :
    ofTrimmed? e = textBefore? '.' e :=
  ofTrimmed?_of_no_literal (textBefore?_of_not_mem hcall) htag

/-- No literal starts with a parenthesis. -/
theorem tag?_of_parenthesis {e : List Char} (h : e.head? = some '(') : Literal.tag? e = none := by
  cases htag : Literal.tag? e with
  | none => rfl
  | some tag =>
      obtain ⟨c, hc, hstarts⟩ := (Literal.accepts_of_tag? htag).exists_start
      obtain rfl : '(' = c := Option.some.inj (h.symm.trans hc)
      cases tag <;> simp [Literal.Tag.form, Literal.Form.Starts, Literal.isDigit] at hstarts

/-- A text that starts with a parenthesis is left to the last rule. -/
theorem ofTrimmed?_of_parenthesis {e : List Char} (h : e.head? = some '(') :
    ofTrimmed? e = textBefore? '.' e :=
  ofTrimmed?_of_no_literal (textBefore?_of_first h) (tag?_of_parenthesis h)

/-! ## Initializers -/

/-- Only the trimmed value counts. -/
theorem ofInitializer?_eq (expr : String) :
    ofInitializer? expr = (ofTrimmed? (trim expr.toList)).map String.ofList := by
  by_cases hblank : trim expr.toList = []
  · rw [ofInitializer?, hblank]
    rfl
  · simp [ofInitializer?, hblank]

/-- The label of a text that starts with a parenthesis ends at its first point. -/
theorem ofInitializer?_of_parenthesis {expr : String}
    (h : (trim expr.toList).head? = some '(') :
    ofInitializer? expr =
      if '.' ∈ trim expr.toList then
        some (String.ofList (trim (untilFirst '.' (trim expr.toList))))
      else none := by
  rw [ofInitializer?_eq, ofTrimmed?_of_parenthesis h]
  by_cases hpoint : '.' ∈ trim expr.toList
  · have hfirst : (trim expr.toList).head? ≠ some '.' := by
      rw [h]
      decide
    rw [if_pos hpoint, textBefore?_of_inside (isTrimmed_of_mem hpoint) hpoint hfirst]
    rfl
  · rw [if_neg hpoint, textBefore?_of_not_mem hpoint]
    rfl

/-- The labels of all other texts are free of parentheses. -/
theorem no_parenthesis_in_label {expr label : String}
    (h : (trim expr.toList).head? ≠ some '(') (hlabel : ofInitializer? expr = some label) :
    '(' ∉ label.toList := by
  rw [ofInitializer?_eq] at hlabel
  obtain ⟨t, ht, rfl⟩ := Option.map_eq_some_iff.mp hlabel
  rw [String.toList_ofList]
  by_cases hcall : '(' ∈ trim expr.toList
  · rw [ofTrimmed?_of_call (isTrimmed_of_mem hcall) hcall h] at ht
    cases ht
    intro hmem
    exact not_mem_untilFirst _ _ ((trim_isInfix _).subset hmem)
  · cases htag : Literal.tag? (trim expr.toList) with
    | some tag =>
        rw [ofTrimmed?_of_literal hcall htag] at ht
        cases ht
        cases tag <;> decide
    | none =>
        rw [ofTrimmed?_of_member hcall htag] at ht
        intro hmem
        exact hcall ((textBefore?_eq_some ht).2.subset hmem)

/-- **A parenthesis gets into a label only from the start of an initializer.**  An initializer
that starts with one has no label unless it has a point; then the label is the trimmed text
before the first point.  All other labels are free of parentheses, whatever the initializer
holds. -/
theorem parenthesised_label_ends_at_point (expr : String) :
    ((trim expr.toList).head? = some '(' →
      ('.' ∉ trim expr.toList → ofInitializer? expr = none) ∧
      ('.' ∈ trim expr.toList → ofInitializer? expr =
        some (String.ofList (trim (untilFirst '.' (trim expr.toList)))))) ∧
    ((∃ label, ofInitializer? expr = some label ∧ '(' ∈ label.toList) ↔
      (trim expr.toList).head? = some '(' ∧ '.' ∈ trim expr.toList) := by
  refine ⟨?_, ?_, ?_⟩
  · intro hparen
    rw [ofInitializer?_of_parenthesis hparen]
    exact ⟨fun hpoint => if_neg hpoint, fun hpoint => if_pos hpoint⟩
  · intro ⟨label, hlabel, hmem⟩
    have hparen : (trim expr.toList).head? = some '(' := by
      by_contra hother
      exact no_parenthesis_in_label hother hlabel hmem
    rw [ofInitializer?_of_parenthesis hparen] at hlabel
    exact ⟨hparen, (Option.ite_none_right_eq_some.mp hlabel).1⟩
  · intro ⟨hparen, hpoint⟩
    have hfirst : (trim expr.toList).head? ≠ some '.' := by
      rw [hparen]
      decide
    obtain ⟨c, hc, hmem⟩ := (isTrimmed_of_mem hpoint).mem_trim_untilFirst hfirst
    obtain rfl : '(' = c := Option.some.inj (hparen.symm.trans hc)
    refine ⟨_, by rw [ofInitializer?_of_parenthesis hparen, if_pos hpoint], ?_⟩
    rw [String.toList_ofList]
    exact hmem

/-- A member of a tuple is labelled by the tuple as it is written; the tuple alone has no label.
-/
theorem tupleMember_label_ends_at_point :
    (trim " (f(1), \"a\") .0".toList).head? = some '(' ∧
    ofInitializer? " (f(1), \"a\") .0" = some "(f(1), \"a\")" ∧
    ofInitializer? "(f(1), \"a\")" = none := by
  obtain ⟨hmember, -⟩ := parenthesised_label_ends_at_point " (f(1), \"a\") .0"
  obtain ⟨htuple, -⟩ := parenthesised_label_ends_at_point "(f(1), \"a\")"
  refine ⟨by decide, ?_, (htuple (by decide)).1 (by decide)⟩
  rw [(hmember (by decide)).2 (by decide)]
  decide

/-- A member of a tuple is labelled, with the parentheses of the tuple. -/
theorem tuple_member_labelled :
    (trim "(1, 2).0".toList).head? = some '(' ∧
    ofInitializer? "(1, 2).0" ≠ none ∧
    ∃ label, ofInitializer? "(1, 2).0" = some label ∧ '(' ∈ label.toList := by
  have hlabel : ofInitializer? "(1, 2).0" = some "(1, 2)" := by decide
  refine ⟨by decide, ?_, "(1, 2)", hlabel, by decide⟩
  rw [hlabel]
  exact Option.some_ne_none _

/-! ## Bindings -/

/-- Blanks around a value make no difference. -/
theorem ofInitializer?_pad {before after : String} (hbefore : IsBlankText before.toList)
    (hafter : IsBlankText after.toList) (expr : String) :
    ofInitializer? (before ++ expr ++ after) = ofInitializer? expr := by
  rw [ofInitializer?, String.toList_append, String.toList_append, trim_pad hbefore hafter,
    ← ofInitializer?]

/-- Blanks around an annotation make no difference. -/
theorem ofBinding?_annotation_padded {before after : String} (hbefore : IsBlankText before.toList)
    (hafter : IsBlankText after.toList) (b : Binding) :
    ofBinding? { b with annotation := b.annotation.map (before ++ · ++ after) } =
      ofBinding? b := by
  unfold ofBinding?
  cases b.annotation with
  | none => rfl
  | some a => simp only [Option.map_some, Option.bind_some, nonBlank?_pad hbefore hafter]

/-- Blanks around the value of a binding make no difference. -/
theorem ofBinding?_initializer_padded {before after : String} (hbefore : IsBlankText before.toList)
    (hafter : IsBlankText after.toList) (b : Binding) :
    ofBinding? { b with initializer := b.initializer.map (before ++ · ++ after) } =
      ofBinding? b := by
  unfold ofBinding?
  cases b.initializer with
  | none => rfl
  | some i => simp only [Option.map_some, Option.bind_some, ofInitializer?_pad hbefore hafter]

/-- A binding without a usable annotation is labelled by its initializer. -/
theorem ofBinding?_of_blank {b : Binding} (h : ∀ a ∈ b.annotation, IsBlankText a.toList) :
    ofBinding? b = b.initializer.bind ofInitializer? := by
  unfold ofBinding?
  cases hgiven : b.annotation with
  | none => rfl
  | some a => rw [Option.bind_some, nonBlank?_of_blank (h a hgiven), Option.none_or]

/-- **The first rule that applies gives the label.**  Blanks around the annotation and the
initializer make no difference, a blank annotation is none, and any other annotation is the
label.  Without one, a parenthesis after the first character of the initializer comes first,
then the literals, then a point after the first character; no rule applies to an initializer
that is missing or blank. -/
theorem label_by_first_rule (b : Binding) :
    (∀ before after : String, IsBlankText before.toList → IsBlankText after.toList →
      ofBinding? { b with annotation := b.annotation.map (before ++ · ++ after) } =
        ofBinding? b ∧
      ofBinding? { b with initializer := b.initializer.map (before ++ · ++ after) } =
        ofBinding? b) ∧
    (∀ a : String, IsBlankText a.toList →
      ofBinding? { b with annotation := some a } = ofBinding? { b with annotation := none }) ∧
    (∀ a, b.annotation = some a → ¬ IsBlankText a.toList →
      ∀ i, ofBinding? { b with initializer := i } = some (trimmed a)) ∧
    ((∀ a ∈ b.annotation, IsBlankText a.toList) → b.initializer = none → ofBinding? b = none) ∧
    ((∀ a ∈ b.annotation, IsBlankText a.toList) → ∀ i, b.initializer = some i →
      let t := trim i.toList
      ('(' ∈ t → t.head? ≠ some '(' →
        ofBinding? b = some (String.ofList (trim (untilFirst '(' t)))) ∧
      (∀ tag, '(' ∉ t → Literal.tag? t = some tag → ofBinding? b = some tag.name) ∧
      ('(' ∉ t → Literal.tag? t = none → '.' ∈ t → t.head? ≠ some '.' →
        ofBinding? b = some (String.ofList (trim (untilFirst '.' t)))) ∧
      (t = [] ∨ '(' ∉ t ∧ Literal.tag? t = none ∧ ('.' ∉ t ∨ t.head? = some '.') →
        ofBinding? b = none)) := by
  refine ⟨?_, ?_, ?_, ?_, ?_⟩
  · intro before after hbefore hafter
    exact ⟨ofBinding?_annotation_padded hbefore hafter b,
      ofBinding?_initializer_padded hbefore hafter b⟩
  · intro a ha
    unfold ofBinding?
    rw [Option.bind_some, nonBlank?_of_blank ha]
    rfl
  · intro a hgiven ha i
    unfold ofBinding?
    rw [hgiven, Option.bind_some, nonBlank?_of_not_blank ha]
    rfl
  · intro hgiven hi
    rw [ofBinding?_of_blank hgiven, hi]
    rfl
  · intro hgiven i hi t
    have hlabel : ofBinding? b = (ofTrimmed? t).map String.ofList := by
      rw [ofBinding?_of_blank hgiven, hi, Option.bind_some, ofInitializer?_eq]
    rw [hlabel]
    refine ⟨?_, ?_, ?_, ?_⟩
    · intro hmem hhead
      rw [ofTrimmed?_of_call (isTrimmed_of_mem hmem) hmem hhead]
      rfl
    · intro tag hcall htag
      rw [ofTrimmed?_of_literal hcall htag, Option.map_some, String.ofList_toList]
    · intro hcall htag hmem hhead
      rw [ofTrimmed?_of_member hcall htag,
        textBefore?_of_inside (isTrimmed_of_mem hmem) hmem hhead]
      rfl
    · intro hnone
      rcases hnone with hempty | ⟨hcall, htag, hpoint | hpoint⟩
      · rw [hempty]
        rfl
      · rw [ofTrimmed?_of_member hcall htag, textBefore?_of_not_mem hpoint]
        rfl
      · rw [ofTrimmed?_of_member hcall htag, textBefore?_of_first hpoint]
        rfl

/-- Every rule labels some binding, and a leading point or nothing at all labels none. -/
theorem each_rule_labels_a_binding :
    ofBinding? ⟨"a", some "\u2003Foo ", some "Bar()"⟩ = some "Foo" ∧
    ofBinding? ⟨"b", some "\u00a0", some " Color . make (1.5)"⟩ = some "Color . make" ∧
    ofBinding? ⟨"c", none, some "\t-1.5e3\u3000"⟩ = some "Double" ∧
    ofBinding? ⟨"d", none, some "Color . red"⟩ = some "Color" ∧
    ofBinding? ⟨"e", none, some ".zero"⟩ = none ∧
    ofBinding? ⟨"e", some " ", some " .zero\n"⟩ = none := by
  obtain ⟨-, -, hannotated, -, -⟩ := label_by_first_rule ⟨"a", some "\u2003Foo ", some "Bar()"⟩
  obtain ⟨-, -, -, -, hcall⟩ :=
    label_by_first_rule ⟨"b", some "\u00a0", some " Color . make (1.5)"⟩
  obtain ⟨-, -, -, -, hliteral⟩ := label_by_first_rule ⟨"c", none, some "\t-1.5e3\u3000"⟩
  obtain ⟨-, -, -, -, hmember⟩ := label_by_first_rule ⟨"d", none, some "Color . red"⟩
  obtain ⟨hpad, -, -, -, hnone⟩ := label_by_first_rule ⟨"e", none, some ".zero"⟩
  obtain ⟨-, hblank, -, -, -⟩ := label_by_first_rule ⟨"e", none, some " .zero\n"⟩
  have hzero : ofBinding? ⟨"e", none, some ".zero"⟩ = none :=
    (hnone (by simp) ".zero" rfl).2.2.2 (.inr ⟨by decide, by decide, .inr (by decide)⟩)
  refine ⟨?_, ?_, ?_, ?_, hzero, ?_⟩
  · exact (hannotated _ rfl (by decide) (some "Bar()")).trans (by decide)
  · have hsome : ∀ a ∈ some "\u00a0", IsBlankText a.toList := by decide
    exact ((hcall hsome _ rfl).1 (by decide) (by decide)).trans (by decide)
  · exact (hliteral (by simp) _ rfl).2.1 .double (by decide) (by decide)
  · exact ((hmember (by simp) _ rfl).2.2.1 (by decide) (by decide) (by decide) (by decide)).trans
      (by decide)
  · have hpadded := (hpad " " "\n" (by decide) (by decide)).2
    exact (hblank " " (by decide)).trans (hpadded.trans hzero)

end TypeLabel

end SourceOutline
