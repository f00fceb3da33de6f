import SourceOutline.Node
import SourceOutline.Proofs.Text.Trimming

/-!
# Names and labels

The name of a symbol and the type label of a variable are trimmed, whatever the texts of
the node are: a blank or missing text gives a placeholder or no label.

Both are pieces of the texts that they are taken from, apart from the placeholder, the words
`init` and `deinit` and the names of the literal types.
-/

namespace SourceOutline

namespace TypeLabel

open Text

/-- What is kept before a cut is trimmed and a piece of the text. -/
theorem textBefore?_eq_some {d : Char} {e t : List Char} (h : textBefore? d e = some t) :
    IsTrimmed t ∧ t <:+: e := by
  unfold textBefore? at h
  split at h
  · cases h
  · next before after hbreak =>
    simp only at h
    split at h
    · cases h
    · next hne =>
      cases h
      have hbefore : before <+: e := ⟨d :: after, (breakAt?_eq_some hbreak).1.symm⟩
      exact ⟨isTrimmed_trim (by simpa using hne), (trim_isInfix before).trans hbefore.isInfix⟩

/-- The names of the literal types have no blanks around them. -/
theorem isTrimmed_tagName (tag : Literal.Tag) : IsTrimmed tag.name.toList := by
  cases tag <;> decide

/-- The label of an expression is the name of a literal type or a trimmed piece of it. -/
theorem ofTrimmed?_eq_some {e t : List Char} (h : ofTrimmed? e = some t) :
    IsTrimmed t ∧ ((∃ tag : Literal.Tag, t = tag.name.toList) ∨ t <:+: e) := by
  unfold ofTrimmed? at h
  rw [Option.or_eq_some_iff, Option.or_eq_some_iff] at h
  rcases h with hcall | ⟨-, hliteral | ⟨-, hmember⟩⟩
  · exact ⟨(textBefore?_eq_some hcall).1, .inr (textBefore?_eq_some hcall).2⟩
  · obtain ⟨tag, -, rfl⟩ := Option.map_eq_some_iff.mp hliteral
    exact ⟨isTrimmed_tagName tag, .inl ⟨tag, rfl⟩⟩
  · exact ⟨(textBefore?_eq_some hmember).1, .inr (textBefore?_eq_some hmember).2⟩

/-- A label found in a value is trimmed, and is a literal type or a piece of the value. -/
theorem ofInitializer?_eq_some {expr label : String} (h : ofInitializer? expr = some label) :
    IsTrimmed label.toList ∧
      ((∃ tag : Literal.Tag, label = tag.name) ∨ label.toList <:+: expr.toList) := by
  unfold ofInitializer? at h
  simp only at h
  split at h
  · cases h
  · obtain ⟨t, ht, rfl⟩ := Option.map_eq_some_iff.mp h
    obtain ⟨htrimmed, hfrom⟩ := ofTrimmed?_eq_some ht
    rw [String.toList_ofList]
    refine ⟨htrimmed, ?_⟩
    rcases hfrom with ⟨tag, rfl⟩ | hpiece
    · exact .inl ⟨tag, String.ofList_toList⟩
    · exact .inr (hpiece.trans (trim_isInfix _))

/-- The label of a binding is the name of a literal type or a trimmed piece of its annotation
or of its initializer. -/
theorem ofBinding?_eq_some {b : Binding} {label : String} (h : ofBinding? b = some label) :
    IsTrimmed label.toList ∧
      ((∃ tag : Literal.Tag, label = tag.name) ∨
        (∃ a, b.annotation = some a ∧ label.toList <:+: a.toList) ∨
        ∃ i, b.initializer = some i ∧ label.toList <:+: i.toList) := by
  unfold ofBinding? at h
  rw [Option.or_eq_some_iff] at h
  rcases h with hannotation | ⟨-, hinitializer⟩
  · obtain ⟨a, ha, hlabel⟩ := Option.bind_eq_some_iff.mp hannotation
    obtain ⟨-, htrimmed, hpiece⟩ := nonBlank?_eq_some hlabel
    exact ⟨htrimmed, .inr (.inl ⟨a, ha, hpiece⟩)⟩
  · obtain ⟨i, hi, hlabel⟩ := Option.bind_eq_some_iff.mp hinitializer
    obtain ⟨htrimmed, htag | hpiece⟩ := ofInitializer?_eq_some hlabel
    · exact ⟨htrimmed, .inl htag⟩
    · exact ⟨htrimmed, .inr (.inr ⟨i, hi, hpiece⟩)⟩

end TypeLabel

namespace Node

open Text

/-- A name is the placeholder or a trimmed piece of the text it is taken from. -/
theorem nameOrUnknown_cases (text : Option String) :
    nameOrUnknown text = unknownName ∨
      ∃ t, text = some t ∧ IsTrimmed (nameOrUnknown text).toList ∧
        (nameOrUnknown text).toList <:+: t.toList := by
  cases hname : text.bind nonBlank? with
  | none =>
      left
      rw [nameOrUnknown, hname]
      rfl
  | some name =>
      right
      obtain ⟨t, ht, hpiece⟩ := Option.bind_eq_some_iff.mp hname
      rw [nameOrUnknown, hname]
      exact ⟨t, ht, (nonBlank?_eq_some hpiece).2⟩

/-- A name is trimmed, also where the fallback stands for a blank one. -/
theorem isTrimmed_nameOrUnknown (text : Option String) :
    IsTrimmed (nameOrUnknown text).toList := by
  rcases nameOrUnknown_cases text with hunknown | ⟨_, _, htrimmed, _⟩
  · rw [hunknown]
    decide
  · exact htrimmed

/-- The names of symbols are trimmed. -/
theorem isTrimmed_symbolName (n : Node) (kind : Kind) : IsTrimmed (n.symbolName kind).toList := by
  have hword : IsTrimmed "init".toList := by decide
  cases kind with
  | initDecl =>
      rw [symbolName, String.toList_append, toList_trimmed]
      exact hword.append_trim _
  | deinitDecl =>
      have hdeinit : IsTrimmed "deinit".toList := by decide
      exact hdeinit
  | _ => exact isTrimmed_nameOrUnknown _

/-- Initializers are told apart by their parameters, up to blanks around them. -/
theorem symbolName_init_inj (m n : Node) :
    m.symbolName .initDecl = n.symbolName .initDecl ↔
      trimmed (m.parameterClause.getD "") = trimmed (n.parameterClause.getD "") := by
  rw [symbolName, symbolName, ← String.toList_inj, String.toList_append, String.toList_append,
    List.append_cancel_left_eq, String.toList_inj]

end Node

end SourceOutline
