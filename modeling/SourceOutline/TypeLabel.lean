import SourceOutline.Literal
import SourceOutline.Text.Blank

/-!
# Type labels of variables

A variable is labelled by its annotation when it has one, and otherwise by the text of
its initializer: the callee of a call, the type of a literal, or the first part of a
qualified name, in this order.  So `1.5` is a `Double` and no member of `1`, and
`Foo.make()` is labelled `Foo.make`.
-/

namespace SourceOutline

/-- The first binding of a variable declaration. -/
structure Binding where
  pattern : String
  annotation : Option String := none
  initializer : Option String := none
  deriving DecidableEq, Repr

namespace TypeLabel

/-- The trimmed text before the first `d`, unless it is empty. -/
def textBefore? (d : Char) (e : List Char) : Option (List Char) :=
  match Text.breakAt? d e with
  | none => none
  | some (before, _) =>
    let t := Text.trim before
    if t.isEmpty then none else some t

/-- The label of a trimmed expression. -/
def ofTrimmed? (e : List Char) : Option (List Char) :=
  (textBefore? '(' e).or <| ((Literal.tag? e).map fun t => t.name.toList).or (textBefore? '.' e)

/-- The label that an initializer gives. -/
def ofInitializer? (expr : String) : Option String :=
  let e := Text.trim expr.toList
  if e.isEmpty then none else (ofTrimmed? e).map String.ofList

/-- The label of a binding: its annotation unless that is blank, else what its
initializer gives. -/
def ofBinding? (b : Binding) : Option String :=
  (b.annotation.bind Text.nonBlank?).or (b.initializer.bind ofInitializer?)

end TypeLabel

end SourceOutline
