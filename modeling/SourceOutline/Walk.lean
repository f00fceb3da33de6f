import SourceOutline.LineIndex
import SourceOutline.Node
import SourceOutline.ScopeStack

/-!
# From a syntax tree to its outline

The walk keeps a list of pending steps, the open scopes and the number of executable
bodies it is inside of.  Visiting a node puts its children in front of the pending
steps; a container is followed by the step that closes it.

1.  Transparent nodes only hand on their children.
2.  Containers open a scope for their children.
3.  Callables are leaves in a shallow walk; in a deep walk they open a scope and an
    executable body.
4.  Variables are leaves; a deep walk leaves out those inside an executable body.

`Node.symbols` is the same outline by plain recursion, with one flag for "inside an
executable body" in the place of the whole state.
-/

namespace SourceOutline

/-- What an outline shows. -/
structure OutlineOptions where
  /-- Look into the bodies of callables.  Their local variables are never shown. -/
  deep : Bool := false
  /-- Give variables their type labels. -/
  showType : Bool := false
  deriving DecidableEq, Repr

/-- How byte offsets become line numbers. -/
abbrev Resolver := Nat → Nat

namespace Node

/-- The symbol that a node declares, without members. -/
def symbol (lineOf : Resolver) (options : OutlineOptions) (kind : Kind) (n : Node) : Symbol where
  kind := kind
  name := n.symbolName kind
  startLine := lineOf n.startByte
  endLine := max (lineOf n.lastByte) (lineOf n.startByte)
  typeLabel :=
    if kind = .varDecl ∧ options.showType then n.binding.bind TypeLabel.ofBinding? else none

mutual

/-- The outline of a node, by recursion.  `inBody` says whether an executable body
encloses it. -/
def symbols (lineOf : Resolver) (options : OutlineOptions) (inBody : Bool) : Node → List Symbol
  | ⟨kind, startByte, endByte, name, extendedType, parameterClause, binding, children⟩ =>
    let node : Node :=
      ⟨kind, startByte, endByte, name, extendedType, parameterClause, binding, children⟩
    match kind with
    | .other => symbolsOfAll lineOf options inBody children
    | .declares k =>
      let leaf := node.symbol lineOf options k
      match k.role with
      | .container => [{ leaf with members := symbolsOfAll lineOf options inBody children }]
      | .callable =>
        if options.deep then [{ leaf with members := symbolsOfAll lineOf options true children }]
        else [leaf]
      | .value => if options.deep && inBody then [] else [leaf]

/-- The outlines of several nodes, one after the other. -/
def symbolsOfAll (lineOf : Resolver) (options : OutlineOptions) (inBody : Bool) :
    List Node → List Symbol
  | [] => []
  | n :: ns => symbols lineOf options inBody n ++ symbolsOfAll lineOf options inBody ns

end

section

variable (lineOf : Resolver) (options : OutlineOptions) (inBody : Bool)

theorem symbolsOfAll_eq_flatMap (ns : List Node) :
    symbolsOfAll lineOf options inBody ns = ns.flatMap (symbols lineOf options inBody) := by
  induction ns with
  | nil => rfl
  | cons n ns ih => rw [symbolsOfAll, ih, List.flatMap_cons]

variable {n : Node} {kind : Kind}

/-- A transparent node hands on the outlines of its children. -/
theorem symbols_of_other (h : n.kind = .other) :
    n.symbols lineOf options inBody = n.children.flatMap (symbols lineOf options inBody) := by
  obtain ⟨k, _, _, _, _, _, _, children⟩ := n
  subst h
  rw [symbols, symbolsOfAll_eq_flatMap]

/-- A container holds the outlines of its children. -/
theorem symbols_of_container (h : n.kind = .declares kind) (hrole : kind.role = .container) :
    n.symbols lineOf options inBody =
      [{ n.symbol lineOf options kind with
          members := n.children.flatMap (symbols lineOf options inBody) }] := by
  obtain ⟨k, _, _, _, _, _, _, children⟩ := n
  subst h
  simp only [symbols, hrole, symbolsOfAll_eq_flatMap]

/-- A callable is a leaf in a shallow walk and opens a body in a deep one. -/
theorem symbols_of_callable (h : n.kind = .declares kind) (hrole : kind.role = .callable) :
    n.symbols lineOf options inBody =
      if options.deep then
        [{ n.symbol lineOf options kind with
            members := n.children.flatMap (symbols lineOf options true) }]
      else [n.symbol lineOf options kind] := by
  obtain ⟨k, _, _, _, _, _, _, children⟩ := n
  subst h
  simp only [symbols, hrole, symbolsOfAll_eq_flatMap]

/-- A value is a leaf, left out of the bodies that a deep walk opens. -/
theorem symbols_of_value (h : n.kind = .declares kind) (hrole : kind.role = .value) :
    n.symbols lineOf options inBody =
      if options.deep && inBody then [] else [n.symbol lineOf options kind] := by
  obtain ⟨k, _, _, _, _, _, _, children⟩ := n
  subst h
  simp only [symbols, hrole]

end

end Node

namespace Walk

/-- A pending step. -/
inductive Step where
  | visit (node : Node)
  /-- Close the innermost scope; `body` says whether an executable body ends there. -/
  | leave (body : Bool)

/-- The state of a walk. -/
structure State where
  work : List Step
  scopes : ScopeStack
  /-- Executable bodies that are open. -/
  bodyDepth : Nat

/-- Before the root has been visited. -/
def start (root : Node) : State :=
  ⟨[.visit root], .empty, 0⟩

/-- Visits a node, the steps after it being `rest`. -/
def visit (lineOf : Resolver) (options : OutlineOptions) (node : Node) (rest : List Step)
    (scopes : ScopeStack) (bodyDepth : Nat) : State :=
  let children := node.children.map Step.visit
  match node.kind with
  | .other => ⟨children ++ rest, scopes, bodyDepth⟩
  | .declares kind =>
    let leaf := node.symbol lineOf options kind
    match kind.role with
    | .container => ⟨children ++ .leave false :: rest, scopes.enter leaf, bodyDepth⟩
    | .callable =>
      if options.deep then ⟨children ++ .leave true :: rest, scopes.enter leaf, bodyDepth + 1⟩
      else ⟨rest, scopes.attach leaf, bodyDepth⟩
    | .value =>
      if options.deep && 0 < bodyDepth then ⟨rest, scopes, bodyDepth⟩
      else ⟨rest, scopes.attach leaf, bodyDepth⟩

/-- The next state; nothing when no step is pending. -/
def next? (lineOf : Resolver) (options : OutlineOptions) (st : State) : Option State :=
  match st.work with
  | [] => none
  | .visit node :: rest => some (visit lineOf options node rest st.scopes st.bodyDepth)
  | .leave body :: rest =>
    some ⟨rest, st.scopes.exit, if body then st.bodyDepth - 1 else st.bodyDepth⟩

/-- How much work is left: each pending node counts its visits and the closing steps
that they can add. -/
def weight : List Step → Nat
  | [] => 0
  | .visit node :: rest => 2 * node.size + weight rest
  | .leave _ :: rest => 1 + weight rest

theorem weight_append (xs ys : List Step) : weight (xs ++ ys) = weight xs + weight ys := by
  induction xs with
  | nil => simp [weight]
  | cons x xs ih => cases x <;> simp [weight, ih] <;> omega

theorem weight_visits (ns : List Node) : weight (ns.map Step.visit) = 2 * Node.sizes ns := by
  induction ns with
  | nil => simp [weight, Node.sizes]
  | cons n ns ih => simp [weight, Node.sizes, ih]; omega

theorem weight_visit_lt (lineOf : Resolver) (options : OutlineOptions) (node : Node)
    (rest : List Step) (scopes : ScopeStack) (bodyDepth : Nat) :
    weight (visit lineOf options node rest scopes bodyDepth).work
      < weight (.visit node :: rest) := by
  have hsize := node.size_eq
  unfold visit
  simp only [weight]
  split
  · simp only [weight_append, weight_visits]
    omega
  · split
    · simp only [weight_append, weight_visits, weight]
      omega
    · split <;> simp only [weight_append, weight_visits, weight] <;> omega
    · split <;> simp only <;> omega

/-- Every step leaves less work. -/
theorem weight_next?_lt {lineOf : Resolver} {options : OutlineOptions} {s t : State}
    (h : next? lineOf options s = some t) : weight t.work < weight s.work := by
  unfold next? at h
  split at h
  · cases h
  · next node rest heq =>
    cases h
    rw [heq]
    exact weight_visit_lt ..
  · next body rest heq =>
    cases h
    rw [heq]
    simp [weight]

/-- Take steps until none is pending. -/
def run (lineOf : Resolver) (options : OutlineOptions) (st : State) : State :=
  match h : next? lineOf options st with
  | none => st
  | some t =>
    have := weight_next?_lt h
    run lineOf options t
termination_by weight st.work

end Walk

/-- The outline of a syntax tree: its symbols outside all others, with their members. -/
def outline (lineOf : Resolver) (options : OutlineOptions) (root : Node) : List Symbol :=
  (Walk.run lineOf options (Walk.start root)).scopes.finish

end SourceOutline
