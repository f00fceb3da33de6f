import SourceOutline.Walk

/-!
# The walk computes the recursive outline

A walk is a machine whose pending steps, open scopes and count of open bodies change
together.  `Node.symbols` is a recursion with one flag.  This file proves that the
machine stops on every tree and leaves the outline that the recursion gives.

1.  A scope that is opened, filled and closed again is one attached symbol
    (`ScopeStack.exit_attachAll_enter`).
2.  From any state with a node on top of the pending steps, the walk gets to the state
    in which that node's outline has been attached and everything else is as before
    (`Walk.leads_visit`).  The flag of the recursion is "some body is open".
3.  A walk of `n` steps uses up at least `n` of its work (`Walk.stepN_weight`).

Of the recursion itself, proofs about whole outlines use its four forms
(`Node.symbols_cases`) and what it depends on (`Node.symbols_congr`).
-/

namespace SourceOutline

namespace Node

/-- The outline of a node is that of its children, one symbol with the outline of the
children in it, one symbol alone, or nothing. -/
theorem symbols_cases (lineOf : Resolver) (options : OutlineOptions) (inBody : Bool)
    (n : Node) :
    (n.kind = .other ∧
      n.symbols lineOf options inBody =
        n.children.flatMap (symbols lineOf options inBody)) ∨
    (∃ kind below, n.kind = .declares kind ∧
      (kind.role = .container ∨ kind.role = .callable ∧ options.deep = true) ∧
      n.symbols lineOf options inBody =
        [{ n.symbol lineOf options kind with
            members := n.children.flatMap (symbols lineOf options below) }]) ∨
    (∃ kind, n.kind = .declares kind ∧
      n.symbols lineOf options inBody = [n.symbol lineOf options kind]) ∨
    n.symbols lineOf options inBody = [] := by
  cases hkind : n.kind with
  | other => exact .inl ⟨rfl, symbols_of_other _ _ _ hkind⟩
  | declares kind =>
      right
      cases hrole : kind.role with
      | container =>
          exact .inl ⟨kind, inBody, rfl, .inl hrole, symbols_of_container _ _ _ hkind hrole⟩
      | callable =>
          have hsymbols := symbols_of_callable lineOf options inBody hkind hrole
          by_cases hdeep : options.deep = true
          · rw [if_pos hdeep] at hsymbols
            exact .inl ⟨kind, true, rfl, .inr ⟨hrole, hdeep⟩, hsymbols⟩
          · rw [if_neg hdeep] at hsymbols
            exact .inr (.inl ⟨kind, rfl, hsymbols⟩)
      | value =>
          have hsymbols := symbols_of_value lineOf options inBody hkind hrole
          by_cases hhidden : (options.deep && inBody) = true
          · rw [if_pos hhidden] at hsymbols
            exact .inr (.inr hsymbols)
          · rw [if_neg hhidden] at hsymbols
            exact .inr (.inl ⟨kind, rfl, hsymbols⟩)

/-- Of a node, its outline depends on the kind, the record and the outlines of the
children. -/
theorem symbols_congr {lineOf lineOf' : Resolver} {options : OutlineOptions} {m n : Node}
    (hkind : m.kind = n.kind)
    (hrecord : ∀ kind, m.kind = .declares kind →
      m.symbol lineOf options kind = n.symbol lineOf' options kind)
    (hchildren : ∀ inBody, m.children.flatMap (symbols lineOf options inBody) =
      n.children.flatMap (symbols lineOf' options inBody)) (inBody : Bool) :
    m.symbols lineOf options inBody = n.symbols lineOf' options inBody := by
  cases hm : m.kind with
  | other =>
      have hn : n.kind = .other := hkind.symm.trans hm
      rw [symbols_of_other _ _ _ hm, symbols_of_other _ _ _ hn, hchildren]
  | declares kind =>
      have hn : n.kind = .declares kind := hkind.symm.trans hm
      cases hrole : kind.role with
      | container =>
          rw [symbols_of_container _ _ _ hm hrole, symbols_of_container _ _ _ hn hrole,
            hrecord kind hm, hchildren]
      | callable =>
          rw [symbols_of_callable _ _ _ hm hrole, symbols_of_callable _ _ _ hn hrole,
            hrecord kind hm, hchildren]
      | value =>
          rw [symbols_of_value _ _ _ hm hrole, symbols_of_value _ _ _ hn hrole,
            hrecord kind hm]

end Node

namespace ScopeStack

/-- Attaches several symbols, one after the other. -/
def attachAll (symbols : List Symbol) (s : ScopeStack) : ScopeStack :=
  symbols.foldl (fun t symbol => t.attach symbol) s

theorem attachAll_append (xs ys : List Symbol) (s : ScopeStack) :
    s.attachAll (xs ++ ys) = (s.attachAll xs).attachAll ys :=
  List.foldl_append

/-- With a container open, attached symbols become its last members. -/
theorem attachAll_of_open (symbols : List Symbol) (top : Symbol) (rest roots : List Symbol) :
    attachAll symbols ⟨top :: rest, roots⟩ =
      ⟨{ top with members := top.members ++ symbols } :: rest, roots⟩ := by
  induction symbols generalizing top with
  | nil =>
      cases top
      simp [attachAll]
  | cons symbol symbols ih =>
      show attachAll symbols ⟨top.addMember symbol :: rest, roots⟩ = _
      rw [ih]
      simp [Symbol.addMember]

/-- With nothing open, attached symbols become the last roots. -/
theorem attachAll_of_closed (symbols roots : List Symbol) :
    attachAll symbols ⟨[], roots⟩ = ⟨[], roots ++ symbols⟩ := by
  induction symbols generalizing roots with
  | nil => simp [attachAll]
  | cons symbol symbols ih =>
      show attachAll symbols ⟨[], roots ++ [symbol]⟩ = _
      rw [ih]
      simp

/-- **A scope is one symbol.**  Opening a container, attaching symbols and closing it
again attaches the container with these symbols as its last members. -/
theorem exit_attachAll_enter (container : Symbol) (members : List Symbol) (s : ScopeStack) :
    ((s.enter container).attachAll members).exit =
      s.attach { container with members := container.members ++ members } := by
  unfold enter
  rw [attachAll_of_open]
  rfl

end ScopeStack

namespace Walk

section

variable (lineOf : Resolver) (options : OutlineOptions)

/-- The state after exactly `n` steps; nothing when the walk ends before. -/
def stepN : Nat → State → Option State
  | 0, st => some st
  | n + 1, st => (next? lineOf options st).bind (stepN n)

/-- The walk gets from the first state to the second. -/
def Leads (s t : State) : Prop :=
  ∃ n, stepN lineOf options n s = some t

end

variable {lineOf : Resolver} {options : OutlineOptions}

/-- A run can be cut after any number of steps. -/
theorem stepN_add (m n : Nat) (st : State) :
    stepN lineOf options (m + n) st =
      (stepN lineOf options m st).bind (stepN lineOf options n) := by
  induction m generalizing st with
  | zero => simp [stepN]
  | succ m ih =>
      rw [Nat.add_right_comm, stepN, stepN, Option.bind_assoc]
      exact congrArg _ (funext ih)

/-- Every step takes its share of the work, so `n` steps take at least `n` of it. -/
theorem stepN_weight {n : Nat} {s t : State} (h : stepN lineOf options n s = some t) :
    n + weight t.work ≤ weight s.work := by
  induction n generalizing s with
  | zero =>
      cases h
      omega
  | succ n ih =>
      obtain ⟨next, hnext, hrest⟩ := Option.bind_eq_some_iff.mp h
      have hless := weight_next?_lt hnext
      have hleft := ih hrest
      omega

/-- Steps that have been taken do not change where a walk ends. -/
theorem run_of_stepN {n : Nat} {s t : State} (h : stepN lineOf options n s = some t) :
    run lineOf options s = run lineOf options t := by
  induction n generalizing s with
  | zero =>
      cases h
      rfl
  | succ n ih =>
      obtain ⟨next, hnext, hrest⟩ := Option.bind_eq_some_iff.mp h
      rw [run, ← ih hrest]
      split
      · next hnone => rw [hnone] at hnext; cases hnext
      · next t' hsome =>
          rw [hsome] at hnext
          cases hnext
          rfl

theorem next?_of_done {st : State} (h : st.work = []) : next? lineOf options st = none := by
  simp [next?, h]

/-- With no work left the run stays where it is. -/
theorem run_of_done {st : State} (h : st.work = []) : run lineOf options st = st := by
  rw [run]
  split
  · rfl
  · next t hsome => rw [next?_of_done h] at hsome; cases hsome

theorem Leads.refl (s : State) : Leads lineOf options s s :=
  ⟨0, rfl⟩

theorem Leads.trans {s t u : State} (hst : Leads lineOf options s t)
    (htu : Leads lineOf options t u) : Leads lineOf options s u := by
  obtain ⟨m, hm⟩ := hst
  obtain ⟨n, hn⟩ := htu
  refine ⟨m + n, ?_⟩
  rw [stepN_add, hm]
  exact hn

/-- One step is a run. -/
theorem Leads.of_next? {s t : State} (h : next? lineOf options s = some t) :
    Leads lineOf options s t :=
  ⟨1, by simp [stepN, h]⟩

/-- A node that comes next is visited. -/
theorem leads_visit_step (node : Node) (rest : List Step) (scopes : ScopeStack)
    (bodyDepth : Nat) :
    Leads lineOf options ⟨.visit node :: rest, scopes, bodyDepth⟩
      (visit lineOf options node rest scopes bodyDepth) :=
  Leads.of_next? rfl

/-- The walk turns a pending node into its outline: whatever else is pending, open and
counted, it attaches the symbols of the node and takes only this node away. -/
def Simulates (lineOf : Resolver) (options : OutlineOptions) (node : Node) : Prop :=
  ∀ (rest : List Step) (scopes : ScopeStack) (bodyDepth : Nat),
    Leads lineOf options ⟨.visit node :: rest, scopes, bodyDepth⟩
      ⟨rest, scopes.attachAll (node.symbols lineOf options (0 < bodyDepth)), bodyDepth⟩

/-- Pending nodes that are each turned into their outlines are so one after the other. -/
theorem leads_visits {ns : List Node} (h : ∀ n ∈ ns, Simulates lineOf options n)
    (rest : List Step) (scopes : ScopeStack) (bodyDepth : Nat) :
    Leads lineOf options ⟨ns.map .visit ++ rest, scopes, bodyDepth⟩
      ⟨rest, scopes.attachAll (ns.flatMap (Node.symbols lineOf options (0 < bodyDepth))),
        bodyDepth⟩ := by
  induction ns generalizing scopes with
  | nil => exact Leads.refl _
  | cons n ns ih =>
      have hfirst := h n List.mem_cons_self (ns.map .visit ++ rest) scopes bodyDepth
      have hothers := ih (fun m hm => h m (List.mem_cons_of_mem _ hm))
        (scopes.attachAll (n.symbols lineOf options (0 < bodyDepth)))
      rw [List.flatMap_cons, ScopeStack.attachAll_append]
      exact hfirst.trans hothers

/-- Once a scope has been opened for a node, the walk fills it with the outlines of the
children, closes it and restores the count of open bodies. -/
theorem leads_scope {ns : List Node} (h : ∀ n ∈ ns, Simulates lineOf options n)
    (container : Symbol) (body : Bool) (rest : List Step) (scopes : ScopeStack)
    (bodyDepth : Nat) :
    Leads lineOf options
      ⟨ns.map .visit ++ .leave body :: rest, scopes.enter container,
        bodyDepth + body.toNat⟩
      ⟨rest,
        scopes.attach { container with
          members := container.members ++
            ns.flatMap (Node.symbols lineOf options (0 < bodyDepth + body.toNat)) },
        bodyDepth⟩ := by
  have hfill := leads_visits h (.leave body :: rest) (scopes.enter container)
    (bodyDepth + body.toNat)
  refine hfill.trans (Leads.of_next? ?_)
  cases body <;> simp [next?, ScopeStack.exit_attachAll_enter]

/-- **The walk simulates the recursion.**  The induction is on the tree, one case for
each way of visiting a node. -/
theorem leads_visit (node : Node) : Simulates lineOf options node := by
  induction node using Node.childrenInduction with
  | step node ih =>
      intro rest scopes bodyDepth
      refine (leads_visit_step node rest scopes bodyDepth).trans ?_
      cases hkind : node.kind with
      | other =>
          rw [Node.symbols_of_other _ _ _ hkind]
          simp only [visit, hkind]
          exact leads_visits ih rest scopes bodyDepth
      | declares kind =>
          cases hrole : kind.role with
          | container =>
              rw [Node.symbols_of_container _ _ _ hkind hrole]
              simp only [visit, hkind, hrole]
              exact leads_scope ih (node.symbol lineOf options kind) false rest scopes bodyDepth
          | callable =>
              rw [Node.symbols_of_callable _ _ _ hkind hrole]
              simp only [visit, hkind, hrole]
              split
              · -- One more body is open, so the flag is set whatever it was outside.
                have hscope := leads_scope ih (node.symbol lineOf options kind) true rest scopes
                  bodyDepth
                have hopen : decide (0 < bodyDepth + true.toNat) = true := by simp
                rw [hopen] at hscope
                exact hscope
              · exact Leads.refl _
          | value =>
              rw [Node.symbols_of_value _ _ _ hkind hrole]
              simp only [visit, hkind, hrole]
              split <;> exact Leads.refl _

/-- The whole walk ends with nothing pending, nothing open and the outline as roots. -/
theorem leads_start (lineOf : Resolver) (options : OutlineOptions) (root : Node) :
    Leads lineOf options (start root) ⟨[], ⟨[], root.symbols lineOf options false⟩, 0⟩ := by
  have hroot : Leads lineOf options (start root)
      ⟨[], ScopeStack.empty.attachAll (root.symbols lineOf options false), 0⟩ :=
    leads_visit root [] .empty 0
  have hempty : ScopeStack.empty.attachAll (root.symbols lineOf options false) =
      ⟨[], root.symbols lineOf options false⟩ :=
    ScopeStack.attachAll_of_closed _ []
  rw [hempty] at hroot
  exact hroot

end Walk

/-- The outline is the one that the recursion gives outside all bodies. -/
theorem outline_eq_symbols (lineOf : Resolver) (options : OutlineOptions) (root : Node) :
    outline lineOf options root = root.symbols lineOf options false := by
  obtain ⟨n, hn⟩ := Walk.leads_start lineOf options root
  unfold outline
  rw [Walk.run_of_stepN hn, Walk.run_of_done rfl]
  rfl

/-- **The walk ends and computes the recursive outline.**  On every tree the machine
stops, after at most two steps for each node, and the symbols it then holds are the
outline by plain recursion, started outside all bodies. -/
theorem walk_ends_with_symbols (lineOf : Resolver) (options : OutlineOptions) (root : Node) :
    (∃ n last, n ≤ 2 * root.size ∧
      Walk.stepN lineOf options n (Walk.start root) = some last ∧
      Walk.next? lineOf options last = none ∧
      last.scopes.finish = outline lineOf options root) ∧
    outline lineOf options root = root.symbols lineOf options false := by
  refine ⟨?_, outline_eq_symbols lineOf options root⟩
  obtain ⟨n, hn⟩ := Walk.leads_start lineOf options root
  refine ⟨n, _, ?_, hn, Walk.next?_of_done rfl, ?_⟩
  · have hweight := Walk.stepN_weight hn
    simp only [Walk.start, Walk.weight] at hweight
    omega
  · rw [outline_eq_symbols]
    rfl

end SourceOutline
