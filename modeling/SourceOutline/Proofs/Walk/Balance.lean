import SourceOutline.Proofs.ScopeStack.Calls
import SourceOutline.Proofs.Walk.Recursion

/-!
# A walk closes what it opens

The pending steps, the open scopes and the count of open bodies are changed one by one, and
yet they stay in step: in every state that a walk gets to, each pending closing step has its
open container, the next one to come the innermost.

1.  A visit hands on the children, opens a scope together with the step that closes it,
    attaches a symbol or does nothing (`Walk.visit_cases`).
2.  `Walk.Paired` pairs the closing steps with the containers, top to top, and says of each
    pair which visit put it there.  Attaching changes only the members of a container, and
    closing takes the first pair away, so every step keeps the pairs (`Walk.Paired.next?`).
3.  The counts and the flags are read off the pairs (`Walk.Paired.balanced`).

So no closing step meets an empty stack or a count of zero, and nothing is open at the end.
-/

namespace SourceOutline

namespace Walk

/-! ## What a visit does -/

/-- A visit hands on the children of a transparent node, opens a scope and pends its closing
step behind the children, attaches a leaf, or leaves a variable out. -/
theorem visit_cases (lineOf : Resolver) (options : OutlineOptions) (node : Node)
    (rest : List Step) (scopes : ScopeStack) (bodyDepth : Nat) :
    (node.kind = .other ∧ visit lineOf options node rest scopes bodyDepth =
      ⟨node.children.map .visit ++ rest, scopes, bodyDepth⟩) ∨
    (∃ kind, node.kind = .declares kind ∧ (kind.isCallable = true → options.deep = true) ∧
      visit lineOf options node rest scopes bodyDepth =
        ⟨node.children.map .visit ++ .leave kind.isCallable :: rest,
          scopes.enter (node.symbol lineOf options kind), bodyDepth + kind.isCallable.toNat⟩) ∨
    (∃ kind, node.kind = .declares kind ∧ visit lineOf options node rest scopes bodyDepth =
      ⟨rest, scopes.attach (node.symbol lineOf options kind), bodyDepth⟩) ∨
    (options.deep = true ∧ 0 < bodyDepth ∧
      visit lineOf options node rest scopes bodyDepth = ⟨rest, scopes, bodyDepth⟩) := by
  cases hkind : node.kind with
  | other => exact .inl ⟨rfl, by simp only [visit, hkind]⟩
  | declares kind =>
      right
      cases hrole : kind.role with
      | container =>
          have hcallable : kind.isCallable = false := by simp [Kind.isCallable, hrole]
          refine .inl ⟨kind, rfl, by simp [hcallable], ?_⟩
          simp only [visit, hkind, hrole, hcallable]
          rfl
      | callable =>
          have hcallable : kind.isCallable = true := by simp [Kind.isCallable, hrole]
          by_cases hdeep : options.deep = true
          · refine .inl ⟨kind, rfl, fun _ => hdeep, ?_⟩
            simp only [visit, hkind, hrole, hcallable, hdeep]
            rfl
          · exact .inr (.inl ⟨kind, rfl, by simp only [visit, hkind, hrole, hdeep]; rfl⟩)
      | value =>
          by_cases hhidden : options.deep = true ∧ 0 < bodyDepth
          · exact .inr (.inr ⟨hhidden.1, hhidden.2, by simp [visit, hkind, hrole, hhidden]⟩)
          · refine .inr (.inl ⟨kind, rfl, ?_⟩)
            simp only [visit, hkind, hrole]
            rw [if_neg (by simpa using hhidden)]

/-! ## Pairs of closing steps and containers -/

/-- The pending steps, the open containers and the number of open bodies, paired: the next
closing step with the innermost container, and so on.  Each pair comes from one visit, which
pended the step and opened the container when `work` and `stack` were what they are now below
the pair; since then the container has only got members. -/
inductive Paired (lineOf : Resolver) (options : OutlineOptions) (root : Node) :
    List Step → List Symbol → Nat → Prop
  | done : Paired lineOf options root [] [] 0
  | visit {work : List Step} {stack : List Symbol} {bodies : Nat} (node : Node)
      (below : Paired lineOf options root work stack bodies) :
      Paired lineOf options root (.visit node :: work) stack bodies
  | leave {work : List Step} {stack roots : List Symbol} {bodies : Nat} {node : Node}
      {kind : Kind} {container : Symbol}
      (reached : Leads lineOf options (start root) ⟨.visit node :: work, ⟨stack, roots⟩, bodies⟩)
      (opened : Walk.visit lineOf options node work ⟨stack, roots⟩ bodies =
        ⟨node.children.map .visit ++ .leave kind.isCallable :: work,
          ⟨node.symbol lineOf options kind :: stack, roots⟩, bodies + kind.isCallable.toNat⟩)
      (deep : kind.isCallable = true → options.deep = true)
      (record : { container with members := [] } = node.symbol lineOf options kind)
      (below : Paired lineOf options root work stack bodies) :
      Paired lineOf options root (.leave kind.isCallable :: work) (container :: stack)
        (bodies + kind.isCallable.toNat)

section

variable {lineOf : Resolver} {options : OutlineOptions} {root : Node} {work : List Step}
  {stack : List Symbol} {bodies : Nat}

namespace Paired

/-- Visits put in front open and close nothing. -/
theorem visits (h : Paired lineOf options root work stack bodies) (ns : List Node) :
    Paired lineOf options root (ns.map .visit ++ work) stack bodies := by
  induction ns with
  | nil => exact h
  | cons n ns ih => exact .visit n ih

/-- Attaching a symbol changes only the members of the innermost container. -/
theorem attach (h : Paired lineOf options root work stack bodies) (symbol : Symbol)
    (roots : List Symbol) :
    Paired lineOf options root work (ScopeStack.attach symbol ⟨stack, roots⟩).stack bodies := by
  induction h with
  | done => exact .done
  | visit node _ ih => exact .visit node ih
  | leave reached opened deep record below _ => exact .leave reached opened deep record below

/-- **One step of a walk keeps the pairs.** -/
theorem next? {st next : State} (hreach : Leads lineOf options (start root) st)
    (hpaired : Paired lineOf options root st.work st.scopes.stack st.bodyDepth)
    (hnext : Walk.next? lineOf options st = some next) :
    Paired lineOf options root next.work next.scopes.stack next.bodyDepth := by
  obtain ⟨work, ⟨stack, roots⟩, bodies⟩ := st
  cases hpaired with
  | done => cases hnext
  | visit node below =>
      obtain rfl := Option.some.inj hnext
      rcases visit_cases lineOf options node _ ⟨stack, roots⟩ bodies with
        ⟨-, hvisit⟩ | ⟨kind, -, hdeep, hvisit⟩ | ⟨kind, -, hvisit⟩ | ⟨-, -, hvisit⟩
      · rw [hvisit]
        exact below.visits node.children
      · rw [hvisit]
        exact (leave hreach hvisit hdeep rfl below).visits node.children
      · rw [hvisit]
        exact below.attach _ roots
      · rw [hvisit]
        exact below
  | @leave _ _ _ bodies _ kind container _ _ _ _ below =>
      obtain rfl := Option.some.inj hnext
      -- The container on top goes to the members of the next one.
      have hbodies : (if kind.isCallable then bodies + kind.isCallable.toNat - 1
          else bodies + kind.isCallable.toNat) = bodies := by
        cases kind.isCallable <;> rfl
      show Paired lineOf options root _ _
        (if kind.isCallable then bodies + kind.isCallable.toNat - 1
          else bodies + kind.isCallable.toNat)
      rw [hbodies]
      exact below.attach container roots

/-- The run lemma: paired steps and containers stay paired along every run. -/
theorem stepN {n : Nat} {st last : State} (hreach : Leads lineOf options (start root) st)
    (hpaired : Paired lineOf options root st.work st.scopes.stack st.bodyDepth)
    (hlast : Walk.stepN lineOf options n st = some last) :
    Paired lineOf options root last.work last.scopes.stack last.bodyDepth := by
  induction n generalizing st with
  | zero =>
      cases hlast
      exact hpaired
  | succ n ih =>
      obtain ⟨next, hnext, hrest⟩ := Option.bind_eq_some_iff.mp hlast
      exact ih (hreach.trans (Leads.of_next? hnext)) (hpaired.next? hreach hnext) hrest

/-- **Every state of a walk is paired.** -/
theorem of_leads {st : State} (h : Leads lineOf options (start root) st) :
    Paired lineOf options root st.work st.scopes.stack st.bodyDepth := by
  obtain ⟨n, hn⟩ := h
  exact stepN (Leads.refl _) (.visit root .done) hn

end Paired

end

/-! ## Counts and flags -/

/-- What a closing step says about its body; nothing for a visit. -/
def Step.body? : Step → Option Bool
  | .visit _ => none
  | .leave body => some body

/-- The flags of the closing steps, the next one first. -/
def closings (work : List Step) : List Bool :=
  work.filterMap Step.body?

/-- The closing steps, the open containers and the count of bodies agree. -/
structure Balanced (options : OutlineOptions) (st : State) : Prop where
  /-- One closing step is pending for each open container. -/
  length_closings : (closings st.work).length = st.scopes.depth
  /-- As many bodies are counted as closing steps end one. -/
  count_closings : (closings st.work).count true = st.bodyDepth
  /-- A closing step ends a body exactly when its container is callable. -/
  flags : ∀ k : Nat, (closings st.work)[k]? =
    st.scopes.stack[k]?.map fun container => container.kind.isCallable
  /-- A shallow walk opens no body. -/
  shallow : options.deep = false → true ∉ closings st.work

section

variable {lineOf : Resolver} {options : OutlineOptions} {root : Node}

namespace Paired

variable {work : List Step} {stack : List Symbol} {bodies : Nat}

/-- The closings still to come are those of the open containers, the innermost first. -/
theorem closings_eq (h : Paired lineOf options root work stack bodies) :
    closings work = stack.map fun container => container.kind.isCallable := by
  induction h with
  | done => rfl
  | visit node _ ih => exact ih
  | @leave _ _ _ _ _ kind container _ _ _ record _ ih =>
      have hkind : container.kind = kind := congrArg Symbol.kind record
      rw [List.map_cons, ← ih, hkind]
      rfl

/-- The closings of callables still to come are counted by the body depth. -/
theorem count_closings (h : Paired lineOf options root work stack bodies) :
    (closings work).count true = bodies := by
  induction h with
  | done => rfl
  | visit node _ ih => exact ih
  | @leave _ _ _ _ _ kind _ _ _ _ _ _ ih =>
      rw [← ih]
      cases kind.isCallable <;> simp [closings, Step.body?]

/-- Without the deep mode no callable is left to close. -/
theorem not_mem_closings (h : Paired lineOf options root work stack bodies)
    (hshallow : options.deep = false) : true ∉ closings work := by
  induction h with
  | done => exact List.not_mem_nil
  | visit node _ ih => exact ih
  | @leave _ _ _ _ _ kind _ _ _ deep _ _ ih =>
      intro hmem
      rcases List.mem_cons.mp hmem with hcallable | hlater
      · rw [deep hcallable.symm] at hshallow
        cases hshallow
      · exact ih hlater

end Paired

/-- A paired state is balanced. -/
theorem Paired.balanced {st : State}
    (h : Paired lineOf options root st.work st.scopes.stack st.bodyDepth) :
    Balanced options st where
  length_closings := by
    rw [h.closings_eq, List.length_map]
    rfl
  count_closings := h.count_closings
  flags := by
    intro k
    rw [h.closings_eq, List.getElem?_map]
  shallow := h.not_mem_closings

namespace Balanced

variable {st : State} {rest : List Step}

/-- A closing step finds an open container. -/
theorem exit_succeeds (h : Balanced options st) {body : Bool}
    (hwork : st.work = .leave body :: rest) : ∃ scopes, st.scopes.exit? = some scopes := by
  apply ScopeStack.exit?_of_open
  rw [← h.length_closings, hwork]
  exact Nat.succ_pos _

/-- A closing step that ends a body finds one counted. -/
theorem bodyDepth_pos (h : Balanced options st) (hwork : st.work = .leave true :: rest) :
    0 < st.bodyDepth := by
  rw [← h.count_closings, hwork, List.count_pos_iff]
  exact List.mem_cons_self

/-- With nothing pending, nothing is open. -/
theorem closed_of_done (h : Balanced options st) (hwork : st.work = []) :
    st.bodyDepth = 0 ∧ st.scopes.stack = [] := by
  have hlength := h.length_closings
  have hcount := h.count_closings
  rw [hwork] at hlength hcount
  exact ⟨hcount.symm, List.length_eq_zero_iff.mp hlength.symm⟩

end Balanced

end

/-! ## The end of a walk -/

section

variable (lineOf : Resolver) (options : OutlineOptions)

/-- The run of the walk is one of its runs of steps. -/
theorem leads_run (st : State) : Leads lineOf options st (run lineOf options st) := by
  fun_induction run lineOf options st with
  | case1 st _ => exact Leads.refl st
  | case2 st next hnext _ ih => exact (Leads.of_next? hnext).trans ih

/-- The run ends with nothing left to do. -/
theorem work_run (st : State) : (run lineOf options st).work = [] := by
  fun_induction run lineOf options st with
  | case1 st hnone =>
      unfold next? at hnone
      split at hnone
      · assumption
      · cases hnone
      · cases hnone
  | case2 st next _ _ ih => exact ih

end

/-- **A walk closes what it opens.**  In every state that a walk of a tree gets to, the
pending closing steps and the open containers come in pairs, each put there by one visit, and
the counts and flags agree.  So a closing step always finds its container open, and its body
counted when it ends one.  When nothing is pending any more, no container and no body is open. -/
theorem walk_closes_what_it_opens (lineOf : Resolver) (options : OutlineOptions) (root : Node) :
    (∀ st, Leads lineOf options (start root) st →
      Paired lineOf options root st.work st.scopes.stack st.bodyDepth ∧
      Balanced options st ∧
      (∀ rest, st.work = .leave true :: rest → 0 < st.bodyDepth) ∧
      (∀ body rest, st.work = .leave body :: rest →
        ∃ scopes, st.scopes.exit? = some scopes)) ∧
    (run lineOf options (start root)).work = [] ∧
    (run lineOf options (start root)).bodyDepth = 0 ∧
    (run lineOf options (start root)).scopes.stack = [] := by
  constructor
  · intro st hreach
    have hpaired := Paired.of_leads hreach
    have hbalanced := hpaired.balanced
    exact ⟨hpaired, hbalanced, fun _ => hbalanced.bodyDepth_pos,
      fun _ _ => hbalanced.exit_succeeds⟩
  · have hdone := work_run lineOf options (start root)
    have hlast := (Paired.of_leads (leads_run lineOf options (start root))).balanced
    exact ⟨hdone, hlast.closed_of_done hdone⟩

/-- A type with a method that has a type inside. -/
def methodSample : Node :=
  ⟨.declares .classDecl, 0, 30, some "A", none, none, none,
    [⟨.declares .funcDecl, 5, 25, some "f", none, none, none,
      [⟨.declares .structDecl, 10, 20, some "S", none, none, none, []⟩]⟩]⟩

/-- Inside a method inside a type, two containers are open and one of them is a body. -/
theorem methodSample_balanced :
    ∃ st, stepN id ⟨true, false⟩ 4 (start methodSample) = some st ∧
      closings st.work = [true, false] ∧
      Balanced ⟨true, false⟩ st ∧ 0 < st.bodyDepth ∧ ∃ scopes, st.scopes.exit? = some scopes := by
  refine ⟨_, rfl, rfl, ?_⟩
  obtain ⟨-, hbalanced, hbody, hexit⟩ :=
    (walk_closes_what_it_opens id ⟨true, false⟩ methodSample).1 _ ⟨4, rfl⟩
  exact ⟨hbalanced, hbody _ rfl, hexit _ _ rfl⟩

end Walk

end SourceOutline
