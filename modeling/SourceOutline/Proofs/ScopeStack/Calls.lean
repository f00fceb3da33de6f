import SourceOutline.ScopeStack

/-!
# What a sequence of calls builds

Containers are opened, symbols attached and containers closed in any order, balanced or not.
The forest that comes out is described by its listing with depths
(`Symbol.depthListings`): parents before their members, each symbol at the number of
containers around it.

1.  The listing determines the forest (`Symbol.depthListings_injective`): the rows of the
    members of a symbol are those up to the first row that is not deeper.
2.  The roots and the open containers have a listing too (`ScopeStack.listed`).  Opening and
    attaching append to it what they are given, at the depth of the stack; closing moves a
    container into its parent and leaves the listing as it is.
3.  So a run appends the rows of its calls in their order (`ScopeStack.listed_applyAll`), and
    closing what is still open at the end changes nothing either.
-/

namespace SourceOutline

namespace Symbol

mutual

/-- A symbol and everything below it, parents before their members, each with its depth and
without its members; `d` is the depth of the symbol itself. -/
def depthListing (d : Nat) : Symbol → List (Nat × Symbol)
  | ⟨kind, name, startLine, endLine, typeLabel, members⟩ =>
    (d, ⟨kind, name, startLine, endLine, typeLabel, []⟩) :: depthListings (d + 1) members

/-- The listings of several symbols at the same depth, one after the other. -/
def depthListings (d : Nat) : List Symbol → List (Nat × Symbol)
  | [] => []
  | s :: ss => depthListing d s ++ depthListings d ss

end

/-- A symbol is listed bare at its depth, its members follow one deeper. -/
theorem depthListing_eq (d : Nat) (s : Symbol) :
    s.depthListing d = (d, { s with members := [] }) :: depthListings (d + 1) s.members := by
  cases s
  rfl

theorem depthListings_append (d : Nat) (xs ys : List Symbol) :
    depthListings d (xs ++ ys) = depthListings d xs ++ depthListings d ys := by
  induction xs with
  | nil => rfl
  | cons x xs ih => rw [List.cons_append, depthListings, depthListings, ih, List.append_assoc]

theorem depthListings_singleton (d : Nat) (s : Symbol) :
    depthListings d [s] = s.depthListing d := by
  rw [depthListings, depthListings, List.append_nil]

/-- A new member comes last in the listing. -/
theorem depthListing_addMember (d : Nat) (s member : Symbol) :
    (s.addMember member).depthListing d = s.depthListing d ++ member.depthListing (d + 1) := by
  rw [depthListing_eq, depthListing_eq, addMember, depthListings_append, depthListings_singleton]
  rfl

/-! ## The listing determines the forest -/

/-- Rows that can follow the listing of a forest at depth `d`: the first is less deep. -/
def EndsBelow (d : Nat) (rows : List (Nat × Symbol)) : Prop :=
  ∀ row ∈ rows.head?, row.1 < d

/-- What follows the members of a symbol at depth `d` is less deep than they are, its siblings
included. -/
theorem endsBelow_listings {d : Nat} {rest : List (Nat × Symbol)} (h : EndsBelow d rest)
    (symbols : List Symbol) : EndsBelow (d + 1) (depthListings d symbols ++ rest) := by
  intro row hrow
  cases symbols with
  | nil => exact Nat.lt_succ_of_lt (h row hrow)
  | cons s ss =>
      rw [depthListings, depthListing_eq] at hrow
      cases hrow
      exact Nat.lt_succ_self d

/-- A forest that can be read off its listing, at any depth and before any less deep rows. -/
def Determined (symbols : List Symbol) : Prop :=
  ∀ (d : Nat) (others : List Symbol) (rest rest' : List (Nat × Symbol)),
    EndsBelow d rest → EndsBelow d rest' →
    depthListings d symbols ++ rest = depthListings d others ++ rest' →
    symbols = others ∧ rest = rest'

/-- Rows that start with a symbol at depth `d` cannot follow a forest at depth `d`. -/
theorem not_endsBelow_cons (d : Nat) (s : Symbol) (ss : List Symbol)
    (rest : List (Nat × Symbol)) : ¬ EndsBelow d (depthListings d (s :: ss) ++ rest) := by
  intro h
  rw [depthListings, depthListing_eq] at h
  exact Nat.lt_irrefl d (h _ rfl)

/-- A symbol is its own record together with its members. -/
theorem eq_of_members_eq {s t : Symbol}
    (h : { s with members := [] } = ({ t with members := [] } : Symbol))
    (hmembers : s.members = t.members) : s = t := by
  cases s
  cases t
  simp_all

/-- A listing starts with the row of its first symbol; then come its members, which are
deeper, and then the other symbols. -/
theorem determined_of_members {symbols : List Symbol}
    (h : ∀ s ∈ symbols, Determined s.members) : Determined symbols := by
  induction symbols with
  | nil =>
      intro d others rest rest' hrest hrest' heq
      cases others with
      | nil => exact ⟨rfl, heq⟩
      | cons t ts =>
          have hrows : rest = depthListings d (t :: ts) ++ rest' := heq
          rw [hrows] at hrest
          exact absurd hrest (not_endsBelow_cons d t ts rest')
  | cons s ss ih =>
      intro d others rest rest' hrest hrest' heq
      cases others with
      | nil =>
          have hrows : depthListings d (s :: ss) ++ rest = rest' := heq
          rw [← hrows] at hrest'
          exact absurd hrest' (not_endsBelow_cons d s ss rest)
      | cons t ts =>
          rw [depthListings, depthListings, depthListing_eq, depthListing_eq, List.cons_append,
            List.cons_append, List.cons_append, List.cons_append, List.append_assoc,
            List.append_assoc] at heq
          obtain ⟨hrow, hbelow⟩ := List.cons.inj heq
          obtain ⟨hmembers, hothers⟩ := h s List.mem_cons_self (d + 1) t.members _ _
            (endsBelow_listings hrest ss) (endsBelow_listings hrest' ts) hbelow
          obtain ⟨hss, hrests⟩ := ih (fun m hm => h m (List.mem_cons_of_mem s hm)) d ts rest rest'
            hrest hrest' hothers
          have hst : s = t := eq_of_members_eq (Prod.mk.inj hrow).2 hmembers
          rw [hst, hss]
          exact ⟨rfl, hrests⟩

/-- The members of a symbol can be read off their listing. -/
theorem determined_members (s : Symbol) : Determined s.members := by
  induction s using membersInduction with
  | step s ih => exact determined_of_members ih

/-- **Forests with the same listing are equal.** -/
theorem depthListings_injective {d : Nat} {xs ys : List Symbol}
    (h : depthListings d xs = depthListings d ys) : xs = ys := by
  have hxs : Determined xs := determined_of_members fun s _ => determined_members s
  have hnil : EndsBelow d [] := by
    intro row hrow
    cases hrow
  exact (hxs d ys [] [] hnil hnil (by rw [h])).1

end Symbol

namespace ScopeStack

/-! ## Calls -/

/-- A call that changes the open scopes. -/
inductive Call where
  | enter (container : Symbol)
  | attach (symbol : Symbol)
  | exit
  deriving Repr

/-- The scopes after a call. -/
def apply (s : ScopeStack) : Call → ScopeStack
  | .enter container => s.enter container
  | .attach symbol => s.attach symbol
  | .exit => s.exit

/-- The scopes after several calls. -/
def applyAll (s : ScopeStack) (calls : List Call) : ScopeStack :=
  calls.foldl apply s

theorem applyAll_append (s : ScopeStack) (calls more : List Call) :
    s.applyAll (calls ++ more) = (s.applyAll calls).applyAll more :=
  List.foldl_append

/-- What a call adds to the listing when `d` containers are open: the symbol it is given, with
the members that the symbol brings along. -/
def Call.rows (d : Nat) : Call → List (Nat × Symbol)
  | .enter symbol | .attach symbol => symbol.depthListing d
  | .exit => []

/-- What several calls add, each at the depth of the stack just before it. -/
def rowsOf (s : ScopeStack) : List Call → List (Nat × Symbol)
  | [] => []
  | call :: calls => call.rows s.depth ++ rowsOf (s.apply call) calls

/-- The listing of open containers, outermost first. -/
def openRows : List Symbol → List (Nat × Symbol)
  | [] => []
  | top :: rest => openRows rest ++ top.depthListing rest.length

/-- The listing of the forest as far as it is built. -/
def listed (s : ScopeStack) : List (Nat × Symbol) :=
  Symbol.depthListings 0 s.roots ++ openRows s.stack

/-- An opened container is listed last, at the depth it is opened at. -/
theorem listed_enter (container : Symbol) (s : ScopeStack) :
    (s.enter container).listed = s.listed ++ container.depthListing s.depth :=
  (List.append_assoc _ _ _).symm

/-- An attached symbol is listed last with its members, at the current depth. -/
theorem listed_attach (symbol : Symbol) (s : ScopeStack) :
    (s.attach symbol).listed = s.listed ++ symbol.depthListing s.depth := by
  obtain ⟨stack, roots⟩ := s
  cases stack with
  | nil =>
      simp only [attach, listed, openRows, depth, Symbol.depthListings_append,
        Symbol.depthListings_singleton, List.append_nil, List.length_nil]
  | cons top rest =>
      simp only [attach, listed, openRows, depth, Symbol.depthListing_addMember,
        List.append_assoc, List.length_cons]

/-- A container that is closed stays where it is in the listing. -/
theorem listed_exit (s : ScopeStack) : s.exit.listed = s.listed := by
  obtain ⟨stack, roots⟩ := s
  cases stack with
  | nil => rfl
  | cons top rest =>
      have hopen : (⟨top :: rest, roots⟩ : ScopeStack).listed =
          (⟨rest, roots⟩ : ScopeStack).listed ++ top.depthListing rest.length :=
        listed_enter top ⟨rest, roots⟩
      rw [hopen]
      exact listed_attach top ⟨rest, roots⟩

/-- **One call appends its rows.** -/
theorem listed_apply (s : ScopeStack) (call : Call) :
    (s.apply call).listed = s.listed ++ call.rows s.depth := by
  cases call with
  | enter container => exact listed_enter container s
  | attach symbol => exact listed_attach symbol s
  | exit => exact (listed_exit s).trans (List.append_nil _).symm

/-- **A run appends the rows of its calls**, in the order of the calls. -/
theorem listed_applyAll (calls : List Call) (s : ScopeStack) :
    (s.applyAll calls).listed = s.listed ++ s.rowsOf calls := by
  induction calls generalizing s with
  | nil => exact (List.append_nil _).symm
  | cons call calls ih =>
      have hrest : (s.applyAll (call :: calls)).listed =
          (s.apply call).listed ++ (s.apply call).rowsOf calls := ih (s.apply call)
      rw [hrest, listed_apply, rowsOf, List.append_assoc]

/-! ## Closing -/

theorem exit?_of_closed {s : ScopeStack} (h : s.depth = 0) : s.exit? = none := by
  have hstack : s.stack = [] := List.length_eq_zero_iff.mp h
  rw [exit?, hstack]

theorem exit?_of_open {s : ScopeStack} (h : 0 < s.depth) : ∃ t, s.exit? = some t := by
  obtain ⟨top, rest, hstack⟩ := List.exists_cons_of_length_pos h
  rw [exit?, hstack]
  exact ⟨_, rfl⟩

/-- Closing takes one from the depth, and nothing from a depth of zero. -/
theorem depth_exit (s : ScopeStack) : s.exit.depth = s.depth - 1 := by
  by_cases hclosed : s.depth = 0
  · rw [exit, exit?_of_closed hclosed, hclosed]
    exact hclosed
  · obtain ⟨t, ht⟩ := exit?_of_open (Nat.pos_of_ne_zero hclosed)
    have hdepth := depth_exit? ht
    rw [exit, ht, Option.getD_some]
    omega

/-- A run of closing calls is one closing repeated. -/
theorem applyAll_exits (n : Nat) (s : ScopeStack) :
    s.applyAll (List.replicate n .exit) = Nat.repeat exit n s := by
  induction n with
  | zero => rfl
  | succ n ih =>
      rw [List.replicate_succ', applyAll_append, ih]
      rfl

/-- Each closing takes one from the depth until it is zero. -/
theorem depth_repeat_exit (n : Nat) (s : ScopeStack) :
    (Nat.repeat exit n s).depth = s.depth - n := by
  induction n with
  | zero => rfl
  | succ n ih =>
      rw [Nat.repeat, depth_exit, ih]
      omega

/-- Closing everything leaves the roots that `finish` returns. -/
theorem repeat_exit_depth (s : ScopeStack) : Nat.repeat exit s.depth s = ⟨[], s.finish⟩ := by
  have hdepth := depth_repeat_exit s.depth s
  rw [Nat.sub_self] at hdepth
  have hstack : (Nat.repeat exit s.depth s).stack = [] := List.length_eq_zero_iff.mp hdepth
  rw [← hstack]
  rfl

/-- No number of closings changes what is listed. -/
theorem listed_repeat_exit (n : Nat) (s : ScopeStack) :
    (Nat.repeat exit n s).listed = s.listed := by
  induction n with
  | zero => rfl
  | succ n ih => rw [Nat.repeat, listed_exit, ih]

/-- The listing of the finished forest is the one that was built. -/
theorem depthListings_finish (s : ScopeStack) : Symbol.depthListings 0 s.finish = s.listed := by
  have hclosed := listed_repeat_exit s.depth s
  rw [repeat_exit_depth] at hclosed
  rw [← hclosed, listed]
  exact (List.append_nil _).symm

/-- **Calls build the forest that they list.**  Whatever the sequence of calls on scopes
without content, the finished forest is the one whose listing consists of the symbols that
were entered and attached, in the order of the calls, each at the depth the stack had just
before its call.  Containers still open are closed by as many more exits, and the result of an
exit tells whether one was open: the depth then falls by one, and nothing changes otherwise. -/
theorem calls_build_listed_forest (calls : List Call) :
    let s := empty.applyAll calls
    (∀ forest, s.finish = forest ↔ Symbol.depthListings 0 forest = empty.rowsOf calls) ∧
    empty.applyAll (calls ++ List.replicate s.depth .exit) = ⟨[], s.finish⟩ ∧
    (s.depth = 0 → s.exit? = none ∧ s.exit = s) ∧
    (0 < s.depth → ∃ t, s.exit? = some t ∧ s.exit = t ∧ t.depth + 1 = s.depth) := by
  intro s
  have hlisting : Symbol.depthListings 0 s.finish = empty.rowsOf calls :=
    (depthListings_finish s).trans (listed_applyAll calls empty)
  refine ⟨?_, ?_, ?_, ?_⟩
  · intro forest
    constructor
    · intro hforest
      rw [← hforest]
      exact hlisting
    · intro hforest
      exact Symbol.depthListings_injective (hlisting.trans hforest.symm)
  · rw [applyAll_append, applyAll_exits]
    exact repeat_exit_depth s
  · intro hclosed
    have hnone := exit?_of_closed hclosed
    exact ⟨hnone, by rw [exit, hnone]; rfl⟩
  · intro hopen
    obtain ⟨t, ht⟩ := exit?_of_open hopen
    exact ⟨t, ht, by rw [exit, ht]; rfl, depth_exit? ht⟩

/-- An exit too many, a container inside another, and a container that stays open. -/
def unbalancedCalls : List Call :=
  [.enter ⟨.classDecl, "A", 1, 6, none, []⟩, .enter ⟨.structDecl, "B", 2, 4, none, []⟩,
    .attach ⟨.funcDecl, "f", 3, 3, none, [⟨.enumDecl, "E", 3, 3, none, []⟩]⟩, .exit,
    .attach ⟨.varDecl, "x", 5, 5, some "Int", []⟩, .exit, .exit,
    .enter ⟨.protocolDecl, "P", 7, 9, none, []⟩, .attach ⟨.varDecl, "y", 8, 8, none, []⟩]

/-- Too many closings and an open container at the end still give one forest. -/
theorem unbalancedCalls_build :
    (empty.applyAll unbalancedCalls).depth = 1 ∧
    (empty.applyAll unbalancedCalls).finish =
      [⟨.classDecl, "A", 1, 6, none,
          [⟨.structDecl, "B", 2, 4, none,
              [⟨.funcDecl, "f", 3, 3, none, [⟨.enumDecl, "E", 3, 3, none, []⟩]⟩]⟩,
            ⟨.varDecl, "x", 5, 5, some "Int", []⟩]⟩,
        ⟨.protocolDecl, "P", 7, 9, none, [⟨.varDecl, "y", 8, 8, none, []⟩]⟩] ∧
    (∃ t, (empty.applyAll unbalancedCalls).exit? = some t ∧ t.depth = 0) ∧
    (empty.applyAll (unbalancedCalls.take 6)).exit? = none := by
  obtain ⟨hforest, -, -, hopen⟩ := calls_build_listed_forest unbalancedCalls
  obtain ⟨-, -, hclosed, -⟩ := calls_build_listed_forest (unbalancedCalls.take 6)
  have hdepth : (empty.applyAll unbalancedCalls).depth = 1 := rfl
  obtain ⟨t, ht, -, hless⟩ := hopen (by rw [hdepth]; decide)
  refine ⟨hdepth, (hforest _).mpr rfl, ⟨t, ht, ?_⟩, (hclosed rfl).1⟩
  omega

end ScopeStack

end SourceOutline
