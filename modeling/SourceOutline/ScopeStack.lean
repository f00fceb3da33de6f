import SourceOutline.Symbol.Basic

/-!
# Open scopes

While an outline is built, the containers that are still open form a stack, and the
finished symbols outside all of them form the list of roots.  Only the top of the stack
ever changes; a container that is closed becomes the last member of the new top, or the
last root.
-/

namespace SourceOutline

/-- Appends a member. -/
def Symbol.addMember (s member : Symbol) : Symbol :=
  { s with members := s.members ++ [member] }

/-- The open containers, innermost first, and the finished roots. -/
structure ScopeStack where
  stack : List Symbol := []
  roots : List Symbol := []
  deriving Repr

namespace ScopeStack

/-- Nothing open and nothing finished. -/
def empty : ScopeStack :=
  {}

/-- The number of open containers. -/
def depth (s : ScopeStack) : Nat :=
  s.stack.length

/-- The innermost open container. -/
def top? (s : ScopeStack) : Option Symbol :=
  s.stack.head?

/-- Opens a container. -/
def enter (container : Symbol) (s : ScopeStack) : ScopeStack :=
  { s with stack := container :: s.stack }

/-- Appends a symbol to the innermost open container, or to the roots. -/
def attach (symbol : Symbol) (s : ScopeStack) : ScopeStack :=
  match s.stack with
  | [] => { s with roots := s.roots ++ [symbol] }
  | top :: rest => { s with stack := top.addMember symbol :: rest }

/-- Closes the innermost container, when one is open. -/
def exit? (s : ScopeStack) : Option ScopeStack :=
  match s.stack with
  | [] => none
  | top :: rest => some (attach top { s with stack := rest })

/-- Closes the innermost container; nothing changes when none is open. -/
def exit (s : ScopeStack) : ScopeStack :=
  s.exit?.getD s

theorem depth_attach (symbol : Symbol) (s : ScopeStack) : (s.attach symbol).depth = s.depth := by
  unfold attach depth
  split <;> simp_all

theorem depth_exit? {s t : ScopeStack} (h : s.exit? = some t) : t.depth + 1 = s.depth := by
  obtain ⟨stack, roots⟩ := s
  cases stack with
  | nil => simp [exit?] at h
  | cons top rest =>
    simp only [exit?, Option.some.injEq] at h
    subst h
    rw [depth_attach]
    simp [depth]

/-- Closes every open container and returns the roots. -/
def finish (s : ScopeStack) : List Symbol :=
  (Nat.repeat exit s.depth s).roots

end ScopeStack

end SourceOutline
