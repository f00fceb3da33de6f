/-!
# Symbols of an outline

A symbol is a named declaration with its inclusive line span and its members, in
source order.  Kinds fall into three roles:

1.  *containers* (types and extensions) always hold the declarations inside them;
2.  *callables* have an executable body and hold declarations only on request;
3.  *values* never hold anything.

`Symbol.descendants` lists a symbol and everything below it with an explicit stack;
`Symbol.listing` is the same listing by plain recursion.
-/

namespace SourceOutline

/-- What a symbol declares. -/
inductive Kind where
  | classDecl
  | structDecl
  | actorDecl
  | enumDecl
  | protocolDecl
  | extensionDecl
  | funcDecl
  | initDecl
  | deinitDecl
  | varDecl
  deriving DecidableEq, Repr, Inhabited

/-- What a kind means for nesting. -/
inductive Role where
  | container
  | callable
  | value
  deriving DecidableEq, Repr

namespace Kind

/-- All kinds, in the order in which messages list them. -/
def all : List Kind :=
  [.classDecl, .structDecl, .actorDecl, .enumDecl, .protocolDecl, .extensionDecl,
    .funcDecl, .initDecl, .deinitDecl, .varDecl]

/-- The word for a kind in reports. -/
def tag : Kind → String
  | .classDecl => "class"
  | .structDecl => "struct"
  | .actorDecl => "actor"
  | .enumDecl => "enum"
  | .protocolDecl => "protocol"
  | .extensionDecl => "extension"
  | .funcDecl => "func"
  | .initDecl => "init"
  | .deinitDecl => "deinit"
  | .varDecl => "var"

/-- The kind that a word names; case counts. -/
def ofTag? (word : String) : Option Kind :=
  all.find? fun k => k.tag = word

def role : Kind → Role
  | .classDecl | .structDecl | .actorDecl | .enumDecl | .protocolDecl | .extensionDecl =>
    .container
  | .funcDecl | .initDecl | .deinitDecl => .callable
  | .varDecl => .value

/-- Kinds that always hold the declarations inside them. -/
def isTypeLike (k : Kind) : Bool :=
  k.role = .container

/-- Kinds with an executable body. -/
def isCallable (k : Kind) : Bool :=
  k.role = .callable

/-- Every kind is read back from its word. -/
theorem ofTag?_tag (k : Kind) : ofTag? k.tag = some k := by
  cases k <;> decide

end Kind

/-- A named declaration. -/
structure Symbol where
  kind : Kind
  name : String
  startLine : Nat
  endLine : Nat
  typeLabel : Option String := none
  members : List Symbol := []
  deriving Repr, Inhabited

namespace Symbol

mutual

/-- Equality of symbols can be decided. -/
def decEq : (a b : Symbol) → Decidable (a = b)
  | ⟨kind, name, startLine, endLine, typeLabel, members⟩,
    ⟨kind', name', startLine', endLine', typeLabel', members'⟩ =>
    match decEqList members members' with
    | isFalse h => isFalse fun heq => h (by cases heq; rfl)
    | isTrue h =>
      if h' : kind = kind' ∧ name = name' ∧ startLine = startLine' ∧ endLine = endLine' ∧
          typeLabel = typeLabel' then
        isTrue (by obtain ⟨rfl, rfl, rfl, rfl, rfl⟩ := h'; rw [h])
      else isFalse fun heq => h' (by cases heq; exact ⟨rfl, rfl, rfl, rfl, rfl⟩)

/-- Equality of lists of symbols can be decided. -/
def decEqList : (as bs : List Symbol) → Decidable (as = bs)
  | [], [] => isTrue rfl
  | [], _ :: _ => isFalse nofun
  | _ :: _, [] => isFalse nofun
  | a :: as, b :: bs =>
    match decEq a b, decEqList as bs with
    | isTrue h, isTrue h' => isTrue (by rw [h, h'])
    | isFalse h, _ => isFalse fun heq => h (by cases heq; rfl)
    | _, isFalse h => isFalse fun heq => h (by cases heq; rfl)

end

instance : DecidableEq Symbol :=
  decEq

/-- The first direct member with the given name. -/
def member? (s : Symbol) (name : String) : Option Symbol :=
  s.members.find? fun m => m.name = name

/-- The names of the direct members, in order. -/
def memberNames (s : Symbol) : List String :=
  s.members.map Symbol.name

/-- Whether the line span of `other` lies within that of `s`. -/
def encloses (s other : Symbol) : Bool :=
  s.startLine ≤ other.startLine && other.endLine ≤ s.endLine

mutual

/-- A symbol, then the listing of each member in order. -/
def listing : Symbol → List Symbol
  | ⟨kind, name, startLine, endLine, typeLabel, members⟩ =>
    ⟨kind, name, startLine, endLine, typeLabel, members⟩ :: listings members

/-- The listings of several symbols, one after the other. -/
def listings : List Symbol → List Symbol
  | [] => []
  | s :: ss => listing s ++ listings ss

end

mutual

/-- The number of symbols at and below a symbol. -/
def size : Symbol → Nat
  | ⟨_, _, _, _, _, members⟩ => 1 + sizes members

/-- The number of symbols at and below several symbols. -/
def sizes : List Symbol → Nat
  | [] => 0
  | s :: ss => size s + sizes ss

end

theorem sizes_append (xs ys : List Symbol) : sizes (xs ++ ys) = sizes xs + sizes ys := by
  induction xs with
  | nil => simp [sizes]
  | cons x xs ih => simp [sizes, ih, Nat.add_assoc]

theorem size_eq (s : Symbol) : s.size = 1 + sizes s.members := by
  cases s
  rfl

theorem size_le_sizes {s : Symbol} {ss : List Symbol} (h : s ∈ ss) : s.size ≤ sizes ss := by
  induction ss with
  | nil => cases h
  | cons t ts ih =>
    simp only [sizes]
    rcases List.mem_cons.mp h with rfl | hts
    · omega
    · have := ih hts
      omega

theorem size_lt_of_mem_members {m s : Symbol} (h : m ∈ s.members) : m.size < s.size := by
  have hle := size_le_sizes h
  rw [size_eq s]
  omega

/-- What passes from the members of a symbol to the symbol holds of every symbol. -/
@[elab_as_elim]
theorem membersInduction {motive : Symbol → Prop}
    (step : ∀ s, (∀ m ∈ s.members, motive m) → motive s) (s : Symbol) : motive s :=
  step s fun m _ => membersInduction step m
termination_by s.size
decreasing_by exact size_lt_of_mem_members ‹_›

/-- Take the symbol on top of the stack and put its members in its place, first
member on top, until the stack is empty. -/
def drain : List Symbol → List Symbol
  | [] => []
  | s :: stack => s :: drain (s.members ++ stack)
termination_by stack => sizes stack
decreasing_by
  simp only [sizes, sizes_append, size_eq]
  omega

/-- A symbol and everything below it, parents before their members. -/
def descendants (s : Symbol) : List Symbol :=
  drain [s]

end Symbol

end SourceOutline
