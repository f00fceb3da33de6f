import SourceOutline.Symbol.Basic
import SourceOutline.TypeLabel

/-!
# Syntax nodes as the outline sees them

A node either declares a symbol or is transparent: its children then count as if they
stood in its place.  The texts that a declaration may be named by are optional, and
any node may carry any of them.
-/

namespace SourceOutline

/-- What a node is for the outline. -/
inductive NodeKind where
  | declares (kind : Kind)
  | other
  deriving DecidableEq, Repr

namespace NodeKind

instance : Inhabited NodeKind := ⟨.other⟩

/-- The kind of symbol that a node gives; nothing for a transparent node. -/
def symbolKind? : NodeKind → Option Kind
  | .declares kind => some kind
  | .other => none

/-- The name of a node kind. -/
def name : NodeKind → String
  | .declares .classDecl => "Class"
  | .declares .structDecl => "Struct"
  | .declares .actorDecl => "Actor"
  | .declares .enumDecl => "Enum"
  | .declares .protocolDecl => "Protocol"
  | .declares .extensionDecl => "Extension"
  | .declares .funcDecl => "Function"
  | .declares .initDecl => "Initializer"
  | .declares .deinitDecl => "Deinitializer"
  | .declares .varDecl => "Variable"
  | .other => "Other"

def all : List NodeKind :=
  Kind.all.map .declares ++ [.other]

/-- The node kind with the given name. -/
def ofName? (word : String) : Option NodeKind :=
  all.find? fun k => k.name = word

end NodeKind

/-- A syntax node: a byte range, the texts of its parts and its children in source
order. -/
structure Node where
  kind : NodeKind
  startByte : Nat
  /-- One past the last byte. -/
  endByte : Nat
  /-- Declared identifier. -/
  name : Option String := none
  /-- What an extension extends. -/
  extendedType : Option String := none
  /-- Parameters of an initializer with their parentheses. -/
  parameterClause : Option String := none
  /-- First binding of a variable declaration. -/
  binding : Option Binding := none
  children : List Node := []
  deriving Repr, Inhabited

namespace Node

mutual

/-- The number of nodes at and below a node. -/
def size : Node → Nat
  | ⟨_, _, _, _, _, _, _, children⟩ => 1 + sizes children

/-- The number of nodes at and below several nodes. -/
def sizes : List Node → Nat
  | [] => 0
  | n :: ns => size n + sizes ns

end

theorem size_eq (n : Node) : n.size = 1 + sizes n.children := by
  cases n
  rfl

theorem size_le_sizes {n : Node} {ns : List Node} (h : n ∈ ns) : n.size ≤ sizes ns := by
  induction ns with
  | nil => cases h
  | cons m ms ih =>
    simp only [sizes]
    rcases List.mem_cons.mp h with rfl | hms
    · omega
    · have := ih hms
      omega

theorem size_lt_of_mem_children {c n : Node} (h : c ∈ n.children) : c.size < n.size := by
  have hle := size_le_sizes h
  rw [size_eq n]
  omega

/-- What passes from the children of a node to the node holds of every node. -/
@[elab_as_elim]
theorem childrenInduction {motive : Node → Prop}
    (step : ∀ n, (∀ c ∈ n.children, motive c) → motive n) (n : Node) : motive n :=
  step n fun c _ => childrenInduction step c
termination_by n.size
decreasing_by exact size_lt_of_mem_children ‹_›

/-- Stands for a name that the tree does not give. -/
def unknownName : String :=
  "(unknown)"

/-- A name without surrounding blanks, or the placeholder when nothing is left. -/
def nameOrUnknown (text : Option String) : String :=
  (text.bind Text.nonBlank?).getD unknownName

/-- The name of the symbol that a node declares. -/
def symbolName (n : Node) : Kind → String
  | .extensionDecl => nameOrUnknown n.extendedType
  | .initDecl => "init" ++ Text.trimmed (n.parameterClause.getD "")
  | .deinitDecl => "deinit"
  | .varDecl => nameOrUnknown (n.binding.map Binding.pattern)
  | _ => nameOrUnknown n.name

/-- The offset of the last byte; an empty or reversed range counts as its first byte. -/
def lastByte (n : Node) : Nat :=
  max (n.endByte - 1) n.startByte

end Node

end SourceOutline
