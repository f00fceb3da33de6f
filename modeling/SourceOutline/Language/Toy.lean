import SourceOutline.Language.Basic
import SourceOutline.Text.Cut

/-!
# A toy language

The smallest language that can fail in every way: each line that is not empty declares
a variable of that name.  A first line `!Kind message` makes the whole source fail with
a fault of that kind.
-/

namespace SourceOutline.Toy

def tokens : TokenTable :=
  [("record", .declares .structDecl), ("routine", .declares .funcDecl),
    ("slot", .declares .varDecl)]

/-- The fault that a first line asks for. -/
def requestedFault? : List Char → Option Fault
  | '!' :: rest => do
    let (word, message) ← Text.breakAt? ' ' rest
    let kind ← FaultKind.ofName? (String.ofList word)
    return (Fault.plain kind (String.ofList message)).withOperation "toy::outline"
  | _ => none

/-- The variables of the lines, the first one being line `number`. -/
def symbols (number : Nat) : List (List Char) → List Symbol
  | [] => []
  | line :: lines =>
    let rest := symbols (number + 1) lines
    if line.isEmpty then rest
    else
      { kind := .varDecl, name := String.ofList line, startLine := number, endLine := number } ::
        rest

/-- The outline of a source; the options make no difference. -/
def outline (source : Bytes) (_ : OutlineOptions) : Except Fault (List Symbol) :=
  let lines := Text.pieces '\n' (Utf8.decodeLossy source)
  match requestedFault? (lines.headD []) with
  | some fault => .error fault
  | none => .ok (symbols 1 lines)

def language : Language where
  name := "toy"
  extensions := ["toy", "ty"]
  tokens := tokens
  outline := outline

end SourceOutline.Toy
