import SourceOutline.SystemError
import SourceOutline.Text.Utf8

/-!
# Faults

Everything that can fail reports a `Fault`: a kind, a message, the operation that
failed, facts about the circumstances in the order in which they were added, and
possibly the cause.

When an operation is recorded over an earlier one, the earlier one moves into the
context under the key `called`, so the chain of operations is never lost.
-/

namespace SourceOutline

/-- The kinds of faults. -/
inductive FaultKind where
  | unexpected
  | unsupported
  | configInvalid
  | parseFailed
  | encodingError
  | fileNotFound
  | permissionDenied
  | ioFailed
  | traversalFailed
  | unsupportedLanguage
  | grammarError
  | serializationFailed
  | invalidArgument
  deriving DecidableEq, Repr

namespace FaultKind

def all : List FaultKind :=
  [.unexpected, .unsupported, .configInvalid, .parseFailed, .encodingError, .fileNotFound,
    .permissionDenied, .ioFailed, .traversalFailed, .unsupportedLanguage, .grammarError,
    .serializationFailed, .invalidArgument]

def name : FaultKind → String
  | .unexpected => "Unexpected"
  | .unsupported => "Unsupported"
  | .configInvalid => "ConfigInvalid"
  | .parseFailed => "ParseFailed"
  | .encodingError => "EncodingError"
  | .fileNotFound => "FileNotFound"
  | .permissionDenied => "PermissionDenied"
  | .ioFailed => "IoFailed"
  | .traversalFailed => "TraversalFailed"
  | .unsupportedLanguage => "UnsupportedLanguage"
  | .grammarError => "GrammarError"
  | .serializationFailed => "SerializationFailed"
  | .invalidArgument => "InvalidArgument"

/-- The kind with the given name. -/
def ofName? (word : String) : Option FaultKind :=
  all.find? fun k => k.name = word

/-- Faults that concern one input only: a batch skips that input and goes on. -/
def isInputLocal : FaultKind → Bool
  | .fileNotFound | .permissionDenied | .ioFailed | .encodingError | .parseFailed => true
  | _ => false

end FaultKind

mutual

/-- A failure with its circumstances. -/
structure Fault where
  kind : FaultKind
  message : String
  /-- Empty while no operation is recorded. -/
  operation : String := ""
  context : List (String × String) := []
  cause : Option Cause := none

/-- What brought a fault about. -/
inductive Cause where
  | system (error : SystemError)
  | encoding (flaw : Utf8.Flaw)
  | fault (fault : Fault)

end

namespace Fault

/-- Whether the fault concerns one input only. -/
def isInputLocal (f : Fault) : Bool :=
  f.kind.isInputLocal

/-- Records the operation that failed, keeping an earlier one in the context. -/
def withOperation (operation : String) (f : Fault) : Fault :=
  { f with
    operation := operation
    context := if f.operation.isEmpty then f.context else f.context ++ [("called", f.operation)] }

/-- Adds a fact about the circumstances. -/
def withContext (key value : String) (f : Fault) : Fault :=
  { f with context := f.context ++ [(key, value)] }

/-- Sets the cause. -/
def withCause (cause : Cause) (f : Fault) : Fault :=
  { f with cause := some cause }

/-- A fault with nothing but a kind and a message. -/
def plain (kind : FaultKind) (message : String) : Fault :=
  { kind, message }

def fileNotFound (path : String) : Fault :=
  (plain .fileNotFound ("file '" ++ path ++ "' not found")).withContext "path" path

def unsupportedLanguage (language : String) : Fault :=
  (plain .unsupportedLanguage ("language '" ++ language ++ "' is not supported")).withContext
    "language" language

/-- How the kinds of system errors appear as faults. -/
def kindOfSystemError : SystemErrorKind → FaultKind
  | .notFound => .fileNotFound
  | .permissionDenied => .permissionDenied
  | _ => .ioFailed

/-- A system error as a fault of the operation `io`. -/
def ofSystemError (e : SystemError) : Fault :=
  ((plain (kindOfSystemError e.kind) e.message).withOperation "io").withCause (.system e)

/-- The fault on one line: the kind, then the operation, the context and the message as
far as they are there. -/
def summary (f : Fault) : String :=
  let operation := if f.operation.isEmpty then "" else " at " ++ f.operation
  let pairs := f.context.map fun (key, value) => key ++ ": " ++ value
  let context :=
    if f.context.isEmpty then "" else ", context \x7b " ++ ", ".intercalate pairs ++ " \x7d"
  let message := if f.message.isEmpty then "" else " => " ++ f.message
  f.kind.name ++ operation ++ context ++ message

end Fault

/-- The cause in words. -/
def Cause.message : Cause → String
  | .system error => error.message
  | .encoding flaw => flaw.message
  | .fault f => f.summary

/-- An encoding flaw with all it holds, for logs. -/
def Utf8.Flaw.details (flaw : Utf8.Flaw) : String :=
  let length :=
    match flaw.length with
    | some n => s!"Some({n})"
    | none => "None"
  "Utf8Error \x7b valid_up_to: " ++ toString flaw.validUpTo ++ ", error_len: " ++ length ++ " \x7d"

/-- The head of the detailed form of a fault: all but its cause. -/
def Fault.detailsHead (f : Fault) : String :=
  let message := if f.message.isEmpty then "" else "\n    Message: " ++ f.message ++ "\n"
  let pairs := f.context.map fun (key, value) => "        " ++ key ++ ": " ++ value ++ "\n"
  let context := if f.context.isEmpty then "" else "\n    Context:\n" ++ String.join pairs
  f.kind.name ++ " at " ++ f.operation ++ "\n" ++ message ++ context

mutual

/-- The fault over several lines, with all it holds and its cause. -/
def Fault.details : Fault → String
  | ⟨kind, message, operation, context, cause⟩ =>
    Fault.detailsHead ⟨kind, message, operation, context, cause⟩ ++
      match cause with
      | some c => "\n    Source: " ++ c.details ++ "\n"
      | none => ""

/-- The cause with all it holds. -/
def Cause.details : Cause → String
  | .system error => error.details
  | .encoding flaw => flaw.details
  | .fault f => f.details

end

end SourceOutline
