import SourceOutline.Text.Quoted

/-!
# Errors of the operating system

An error is reported by the system with its number, or raised by a program with a kind
and possibly a message of its own.  Every error has a kind, a message for people and a
detailed form for logs.
-/

namespace SourceOutline

/-- What went wrong, by class. -/
inductive SystemErrorKind where
  | notFound
  | permissionDenied
  | alreadyExists
  | notADirectory
  | isADirectory
  | filesystemLoop
  | invalidFilename
  | invalidData
  | invalidInput
  | unexpectedEof
  | interrupted
  | wouldBlock
  | timedOut
  | brokenPipe
  | other
  deriving DecidableEq, Repr

namespace SystemErrorKind

def all : List SystemErrorKind :=
  [.notFound, .permissionDenied, .alreadyExists, .notADirectory, .isADirectory,
    .filesystemLoop, .invalidFilename, .invalidData, .invalidInput, .unexpectedEof,
    .interrupted, .wouldBlock, .timedOut, .brokenPipe, .other]

/-- The name of a kind in logs. -/
def name : SystemErrorKind → String
  | .notFound => "NotFound"
  | .permissionDenied => "PermissionDenied"
  | .alreadyExists => "AlreadyExists"
  | .notADirectory => "NotADirectory"
  | .isADirectory => "IsADirectory"
  | .filesystemLoop => "FilesystemLoop"
  | .invalidFilename => "InvalidFilename"
  | .invalidData => "InvalidData"
  | .invalidInput => "InvalidInput"
  | .unexpectedEof => "UnexpectedEof"
  | .interrupted => "Interrupted"
  | .wouldBlock => "WouldBlock"
  | .timedOut => "TimedOut"
  | .brokenPipe => "BrokenPipe"
  | .other => "Other"

/-- The kind with the given name. -/
def ofName? (word : String) : Option SystemErrorKind :=
  all.find? fun k => k.name = word

/-- The message of an error that has only a kind. -/
def phrase : SystemErrorKind → String
  | .notFound => "entity not found"
  | .permissionDenied => "permission denied"
  | .alreadyExists => "entity already exists"
  | .notADirectory => "not a directory"
  | .isADirectory => "is a directory"
  | .filesystemLoop => "filesystem loop or indirection limit (e.g. symlink loop)"
  | .invalidFilename => "invalid filename"
  | .invalidData => "invalid data"
  | .invalidInput => "invalid input parameter"
  | .unexpectedEof => "unexpected end of file"
  | .interrupted => "operation interrupted"
  | .wouldBlock => "operation would block"
  | .timedOut => "timed out"
  | .brokenPipe => "broken pipe"
  | .other => "other error"

end SystemErrorKind

/-- The numbered errors of the file system. -/
inductive FileError where
  | noEntry
  | accessDenied
  | fileExists
  | notDirectory
  | isDirectory
  | nameTooLong
  | linkLoop
  deriving DecidableEq, Repr

namespace FileError

def all : List FileError :=
  [.noEntry, .accessDenied, .fileExists, .notDirectory, .isDirectory, .nameTooLong, .linkLoop]

/-- The number that the system gives an error. -/
def code : FileError → Nat
  | .noEntry => 2
  | .accessDenied => 13
  | .fileExists => 17
  | .notDirectory => 20
  | .isDirectory => 21
  | .nameTooLong => 36
  | .linkLoop => 40

/-- The error with the given number. -/
def ofCode? (n : Nat) : Option FileError :=
  all.find? fun e => e.code = n

def kind : FileError → SystemErrorKind
  | .noEntry => .notFound
  | .accessDenied => .permissionDenied
  | .fileExists => .alreadyExists
  | .notDirectory => .notADirectory
  | .isDirectory => .isADirectory
  | .nameTooLong => .invalidFilename
  | .linkLoop => .filesystemLoop

/-- The system's own words for an error. -/
def phrase : FileError → String
  | .noEntry => "No such file or directory"
  | .accessDenied => "Permission denied"
  | .fileExists => "File exists"
  | .notDirectory => "Not a directory"
  | .isDirectory => "Is a directory"
  | .nameTooLong => "File name too long"
  | .linkLoop => "Too many levels of symbolic links"

end FileError

/-- An error of the operating system. -/
inductive SystemError where
  | numbered (error : FileError)
  | ofKind (kind : SystemErrorKind)
  | custom (kind : SystemErrorKind) (text : String)
  deriving DecidableEq, Repr

namespace SystemError

def kind : SystemError → SystemErrorKind
  | .numbered error => error.kind
  | .ofKind kind => kind
  | .custom kind _ => kind

/-- The error in words. -/
def message : SystemError → String
  | .numbered error => s!"{error.phrase} (os error {error.code})"
  | .ofKind kind => kind.phrase
  | .custom _ text => text

/-- The error with all it holds, for logs. -/
def details : SystemError → String
  | .numbered error =>
    "Os \x7b code: " ++ toString error.code ++ ", kind: " ++ error.kind.name ++ ", message: " ++
      Text.quoted error.phrase ++ " \x7d"
  | .ofKind kind => "Kind(" ++ kind.name ++ ")"
  | .custom kind text =>
    "Custom \x7b kind: " ++ kind.name ++ ", error: " ++ Text.quoted text ++ " \x7d"

end SystemError

end SourceOutline
