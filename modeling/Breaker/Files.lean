import Breaker.Text.Quoted

/-!
# Files that cannot be read

Why the system does not hand over a file: the number of the error, and its
texts in the system's words.
-/

namespace Breaker

/-- Why a file cannot be read. -/
inductive FileError where
  | missing
  | denied
  | notDirectory
  | directory
  | nameTooLong
  deriving DecidableEq, Repr

/-- What reading a file gives. -/
abbrev FileContent := Except FileError ByteArray

namespace FileError

/-- The number that the system gives the error. -/
def code : FileError → Nat
  | .missing => 2
  | .denied => 13
  | .notDirectory => 20
  | .directory => 21
  | .nameTooLong => 36

/-- The kind of the error in a diagnostic text. -/
def kind : FileError → String
  | .missing => "NotFound"
  | .denied => "PermissionDenied"
  | .notDirectory => "NotADirectory"
  | .directory => "IsADirectory"
  | .nameTooLong => "InvalidFilename"

/-- The error in words. -/
def message : FileError → String
  | .missing => "No such file or directory"
  | .denied => "Permission denied"
  | .notDirectory => "Not a directory"
  | .directory => "Is a directory"
  | .nameTooLong => "File name too long"

/-- The error in a diagnostic text. -/
def technical (e : FileError) : String :=
  "Os \x7b code: " ++ toString e.code ++ ", kind: " ++ e.kind ++ ", message: " ++
    Text.quoted e.message ++ " \x7d"

/-- The error of that number. -/
def ofCode? (code : Nat) : Option FileError :=
  [missing, denied, notDirectory, directory, nameTooLong].find? (·.code = code)

end FileError

end Breaker
