import Breaker.Files
import Breaker.Settings.Decode
import Breaker.Settings.Fault

/-!
# Loading settings

From a file to settings that can be used: the bytes are a text, the text is a
document, the document fits, and the settings have no faults.
-/

namespace Breaker

/-- Why settings cannot be loaded. -/
inductive LoadError where
  | file (e : FileError)
  | notText
  | notDocument
  | misfit (m : Misfit)
  | faults (faults : List Fault)

namespace LoadError

/-- The error in words, where the wording is this library's own. -/
def message : LoadError → Option String
  | .file e => some ("IO error: " ++ e.message ++ " (os error " ++ toString e.code ++ ")")
  | .notText => some "IO error: stream did not contain valid UTF-8"
  | .notDocument => none
  | .misfit m => some m.message
  | .faults fs => some (Fault.summary fs)

/-- The error in a diagnostic text. -/
def technical : LoadError → Option String
  | .file e => some ("Io(" ++ e.technical ++ ")")
  | .notText =>
    some ("Io(Error \x7b kind: InvalidData, message: " ++
      Text.quoted "stream did not contain valid UTF-8" ++ " \x7d)")
  | .notDocument => none
  | .misfit _ => none
  | .faults fs => some ("Validation([" ++ ", ".intercalate (fs.map Fault.technical) ++ "])")

end LoadError

namespace Settings

/-- The settings that a text writes, faults and all. -/
def read (text : String) : Except LoadError Settings :=
  match Toml.parse? text with
  | none => .error .notDocument
  | some entries => (ofEntries entries).mapError .misfit

/-- The settings that a text writes, without faults. -/
def parse (text : String) : Except LoadError Settings := do
  let settings ← read text
  if settings.faults.isEmpty then .ok settings else .error (.faults settings.faults)

/-- The settings of a file. -/
def load : FileContent → Except LoadError Settings
  | .error e => .error (.file e)
  | .ok b =>
    match String.fromUTF8? b with
    | some text => parse text
    | none => .error .notText

end Settings

end Breaker
