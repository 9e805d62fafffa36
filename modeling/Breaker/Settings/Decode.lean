import Breaker.Decimal.Style
import Breaker.Settings
import Breaker.Text.Quoted
import Breaker.Toml.Document

/-!
# Settings from a document

A document fits the settings when every key that they know holds a value of
its type.  Other keys say nothing.  A record may also be written as an array of
its fields in order.  The first misfit in the order of the document is the one
reported; a missing name is noticed at the end of its table.
-/

namespace Breaker

/-- A record of the settings. -/
inductive Section where
  | observability
  | limits
  | override
  deriving DecidableEq, Repr

/-- What a place of the settings takes. -/
inductive Expected where
  | small
  | large
  | rate
  | text
  | sequence
  | record (s : Section)
  deriving DecidableEq, Repr

/-- How a document does not fit the settings. -/
inductive Misfit where
  /-- A value of another type. -/
  | wrongType (found : Toml.Value) (expected : Expected)
  /-- A whole number out of range. -/
  | outOfRange (found : Int) (expected : Expected)
  /-- A table for a breaker without a name. -/
  | missingName
  /-- An array for a breaker with too few fields. -/
  | tooShort (count : Nat)
  deriving Repr

namespace Section

/-- The name in messages. -/
def label : Section → String
  | .observability => "ObservabilityConfig"
  | .limits => "BreakerSettings"
  | .override => "BreakerOverride"

end Section

namespace Expected

/-- What is expected, in a message. -/
def label : Expected → String
  | .small => "u32"
  | .large => "u64"
  | .rate => "f64"
  | .text => "a string"
  | .sequence => "a sequence"
  | .record s => "struct " ++ s.label

end Expected

namespace Misfit

/-- A number in a message: a point at least. -/
def floatLabel (x : Binary64) : String :=
  let plain := Decimal.Style.plain.write x
  match x with
  | .finite .. => if plain.contains '.' then plain else plain ++ ".0"
  | _ => plain

/-- What was found, in a message. -/
def foundLabel : Toml.Value → String
  | .text s => "string " ++ Text.quoted s
  | .integer n => "integer `" ++ toString n ++ "`"
  | .float x => "floating point `" ++ floatLabel x ++ "`"
  | .boolean b => "boolean `" ++ toString b ++ "`"
  | .dateTime => "map"
  | .array _ => "sequence"
  | .table _ => "map"

/-- The misfit in words. -/
def message : Misfit → String
  | .wrongType found expected =>
    "invalid type: " ++ foundLabel found ++ ", expected " ++ expected.label
  | .outOfRange found expected =>
    "invalid value: integer `" ++ toString found ++ "`, expected " ++ expected.label
  | .missingName => "missing field `name`"
  | .tooShort count =>
    "invalid length " ++ toString count ++ ", expected struct BreakerOverride with 6 elements"

end Misfit

namespace Settings.Decode

/-- A part of the settings, or how the document does not fit. -/
abbrev Fit (α : Type) := Except Misfit α

/-- A text. -/
def text : Toml.Value → Fit String
  | .text s => .ok s
  | v => .error (.wrongType v .text)

/-- A whole number below `limit`. -/
def whole (limit : Nat) (expected : Expected) : Toml.Value → Fit Nat
  | .integer n =>
    if 0 ≤ n ∧ n < limit then .ok n.toNat else .error (.outOfRange n expected)
  | v => .error (.wrongType v expected)

/-- A whole number of 32 bits. -/
def small : Toml.Value → Fit Nat := whole (0x100000000) .small

/-- A whole number of 64 bits. -/
def large : Toml.Value → Fit Nat := whole (0x10000000000000000) .large

/-- A number; a whole one is converted. -/
def rate : Toml.Value → Fit Binary64
  | .float x => .ok x
  | .integer n => .ok (.ofInt n)
  | v => .error (.wrongType v .rate)

/-- Takes the entries of a table one after another into `start`. -/
def fields {α : Type} (take : α → String → Toml.Value → Fit α) :
    α → List (String × Toml.Value) → Fit α
  | a, [] => .ok a
  | a, (key, v) :: rest => do fields take (← take a key v) rest

/-- The keys for the items of an array, as far as both go. -/
def positional (keys : List String) (items : List Toml.Value) : List (String × Toml.Value) :=
  keys.zip items

/-- The keys of observability in order. -/
def observabilityKeys : List String := ["log_level"]

/-- The keys of limits in order. -/
def limitsKeys : List String :=
  ["probe_limit", "closed_window_secs", "open_duration_secs", "failure_rate_threshold",
    "min_requests"]

/-- Takes an entry of observability. -/
def takeObservability (level key : String) (v : Toml.Value) : Fit String :=
  if key = "log_level" then text v else .ok level

/-- Takes an entry of limits. -/
def takeLimit (l : Limits) (key : String) (v : Toml.Value) : Fit Limits :=
  if key = "probe_limit" then do return { l with probeLimit := ← small v }
  else if key = "closed_window_secs" then do return { l with closedWindowSecs := ← large v }
  else if key = "open_duration_secs" then do return { l with openDurationSecs := ← large v }
  else if key = "failure_rate_threshold" then do return { l with threshold := ← rate v }
  else if key = "min_requests" then do return { l with minRequests := ← small v }
  else .ok l

/-- An override whose name may still be missing. -/
structure Draft where
  name : Option String := none
  rest : Override := { name := "" }

/-- Takes an entry of an override. -/
def takeOverride (d : Draft) (key : String) (v : Toml.Value) : Fit Draft :=
  let o := d.rest
  if key = "name" then do return { d with name := some (← text v) }
  else if key = "probe_limit" then do
    return { d with rest := { o with probeLimit := some (← small v) } }
  else if key = "closed_window_secs" then do
    return { d with rest := { o with closedWindowSecs := some (← large v) } }
  else if key = "open_duration_secs" then do
    return { d with rest := { o with openDurationSecs := some (← large v) } }
  else if key = "failure_rate_threshold" then do
    return { d with rest := { o with threshold := some (← rate v) } }
  else if key = "min_requests" then do
    return { d with rest := { o with minRequests := some (← small v) } }
  else .ok d

/-- The override of a complete draft. -/
def Draft.toOverride (d : Draft) : Fit Override :=
  match d.name with
  | some name => .ok { d.rest with name }
  | none => .error .missingName

/-- The log level of a value for observability.  A date or time has no entry
that counts. -/
def observability : Toml.Value → Fit String
  | .table entries => fields takeObservability "info" entries
  | .array items => fields takeObservability "info" (positional observabilityKeys items)
  | .dateTime => .ok "info"
  | v => .error (.wrongType v (.record .observability))

/-- The limits of a value for the defaults. -/
def limits : Toml.Value → Fit Limits
  | .table entries => fields takeLimit {} entries
  | .array items => fields takeLimit {} (positional limitsKeys items)
  | .dateTime => .ok {}
  | v => .error (.wrongType v (.record .limits))

/-- The override of a value for a breaker. -/
def override : Toml.Value → Fit Override
  | .table entries => do (← fields takeOverride {} entries).toOverride
  | .array items => do
    let draft ← fields takeOverride {} (positional ("name" :: limitsKeys) items)
    if items.length < 6 then .error (.tooShort items.length) else draft.toOverride
  | .dateTime => .error .missingName
  | v => .error (.wrongType v (.record .override))

/-- The overrides of a list of values. -/
def overrides : List Toml.Value → Fit (List Override)
  | [] => .ok []
  | v :: rest => do return (← override v) :: (← overrides rest)

/-- The overrides of a value for the breakers. -/
def breakers : Toml.Value → Fit (List Override)
  | .array items => overrides items
  | v => .error (.wrongType v .sequence)

/-- Takes an entry of the document. -/
def takeSection (s : Settings) (key : String) (v : Toml.Value) : Fit Settings :=
  if key = "observability" then do return { s with logLevel := ← observability v }
  else if key = "defaults" then do return { s with defaults := ← limits v }
  else if key = "breakers" then do return { s with breakers := ← breakers v }
  else .ok s

end Settings.Decode

/-- The settings of a document. -/
def Settings.ofEntries (entries : List (String × Toml.Value)) : Except Misfit Settings :=
  Settings.Decode.fields Settings.Decode.takeSection {} entries

end Breaker
