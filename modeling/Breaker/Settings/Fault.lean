import Breaker.Decimal.Style
import Breaker.Settings
import Breaker.Text.Blank
import Breaker.Text.Quoted

/-!
# Faults of settings

What can be wrong with settings that a file may well express.  `Policy.faults`
checks one breaker, `Settings.faults` the whole file; each reports every fault.
-/

namespace Breaker

/-- One thing that is wrong. -/
inductive Fault where
  | emptyName
  | probeLimit (name : String)
  | threshold (name : String) (value : Binary64)
  | duplicateName (name : String)
  deriving DecidableEq, Repr

namespace Fault

/-- The fault in words. -/
def message : Fault → String
  | .emptyName => "breaker name must not be empty"
  | .probeLimit name => "breaker " ++ name ++ ": probe_limit must be at least 1"
  | .threshold name value =>
    "breaker " ++ name ++ ": failure_rate_threshold must be in (0, 1], got " ++
      Decimal.Style.plain.write value
  | .duplicateName name => "breaker " ++ name ++ " is configured more than once"

/-- The fault in a diagnostic text. -/
def technical : Fault → String
  | .emptyName => "EmptyName"
  | .probeLimit name => "ProbeLimit \x7b name: " ++ Text.quoted name ++ " \x7d"
  | .threshold name value =>
    "FailureRateThreshold \x7b name: " ++ Text.quoted name ++ ", value: " ++
      Decimal.Style.technical.write value ++ " \x7d"
  | .duplicateName name => "DuplicateName \x7b name: " ++ Text.quoted name ++ " \x7d"

/-- All faults in one message. -/
def summary (faults : List Fault) : String :=
  "Validation failed: " ++ ", ".intercalate (faults.map message)

end Fault

/-- The faults of one breaker: its name, its probe limit, its threshold. -/
def Policy.faults (policy : Policy) (name : String) : List Fault :=
  (if Text.isBlank name then [.emptyName] else []) ++
  (if policy.probeLimit = 0 then [.probeLimit name] else []) ++
  (if Policy.usableThreshold policy.threshold then [] else [.threshold name policy.threshold])

namespace Settings

/-- The faults of breakers, the names in `seen` being taken already. -/
def faultsOf (seen : List String) : List (String × Limits) → List Fault
  | [] => []
  | (name, limits) :: rest =>
    (if seen.contains name then [.duplicateName name] else []) ++
      limits.toPolicy.faults name ++ faultsOf (name :: seen) rest

/-- The faults of the defaults, then of every breaker in the order of the
file. -/
def faults (settings : Settings) : List Fault :=
  settings.defaults.toPolicy.faults "defaults" ++ faultsOf [] settings.effective

end Settings

end Breaker
