import Breaker.Policy

/-!
# Settings

The settings of a configuration file: one set of limits for every breaker, and
overrides for breakers by name.  Durations are whole seconds here.  An override
lacks the limits that it leaves as they are; `Limits.adjust` fills them in.
-/

namespace Breaker

/-- The thresholds and timings of a breaker in the units of the file. -/
structure Limits where
  probeLimit : Nat := 3
  closedWindowSecs : Nat := 60
  openDurationSecs : Nat := 60
  threshold : Binary64 := .half
  minRequests : Nat := 10
  deriving DecidableEq, Repr

/-- What a file says about the breaker called `name`. -/
structure Override where
  name : String
  probeLimit : Option Nat := none
  closedWindowSecs : Option Nat := none
  openDurationSecs : Option Nat := none
  threshold : Option Binary64 := none
  minRequests : Option Nat := none
  deriving DecidableEq, Repr

/-- All that a configuration file says. -/
structure Settings where
  logLevel : String := "info"
  defaults : Limits := {}
  breakers : List Override := []
  deriving DecidableEq, Repr

namespace Limits

/-- The limits with what the override sets. -/
def adjust (limits : Limits) (o : Override) : Limits :=
  { probeLimit := o.probeLimit.getD limits.probeLimit
    closedWindowSecs := o.closedWindowSecs.getD limits.closedWindowSecs
    openDurationSecs := o.openDurationSecs.getD limits.openDurationSecs
    threshold := o.threshold.getD limits.threshold
    minRequests := o.minRequests.getD limits.minRequests }

/-- The policy with these limits. -/
def toPolicy (limits : Limits) : Policy :=
  { probeLimit := limits.probeLimit
    closedWindow := limits.closedWindowSecs * Clock.second
    openDuration := limits.openDurationSecs * Clock.second
    threshold := limits.threshold
    minRequests := limits.minRequests }

end Limits

namespace Settings

/-- The limits of the breaker called `name`: the first override of that name
counts. -/
def limitsFor (settings : Settings) (name : String) : Limits :=
  match settings.breakers.find? (·.name == name) with
  | some o => settings.defaults.adjust o
  | none => settings.defaults

/-- Every override with its limits filled in, in the order of the file. -/
def effective (settings : Settings) : List (String × Limits) :=
  settings.breakers.map fun o => (o.name, settings.defaults.adjust o)

end Settings

end Breaker
