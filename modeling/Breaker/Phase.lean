/-!
# Phases of a circuit

A circuit is closed, open or half open.  Reports name a phase in lower case,
diagnostic texts in camel case, and the gauge shows it as a level.
-/

namespace Breaker

/-- What a circuit does with calls: a closed one lets them pass and counts
their outcomes, an open one refuses them, a half-open one admits a few probes. -/
inductive Phase where
  | closed
  | halfOpen
  | opened
  deriving DecidableEq, Repr

namespace Phase

/-- The name in reports, logs and metrics. -/
def label : Phase → String
  | .closed => "closed"
  | .halfOpen => "half_open"
  | .opened => "open"

/-- The name in diagnostic texts. -/
def technical : Phase → String
  | .closed => "Closed"
  | .halfOpen => "HalfOpen"
  | .opened => "Open"

/-- The value that the gauge shows. -/
def level : Phase → Nat
  | .closed => 0
  | .halfOpen => 1
  | .opened => 2

end Phase

/-- A change of phase. -/
structure Transition where
  source : Phase
  target : Phase
  deriving DecidableEq, Repr

end Breaker
