import Breaker.Engine
import Breaker.Json
import Breaker.Settings
import Breaker.Simulation
import Breaker.Text.Duration
import Breaker.Text.Quoted

/-!
# Reports

What is printed about settings, about a simulated workload, and about the
inside of a breaker.
-/

namespace Breaker

namespace Window

/-- The counters of a report. -/
def toJson (w : Window) : Json :=
  .object
    [("requests", .number w.requests), ("total_successes", .number w.successes),
      ("total_failures", .number w.failures), ("consecutive_successes", .number w.successRun),
      ("consecutive_failures", .number w.failureRun)]

/-- The counters in a diagnostic text. -/
def technical (w : Window) : String :=
  "Counts \x7b requests: " ++ toString w.requests ++
    ", total_successes: " ++ toString w.successes ++
    ", total_failures: " ++ toString w.failures ++
    ", consecutive_successes: " ++ toString w.successRun ++
    ", consecutive_failures: " ++ toString w.failureRun ++ " \x7d"

end Window

/-- The five limits as members of a report. -/
def Limits.members (limits : Limits) : List (String × Json) :=
  [("probe_limit", .number limits.probeLimit),
    ("closed_window_secs", .number limits.closedWindowSecs),
    ("open_duration_secs", .number limits.openDurationSecs),
    ("failure_rate_threshold", .rate limits.threshold),
    ("min_requests", .number limits.minRequests)]

namespace Report

/-- The defaults, and every breaker of the file with its limits filled in. -/
def check (settings : Settings) : Json :=
  .object
    [("defaults", .object settings.defaults.members),
      ("breakers", .list (settings.effective.map fun (name, limits) =>
        .object (("name", .text name) :: limits.members)))]

/-- What became of a workload, and the breaker after it. -/
def simulation (outcomes : Outcomes) (name : String) (view : View) : Json :=
  .object
    [("tally", .object
      [("succeeded", .number outcomes.succeeded), ("failed", .number outcomes.failed),
        ("rejected_open", .number outcomes.refusedOpen),
        ("rejected_half_open", .number outcomes.refusedHalfOpen)]),
      ("breaker", .object
        [("name", .text name), ("state", .text view.phase.label),
          ("generation", .number view.generation), ("counts", view.window.toJson)])]

end Report

/-- A policy in a diagnostic text. -/
def Policy.technical (policy : Policy) : String :=
  "BreakerConfig \x7b probe_limit: " ++ toString policy.probeLimit ++
    ", closed_window: " ++ Text.duration policy.closedWindow ++
    ", open_duration: " ++ Text.duration policy.openDuration ++
    ", failure_rate_threshold: " ++ Decimal.Style.technical.write policy.threshold ++
    ", min_requests: " ++ toString policy.minRequests ++ " \x7d"

/-- A circuit in a diagnostic text; the instant of a deadline is not shown. -/
def Circuit.technical (c : Circuit) : String :=
  "Machine \x7b state: " ++ c.phase.technical ++ ", generation: " ++ toString c.generation ++
    ", counts: " ++ c.window.technical ++ ", expiry: " ++
    (if c.expiry.isSome then "Some(_)" else "None") ++ " \x7d"

/-- A breaker in a diagnostic text. -/
def Engine.technical (e : Engine) : String :=
  "CircuitBreaker \x7b name: " ++ Text.quoted e.name ++ ", config: " ++ e.policy.technical ++
    ", machine: " ++ e.circuit.technical ++ " \x7d"

end Breaker
