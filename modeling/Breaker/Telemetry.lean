import Breaker.Engine

/-!
# Logs and metrics

What the journal of a breaker becomes for an operator.  `Telemetry.logs` and
`Telemetry.metrics` read an entry; a transition shows only when the breaker's
audience is the built-in telemetry.
-/

namespace Breaker

/-- How urgent a log record is. -/
inductive Level where
  | trace
  | debug
  | info
  | warn
  deriving DecidableEq, Repr

/-- The value of a field of a log record. -/
inductive FieldValue where
  | text (s : String)
  | number (n : Nat)
  | rate (x : Binary64)
  | flag (b : Bool)
  deriving DecidableEq, Repr

/-- One line of the log. -/
structure LogRecord where
  level : Level
  message : String
  fields : List (String × FieldValue)
  deriving DecidableEq, Repr

/-- What kind of metric a sample belongs to. -/
inductive MetricKind where
  | counter
  | gauge
  deriving DecidableEq, Repr

/-- An increment of a counter, or a new value of a gauge. -/
structure Sample where
  kind : MetricKind
  metric : String
  labels : List (String × String)
  value : Nat
  deriving DecidableEq, Repr

namespace Refusal

/-- The reason as a label. -/
def label : Refusal → String
  | .opened => "open"
  | .tooManyRequests => "too_many_requests"

/-- The message for the caller of the breaker `name`. -/
def message (name : String) : Refusal → String
  | .opened => "circuit breaker " ++ name ++ " is open"
  | .tooManyRequests => "circuit breaker " ++ name ++ " is half-open, too many requests"

end Refusal

namespace Telemetry

/-- The counter of transitions. -/
def transitionsTotal : String := "circuit_breaker_transitions_total"

/-- The gauge of the phase. -/
def stateGauge : String := "circuit_breaker_state"

/-- The counter of refused calls. -/
def rejectionsTotal : String := "circuit_breaker_rejections_total"

/-- A record about the breaker `name`. -/
def about (name : String) (level : Level) (message : String)
    (fields : List (String × FieldValue)) : LogRecord :=
  { level, message, fields := ("breaker", .text name) :: fields }

/-- The log record of a transition: opening is a warning. -/
def changed (name : String) (t : Transition) : LogRecord :=
  about name (if t.target = .opened then .warn else .info) "Circuit breaker state changed"
    [("from", .text t.source.label), ("to", .text t.target.label)]

/-- The log records of an entry. -/
def logs (name : String) (audience : Audience) : Entry → List LogRecord
  | .moved _ => []
  | .admitted _ => []
  | .began _ => []
  | .counted _ _ => []
  | .told t => if audience = .telemetry then [changed name t] else []
  | .refused r => [about name .debug "Call rejected" [("reason", .text r.label)]]
  | .reset => [about name .info "Circuit breaker reset" []]
  | .stale t current success =>
    [about name .trace "Discarding outcome from a stale generation"
      [("generation", .number t.generation), ("current", .number current),
        ("success", .flag success)]]
  | .cutShort true =>
    [about name .warn "Protected operation panicked, recording failure" []]
  | .cutShort false =>
    [about name .debug "Protected call dropped before completion, recording failure" []]
  | .created => [about name .debug "Circuit breaker created" []]
  | .simulating calls concurrency failureRate =>
    [about name .info "Starting simulation"
      [("calls", .number calls), ("concurrency", .number concurrency),
        ("failure_rate", .rate failureRate)]]

/-- The samples of an entry: a transition counts and sets the gauge. -/
def metrics (name : String) (audience : Audience) : Entry → List Sample
  | .told t =>
    if audience = .telemetry then
      [{ kind := .counter, metric := transitionsTotal, value := 1,
         labels := [("breaker", name), ("from", t.source.label), ("to", t.target.label)] },
       { kind := .gauge, metric := stateGauge, value := t.target.level,
         labels := [("breaker", name)] }]
    else []
  | .refused r =>
    [{ kind := .counter, metric := rejectionsTotal, value := 1,
       labels := [("breaker", name), ("reason", r.label)] }]
  | _ => []

end Telemetry

end Breaker
