import Breaker.Engine.Quiet
import Breaker.Settings.Fault

/-!
# Panels

A panel hands out one breaker for each name, and builds it from the settings
when the name is first asked for.  Looking up and putting in are two steps, so
that what happens between them can be told; the breaker that was put in first
stays.
-/

namespace Breaker

/-- Breakers by name, in the order in which they were built, with the settings
and the audience for those still to be built. -/
structure Panel where
  settings : Settings := {}
  audience : Audience := .telemetry
  engines : List Engine := []
  deriving DecidableEq, Repr

/-- Why a panel does not hand out a breaker. -/
inductive Panel.Failure where
  /-- The name or the limits will not do. -/
  | faults (faults : List Fault)
  /-- The clock cannot hold the end of the first period. -/
  | overflow
  deriving DecidableEq, Repr

namespace Panel

/-- A panel for settings without faults. -/
def new (settings : Settings) : Except (List Fault) Panel :=
  if settings.faults.isEmpty then .ok { settings } else .error settings.faults

/-- The breaker of that name. -/
def find? (p : Panel) (name : String) : Option Engine := p.engines.find? (·.name == name)

/-- A new breaker, not yet part of the panel. -/
def build (p : Panel) (now : Instant) (name : String) : Except Failure Engine :=
  let policy := (p.settings.limitsFor name).toPolicy
  let faults := policy.faults name
  if faults.isEmpty then
    match Engine.new? name policy p.audience now with
    | some engine => .ok engine
    | none => .error .overflow
  else .error (.faults faults)

/-- Puts a breaker in unless there is one of its name. -/
def insertNew (p : Panel) (e : Engine) : Panel :=
  match p.find? e.name with
  | some _ => p
  | none => { p with engines := p.engines ++ [e] }

/-- The panel with a breaker for `name`, and whether it was built just now. -/
def get (p : Panel) (now : Instant) (name : String) : Except Failure (Panel × Bool) :=
  match p.find? name with
  | some _ => .ok (p, false)
  | none => (p.build now name).map fun e => (p.insertNew e, true)

/-- Puts an engine back in the place of the one with its name. -/
def put (p : Panel) (e : Engine) : Panel :=
  { p with engines := p.engines.map fun old => if old.name == e.name then e else old }

/-- A move on the breaker of that name. -/
def step (p : Panel) (now : Instant) (name : String) (move : Move) :
    Option (Panel × Engine.Response) := do
  let engine ← p.find? name
  let response ← engine.step now move
  pure (p.put response.engine, response)

/-- The names of the breakers in ascending order. -/
def names (p : Panel) : List String :=
  (p.engines.map Engine.name).mergeSort fun a b => decide (a ≤ b)

/-- How many breakers there are. -/
def size (p : Panel) : Nat := p.engines.length

end Panel

end Breaker
