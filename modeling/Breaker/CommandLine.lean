import Breaker.Decimal.Read
import Breaker.Panel
import Breaker.Report
import Breaker.Settings.Load
import Breaker.Simulation

/-!
# The command line

Two commands: `check` shows the settings with every breaker filled in, and
`simulate` runs a workload on one of them.  Options have a value, which stands
in the same word or in the next one; the value may then not look like an
option.  No option is given twice.
-/

namespace Breaker.CommandLine

/-- An option by its names. -/
structure Flag where
  long : String
  short : Option Char := none

/-- Values by the long names of their options. -/
abbrev Values := List (String × String)

/-- Does the word look like an option? -/
def looksLikeOption (word : String) : Bool :=
  match word.toList with
  | '-' :: _ :: _ => true
  | _ => false

/-- What a word is. -/
inductive Word where
  /-- An option with the value in the same word, if there is one. -/
  | option (name : String) (attached : Option String)
  /-- The end of the options. -/
  | ending
  | plain
  /-- An option that is not known. -/
  | unknown

/-- What a word is, given the options that are known. -/
def classify (flags : List Flag) (word : String) : Word :=
  match word.toList with
  | ['-', '-'] => .ending
  | '-' :: '-' :: body =>
    let name := String.ofList (body.takeWhile (· != '='))
    let attached := match body.dropWhile (· != '=') with
      | _ :: value => some (String.ofList value)
      | [] => none
    if flags.any (·.long == name) then .option name attached else .unknown
  | '-' :: c :: body =>
    match flags.find? (·.short == some c) with
    | none => .unknown
    | some flag =>
      match body with
      | [] => .option flag.long none
      | '=' :: value => .option flag.long (some (String.ofList value))
      | value => .option flag.long (some (String.ofList value))
  | _ => .plain

/-- The options at the start of the words, and the words from the first one on
that is none. -/
def takeOptions (flags : List Flag) : List String → Option (Values × List String)
  | [] => some ([], [])
  | word :: rest =>
    match classify flags word with
    | .option name (some value) => do
      let (values, rest) ← takeOptions flags rest
      if (values.lookup name).isSome then none else pure ((name, value) :: values, rest)
    | .option name none =>
      match rest with
      | [] => none
      | value :: rest =>
        if looksLikeOption value then none
        else do
          let (values, rest) ← takeOptions flags rest
          if (values.lookup name).isSome then none else pure ((name, value) :: values, rest)
    | .unknown => none
    | .ending => some ([], word :: rest)
    | .plain => some ([], word :: rest)

/-- What a user asks for. -/
inductive Command where
  | check
  | simulate (breaker : String) (w : Workload)

/-- A complete command line. -/
structure Invocation where
  config : Option String
  command : Command

/-- The value of an option, or a default; `none` when the value does not
read. -/
def valueOr {α : Type} (values : Values) (name : String) (default : α)
    (read : String → Option α) : Option α :=
  (values.lookup name).elim (some default) read

/-- A whole number of 32 bits. -/
def readSmall (text : String) : Option Nat :=
  (Decimal.readInt? text).bind fun n => if 0 ≤ n ∧ n < 0x100000000 then some n.toNat else none

/-- A whole number of 64 bits, which takes no minus. -/
def readLarge (text : String) : Option Nat :=
  if text.startsWith "-" then none
  else
    (Decimal.readInt? text).bind fun n =>
      if 0 ≤ n ∧ n < 0x10000000000000000 then some n.toNat else none

/-- The options before the command. -/
def generalFlags : List Flag := [{ long := "config", short := some 'c' }]

/-- The options of `simulate`. -/
def simulateFlags : List Flag :=
  [{ long := "breaker", short := some 'b' }, { long := "calls" }, { long := "concurrency" },
    { long := "failure-rate" }, { long := "latency-ms" }]

/-- The options of a command, which are all of its words. -/
def onlyOptions (flags : List Flag) (words : List String) : Option Values :=
  match takeOptions flags words with
  | some (values, []) => some values
  | some (values, ["--"]) => some values
  | _ => none

/-- The workload that the options describe: at least one worker, and a failure
rate between zero and one. -/
def readSimulate (values : Values) : Option Command := do
  let calls ← valueOr values "calls" 200 readSmall
  let concurrency ← valueOr values "concurrency" 4 readSmall
  let failureRate ← valueOr values "failure-rate" (Binary64.ofRatio 6 10) Decimal.read?
  let latency ← valueOr values "latency-ms" 5 readLarge
  pure (.simulate ((values.lookup "breaker").getD "demo")
    { calls
      concurrency := max concurrency 1
      failureRate := Binary64.clamp .zero .one failureRate
      latency := latency * Clock.millisecond })

/-- The command line, unless it is not well formed. -/
def parse (words : List String) : Option Invocation := do
  let (values, rest) ← takeOptions generalFlags words
  let config := values.lookup "config"
  if config == some "" then none
  else
    match rest with
    | "check" :: rest =>
      let _ ← onlyOptions [] rest
      pure { config, command := .check }
    | "simulate" :: rest =>
      let command ← readSimulate (← onlyOptions simulateFlags rest)
      pure { config, command }
    | _ => none

/-- How the program ends. -/
structure Exit where
  code : Nat
  output : String := ""
  /-- The complaint, where its wording is this library's own. -/
  complaint : Option String := none

namespace Exit

/-- The words make no command line. -/
def misused : Exit := { code := 2 }

/-- A report was asked for and is there. -/
def printed (report : Json) : Exit := { code := 0, output := report.pretty 0 ++ "\n" }

/-- The settings will not do. -/
def failed (e : LoadError) : Exit :=
  { code := 1, complaint := e.technical.map fun s => "Error: " ++ s ++ "\n" }

/-- The library panicked. -/
def panicked : Exit := { code := 101 }

end Exit

/-- One breaker on a clock of its own, whose listener only returns. -/
def quietHost : Simulation.Host (Instant × Engine) :=
  { now := Prod.fst
    sleepUntil := fun wake (now, e) => (max now wake, e)
    send := fun move (now, e) =>
      match e.stepQuiet now move with
      | some r => ((now, r.engine), r.reply)
      | none => ((now, e), .panicked Clock.overflowText) }

/-- Runs a workload on the breaker of that name and reports on it. -/
def simulate (settings : Settings) (name : String) (w : Workload) (seed : Nat) : Exit :=
  match Panel.new settings with
  | .error faults => .failed (.faults faults)
  | .ok panel =>
    match panel.build 0 name with
    | .error (.faults faults) => .failed (.faults faults)
    | .error .overflow => .panicked
    | .ok engine =>
      let run := Simulation.run quietHost w seed (0, engine)
      match run.panicked with
      | some _ => { code := 1 }
      | none =>
        match (quietHost.send .query run.world).2 with
        | .view v => .printed (Report.simulation run.outcomes name v)
        | _ => .panicked

/-- What the program prints and how it ends; `content` is what the
configuration file holds, if one was named. -/
def Invocation.run (i : Invocation) (content : Option FileContent) (seed : Nat) : Exit :=
  match content.elim (.ok {}) Settings.load with
  | .error e => .failed e
  | .ok settings =>
    match i.command with
    | .check => .printed (Report.check settings)
    | .simulate name w => simulate settings name w seed

end Breaker.CommandLine
