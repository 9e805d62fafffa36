import Breaker.CommandLine

/-!
# The program

Reads the configuration file that the command line names, and prints what
`CommandLine.Invocation.run` says.
-/

open Breaker

/-- Why the system did not hand over a file.  Its numbers come with either
sign. -/
def fileError : IO.Error → FileError
  | .noFileOrDirectory _ code _ | .permissionDenied _ code _ | .inappropriateType _ code _
  | .invalidArgument _ code _ =>
    (FileError.ofCode? code.toInt32.toInt.natAbs).getD .missing
  | _ => .missing

/-- What the file of that path holds. -/
def readFile (path : String) : IO FileContent := do
  try
    return .ok (← IO.FS.readBinFile path)
  catch e =>
    return .error (fileError e)

/-- The command line. -/
def main (args : List String) : IO UInt32 := do
  match CommandLine.parse args with
  | none =>
    IO.eprintln "usage: [-c FILE] check"
    IO.eprintln "       [-c FILE] simulate [-b NAME] [--calls N] [--concurrency N]"
    IO.eprintln "                          [--failure-rate RATE] [--latency-ms N]"
    return CommandLine.Exit.misused.code.toUInt32
  | some invocation =>
    let content ← invocation.config.mapM readFile
    let exit := invocation.run content (← IO.rand 0 (Nat.pow 2 62))
    IO.print exit.output
    exit.complaint.forM IO.eprint
    return exit.code.toUInt32
