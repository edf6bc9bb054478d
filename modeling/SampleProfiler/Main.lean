import SampleProfiler.CommandLine.Program
import SampleProfiler.Load.Chance

/-!
# `SampleProfiler.Main` — the program at the command line

Reads the settings file, the clock and a seed, and prints what `CommandLine.execute` would.
-/

namespace SampleProfiler.Main

open CommandLine

/-- The number of a system error, which some calls report as its complement. -/
def systemCode (code : UInt32) : UInt32 :=
  if code < 2147483648 then code else 0 - code

/-- The fault that stands for an error of the file system. -/
def fileFault (e : IO.Error) : FileFault :=
  match e with
  | .noFileOrDirectory .. => .notFound
  | .permissionDenied .. => .notPermitted
  | .inappropriateType _ code _ => if systemCode code = 20 then .notDirectory else .isDirectory
  | .invalidArgument _ code _ => if systemCode code = 36 then .nameTooLong else .stated (toString e)
  | e => .stated (toString e)

/-- The text of the file at a path. -/
def readText (path : String) : IO (Except FileFault String) := do
  try
    let bytes ← IO.FS.readBinFile path
    pure (decode bytes)
  catch e =>
    pure (.error (fileFault e))

/-- Prints an outcome and gives its exit code. -/
def conclude (outcome : Outcome) : IO UInt32 := do
  (← IO.getStderr).putStr outcome.journal
  (← IO.getStdout).putStr outcome.output
  (← IO.getStderr).putStr outcome.errors
  pure outcome.code.toUInt32

end SampleProfiler.Main

open SampleProfiler SampleProfiler.CommandLine SampleProfiler.Main in
/-- Runs the program on its command line. -/
def main (words : List String) : IO UInt32 := do
  match start words with
  | .error outcome => conclude outcome
  | .ok o =>
    let file ←
      match o.config with
      | some path => readText path
      | none => pure (.error .notFound)
    let seed ← IO.rand 0 4611686018427387904
    let draws := Load.drawsFrom seed.toUInt64 o.errorRate
    let before ← IO.monoNanosNow
    let (result, log) ← IO.lazyPure fun _ => o.run (fun _ => file) draws ⟨0, 0⟩
    let after ← IO.monoNanosNow
    let elapsed := Span.ofNanoseconds (after - before)
    conclude (finish o (result.map fun report => { report with elapsed := elapsed }, log))
