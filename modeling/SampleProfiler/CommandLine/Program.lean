import SampleProfiler.CommandLine.Files
import SampleProfiler.CommandLine.Reader
import SampleProfiler.Load.Run

/-!
# `SampleProfiler.CommandLine.Program` — what a command line does

The program reads its command line, settles its settings in three layers, runs a generated load against a
new registry, and prints the report. The file system, the draws of the load and the clock are given from
outside, so that everything here is a function.

## Contents
- **`Failure`** — a fault with what was being done, its one-line `summary` and its full `report`.
- **`resolve`** — the settings: defaults, then those of the settings file, then those of the command line.
- **`Outcome`** and **`execute`** — the whole program.
-/

namespace SampleProfiler.CommandLine

/-! ## Failures -/

/-- A fault, and what was being done when it arose, if that is to be reported. -/
structure Failure where
  context : Option String
  cause : Fault

namespace Failure

/-- The messages of a failure, outermost first. -/
def messages (f : Failure) : List String :=
  f.context.toList ++ f.cause.chain

/-- The messages of a failure on one line. -/
def summary (f : Failure) : String :=
  ": ".intercalate f.messages

/-- A message with every line after its first indented. -/
def indented (margin : Nat) (text : String) : String :=
  ("\n" ++ String.ofList (List.replicate margin ' ')).intercalate (text.splitOn "\n")

/-- The causes as a list below the failure; they are numbered if there are several. -/
def causes : List String → List String
  | [] => []
  | [cause] => ["    " ++ indented 4 cause]
  | several =>
    several.zipIdx.map fun (cause, i) =>
      let number := toString i
      String.ofList (List.replicate (5 - number.length) ' ') ++ number ++ ": " ++ indented 7 cause

/-- The failure as the program reports it before it ends. -/
def report (f : Failure) : String :=
  match f.messages with
  | [] => ""
  | [message] => "Error: " ++ message ++ "\n"
  | message :: reasons => "\n".intercalate (["Error: " ++ message, "", "Caused by:"] ++ causes reasons) ++ "\n"

end Failure

/-! ## Settings -/

/-- Reads and checks the settings file at a path. -/
def load (read : String → Except FileFault String) (path : String) : Except Fault Settings :=
  match read path with
  | .error fault => .error (.file fault)
  | .ok text => Settings.ofDocument text

/-- The settings of a run: the defaults, replaced by those of the settings file, replaced by those of the
    command line. The file has to be good by itself, and so does the outcome. -/
def resolve (read : String → Except FileFault String) (o : Options) : Except Failure Settings :=
  let base : Except Failure Settings :=
    match o.config with
    | none => .ok {}
    | some path =>
      match load read path with
      | .ok s => .ok s
      | .error fault => .error ⟨some ("Failed to load config from " ++ path), fault⟩
  match base with
  | .error failure => .error failure
  | .ok s =>
    match (o.overrides.over s).checked with
    | .ok s => .ok s
    | .error fault => .error ⟨some "Invalid collector configuration", fault⟩

/-! ## The program -/

/-- How the program ends: its exit code, what it prints, and what goes to the error stream, first the
    journal of what was logged, then the reason why there is no output. -/
structure Outcome where
  code : Nat
  output : String := ""
  journal : String := ""
  errors : String := ""

/-- The plan that a command line asks for under given settings. -/
def Options.plan (o : Options) (s : Settings) : Load.Plan :=
  { threads := o.threads, samples := o.samples, operations := o.operations, errorRate := o.errorRate,
    capacity := s.capacity }

/-- Runs the load of a command line against a new registry. -/
def Options.run (o : Options) (read : String → Except FileFault String) (draws : Load.Draws)
    (elapsed : Span) : Except Failure Load.Report × Log :=
  match resolve read o with
  | .error failure => (.error failure, #[])
  | .ok s =>
    match Registry.ofSettings s with
    | .error fault => (.error ⟨none, fault⟩, #[])
    | .ok r =>
      let (h, c) := ({} : Collector).add r
      match Load.run (o.plan s) draws elapsed h c with
      | (.ok report, c) => (.ok report, c.log)
      | (.error fault, c) => (.error ⟨some "Stress run failed", fault⟩, c.log)

/-- The journal of a run: errors always, and everything else on demand. -/
def Options.journal (o : Options) (log : Log) : String :=
  let shown := log.toList.filter fun e => o.debug || e.level == .error
  String.join (shown.map fun e => e.line ++ "\n")

/-- What a command line leads to: a load that is yet to be run, or an ending without one. -/
def start (words : List String) : Except Outcome Options :=
  match Options.ofWords words with
  | .ok o => .ok o
  | .error .helpWanted => .error { code := 0, output := help }
  | .error .versionWanted => .error { code := 0, output := version }
  | .error fault => .error { code := 2, errors := fault.message .stream ++ "\n" }

/-- Prints the report, or says why there is none. -/
def finish (o : Options) : Except Failure Load.Report × Log → Outcome
  | (.ok report, log) => { code := 0, output := report.render o.top, journal := o.journal log }
  | (.error failure, log) => { code := 1, journal := o.journal log, errors := failure.report }

/-- The whole program. -/
def execute (words : List String) (read : String → Except FileFault String) (draws : Load.Draws)
    (elapsed : Span) : Outcome :=
  match start words with
  | .error outcome => outcome
  | .ok o => finish o (o.run read draws elapsed)

end SampleProfiler.CommandLine
