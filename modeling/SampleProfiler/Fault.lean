import SampleProfiler.Datum

/-!
# `SampleProfiler.Fault` — failures that a caller handles

A fault is the cause of a failed call, one constructor per cause; the wording is in one place per type. A
full buffer is no fault: recording answers with a truth value.

## Contents
- **`Defect`** — what is wrong with settings or with a load plan.
- **`FileFault`** — why a file could not be read as text.
- **`DocumentFault`** — why a text is no settings document; `Mismatch.inDocument`, the text of one cause.
- **`Fault`** — any of these, a profile that is not there, or producers that aborted; with its message, the
  chain of its causes, and the name of the missing profile.
-/

namespace SampleProfiler

/-- What is wrong with settings or with a load plan. -/
inductive Defect where
  | zeroCapacity
  | zeroBound
  | zeroThreads
  | zeroOperations
  | errorRate (rate : Float)
  | tooManySamples (threads samples : Nat)
  | stated (text : String)

/-- The text that a defect is reported with. -/
def Defect.message : Defect → String
  | zeroCapacity => "buffer_capacity must be > 0"
  | zeroBound => "max_profiles must be > 0"
  | zeroThreads => "threads must be > 0"
  | zeroOperations => "operations must be > 0"
  | errorRate rate => "error_rate must be in [0, 1], got " ++ Decimal.shortest rate
  | tooManySamples threads samples =>
    toString threads ++ " threads x " ++ toString samples ++ " samples overflows the sample counter"
  | stated text => text

/-- Why a file could not be read as text. -/
inductive FileFault where
  | notFound
  | notDirectory
  | isDirectory
  | nameTooLong
  | notPermitted
  | nulInPath
  | notText
  | stated (text : String)

/-- The text that the fault is reported with. -/
def FileFault.message : FileFault → String
  | notFound => "No such file or directory (os error 2)"
  | notDirectory => "Not a directory (os error 20)"
  | isDirectory => "Is a directory (os error 21)"
  | nameTooLong => "File name too long (os error 36)"
  | notPermitted => "Permission denied (os error 13)"
  | nulInPath => "file name contained an unexpected NUL byte"
  | notText => "stream did not contain valid UTF-8"
  | stated text => text

/-- The text of a mismatch in a settings document, where floating-point numbers are written in full. -/
def Mismatch.inDocument (m : Mismatch) : String :=
  m.message .positional

/-- Why a text is no settings document: it is no TOML, or a setting does not fit its type. -/
inductive DocumentFault where
  | malformed
  | field (mismatch : Mismatch)

/-- The text that the fault is reported with. -/
def DocumentFault.message : DocumentFault → String
  | malformed => "TOML parse error"
  | field mismatch => "TOML parse error: " ++ mismatch.inDocument

/-- Why a call failed. -/
inductive Fault where
  /-- No profile is tracked under this name. -/
  | profileNotFound (name : String)
  | invalid (defect : Defect)
  | document (cause : DocumentFault)
  | file (cause : FileFault)
  /-- Some producers of a load run aborted, and their samples are missing. -/
  | producersFailed (failed total : Nat)

namespace Fault

/-- The text that a fault is reported with. -/
def message : Fault → String
  | profileNotFound name => "Operation profile not found: " ++ name
  | invalid defect => "Invalid collector configuration: " ++ defect.message
  | document cause => "Failed to parse collector configuration: " ++ cause.message
  | file cause => "IO error: " ++ cause.message
  | producersFailed failed total =>
    toString failed ++ " of " ++ toString total ++ " producer threads panicked"

/-- The messages of a fault and of what caused it, outermost first. -/
def chain : Fault → List String
  | f@(document cause) => [f.message, cause.message]
  | f@(file cause) => [f.message, cause.message]
  | f => [f.message]

/-- The name of the profile that was not found. -/
def missingName? : Fault → Option String
  | profileNotFound name => some name
  | _ => none

/-- True if there are no data yet, rather than a failure. -/
def isNotFound (f : Fault) : Bool :=
  f.missingName?.isSome

end Fault

end SampleProfiler
