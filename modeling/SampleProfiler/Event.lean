/-!
# `SampleProfiler.Event` — what is logged

Registries, buffers and load runs log what they do as events. An event has a level, a message and some
fields; a log is the events in the order in which they happened.

## Contents
- **`Level`** and **`Event`**, with `Event.level`, `Event.message`, `Event.fields` and
  `Event.line`.
- **`Log`** — a sequence of events.
-/

namespace SampleProfiler

/-- How urgent an event is, from least to most. -/
inductive Level where
  | trace
  | debug
  | warn
  | error
deriving DecidableEq

/-- The name of a level. -/
def Level.name : Level → String
  | trace => "TRACE"
  | debug => "DEBUG"
  | warn => "WARN"
  | error => "ERROR"

/-- Something that happened. -/
inductive Event where
  /-- A registry received a batch that was not empty. -/
  | received (samples : Nat)
  /-- A registry made room for a new profile by dropping the least recently used one. -/
  | evicted (name incoming : String)
  /-- A registry dropped all profiles and counters. -/
  | cleared
  /-- A buffer handed its samples on. -/
  | flushed (samples : Nat)
  /-- A buffer ended with samples in it and nobody to hand them to. -/
  | discarded (samples : Nat)
  /-- A load run ended with another number of samples than planned. -/
  | unplanned (planned : Option Nat) (received : Nat)
  /-- Some producers of a load run aborted. -/
  | producersFailed (failed total : Nat)
deriving DecidableEq

/-- The value of an event's field. -/
inductive FieldValue where
  | number (value : Nat)
  | text (value : String)
deriving DecidableEq

namespace Event

/-- How urgent the event is. -/
def level : Event → Level
  | received _ => .trace
  | evicted .. => .debug
  | cleared => .debug
  | flushed _ => .trace
  | discarded _ => .debug
  | unplanned .. => .warn
  | producersFailed .. => .error

/-- What the event says. -/
def message : Event → String
  | received _ => "received batch"
  | evicted .. => "evicted least recently used profile"
  | cleared => "aggregator cleared"
  | flushed _ => "flushed sample buffer"
  | discarded _ => "sample buffer dropped without an aggregator"
  | unplanned .. => "aggregator sample count differs from plan"
  | producersFailed .. => "producer threads panicked"

/-- The fields of the event by name. -/
def fields : Event → List (String × FieldValue)
  | received samples => [("samples", .number samples)]
  | evicted name incoming => [("evicted", .text name), ("incoming", .text incoming)]
  | cleared => []
  | flushed samples => [("flushed", .number samples)]
  | discarded samples => [("discarded", .number samples)]
  | unplanned planned count =>
    let shown :=
      match planned with
      | some n => "Some(" ++ toString n ++ ")"
      | none => "None"
    [("expected", .text shown), ("received", .number count)]
  | producersFailed failed total => [("failed", .number failed), ("total", .number total)]

/-- The event on one line: its level, what it says, and its fields. -/
def line (e : Event) : String :=
  let shown := fun (name, value) =>
    match value with
    | FieldValue.number n => " " ++ name ++ "=" ++ toString n
    | FieldValue.text s => " " ++ name ++ "=" ++ s
  e.level.name ++ " " ++ e.message ++ String.join (e.fields.map shown)

end Event

/-- Events in the order in which they happened. -/
abbrev Log := Array Event

end SampleProfiler
