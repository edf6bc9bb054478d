import SampleProfiler.Collector

/-!
# `SampleProfiler.Timer` — timing a stretch of code

A timer is started for an operation and records one sample when it completes: at the first call of
`complete`, or when it is dropped, whichever comes first. Code can also be measured as a whole; then the
sample is recorded when the code returns, and code that aborts leaves no sample. Whatever reads the clock
is given its reading from outside, as the time since the start.

## Contents
- **Timers.** `Timer`, `Timer.complete`, `Timer.step` for one `Timer.Act`, and `Timer.run`, a whole life of a
  timer.
- **Measuring.** `Body`, what measured code does, and `Buffer.measure`, with `Buffer.measureValue` for code that
  succeeds when it returns and `Buffer.measureOutcome` for code that may return an error.
-/

namespace SampleProfiler

/-! ## Timers -/

/-- A running or completed timer. -/
structure Timer where
  name : String
  succeeded : Bool := true
  completed : Bool := false
deriving DecidableEq, Inhabited

/-- The parts that a timed stretch of code works on: the timer, its buffer and the collector. -/
structure Stopwatch where
  timer : Timer
  buffer : Buffer
  collector : Collector

namespace Timer

/-- A step of the timed code; `took` is the time since the start. -/
inductive Act where
  /-- Marks the operation as failed. -/
  | markFailed
  /-- Completes the timer. -/
  | complete (took : Span)
  /-- Asks whether the timer is completed. -/
  | isCompleted
  /-- Reads the time since the start. -/
  | elapsed (took : Span)
  /-- Aborts the timed code. -/
  | abort (cause : Abort)

/-- The answer to a step. -/
inductive Answer where
  | none
  | truth (value : Bool)
  | reading (time : Span)
deriving DecidableEq

/-- Records the timer's sample, unless it was recorded before; says whether it was accepted now. -/
def complete (took : Span) (w : Stopwatch) : Bool × Stopwatch :=
  if w.timer.completed then (false, w)
  else
    let sample := Sample.timed w.timer.name took w.timer.succeeded
    let (accepted, buffer, collector) := w.buffer.recordInto sample w.collector
    (accepted, ⟨{ w.timer with completed := true }, buffer, collector⟩)

/-- Does a step: its answer, or the abort that ends the timed code. -/
def step (w : Stopwatch) : Act → Except Abort Answer × Stopwatch
  | .markFailed => (.ok .none, { w with timer := { w.timer with succeeded := false } })
  | .complete took =>
    let (accepted, w) := complete took w
    (.ok (.truth accepted), w)
  | .isCompleted => (.ok (.truth w.timer.completed), w)
  | .elapsed took => (.ok (.reading took), w)
  | .abort cause => (.error cause, w)

/-- Does the steps in order up to the first abort; gives the answers to the steps before it. -/
def steps (w : Stopwatch) : List Act → List Answer × Option Abort × Stopwatch
  | [] => ([], none, w)
  | act :: rest =>
    match step w act with
    | (.error cause, w) => ([], some cause, w)
    | (.ok answer, w) =>
      let (answers, cause, w) := steps w rest
      (answer :: answers, cause, w)

/-- A whole life of a timer: it is started, the steps are done, and it is dropped after the time `last`,
    also when a step aborts. -/
def run (name : String) (acts : List Act) (last : Span) (b : Buffer) (c : Collector) :
    List Answer × Option Abort × Buffer × Collector :=
  let (answers, cause, w) := steps ⟨{ name := name }, b, c⟩ acts
  let (_, w) := complete last w
  (answers, cause, w.buffer, w.collector)

end Timer

/-! ## Measuring -/

/-- What measured code does: it returns a value, or aborts. -/
inductive Body (α : Type) where
  | returns (value : α)
  | aborts (cause : Abort)

/-- Measures code and records one sample if it returns; `succeeded` reads its outcome off the value. -/
def Buffer.measure {α : Type} (b : Buffer) (name : String) (took : Span) (succeeded : α → Bool)
    (body : Body α) (c : Collector) : Except Abort α × Buffer × Collector :=
  match body with
  | .aborts cause => (.error cause, b, c)
  | .returns value =>
    let (_, b, c) := b.recordInto (Sample.timed name took (succeeded value)) c
    (.ok value, b, c)

theorem Buffer.measure_returns {α : Type} (b : Buffer) (name : String) (took : Span) (succeeded : α → Bool) (value : α)
    (c : Collector) :
    b.measure name took succeeded (.returns value) c
      = (.ok value, (b.recordInto (.timed name took (succeeded value)) c).2) :=
  rfl

theorem Buffer.measure_aborts {α : Type} (b : Buffer) (name : String) (took : Span) (succeeded : α → Bool)
    (cause : Abort) (c : Collector) : b.measure name took succeeded (.aborts cause) c = (.error cause, b, c) :=
  rfl

/-- Measures code that succeeded if it returns. -/
def Buffer.measureValue {α : Type} (b : Buffer) (name : String) (took : Span) (body : Body α) (c : Collector) :
    Except Abort α × Buffer × Collector :=
  b.measure name took (fun _ => true) body c

/-- Measures code that succeeded if it returns a value, and failed if it returns an error. -/
def Buffer.measureOutcome {ε α : Type} (b : Buffer) (name : String) (took : Span) (body : Body (Except ε α))
    (c : Collector) : Except Abort (Except ε α) × Buffer × Collector :=
  b.measure name took Except.toBool body c

end SampleProfiler
