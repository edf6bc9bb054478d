import SampleProfiler.Nanos

/-!
# `SampleProfiler.Sample` — one observation of an operation

A sample names an operation, says how long one call of it took and whether the call succeeded, and keeps
the moment at which it was taken. Samples are immutable: statistics are folds over lists of them.
-/

namespace SampleProfiler

/-- When a sample was taken: at a stated offset in nanoseconds from a common base, or at the `index`-th
    reading of the process clock. Distinct readings are distinct moments. -/
inductive Moment where
  | offset (nanoseconds : Nat)
  | reading (index : Nat)
deriving DecidableEq, Inhabited

/-- The stated offset, if there is one. -/
def Moment.offset? : Moment → Option Nat
  | .offset n => some n
  | .reading _ => none

/-- One observation of an operation's duration and outcome. -/
structure Sample where
  name : String
  duration : Nanos
  succeeded : Bool
  taken : Moment := .reading 0
deriving DecidableEq, Inhabited

/-- The sample of a call that took the span `took`. -/
def Sample.timed (name : String) (took : Span) (succeeded : Bool) (taken : Moment := .reading 0) : Sample :=
  ⟨name, .ofSpan took, succeeded, taken⟩

end SampleProfiler
