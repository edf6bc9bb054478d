import SampleProfiler.Abort
import SampleProfiler.Ratio
import SampleProfiler.Sample

/-!
# `SampleProfiler.Profile` — statistics of one operation

A profile holds what is known about the calls of one operation: how many there were, how many of them
failed, and the total, least, greatest and mean duration. It is built from the empty profile by recording
one sample after another.

## Contents
- **Recording.** `Profile.empty`, `Profile.record`, and `Profile.ofSamples`, the fold of all samples.
- **Rates.** `errorRate` and `successRate` in percent.
- **Durations as spans.** `fastest?`, `slowest`, `average` and `overall`; negative ones count as none.
-/

namespace SampleProfiler

/-- Statistics of one operation. -/
structure Profile where
  name : String
  calls : Nat
  errors : Nat
  total : Nanos
  least : Nanos
  greatest : Nanos
  mean : Nanos
deriving DecidableEq, Inhabited

namespace Profile

/-! ## Recording -/

/-- The profile of an operation that was never called. The least duration starts at the top of the range,
    so that the first sample replaces it; the greatest starts at zero. -/
def empty (name : String) : Profile :=
  { name := name, calls := 0, errors := 0, total := .zero, least := .greatest, greatest := .zero,
    mean := .zero }

/-- Merges one observation. The mean is the total's share per call, recomputed every time. -/
def record (p : Profile) (duration : Nanos) (succeeded : Bool) : Profile :=
  let calls := p.calls + 1
  let total := p.total + duration
  { name := p.name
    calls := calls
    errors := if succeeded then p.errors else p.errors + 1
    total := total
    least := min p.least duration
    greatest := max p.greatest duration
    mean := total.share calls }

/-- Merges a sample, whatever its name. -/
def merge (p : Profile) (s : Sample) : Profile :=
  p.record s.duration s.succeeded

/-- The profile of an operation after the given samples. -/
def ofSamples (name : String) (samples : List Sample) : Profile :=
  samples.foldl merge (empty name)

/-- True if nothing was recorded. -/
def isEmpty (p : Profile) : Bool :=
  p.calls == 0

@[simp] theorem name_record (p : Profile) (d : Nanos) (ok : Bool) : (p.record d ok).name = p.name := rfl

@[simp] theorem calls_record (p : Profile) (d : Nanos) (ok : Bool) :
    (p.record d ok).calls = p.calls + 1 := rfl

/-! ## Rates -/

/-- The failed calls in percent; zero before the first call. -/
def errorRate (p : Profile) : Float :=
  if p.isEmpty then 0.0 else Ratio.percent p.errors p.calls

/-- The successful calls in percent; all of them before the first call. A profile that was read from
    outside can claim more failures than calls, which have no difference. -/
def successRate (p : Profile) : Except Abort Float :=
  if p.isEmpty then .ok 100.0
  else if p.calls < p.errors then .error .countUnderflow
  else .ok (Ratio.percent (p.calls - p.errors) p.calls)

/-! ## Durations as spans -/

/-- The shortest call, if there was any. -/
def fastest? (p : Profile) : Option Span :=
  if p.isEmpty then none else some p.least.toSpan

/-- The longest call. -/
def slowest (p : Profile) : Span :=
  p.greatest.toSpan

/-- The mean call. -/
def average (p : Profile) : Span :=
  p.mean.toSpan

/-- All calls together. -/
def overall (p : Profile) : Span :=
  p.total.toSpan

end Profile

end SampleProfiler
