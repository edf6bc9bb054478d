import SampleProfiler.Fault

/-!
# `SampleProfiler.Load.Plan` — the shape of a generated load

A load is generated by a number of threads, each of which records the same number of samples under names
that all threads share. A plan says how many there are of everything; only a plan without defects is run.

## Contents
- **`Plan`**, its total number of samples, and `defect?`, the first thing wrong.
- **`Plan.checked`** — the plan, if nothing is wrong.
-/

namespace SampleProfiler.Load

/-- The shape of a generated load. -/
structure Plan where
  threads : Nat
  samples : Nat
  operations : Nat
  errorRate : Float
  capacity : Nat

namespace Plan

/-- One past the greatest number of samples that can be counted. -/
def sampleLimit : Nat := 18446744073709551616

/-- The samples that all threads record together, if they can be counted. -/
def total? (p : Plan) : Option Nat :=
  if p.threads * p.samples < sampleLimit then some (p.threads * p.samples) else none

/-- True for a rate that is a probability. NaN is none. -/
def isProbability (rate : Float) : Bool :=
  0.0 ≤ rate && rate ≤ 1.0

/-- The first thing that is wrong with a plan. -/
def defect? (p : Plan) : Option Defect :=
  if p.threads = 0 then some .zeroThreads
  else if p.operations = 0 then some .zeroOperations
  else if p.capacity = 0 then some .zeroCapacity
  else if !isProbability p.errorRate then some (.errorRate p.errorRate)
  else if p.total?.isNone then some (.tooManySamples p.threads p.samples)
  else none

/-- The plan, if nothing is wrong with it. -/
def checked (p : Plan) : Except Fault Plan :=
  match p.defect? with
  | some defect => .error (.invalid defect)
  | none => .ok p

end Plan

end SampleProfiler.Load
