import SampleProfiler.Event
import SampleProfiler.Fault
import SampleProfiler.Lru
import SampleProfiler.Profile
import SampleProfiler.Settings
import SampleProfiler.Text.Labelled

/-!
# `SampleProfiler.Registry` — profiles by operation name

A registry receives batches of samples and keeps one profile per operation name, for a bounded number of
names. Taking a sample uses its name, so a new name may evict the profile of the least recently used one;
if that name comes back, its profile starts anew. Reading profiles is not a use.

Counters are natural numbers here, in a registry and in its profiles. They count the samples, batches and evictions of
a run, so 64-bit counters show the same as long as a run has fewer than `2^64` of each.

## Contents
- **The registry.** `Registry`, `Registry.empty`, the checked constructor `Registry.ofSettings`, and the reads
  `contains`, `profile`, `profiles`, `names` and `listing`.
- **Receiving.** `take`, for one sample, and `receive`, for a batch; both log what happens.
- **Counters.** `Totals`, `Registry.totals` and `Registry.clear`.
-/

namespace SampleProfiler

/-! ## The registry -/

/-- Tracked profiles, and counters that cover the time since the registry was made or cleared. -/
structure Registry where
  tracked : Lru Profile
  samples : Nat
  batches : Nat
  evictions : Nat
deriving DecidableEq, Inhabited

namespace Registry

/-- A registry that tracks nothing yet. -/
def empty (bound : Nat) : Registry :=
  { tracked := .empty bound, samples := 0, batches := 0, evictions := 0 }

/-- A registry with the bound that settings state, if nothing is wrong with these. -/
def ofSettings (s : Settings) : Except Fault Registry :=
  s.checked.map fun s => empty s.bound

/-- The greatest number of profiles that are tracked at a time. -/
def bound (r : Registry) : Nat :=
  r.tracked.bound

/-- True if a profile is tracked under the name. -/
def contains (r : Registry) (name : String) : Bool :=
  r.tracked.contains name

/-- The profile that is tracked under a name. -/
def profile (r : Registry) (name : String) : Except Fault Profile :=
  match r.tracked.find? name with
  | some p => .ok p
  | none => .error (.profileNotFound name)

/-- The tracked profiles in no particular order. -/
def profiles (r : Registry) : List Profile :=
  r.tracked.contents

/-- The tracked names in increasing order. -/
def names (r : Registry) : List String :=
  r.tracked.names.mergeSort fun a b => !decide (b < a)

/-- The tracked names and their profiles, by increasing name. -/
def listing (r : Registry) : List (String × Profile) :=
  (r.tracked.entries.map fun e => (e.name, e.content)).mergeSort fun a b => !decide (b.1 < a.1)

/-! ## Receiving -/

/-- Takes one sample: its name is used, then the sample is merged into the profile of that name. -/
def take (r : Registry) (s : Sample) : Registry × Log :=
  let (evicted, tracked) := r.tracked.visit s.name (.empty s.name)
  let r := { r with tracked := tracked.update s.name fun p => p.merge s }
  match evicted with
  | none => (r, #[])
  | some name => ({ r with evictions := r.evictions + 1 }, #[.evicted name s.name])

/-- Takes samples in order, on top of what was logged so far. -/
def takeAll (r : Registry) (log : Log) : List Sample → Registry × Log
  | [] => (r, log)
  | s :: rest =>
    let (r, more) := r.take s
    takeAll r (log ++ more) rest

/-- Counts a batch before its first sample is taken. -/
def countBatch (r : Registry) (count : Nat) : Registry :=
  { r with batches := r.batches + 1, samples := r.samples + count }

/-- Receives a batch. An empty batch is ignored and does not count. -/
def receive (r : Registry) (batch : List Sample) : Registry × Log :=
  if batch.isEmpty then (r, #[])
  else (r.countBatch batch.length).takeAll #[.received batch.length] batch

/-- Drops all profiles and sets the counters to zero. -/
def clear (r : Registry) : Registry × Log :=
  ({ tracked := r.tracked.clear, samples := 0, batches := 0, evictions := 0 }, #[.cleared])

end Registry

/-! ## Counters -/

/-- What a registry counts. -/
structure Totals where
  operations : Nat
  samples : Nat
  batches : Nat
  evictions : Nat
deriving DecidableEq, Inhabited

namespace Totals

/-- The counters of a registry that has seen nothing. -/
def zero : Totals := ⟨0, 0, 0, 0⟩

/-- The mean number of samples per batch; zero before the first batch. -/
def meanBatch (t : Totals) : Float :=
  if t.batches == 0 then 0.0 else Ratio.quotient t.samples t.batches

/-- The counters shown by their fields. -/
def described (t : Totals) : String :=
  Text.labelled "AggregatorStats"
    [("operation_count", toString t.operations), ("total_samples", toString t.samples),
      ("batches_received", toString t.batches), ("lru_evictions", toString t.evictions)]

end Totals

namespace Registry

/-- The counters of a registry. -/
def totals (r : Registry) : Totals :=
  ⟨r.tracked.size, r.samples, r.batches, r.evictions⟩

/-- A registry shown by its bound and its counters. -/
def described (r : Registry) : String :=
  Text.labelled "CentralAggregator" [("max_profiles", toString r.bound), ("stats", r.totals.described)]

end Registry

end SampleProfiler
