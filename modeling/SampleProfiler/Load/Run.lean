import SampleProfiler.Collector
import SampleProfiler.Load.Plan
import SampleProfiler.Load.Report

/-!
# `SampleProfiler.Load.Run` — running a load plan

Every thread of a plan is a producer with a buffer of its own, which records its samples, flushing whenever
the buffer is full and once at the end. Durations and outcomes of the samples are drawn from outside.
In `run` the producers work one after the other; what a run reports does not hang on that.

## Contents
- **Samples.** `Draw`, `Draws`, `operation` (the shared names) and `Plan.samplesOf`.
- **Producers.** `produce`, one thread, and `produceAll`, all of them with those that aborted counted.
- **The run.** `runWith`, with producers that work in whatever way: it checks the plan, lets them work and makes the
  report. `run` is the one with `Producers.inTurn`.
-/

namespace SampleProfiler.Load

/-! ## Samples -/

/-- How long a generated call took, and whether it failed. -/
structure Draw where
  duration : Nanos
  failed : Bool
deriving Inhabited

/-- The draw for every sample of every thread. -/
abbrev Draws := Nat → Nat → Draw

/-- The name of the `i`-th operation. -/
def operation (i : Nat) : String :=
  "op_" ++ toString i

/-- The samples of one thread. The threads go through the operations in turn, each from another start. -/
def Plan.samplesOf (p : Plan) (draws : Draws) (thread : Nat) : List Sample :=
  (List.range p.samples).map fun i =>
    { name := operation ((thread + i) % p.operations)
      duration := (draws thread i).duration
      succeeded := !(draws thread i).failed }

/-! ## Producers -/

/-- One producer; gives the number of its flushes that a full buffer forced. -/
def produce (p : Plan) (draws : Draws) (h : Handle) (thread : Nat) (c : Collector) :
    Except Abort Nat × Collector :=
  match Buffer.make p.capacity (some h) with
  | .error cause => (.error cause, c)
  | .ok b =>
    let (_, b, c) := b.recordAllInto c (p.samplesOf draws thread)
    let (_, b, c) := b.flushInto c
    (.ok b.forced, b.dropInto c)

/-- The producers of the given threads; adds up the forced flushes of those that ended well, and counts
    those that aborted. -/
def produceAll (p : Plan) (draws : Draws) (h : Handle) (c : Collector) (threads : List Nat) :
    Nat × Nat × Collector :=
  threads.foldl
    (fun (forced, aborted, c) thread =>
      match produce p draws h thread c with
      | (.ok n, c) => (forced + n, aborted, c)
      | (.error _, c) => (forced, aborted + 1, c))
    (0, 0, c)

/-! ## The run -/

/-- What the producers of a plan do to the registries: the forced flushes of those that ended well, and the number of
    those that aborted. -/
abbrev Producers := Plan → Collector → Nat × Nat × Collector

/-- Runs a plan against a registry and reports what the registry ends up with. The log gets the events of
    the calling thread only. -/
def runWith (produced : Producers) (p : Plan) (elapsed : Span) (h : Handle) (c : Collector) :
    Except Fault Report × Collector :=
  match p.checked with
  | .error fault => (.error fault, c)
  | .ok p =>
    let (forced, aborted, after) := produced p c
    let c := { after with log := c.log }
    if 0 < aborted then
      (.error (.producersFailed aborted p.threads), c.note (.producersFailed aborted p.threads))
    else
      let r := (c.registry? h).getD (.empty 0)
      let c := if p.total? = some r.samples then c else c.note (.unplanned p.total? r.samples)
      (.ok { elapsed := elapsed, totals := r.totals, forced := forced, profiles := ranked r.profiles }, c)

variable {produced : Producers} {p q : Plan} {c after : Collector}

/-- A plan that does not pass the check is not run. -/
theorem runWith_of_refused {fault : Fault} (hchecked : p.checked = .error fault) (elapsed : Span) (h : Handle) :
    runWith produced p elapsed h c = (.error fault, c) := by
  rw [runWith, hchecked]

/-- What a run reports once the producers are done. It leaves the registries as they left them. -/
theorem runWith_of_checked {forced aborted : Nat} (hchecked : p.checked = .ok q)
    (hproduced : produced q c = (forced, aborted, after)) (elapsed : Span) (h : Handle) :
    (runWith produced p elapsed h c).1
      = (if 0 < aborted then .error (.producersFailed aborted q.threads)
        else
          let r := (after.registry? h).getD (.empty 0)
          .ok { elapsed := elapsed, totals := r.totals, forced := forced, profiles := ranked r.profiles }) ∧
    (runWith produced p elapsed h c).2.registries = after.registries := by
  rw [runWith, hchecked]
  dsimp only
  rw [hproduced]
  by_cases haborted : 0 < aborted
  · rw [if_pos haborted, if_pos haborted]
    exact ⟨rfl, rfl⟩
  · rw [if_neg haborted, if_neg haborted]
    refine ⟨rfl, ?_⟩
    -- a warning is logged or not
    split <;> rfl

/-- Producers that work one after the other. -/
def Producers.inTurn (draws : Draws) (h : Handle) : Producers := fun p c =>
  produceAll p draws h c (List.range p.threads)

/-- Runs a plan whose producers work one after the other. -/
def run (p : Plan) (draws : Draws) (elapsed : Span) (h : Handle) (c : Collector) :
    Except Fault Report × Collector :=
  runWith (.inTurn draws h) p elapsed h c

end SampleProfiler.Load
