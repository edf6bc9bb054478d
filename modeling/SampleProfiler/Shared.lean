import SampleProfiler.Lru
import SampleProfiler.Profile

/-!
# `SampleProfiler.Shared` — one registry under many threads

Threads that work on one registry at the same time take turns in small steps. A step is atomic, and any
thread that can go on may take the next one, so a list of thread numbers, a schedule, determines a run.

The map of names is guarded by sections. In a shared section a thread looks a name up, draws a stamp for the
entry it found, and stores the stamp; several threads may be in shared sections at a time. An exclusive
section inserts and evicts, or clears; it starts only while no shared section is open. A profile lives in a
cell of its own and the map holds the number of the cell, so a thread that found a cell merges into it even
if the map has dropped the cell meanwhile.

## Contents
- **Pools.** `Pool`, the map with the cells and counters; `Pool.acquire`, `Pool.merge` and `Pool.clear`.
- **Threads.** `Request`, `Phase`, `Thread`, and `Thread.step`, the next step of a thread.
- **Runs.** `Shared`, `Shared.advance`, `Shared.run` along a schedule, and `Shared.Reachable`.
-/

namespace SampleProfiler

/-! ## Pools -/

/-- A map from names to cells, all cells that were ever made, and the counters. -/
structure Pool where
  tracked : Lru Nat
  cells : List Profile := []
  samples : Nat := 0
  batches : Nat := 0
  evictions : Nat := 0

namespace Pool

/-- Finds the cell of a name again, or makes one after room was made for it. -/
def acquire (p : Pool) (name : String) : Nat × Pool :=
  let fresh := p.cells.length
  let (evicted, tracked) := p.tracked.visit name fresh
  match p.tracked.find? name with
  | some cell => (cell, { p with tracked := tracked })
  | none =>
    (fresh,
      { p with
        tracked := tracked
        cells := p.cells ++ [.empty name]
        evictions := if evicted.isSome then p.evictions + 1 else p.evictions })

/-- Merges a sample into a cell. -/
def merge (p : Pool) (cell : Nat) (s : Sample) : Pool :=
  { p with cells := p.cells.modify cell fun profile => profile.merge s }

/-- Forgets all names and sets the counters to zero. The cells stay with the threads that hold them. -/
def clear (p : Pool) : Pool :=
  { p with tracked := p.tracked.clear, samples := 0, batches := 0, evictions := 0 }

end Pool

/-! ## Threads -/

/-- What a thread asks of the registry. -/
inductive Request where
  | batch (samples : List Sample)
  | clear
  | read (name : String)
  | readAll

/-- Where a thread stands. -/
inductive Phase where
  /-- Between two requests. -/
  | idle
  /-- The batch is counted, and its samples are not. -/
  | counted (batch : List Sample)
  /-- About to look up the name of the first sample. -/
  | seeking (samples : List Sample)
  /-- In a shared section: found a cell and drew a stamp that is not stored yet. -/
  | stamping (cell stamp : Nat) (sample : Sample) (rest : List Sample)
  /-- Found no cell, and needs an exclusive section. -/
  | missing (sample : Sample) (rest : List Sample)
  /-- Has a cell, and is about to merge the sample into it. -/
  | merging (cell : Nat) (sample : Sample) (rest : List Sample)
  /-- Has the cells that are still to be read. -/
  | reading (cells : List Nat)

/-- A thread with the requests it is still to make and the profiles it read. -/
structure Thread where
  requests : List Request
  phase : Phase := .idle
  seen : List Profile := []

namespace Thread

/-- True while the thread is in a shared section. -/
def isSharing (t : Thread) : Bool :=
  match t.phase with
  | .stamping .. => true
  | _ => false

/-- True when nothing is left to do. -/
def isFinished (t : Thread) : Bool :=
  match t.phase with
  | .idle => t.requests.isEmpty
  | _ => false

/-- Starts a request. -/
def begin (t : Thread) (quiet : Bool) (p : Pool) (rest : List Request) : Request → Option (Thread × Pool)
  | .batch [] => some ({ t with requests := rest }, p)
  | .batch samples =>
    some ({ t with requests := rest, phase := .counted samples }, { p with batches := p.batches + 1 })
  | .clear => if quiet then some ({ t with requests := rest }, p.clear) else none
  | .read name =>
    some ({ t with requests := rest, phase := .reading (p.tracked.find? name).toList }, p)
  | .readAll => some ({ t with requests := rest, phase := .reading p.tracked.contents }, p)

/-- The next step of a thread, if it can take one; `quiet` says that no shared section is open. -/
def step (t : Thread) (quiet : Bool) (p : Pool) : Option (Thread × Pool) :=
  match t.phase with
  | .idle =>
    match t.requests with
    | [] => none
    | request :: rest => t.begin quiet p rest request
  | .counted batch => some ({ t with phase := .seeking batch }, { p with samples := p.samples + batch.length })
  | .seeking [] => some ({ t with phase := .idle }, p)
  | .seeking (s :: rest) =>
    match p.tracked.find? s.name with
    | none => some ({ t with phase := .missing s rest }, p)
    | some cell =>
      let (stamp, tracked) := p.tracked.draw
      some ({ t with phase := .stamping cell stamp s rest }, { p with tracked := tracked })
  | .stamping cell stamp s rest =>
    some ({ t with phase := .merging cell s rest }, { p with tracked := p.tracked.mark s.name stamp })
  | .missing s rest =>
    if quiet then
      let (cell, p) := p.acquire s.name
      some ({ t with phase := .merging cell s rest }, p)
    else none
  | .merging cell s rest => some ({ t with phase := .seeking rest }, p.merge cell s)
  | .reading [] => some ({ t with phase := .idle }, p)
  | .reading (cell :: rest) =>
    some ({ t with phase := .reading rest, seen := t.seen ++ p.cells[cell]?.toList }, p)

end Thread

/-! ## Runs -/

/-- A pool with the threads that work on it. -/
structure Shared where
  pool : Pool
  threads : List Thread

namespace Shared

/-- Threads before their first step, on a pool that is empty. -/
def start (bound : Nat) (requests : List (List Request)) : Shared :=
  { pool := { tracked := .empty bound }, threads := requests.map fun r => { requests := r } }

/-- True if no shared section is open. -/
def isQuiet (s : Shared) : Bool :=
  s.threads.all fun t => !t.isSharing

/-- True when all threads are finished. -/
def isFinished (s : Shared) : Bool :=
  s.threads.all Thread.isFinished

/-- The `i`-th thread takes its next step, if it can. -/
def advance (s : Shared) (i : Nat) : Option Shared :=
  (s.threads[i]?).bind fun t =>
    (t.step s.isQuiet s.pool).map fun (t, pool) => { pool := pool, threads := s.threads.set i t }

/-- The threads take steps in the order of a schedule. -/
def run (s : Shared) (schedule : List Nat) : Option Shared :=
  schedule.foldlM advance s

/-- The states that some schedule leads to. -/
inductive Reachable (first : Shared) : Shared → Prop where
  | refl : Reachable first first
  | step {s t : Shared} {i : Nat} : Reachable first s → s.advance i = some t → Reachable first t

end Shared

end SampleProfiler
