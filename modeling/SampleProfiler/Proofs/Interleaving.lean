import Mathlib.Data.List.Perm.Basic
import SampleProfiler.Proofs.Lru
import SampleProfiler.Shared

/-!
# `SampleProfiler.Proofs.Interleaving` — what happens in a run of many threads

A run of a shared registry is a sequence of small steps, in any order that the threads can take. This module
says once what a step can do (`Thread.Moves`, one constructor for each kind) and keeps a chronicle of a run:
the batches that were begun, the stamps that were drawn, the cells that were made, the samples that were
merged into them, and the clears. Invariants of all runs are proved by induction on `Shared.History`, with a
case for each kind of step, and read the past off the chronicle.

## Contents
- **Occurrences.** `Occurrence`, `Chronicle`, and what can be read off a chronicle.
- **Steps.** `Thread.Moves`, which is `Thread.step` with the occurrence of the step.
- **Runs.** `Shared.History`, and `reachable_iff_exists_history`; `Shared.chronicle`, of a schedule.
- **Samples in flight.** What a thread is still to do, and the account of the samples: each one that was
  submitted is either merged, once, or pending in the thread that submitted it.
-/

namespace SampleProfiler

/-! ## Occurrences -/

/-- What a step of a thread does to the registry. -/
inductive Occurrence where
  /-- A batch that is not empty was begun. -/
  | submitted (batch : List Sample)
  /-- A stamp was drawn for a cell that was there already. -/
  | drew (cell stamp : Nat)
  /-- A cell was made for a name, with a stamp. -/
  | inserted (name : String) (cell stamp : Nat)
  /-- A sample was merged into a cell. -/
  | merged (cell : Nat) (s : Sample)
  /-- All names were forgotten. -/
  | cleared
  /-- Something was looked up, stored or counted. -/
  | other

namespace Occurrence

/-- The batch that was begun. -/
def batches : Occurrence → List (List Sample)
  | submitted batch => [batch]
  | _ => []

/-- The stamp that was drawn. -/
def stamps : Occurrence → List Nat
  | drew _ stamp => [stamp]
  | inserted _ _ stamp => [stamp]
  | _ => []

/-- The sample that was merged, with its cell. -/
def merges : Occurrence → List (Nat × Sample)
  | merged cell s => [(cell, s)]
  | _ => []

/-- Goes on counting the cells that were made since the last clear. -/
def recount (n : Nat) : Occurrence → Nat
  | inserted .. => n + 1
  | cleared => 0
  | _ => n

end Occurrence

/-- What happened, in order. -/
abbrev Chronicle := List Occurrence

namespace Chronicle

/-- The batches that were begun. -/
def submitted (c : Chronicle) : List (List Sample) :=
  c.flatMap Occurrence.batches

/-- The stamps that were drawn. -/
def drawn (c : Chronicle) : List Nat :=
  c.flatMap Occurrence.stamps

/-- The samples that were merged, each with its cell. -/
def merges (c : Chronicle) : List (Nat × Sample) :=
  c.flatMap Occurrence.merges

/-- The samples that were merged into a cell, in that order. -/
def into (c : Chronicle) (cell : Nat) : List Sample :=
  (c.merges.filter fun m => m.1 = cell).map Prod.snd

/-- The number of cells that were made since the last clear. -/
def insertions (c : Chronicle) : Nat :=
  c.foldl Occurrence.recount 0

theorem submitted_concat (c : Chronicle) (o : Occurrence) : submitted (c ++ [o]) = c.submitted ++ o.batches := by
  rw [submitted, List.flatMap_append, List.flatMap_singleton, submitted]

theorem drawn_concat (c : Chronicle) (o : Occurrence) : drawn (c ++ [o]) = c.drawn ++ o.stamps := by
  rw [drawn, List.flatMap_append, List.flatMap_singleton, drawn]

theorem merges_concat (c : Chronicle) (o : Occurrence) : merges (c ++ [o]) = c.merges ++ o.merges := by
  rw [merges, List.flatMap_append, List.flatMap_singleton, merges]

theorem into_concat (c : Chronicle) (o : Occurrence) (cell : Nat) :
    into (c ++ [o]) cell = c.into cell ++ (o.merges.filter fun m => m.1 = cell).map Prod.snd := by
  rw [into, merges_concat, List.filter_append, List.map_append, into]

theorem insertions_concat (c : Chronicle) (o : Occurrence) :
    insertions (c ++ [o]) = o.recount c.insertions :=
  List.foldl_append

/-- What was merged into a cell was merged. -/
theorem into_sublist (c : Chronicle) (cell : Nat) : (c.into cell).Sublist (c.merges.map Prod.snd) :=
  List.filter_sublist.map Prod.snd

end Chronicle

/-! ## Steps -/

namespace Pool

variable {p : Pool} {name : String} {cell : Nat}

/-- A name that is there is touched. -/
theorem acquire_of_some (h : p.tracked.find? name = some cell) :
    p.acquire name = (cell, { p with tracked := p.tracked.touch name }) := by
  unfold acquire
  dsimp only
  rw [h, Lru.visit_of_find? h]

/-- A name that is not there gets a new cell. -/
theorem acquire_of_none (h : p.tracked.find? name = none) :
    p.acquire name = (p.cells.length,
      { p with
        tracked := (p.tracked.visit name p.cells.length).2
        cells := p.cells ++ [.empty name]
        evictions :=
          if (p.tracked.visit name p.cells.length).1.isSome then p.evictions + 1 else p.evictions }) := by
  unfold acquire
  rw [h]

end Pool

namespace Thread

/-- **All that a step can do**, one constructor for each kind of step. -/
inductive Moves (quiet : Bool) (p : Pool) : Thread → Occurrence → Thread → Pool → Prop where
  /-- An empty batch is ignored. -/
  | skip (requests seen) :
      Moves quiet p ⟨.batch [] :: requests, .idle, seen⟩ .other ⟨requests, .idle, seen⟩ p
  /-- A batch is counted. -/
  | submit (batch requests seen) : batch ≠ [] →
      Moves quiet p ⟨.batch batch :: requests, .idle, seen⟩ (.submitted batch) ⟨requests, .counted batch, seen⟩
        { p with batches := p.batches + 1 }
  | clear (requests seen) : quiet = true →
      Moves quiet p ⟨.clear :: requests, .idle, seen⟩ .cleared ⟨requests, .idle, seen⟩ p.clear
  | read (name requests seen) :
      Moves quiet p ⟨.read name :: requests, .idle, seen⟩ .other
        ⟨requests, .reading (p.tracked.find? name).toList, seen⟩ p
  | readAll (requests seen) :
      Moves quiet p ⟨.readAll :: requests, .idle, seen⟩ .other ⟨requests, .reading p.tracked.contents, seen⟩ p
  /-- The samples of a batch are counted. -/
  | count (batch requests seen) :
      Moves quiet p ⟨requests, .counted batch, seen⟩ .other ⟨requests, .seeking batch, seen⟩
        { p with samples := p.samples + batch.length }
  /-- No sample of the batch is left. -/
  | settle (requests seen) :
      Moves quiet p ⟨requests, .seeking [], seen⟩ .other ⟨requests, .idle, seen⟩ p
  /-- A name is found, in a shared section. -/
  | hit (cell s rest requests seen) : p.tracked.find? s.name = some cell →
      Moves quiet p ⟨requests, .seeking (s :: rest), seen⟩ (.drew cell p.tracked.clock)
        ⟨requests, .stamping cell p.tracked.clock s rest, seen⟩ { p with tracked := p.tracked.draw.2 }
  /-- A name is not found. -/
  | miss (s rest requests seen) : p.tracked.find? s.name = none →
      Moves quiet p ⟨requests, .seeking (s :: rest), seen⟩ .other ⟨requests, .missing s rest, seen⟩ p
  /-- The shared section ends with the stamp stored. -/
  | store (cell stamp s rest requests seen) :
      Moves quiet p ⟨requests, .stamping cell stamp s rest, seen⟩ .other ⟨requests, .merging cell s rest, seen⟩
        { p with tracked := p.tracked.mark s.name stamp }
  /-- Another thread made the cell in between. -/
  | refind (cell s rest requests seen) : quiet = true → p.tracked.find? s.name = some cell →
      Moves quiet p ⟨requests, .missing s rest, seen⟩ (.drew cell p.tracked.clock)
        ⟨requests, .merging cell s rest, seen⟩ { p with tracked := p.tracked.touch s.name }
  /-- A cell is made in an exclusive section. -/
  | insert (s rest requests seen) : quiet = true → p.tracked.find? s.name = none →
      Moves quiet p ⟨requests, .missing s rest, seen⟩ (.inserted s.name p.cells.length p.tracked.clock)
        ⟨requests, .merging p.cells.length s rest, seen⟩ (p.acquire s.name).2
  | merge (cell s rest requests seen) :
      Moves quiet p ⟨requests, .merging cell s rest, seen⟩ (.merged cell s) ⟨requests, .seeking rest, seen⟩
        (p.merge cell s)
  /-- A snapshot of one cell is taken. -/
  | see (cell rest requests seen) :
      Moves quiet p ⟨requests, .reading (cell :: rest), seen⟩ .other
        ⟨requests, .reading rest, seen ++ p.cells[cell]?.toList⟩ p
  | leave (requests seen) :
      Moves quiet p ⟨requests, .reading [], seen⟩ .other ⟨requests, .idle, seen⟩ p

/-- What the next step of a thread does to the registry, if it can take one. -/
def occurrence (t : Thread) (p : Pool) : Occurrence :=
  match t.phase, t.requests with
  | .idle, .batch (s :: rest) :: _ => .submitted (s :: rest)
  | .idle, .clear :: _ => .cleared
  | .seeking (s :: _), _ =>
    match p.tracked.find? s.name with
    | some cell => .drew cell p.tracked.clock
    | none => .other
  | .missing s _, _ =>
    match p.tracked.find? s.name with
    | some cell => .drew cell p.tracked.clock
    | none => .inserted s.name p.cells.length p.tracked.clock
  | .merging cell s _, _ => .merged cell s
  | _, _ => .other

variable {quiet : Bool} {p p' : Pool} {t t' : Thread} {o : Occurrence}

theorem Moves.step (h : Moves quiet p t o t' p') : t.step quiet p = some (t', p') := by
  cases h with
  | submit batch requests seen hbatch =>
      cases batch with
      | nil => exact absurd rfl hbatch
      | cons s rest => rfl
  | clear requests seen hquiet =>
      rw [hquiet]
      rfl
  | hit cell s rest requests seen hfound => simp only [Thread.step, hfound, Lru.draw]
  | miss s rest requests seen hfound => simp only [Thread.step, hfound]
  | refind cell s rest requests seen hquiet hfound =>
      simp only [Thread.step, hquiet, if_true, Pool.acquire_of_some hfound]
  | insert s rest requests seen hquiet hfound =>
      simp only [Thread.step, hquiet, if_true, Pool.acquire_of_none hfound]
  | _ => rfl

/-- The occurrence of a step can be told before it. -/
theorem Moves.occurrence (h : Moves quiet p t o t' p') : o = t.occurrence p := by
  cases h with
  | submit batch requests seen hbatch =>
      cases batch with
      | nil => exact absurd rfl hbatch
      | cons s rest => rfl
  | hit cell s rest requests seen hfound => simp only [Thread.occurrence, hfound]
  | miss s rest requests seen hfound => simp only [Thread.occurrence, hfound]
  | refind cell s rest requests seen hquiet hfound => simp only [Thread.occurrence, hfound]
  | insert s rest requests seen hquiet hfound => simp only [Thread.occurrence, hfound]
  | _ => rfl

/-- The start of a request is one of the moves of an idle thread. -/
theorem moves_of_begin {request : Request} {rest : List Request} {seen : List Profile}
    (h : Thread.begin ⟨request :: rest, .idle, seen⟩ quiet p rest request = some (t', p')) :
    ∃ o, Moves quiet p ⟨request :: rest, .idle, seen⟩ o t' p' := by
  cases request with
  | batch samples =>
      cases samples with
      | nil =>
          cases h
          exact ⟨_, .skip rest seen⟩
      | cons s others =>
          cases h
          exact ⟨_, .submit (s :: others) rest seen (List.cons_ne_nil s others)⟩
  | clear =>
      cases quiet with
      | false => exact absurd h.symm (Option.some_ne_none _)
      | true =>
          cases h
          exact ⟨_, .clear rest seen rfl⟩
  | read name =>
      cases h
      exact ⟨_, .read name rest seen⟩
  | readAll =>
      cases h
      exact ⟨_, .readAll rest seen⟩

/-- Every step is one of the moves. -/
theorem moves_of_step (h : t.step quiet p = some (t', p')) : ∃ o, Moves quiet p t o t' p' := by
  obtain ⟨requests, phase, seen⟩ := t
  cases phase with
  | idle =>
      cases requests with
      | nil => exact absurd h.symm (Option.some_ne_none _)
      | cons request rest => exact moves_of_begin h
  | counted batch =>
      cases h
      exact ⟨_, .count batch requests seen⟩
  | seeking samples =>
      cases samples with
      | nil =>
          cases h
          exact ⟨_, .settle requests seen⟩
      | cons s rest =>
          cases hfound : p.tracked.find? s.name with
          | none =>
              simp only [Thread.step, hfound] at h
              cases h
              exact ⟨_, .miss s rest requests seen hfound⟩
          | some cell =>
              simp only [Thread.step, hfound] at h
              cases h
              exact ⟨_, .hit cell s rest requests seen hfound⟩
  | stamping cell stamp s rest =>
      cases h
      exact ⟨_, .store cell stamp s rest requests seen⟩
  | missing s rest =>
      cases quiet with
      | false => exact absurd h.symm (Option.some_ne_none _)
      | true =>
          cases hfound : p.tracked.find? s.name with
          | none =>
              have hinsert : Moves true p ⟨requests, .missing s rest, seen⟩ _ _ _ :=
                .insert s rest requests seen rfl hfound
              rw [hinsert.step] at h
              cases h
              exact ⟨_, hinsert⟩
          | some cell =>
              have hrefind : Moves true p ⟨requests, .missing s rest, seen⟩ _ _ _ :=
                .refind cell s rest requests seen rfl hfound
              rw [hrefind.step] at h
              cases h
              exact ⟨_, hrefind⟩
  | merging cell s rest =>
      cases h
      exact ⟨_, .merge cell s rest requests seen⟩
  | reading cells =>
      cases cells with
      | nil =>
          cases h
          exact ⟨_, .leave requests seen⟩
      | cons cell rest =>
          cases h
          exact ⟨_, .see cell rest requests seen⟩

end Thread

/-! ## Runs -/

namespace Shared

/-- The state can be reached, and the chronicle is what happened on the way. -/
inductive History (first : Shared) : Chronicle → Shared → Prop where
  | refl : History first [] first
  | step {c : Chronicle} {s : Shared} {i : Nat} {t t' : Thread} {o : Occurrence} {p' : Pool} :
      History first c s → s.threads[i]? = some t → t.Moves s.isQuiet s.pool o t' p' →
      History first (c ++ [o]) { pool := p', threads := s.threads.set i t' }

variable {first s : Shared} {c : Chronicle}

/-- A thread that moves is a next step of the whole. -/
theorem advance_of_moves {i : Nat} {t t' : Thread} {o : Occurrence} {p' : Pool}
    (ht : s.threads[i]? = some t) (hmove : t.Moves s.isQuiet s.pool o t' p') :
    s.advance i = some { pool := p', threads := s.threads.set i t' } := by
  rw [advance, ht, Option.bind_some, hmove.step]
  rfl

/-- A next step of the whole is a thread that moves. -/
theorem moves_of_advance {i : Nat} {next : Shared} (h : s.advance i = some next) :
    ∃ t o t' p', s.threads[i]? = some t ∧ t.Moves s.isQuiet s.pool o t' p' ∧
      next = { pool := p', threads := s.threads.set i t' } := by
  unfold advance at h
  cases ht : s.threads[i]? with
  | none =>
      rw [ht] at h
      exact absurd h.symm (Option.some_ne_none _)
  | some t =>
      rw [ht, Option.bind_some] at h
      obtain ⟨⟨t', p'⟩, hstep, hnext⟩ := Option.map_eq_some_iff.mp h
      obtain ⟨o, hmove⟩ := Thread.moves_of_step hstep
      exact ⟨t, o, t', p', rfl, hmove, hnext.symm⟩

/-- **Every reachable state has a history**, and every history leads to a reachable state. -/
theorem reachable_iff_exists_history : Reachable first s ↔ ∃ c, History first c s := by
  constructor
  · intro h
    induction h with
    | refl => exact ⟨[], .refl⟩
    | step _ hadvance ih =>
        obtain ⟨c, hc⟩ := ih
        obtain ⟨t, o, t', p', ht, hmove, rfl⟩ := moves_of_advance hadvance
        exact ⟨c ++ [o], hc.step ht hmove⟩
  · rintro ⟨c, h⟩
    induction h with
    | refl => exact .refl
    | step _ ht hmove ih => exact .step ih (advance_of_moves ht hmove)

/-- A schedule leads from reachable states to reachable ones. -/
theorem Reachable.of_run {next : Shared} (h : Reachable first s) {schedule : List Nat}
    (hrun : s.run schedule = some next) : Reachable first next := by
  induction schedule generalizing s with
  | nil => exact Option.some.inj hrun ▸ h
  | cons i rest ih =>
      rw [run, List.foldlM_cons] at hrun
      obtain ⟨mid, hadvance, hrest⟩ := Option.bind_eq_some_iff.mp hrun
      exact ih (.step h hadvance) hrest

/-- The chronicle of a schedule, as far as its steps can be taken. -/
def chronicle (s : Shared) : List Nat → Chronicle
  | [] => []
  | i :: rest =>
    match s.threads[i]?, s.advance i with
    | some t, some next => t.occurrence s.pool :: next.chronicle rest
    | _, _ => []

theorem chronicle_cons {next : Shared} {i : Nat} {t : Thread} (ht : s.threads[i]? = some t)
    (hadvance : s.advance i = some next) (rest : List Nat) :
    s.chronicle (i :: rest) = t.occurrence s.pool :: next.chronicle rest := by
  rw [chronicle, ht, hadvance]

/-! ## Samples in flight -/

/-- Replacing one element of a list replaces its share in what is collected from all of them. -/
theorem flatMap_set_perm {α β : Type} {l : List α} {i : Nat} {a : α} (h : l[i]? = some a) (b : α)
    (f : α → List β) :
    ∃ rest, (l.flatMap f).Perm (f a ++ rest) ∧ ((l.set i b).flatMap f).Perm (f b ++ rest) := by
  obtain ⟨hi, rfl⟩ := List.getElem?_eq_some_iff.mp h
  refine ⟨(l.eraseIdx i).flatMap f, ?_, ?_⟩
  · have hperm := (List.getElem_cons_eraseIdx_perm hi).symm.flatMap_right f
    rwa [List.flatMap_cons] at hperm
  · have hperm := (List.set_perm_cons_eraseIdx hi b).flatMap_right f
    rwa [List.flatMap_cons] at hperm

/-- An account over all elements of a list still balances after one of them did something, if what it did
    balances by itself. -/
theorem balance_set {α β : Type} [DecidableEq β] {l : List α} {i : Nat} {a b : α} {f : α → List β}
    {done total gone added : List β} (h : l[i]? = some a) (hbalance : (done ++ l.flatMap f).Perm total)
    (hstep : gone ++ f b = f a ++ added) :
    (done ++ gone ++ (l.set i b).flatMap f).Perm (total ++ added) := by
  obtain ⟨rest, hbefore, hafter⟩ := flatMap_set_perm h b f
  rw [List.perm_iff_count] at hbalance hbefore hafter ⊢
  intro x
  have hx := hbalance x
  have hxbefore := hbefore x
  have hxafter := hafter x
  have hxstep := congrArg (List.count x) hstep
  simp only [List.count_append] at hx hxbefore hxafter hxstep ⊢
  omega

end Shared

/-- The samples of the batch at hand that are not merged yet. -/
def Phase.pending : Phase → List Sample
  | counted batch => batch
  | seeking samples => samples
  | stamping _ _ s rest => s :: rest
  | missing s rest => s :: rest
  | merging _ s rest => s :: rest
  | _ => []

/-- Idle threads have no share in what is collected from the phases, if nothing is collected between two
    requests. -/
theorem flatMap_phase_of_idle {α : Type} {threads : List Thread} (hidle : ∀ t ∈ threads, t.phase = .idle)
    {f : Phase → List α} (hnone : f .idle = []) : (threads.flatMap fun t => f t.phase) = [] := by
  rw [List.flatMap_eq_nil_iff]
  intro t ht
  rw [hidle t ht, hnone]

/-- The batch of a request, unless it is empty. -/
def Request.batches : Request → List (List Sample)
  | batch [] => []
  | batch (s :: rest) => [s :: rest]
  | _ => []

/-- The batches of all requests of all threads. -/
def sentBy (requests : List (List Request)) : List (List Sample) :=
  requests.flatten.flatMap Request.batches

/-- The batches that a thread has not begun yet. -/
def Thread.ahead (t : Thread) : List (List Sample) :=
  t.requests.flatMap Request.batches

namespace Thread

variable {quiet : Bool} {p p' : Pool} {t t' : Thread} {o : Occurrence}

/-- A step merges the first pending sample or leaves it, and adds the batch that it begins. -/
theorem Moves.pending (h : Moves quiet p t o t' p') :
    o.merges.map Prod.snd ++ t'.phase.pending = t.phase.pending ++ o.batches.flatten := by
  cases h <;> simp [Occurrence.merges, Occurrence.batches, Phase.pending]

/-- A step begins the first batch or leaves it. -/
theorem Moves.ahead (h : Moves quiet p t o t' p') : o.batches ++ t'.ahead = t.ahead := by
  cases h with
  | submit batch requests seen hbatch =>
      cases batch with
      | nil => exact absurd rfl hbatch
      | cons s rest => rfl
  | _ => rfl

end Thread

namespace Shared

variable {first s : Shared} {c : Chronicle}

/-- **The account of the samples**: every submitted sample was merged, exactly once, or is pending in a
    thread. -/
theorem History.merged_append_pending (h : History first c s)
    (hidle : ∀ t ∈ first.threads, t.phase = .idle) :
    (c.merges.map Prod.snd ++ s.threads.flatMap fun t => t.phase.pending).Perm c.submitted.flatten := by
  induction h with
  | refl =>
      rw [flatMap_phase_of_idle hidle (rfl : Phase.pending .idle = [])]
      exact .refl _
  | @step c s i t t' o p' _ ht hmove ih =>
      rw [Chronicle.merges_concat, Chronicle.submitted_concat, List.map_append, List.flatten_append]
      exact balance_set ht ih hmove.pending

theorem ahead_start (bound : Nat) (requests : List (List Request)) :
    (start bound requests).threads.flatMap Thread.ahead = sentBy requests := by
  rw [start, List.flatMap_map, sentBy, List.flatten_eq_flatMap, List.flatMap_assoc]
  rfl

/-- **The account of the batches**: every batch of the requests was submitted, or is still ahead of the
    thread. -/
theorem History.submitted_append_ahead (h : History first c s) :
    (c.submitted ++ s.threads.flatMap Thread.ahead).Perm (first.threads.flatMap Thread.ahead) := by
  induction h with
  | refl => exact .refl _
  | @step c s i t t' o p' _ ht hmove ih =>
      have hstep : o.batches ++ t'.ahead = t.ahead ++ [] := by
        rw [hmove.ahead, List.append_nil]
      have hnext := balance_set ht ih hstep
      rwa [List.append_nil, ← Chronicle.submitted_concat] at hnext

end Shared

end SampleProfiler
