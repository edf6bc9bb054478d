import Mathlib.Algebra.BigOperators.Group.List.Basic
import Mathlib.Algebra.GroupWithZero.Nat
import SampleProfiler.Proofs.Stamps

/-!
# `SampleProfiler.Proofs.Progress` — every run comes to an end

Threads wait for each other only at the start of an exclusive section, and a shared section can always go on,
so there is no deadlock. Every step uses up some of the work that the threads were given at the start, so there
is no endless run either, however unfairly the steps are dealt out.

## Contents
- **Work.** `Thread.work`, the most steps that a thread can still take; a step uses some up.
- **No deadlock.** As long as a thread is not finished, some thread can take a step.
- **All runs.** `Shared.Settles`.
-/

namespace SampleProfiler

/-! ## Work -/

/-- The most steps that a thread can take before it is done with what it is at. -/
def Phase.work : Phase → Nat
  | idle => 0
  | counted batch => 3 * batch.length + 2
  | seeking samples => 3 * samples.length + 1
  | stamping _ _ _ rest => 3 * rest.length + 3
  | missing _ rest => 3 * rest.length + 3
  | merging _ _ rest => 3 * rest.length + 2
  | reading cells => cells.length + 1

/-- The most steps that a request can take on a map with the given bound. -/
def Request.work (bound : Nat) : Request → Nat
  | batch samples => 3 * samples.length + 3
  | clear => 1
  | read _ => 3
  | readAll => bound + 2

/-- The most steps that a thread can still take. -/
def Thread.work (bound : Nat) (t : Thread) : Nat :=
  (t.requests.map (Request.work bound)).sum + t.phase.work

/-- The most steps that all threads together can still take. -/
def Shared.work (s : Shared) : Nat :=
  (s.threads.map (Thread.work s.pool.tracked.bound)).sum

namespace Thread

variable {quiet : Bool} {p p' : Pool} {t t' : Thread} {o : Occurrence}

/-- **A step uses up work.** -/
theorem Moves.work (h : Moves quiet p t o t' p') (hordered : p.tracked.Ordered) :
    t'.work p.tracked.bound < t.work p.tracked.bound := by
  have hfits := hordered.fits
  unfold Thread.work
  cases h with
  | read name =>
      have hfew : (p.tracked.find? name).toList.length ≤ 1 := by
        cases p.tracked.find? name <;> simp
      simp only [Phase.work, Request.work, List.map_cons, List.sum_cons]
      omega
  | readAll =>
      have hfew : p.tracked.contents.length = p.tracked.size := List.length_map _
      simp only [Phase.work, Request.work, List.map_cons, List.sum_cons]
      omega
  | _ =>
      simp only [Phase.work, Request.work, List.map_cons, List.sum_cons, List.length_cons, List.length_nil]
      omega

/-! ## No deadlock -/

/-- A shared section can go on. -/
theorem isSome_step_of_sharing (quiet : Bool) (p : Pool) (h : t.isSharing = true) :
    (t.step quiet p).isSome = true := by
  obtain ⟨requests, phase, seen⟩ := t
  cases phase <;> first | rfl | exact absurd h Bool.false_ne_true

/-- While no shared section is open, any thread can go on that is not finished. -/
theorem isSome_step_of_quiet (p : Pool) (h : t.isFinished = false) : (t.step true p).isSome = true := by
  obtain ⟨requests, phase, seen⟩ := t
  cases phase with
  | idle =>
      cases requests with
      | nil => exact absurd h.symm Bool.false_ne_true
      | cons request rest =>
          cases request with
          | batch samples => cases samples <;> rfl
          | clear => rfl
          | read name => rfl
          | readAll => rfl
  | seeking samples =>
      cases samples with
      | nil => rfl
      | cons s rest =>
          unfold Thread.step
          dsimp only
          split <;> rfl
  | reading cells => cases cells <;> rfl
  | counted batch => rfl
  | stamping cell stamp s rest => rfl
  | missing s rest => rfl
  | merging cell s rest => rfl

end Thread

namespace Shared

variable {first s next : Shared}

/-- Somebody can go on as long as not all threads are finished. -/
theorem exists_advance (h : s.isFinished = false) : ∃ i, (s.advance i).isSome = true := by
  have hstep : ∃ t ∈ s.threads, (t.step s.isQuiet s.pool).isSome = true := by
    cases hquiet : s.isQuiet with
    | true =>
        obtain ⟨t, ht, hopen⟩ := List.all_eq_false.mp h
        exact ⟨t, ht, Thread.isSome_step_of_quiet s.pool (by simpa using hopen)⟩
    | false =>
        obtain ⟨t, ht, hsharing⟩ := List.all_eq_false.mp hquiet
        exact ⟨t, ht, Thread.isSome_step_of_sharing false s.pool (by simpa using hsharing)⟩
  obtain ⟨t, ht, hsome⟩ := hstep
  obtain ⟨i, hi⟩ := List.getElem?_of_mem ht
  refine ⟨i, ?_⟩
  rw [advance, hi, Option.bind_some, Option.isSome_map]
  exact hsome

/-! ## All runs -/

/-- Every run of the threads comes to an end: no run is longer than the work, and a run that cannot go on has
    finished all threads. -/
structure Settles (first : Shared) : Prop where
  bounded : ∀ schedule s, first.run schedule = some s → schedule.length ≤ first.work
  unstuck : ∀ s, Reachable first s → s.isFinished = false → ∃ i, (s.advance i).isSome = true

theorem work_advance {i : Nat} (hordered : s.pool.tracked.Ordered) (h : s.advance i = some next) :
    next.work < s.work := by
  obtain ⟨t, o, t', p', ht, hmove, rfl⟩ := moves_of_advance h
  have hless := hmove.work hordered
  obtain ⟨hi, rfl⟩ := List.getElem?_eq_some_iff.mp ht
  have hbefore := ((List.getElem_cons_eraseIdx_perm hi).map (Thread.work s.pool.tracked.bound)).sum_eq
  have hafter := ((List.set_perm_cons_eraseIdx hi t').map (Thread.work s.pool.tracked.bound)).sum_eq
  rw [List.map_cons, List.sum_cons] at hbefore hafter
  unfold work
  dsimp only
  rw [hmove.bound, hafter, ← hbefore]
  omega

/-- **Every run comes to an end** that starts on a pool without entries. -/
theorem Fresh.settles (h : first.Fresh) : first.Settles where
  bounded := by
    -- the work of the states on the way falls by at least one with every step
    have general : ∀ (schedule : List Nat) (s t : Shared), Reachable first s → s.run schedule = some t →
        schedule.length ≤ s.work := by
      intro schedule
      induction schedule with
      | nil => exact fun _ _ _ _ => Nat.zero_le _
      | cons i rest ih =>
          intro s t hreach hrun
          rw [run, List.foldlM_cons] at hrun
          obtain ⟨mid, hadvance, hrest⟩ := Option.bind_eq_some_iff.mp hrun
          obtain ⟨c, hc⟩ := reachable_iff_exists_history.mp hreach
          have hless := work_advance (hc.stamped h).ordered hadvance
          have hmore := ih mid t (.step hreach hadvance) hrest
          rw [List.length_cons]
          omega
    exact fun schedule t hrun => general schedule first t .refl hrun
  unstuck := fun _ _ hopen => exists_advance hopen

end Shared

end SampleProfiler
