import SampleProfiler.Proofs.Contents

/-!
# `SampleProfiler.Proofs.Inclusion` — a larger bound never tracks less

Two registries receive the same calls, and the second may track more names. Least-recently-used eviction has no
anomaly: at every moment the names of the first are among those of the second. The two evict at different
moments and forget profiles at different moments, so no step of one is a step of the other; what relates them
are the samples since the last clear, from which either state can be read (`Registry.keeps_after`).

## Contents
- **Reading the past.** The recent names, the misses and the stretches for two bounds.
- **Counters.** What a run does to the counts of samples and batches.
- **Inclusion.** `contains_of_bound_le`.
-/

namespace SampleProfiler

namespace Recency

variable {bound more : Nat}

/-! ## Reading the past -/

theorem mem_recent_mono (h : bound ≤ more) {names : List String} {x : String} (hx : x ∈ recent bound names) :
    x ∈ recent more names :=
  (List.take_prefix_take_left h).subset hx

/-- More room never makes more misses. -/
theorem misses_antitone (h : bound ≤ more) (past names : List String) :
    misses more past names ≤ misses bound past names := by
  induction names generalizing past with
  | nil => exact Nat.le_refl 0
  | cons n rest ih =>
      have hrest := ih (past ++ [n])
      rw [misses, misses]
      by_cases hfew : n ∈ recent bound past
      · rw [if_pos hfew, if_pos (mem_recent_mono h hfew)]
        omega
      · rw [if_neg hfew]
        split <;> omega

/-- With more room a name is out of reach less often, so its stretch goes further back. -/
theorem stretch_suffix (h : bound ≤ more) (name : String) (samples : List Sample) :
    stretch bound name samples <:+ stretch more name samples := by
  induction samples using List.reverseRecOn with
  | nil => exact List.suffix_rfl
  | append_singleton samples s ih =>
      by_cases hs : s.name = name
      · subst hs
        rw [stretch_concat_self, stretch_concat_self]
        by_cases hfew : s.name ∈ recent bound (samples.map Sample.name)
        · rw [if_pos hfew, if_pos (mem_recent_mono h hfew)]
          exact (List.suffix_append_inj_of_length_eq rfl).mpr ⟨ih, rfl⟩
        · -- the smaller map starts anew with this sample, which ends the other stretch too
          rw [if_neg hfew]
          exact List.suffix_append _ _
      · rw [stretch_concat_of_ne hs, stretch_concat_of_ne hs]
        exact ih

end Recency

namespace Registry

open Recency

/-! ## Counters -/

/-- Taking samples counts none of them; they were counted with their batch. -/
theorem counts_absorb (r : Registry) (samples : List Sample) :
    (r.absorb samples).samples = r.samples ∧ (r.absorb samples).batches = r.batches := by
  induction samples generalizing r with
  | nil => exact ⟨rfl, rfl⟩
  | cons s rest ih =>
      have htake : (r.take s).1.samples = r.samples ∧ (r.take s).1.batches = r.batches := by
        unfold take
        obtain ⟨evicted, tracked⟩ := r.tracked.visit s.name (.empty s.name)
        cases evicted <;> exact ⟨rfl, rfl⟩
      obtain ⟨hsamples, hbatches⟩ := ih (r.take s).1
      exact ⟨hsamples.trans htake.1, hbatches.trans htake.2⟩

/-- The counts after a call depend on the counts before it, and on nothing else that a registry holds. -/
theorem counts_perform {r q : Registry} (h : r.samples = q.samples ∧ r.batches = q.batches) (call : Call) :
    (r.perform call).2.1.samples = (q.perform call).2.1.samples ∧
      (r.perform call).2.1.batches = (q.perform call).2.1.batches := by
  cases call with
  | receive batch =>
      by_cases hbatch : batch = []
      · rw [hbatch]
        exact h
      · have hr := counts_absorb (r.countBatch batch.length) batch
        have hq := counts_absorb (q.countBatch batch.length) batch
        rw [← receive_fst hbatch] at hr hq
        show (r.receive batch).1.samples = (q.receive batch).1.samples ∧
          (r.receive batch).1.batches = (q.receive batch).1.batches
        rw [hr.1, hr.2, hq.1, hq.2, countBatch, countBatch, h.1, h.2]
        exact ⟨rfl, rfl⟩
  | clear => exact ⟨rfl, rfl⟩
  | contains name => exact h
  | profile name => exact h
  | listing => exact h
  | totals => exact h

/-- The counts of samples and batches do not hang on the bound. -/
theorem counts_after (bound more : Nat) (calls : List Call) :
    ((empty bound).after calls).samples = ((empty more).after calls).samples ∧
      ((empty bound).after calls).batches = ((empty more).after calls).batches := by
  induction calls using List.reverseRecOn with
  | nil => exact ⟨rfl, rfl⟩
  | append_singleton calls call ih =>
      rw [after_concat, after_concat]
      exact counts_perform ih call

/-! ## Inclusion -/

variable {bound more : Nat} {r q : Registry} {past : List Sample}

/-- Of two registries with the same past, the one with more room evicted no more. -/
theorem Reflects.evictions_le (h : max bound 1 ≤ max more 1) (hr : Reflects bound r past)
    (hq : Reflects more q past) : q.evictions ≤ r.evictions := by
  have hmisses := misses_antitone h [] (past.map Sample.name)
  have hsizer := congrArg List.length hr.ranking
  have hsizeq := congrArg List.length hq.ranking
  rw [Lru.length_ranking, recent, List.length_take] at hsizer hsizeq
  have hr' := hr.evictions
  have hq' := hq.evictions
  -- the larger map has fewer misses, and more of them are still tracked
  omega

/-- Of two registries with the same past, the profile in the one with more room covers the other one. -/
theorem Keeps.covers (h : max bound 1 ≤ max more 1) (hr : Keeps bound r past) (hq : Keeps more q past)
    {name : String} (hname : r.contains name = true) :
    q.contains name = true ∧ ∃ few many, r.profile name = .ok few ∧ q.profile name = .ok many ∧
      few.calls ≤ many.calls ∧ few.errors ≤ many.errors ∧ many.least ≤ few.least ∧
      few.greatest ≤ many.greatest := by
  have hmore : q.contains name = true :=
    hq.reflects.contains_iff.mpr (mem_recent_mono h (hr.reflects.contains_iff.mp hname))
  obtain ⟨few, hfew⟩ := Option.isSome_iff_exists.mp hname
  obtain ⟨many, hmany⟩ := Option.isSome_iff_exists.mp hmore
  refine ⟨hmore, few, many, by rw [profile, hfew], by rw [profile, hmany], ?_⟩
  obtain ⟨earlier, hsuffix⟩ := stretch_suffix h name past
  rw [hr.contents name few hfew, hq.contents name many hmany, ← hsuffix]
  exact Profile.ofSamples_append name earlier _

/-- **A larger bound never tracks less.** After the same run of calls on two new registries, every name that
    the smaller one tracks is tracked by the larger one too, with a profile that counts at least as many calls
    and errors and has extremes at least as far apart; the smaller one evicted at least as often, and both
    count the same samples and batches. -/
theorem contains_of_bound_le (bound more : Nat) (calls : List Call) (h : max bound 1 ≤ max more 1) :
    let small := (empty bound).after calls
    let large := (empty more).after calls
    (∀ name, small.contains name = true → large.contains name = true ∧
      ∃ few many, small.profile name = .ok few ∧ large.profile name = .ok many ∧
        few.calls ≤ many.calls ∧ few.errors ≤ many.errors ∧ many.least ≤ few.least ∧
        few.greatest ≤ many.greatest) ∧
    large.totals.evictions ≤ small.totals.evictions ∧
    small.totals.samples = large.totals.samples ∧
    small.totals.batches = large.totals.batches := by
  intro small large
  have hsmall : Keeps bound small (sinceClear calls) := keeps_after bound calls
  have hlarge : Keeps more large (sinceClear calls) := keeps_after more calls
  obtain ⟨hsamples, hbatches⟩ := counts_after bound more calls
  exact ⟨fun name hname => hsmall.covers h hlarge hname,
    hsmall.reflects.evictions_le h hlarge.reflects, hsamples, hbatches⟩

/-- One name against two: `a` comes back with a success after it was evicted from the smaller registry, which
    forgot that it had failed. -/
theorem contains_of_bound_le_return :
    let calls := [Call.receive [⟨"c", .zero, true, .reading 0⟩], .clear,
      .receive [⟨"a", .greatest, false, .reading 0⟩, ⟨"b", .zero, true, .reading 0⟩],
      .receive [⟨"a", .zero, true, .reading 0⟩]]
    let small := (empty 0).after calls
    let large := (empty 2).after calls
    max 0 1 ≤ max 2 1 ∧ small.contains "a" = true ∧
      (∃ few many, small.profile "a" = .ok few ∧ large.profile "a" = .ok many ∧
        few.calls ≤ many.calls ∧ few.errors ≤ many.errors ∧ many.least ≤ few.least ∧
        few.greatest ≤ many.greatest) ∧
      small.totals.evictions = 2 ∧ large.totals.evictions = 0 := by
  intro calls small large
  have hbound : max 0 1 ≤ max 2 1 := by decide
  have hname : small.contains "a" = true := by decide
  obtain ⟨hnames, _⟩ := contains_of_bound_le 0 2 calls hbound
  exact ⟨hbound, hname, (hnames "a" hname).2, by decide, by decide⟩

end Registry

end SampleProfiler
