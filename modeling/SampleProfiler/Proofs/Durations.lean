import Mathlib.Algebra.BigOperators.Ring.Finset
import Mathlib.Data.List.Induction
import SampleProfiler.Proofs.Accounting
import SampleProfiler.Proofs.Contents
import SampleProfiler.Proofs.Mean

/-!
# `SampleProfiler.Proofs.Durations` — timed calls in, spans out

A clock reports an unsigned span, a profile keeps signed nanoseconds, and what is read from a profile is a span again.
Spans beyond the range of the signed count are cut to its top on the way in, and totals stop there. This module says
what comes out for the timings of one name, whatever their spans are and wherever the total stops: `Profile.Measures`
speaks of the spans alone, with no signed count and no value that a profile starts with.

A registry keeps all samples of a name that it does not evict. Which names it does evict is read off the evicted
profiles, `lostSince` the last clear; the invariant for one name is `Retains`, and a sample keeps it.

## Contents
- **Conversions.** Spans as signed nanoseconds, and back.
- **One profile.** `Timing`, `Profile.Measures`, and `measures_ofSamples`.
- **A name that is kept.** `Retains`, kept by a sample, a batch and a call.
- **Every run.** `measures_of_kept`.
-/

namespace SampleProfiler

/-! ## Conversions -/

namespace Nanos

/-- A span is cut to the top of the range. -/
theorem toInt_ofSpan (s : Span) : (ofSpan s).toInt = (min s.nanoseconds 9223372036854775807 : Nat) := by
  simp only [ofSpan, clamp]
  omega

/-- A count that is not negative is the span of as many nanoseconds. -/
theorem toSpan_of_toInt {d : Nanos} {n : Nat} (h : d.toInt = n) : d.toSpan = Span.ofNanoseconds n := by
  rw [toSpan, h, Int.toNat_natCast]

end Nanos

/-! ## One profile -/

/-- What is recorded of a call that was timed. -/
structure Timing where
  took : Span
  succeeded : Bool
  taken : Moment := .reading 0
deriving DecidableEq

namespace Timing

/-- The sample of a timing. -/
def sample (name : String) (t : Timing) : Sample :=
  .timed name t.took t.succeeded t.taken

/-- The nanoseconds that are counted of a timing. -/
def counted (t : Timing) : Nat :=
  min t.took.nanoseconds 9223372036854775807

theorem toInt_duration_sample (name : String) (t : Timing) : (t.sample name).duration.toInt = t.counted := by
  rw [counted, ← Nanos.toInt_ofSpan, sample, Sample.timed]

/-- The nanoseconds that are counted of some timings together. -/
def counts (timings : List Timing) : List Nat :=
  timings.map counted

theorem map_toInt_sample (name : String) (timings : List Timing) :
    (timings.map (sample name)).map (fun s => s.duration.toInt) = (counts timings).map (Nat.cast : Nat → Int) := by
  rw [List.map_map, counts, List.map_map]
  apply List.map_congr_left
  intro t _
  rw [Function.comp_apply, Function.comp_apply]
  exact toInt_duration_sample name t

end Timing

namespace Profile

open Timing

/-- What can be read from a profile is what the timings say: how many there are and how many failed, the least and
    the greatest span, all spans together up to the top of the range, and that divided over the calls. -/
structure Measures (p : Profile) (timings : List Timing) : Prop where
  calls : p.calls = timings.length
  errors : p.errors = timings.countP fun t => !t.succeeded
  fastest : ∃ n, IsLeast {n | n ∈ counts timings} n ∧ p.fastest? = some (.ofNanoseconds n)
  slowest : ∃ n, IsGreatest {n | n ∈ counts timings} n ∧ p.slowest = .ofNanoseconds n
  overall : p.overall = .ofNanoseconds (min (counts timings).sum 9223372036854775807)
  average : p.average = .ofNanoseconds (min (counts timings).sum 9223372036854775807 / timings.length)

/-- A clock does not run backwards. -/
theorem durations_sample_nonneg (name : String) (timings : List Timing) :
    ∀ s ∈ timings.map (sample name), 0 ≤ s.duration.toInt := by
  intro s hs
  obtain ⟨t, _, rfl⟩ := List.mem_map.mp hs
  rw [toInt_duration_sample]
  exact Int.natCast_nonneg _

/-- The total of timings stops at the top of the range. -/
theorem toInt_total_sample (name : String) (timings : List Timing) :
    (ofSamples name (timings.map (sample name))).total.toInt
      = (min (counts timings).sum 9223372036854775807 : Nat) := by
  rw [total_ofSamples name (durations_sample_nonneg name timings), map_toInt_sample, ← Nat.cast_list_sum]
  omega

/-- **Timings in, spans out**: the profile of timings measures them. -/
theorem measures_ofSamples (name : String) {timings : List Timing} (h : timings ≠ []) :
    (ofSamples name (timings.map (sample name))).Measures timings := by
  have hne : timings.map (sample name) ≠ [] := by simpa using h
  have hlength : (timings.map (sample name)).length = timings.length := List.length_map _
  have hmem : ∀ d : Int, d ∈ (timings.map (sample name)).map (fun s => s.duration.toInt) ↔
      ∃ n ∈ counts timings, (n : Int) = d := by
    intro d
    rw [map_toInt_sample, List.mem_map]
  have hsummary := summarizes_ofSamples name hne (durations_sample_nonneg name timings)
  have htotal := toInt_total_sample name timings
  refine ⟨hsummary.calls.trans hlength, ?_, ?_, ?_, Nanos.toSpan_of_toInt htotal, ?_⟩
  · rw [hsummary.errors, List.countP_map]
    rfl
  · obtain ⟨hleast, hbelow⟩ := hsummary.least
    obtain ⟨n, hn, heq⟩ := (hmem _).mp hleast
    refine ⟨n, ⟨hn, ?_⟩, ?_⟩
    · intro m hm
      have hle := hbelow ((hmem m).mpr ⟨m, hm, rfl⟩)
      omega
    · have hcalled : (ofSamples name (timings.map (sample name))).isEmpty = false := by
        rw [isEmpty, beq_eq_false_iff_ne, hsummary.calls]
        exact Nat.ne_of_gt (List.length_pos_iff.mpr hne)
      rw [fastest?, hcalled, if_neg Bool.false_ne_true, Nanos.toSpan_of_toInt heq.symm]
  · obtain ⟨hgreatest, habove⟩ := hsummary.greatest
    obtain ⟨n, hn, heq⟩ := (hmem _).mp hgreatest
    refine ⟨n, ⟨hn, ?_⟩, Nanos.toSpan_of_toInt heq.symm⟩
    intro m hm
    have hle := habove ((hmem m).mpr ⟨m, hm, rfl⟩)
    omega
  · apply Nanos.toSpan_of_toInt
    rw [hsummary.mean, Nanos.toInt_share, htotal, hlength, Int.ofNat_tdiv]

end Profile

/-! ## A name that is kept -/

namespace Registry

open Recency Timing

variable {bound : Nat} {r : Registry} {past : List Sample} {lost : List Profile} {name : String}

/-- Unless a profile of the name was lost, there are all samples of the name in the profile that is tracked. -/
structure Retains (bound : Nat) (name : String) (r : Registry) (past : List Sample) (lost : List Profile) : Prop where
  keeps : Keeps bound r past
  whole : (∀ p ∈ lost, p.name ≠ name) → name ∈ past.map Sample.name →
    r.tracked.find? name = some (Profile.ofSamples name (past.filter fun s => s.name = name))

theorem retains_empty (bound : Nat) (name : String) : Retains bound name (empty bound) [] [] where
  keeps := keeps_empty bound
  whole := fun _ hname => absurd hname List.not_mem_nil

theorem Retains.clear (h : Retains bound name r past lost) : Retains bound name r.clear.1 [] [] where
  keeps := h.keeps.clear
  whole := fun _ hname => absurd hname List.not_mem_nil

theorem Retains.countBatch (h : Retains bound name r past lost) (n : Nat) :
    Retains bound name (r.countBatch n) past lost :=
  ⟨h.keeps.countBatch n, h.whole⟩

/-- **One sample**: it goes to the samples of its name, and the profile of another name stays as it is unless it is
    the one that is lost. -/
theorem Retains.take (h : Retains bound name r past lost) (s : Sample) :
    Retains bound name (r.take s).1 (past ++ [s]) (lost ++ (r.victim? s).toList) := by
  refine ⟨h.keeps.take s, ?_⟩
  intro hkept hname
  have hbefore : ∀ p ∈ lost, p.name ≠ name := fun p hp => hkept p (List.mem_append_left _ hp)
  rw [List.filter_append]
  by_cases hs : s.name = name
  · subst hs
    have hself : [s].filter (fun t => t.name = s.name) = [s] := List.filter_cons_of_pos (decide_eq_true rfl)
    rw [find?_take_self, hself, Profile.ofSamples_concat]
    by_cases hold : s.name ∈ past.map Sample.name
    · rw [h.whole hbefore hold, Option.getD_some]
    · -- the first sample of the name finds no profile
      have hnone : r.tracked.find? s.name = none := by
        rw [Lru.find?_eq_none_iff, ← Lru.contains_iff_mem_names]
        exact fun hthere => hold (mem_of_mem_recent (h.keeps.reflects.contains_iff.mp hthere))
      have hfirst : past.filter (fun t => t.name = s.name) = [] := by
        rw [List.filter_eq_nil_iff]
        intro t ht heq
        exact hold (List.mem_map.mpr ⟨t, ht, decide_eq_true_iff.mp heq⟩)
      rw [hnone, hfirst]
      rfl
  · have hold : name ∈ past.map Sample.name := by
      rw [List.map_append, List.mem_append] at hname
      exact hname.resolve_right fun hlast => hs (List.mem_singleton.mp hlast).symm
    have hfound := h.whole hbefore hold
    have hstays : (r.tracked.visit s.name (.empty s.name)).1 ≠ some name := by
      intro hevicted
      have hvictim : r.victim? s = some (Profile.ofSamples name (past.filter fun t => t.name = name)) := by
        rw [victim?, Lru.dropped?, hevicted, Option.bind_some, hfound]
      exact hkept _ (List.mem_append_right _ (Option.mem_toList.mpr hvictim)) (Profile.name_ofSamples name _)
    rw [tracked_take, Lru.find?_update, if_neg (Ne.symm hs),
      h.keeps.reflects.ordered.find?_visit_of_kept (Ne.symm hs) hstays, hfound,
      List.filter_cons_of_neg (by simpa using hs), List.filter_nil, List.append_nil]

/-- **A run of samples.** -/
theorem Retains.absorb (h : Retains bound name r past lost) (samples : List Sample) :
    Retains bound name (r.absorb samples) (past ++ samples) (lost ++ r.victims samples) := by
  induction samples generalizing r past lost with
  | nil =>
      rw [victims, List.append_nil, List.append_nil]
      exact h
  | cons s rest ih =>
      have hrest := ih (h.take s)
      rw [List.append_assoc, List.append_assoc] at hrest
      exact hrest

theorem Retains.perform (h : Retains bound name r past lost) (call : Call) :
    Retains bound name (r.perform call).2.1 (call.extend past) (call.lose r lost) := by
  cases call with
  | receive batch =>
      show Retains bound name (r.receive batch).1 (past ++ batch) (lost ++ (r.countBatch batch.length).victims batch)
      by_cases hbatch : batch = []
      · rw [hbatch, victims, List.append_nil, List.append_nil]
        exact h
      · rw [receive_fst hbatch]
        exact (h.countBatch batch.length).absorb batch
  | clear => exact h.clear
  | contains name => exact h
  | profile name => exact h
  | listing => exact h
  | totals => exact h

/-- **A run of calls.** -/
theorem Retains.after (h : Retains bound name r past lost) (calls : List Call) :
    Retains bound name (r.after calls) (calls.foldl Call.extend past) (r.lostSince lost calls) := by
  induction calls generalizing r past lost with
  | nil => exact h
  | cons call rest ih => exact ih (h.perform call)

/-! ## Every run -/

/-- **Timings in, spans out.** After any run of calls, if the samples of a name since the last clear are those of
    some timings and no profile of the name was evicted since then, there is a profile of the name, and it measures
    these timings: whatever spans they have, and whether their sum stays in the range of a total or not. -/
theorem measures_of_kept {bound : Nat} {calls : List Call} {name : String} {timings : List Timing}
    (hgiven : ((sinceClear calls).filter fun s => s.name = name) = timings.map (sample name))
    (hsome : timings ≠ [])
    (hkept : ∀ p ∈ (empty bound).lostSince [] calls, p.name ≠ name) :
    ∃ p, ((empty bound).after calls).profile name = .ok p ∧ p.Measures timings := by
  have hretains := (retains_empty bound name).after calls
  have hname : name ∈ (sinceClear calls).map Sample.name := by
    obtain ⟨t, ht⟩ := List.exists_mem_of_ne_nil timings hsome
    have hmem : t.sample name ∈ (sinceClear calls).filter fun s => s.name = name := by
      rw [hgiven]
      exact List.mem_map_of_mem ht
    exact List.mem_map.mpr ⟨_, (List.mem_filter.mp hmem).1, rfl⟩
  have hfound := hretains.whole hkept hname
  rw [← sinceClear, hgiven] at hfound
  refine ⟨_, ?_, Profile.measures_ofSamples name hsome⟩
  rw [profile, hfound]

/-- One of the spans is the longest that a clock can report, and `c` takes the place of `b` in the meantime. -/
theorem measures_of_kept_longest :
    let longest : Span := ⟨18446744073709551615, 999999999⟩
    let timings : List Timing := [⟨⟨1, 5⟩, true, .reading 0⟩, ⟨longest, false, .offset 7⟩, ⟨⟨0, 0⟩, true, .reading 4⟩]
    let calls := [Call.receive [⟨"a", .zero, true, .reading 0⟩], .clear,
      .receive [.timed "a" ⟨1, 5⟩ true, .timed "b" ⟨0, 1⟩ true (.reading 1), .timed "a" longest false (.offset 7)],
      .receive [.timed "c" ⟨0, 1⟩ true (.reading 3), .timed "a" ⟨0, 0⟩ true (.reading 4)]]
    ((empty 2).after calls).totals.evictions = 1 ∧
      ∃ p, ((empty 2).after calls).profile "a" = .ok p ∧ p.Measures timings := by
  intro longest timings calls
  refine ⟨by decide, measures_of_kept ?_ (List.cons_ne_nil _ _) ?_⟩
  · decide
  · decide

end Registry

end SampleProfiler
