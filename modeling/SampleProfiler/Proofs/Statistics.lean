import Mathlib.Algebra.BigOperators.Group.List.Basic
import Mathlib.Algebra.GroupWithZero.Nat
import Mathlib.Algebra.Order.BigOperators.Group.List
import Mathlib.Algebra.Order.Group.Int
import Mathlib.Algebra.Ring.Int.Defs
import Mathlib.Data.List.Induction
import Mathlib.Order.Bounds.Basic
import SampleProfiler.Profile

/-!
# `SampleProfiler.Proofs.Statistics` — what a profile says of its samples

A profile is built by recording one sample after another. This module reads every number of the finished
profile off the list of samples at once: calls and errors are counts, the least and the greatest duration are
extremes, and the total is a sum that stops at the top of the range.

## Contents
- **Durations as integers.** `+`, `min` and `max` through `Nanos.toInt`.
- **Closed forms.** One lemma for each number of `Profile.ofSamples`.
- **Order.** `ofSamples_perm`: without negative durations the order of the samples does not matter.
- **Summaries.** `Profile.Summarizes`, all closed forms together.
- **More samples.** `least_antitone` and `greatest_mono`; `ofSamples_append`, for samples in front of others.
- **Many profiles.** `callsOf`, their calls taken together.
-/

namespace SampleProfiler

/-! ## Durations as integers -/

namespace Nanos

theorem toInt_add (a b : Nanos) :
    (a + b).toInt = max (-9223372036854775808) (min (a.toInt + b.toInt) 9223372036854775807) := rfl

theorem toInt_min (a b : Nanos) : (min a b).toInt = min a.toInt b.toInt := by
  show (if a.toInt ≤ b.toInt then a else b).toInt = min a.toInt b.toInt
  split <;> omega

theorem toInt_max (a b : Nanos) : (max a b).toInt = max a.toInt b.toInt := by
  show (if a.toInt ≤ b.toInt then b else a).toInt = max a.toInt b.toInt
  split <;> omega

/-- Without negative summands a sum stops at the top of the range only, whatever it starts from. -/
theorem toInt_add_of_nonneg (a : Nanos) {b : Nanos} (h : 0 ≤ b.toInt) :
    (a + b).toInt = min (a.toInt + b.toInt) 9223372036854775807 := by
  have hlow := a.least_le
  rw [toInt_add]
  omega

end Nanos

namespace Profile

/-! ## Closed forms -/

theorem ofSamples_concat (name : String) (samples : List Sample) (s : Sample) :
    ofSamples name (samples ++ [s]) = (ofSamples name samples).merge s :=
  List.foldl_append

@[simp] theorem name_ofSamples (name : String) (samples : List Sample) :
    (ofSamples name samples).name = name := by
  induction samples using List.reverseRecOn with
  | nil => rfl
  | append_singleton samples s ih =>
      rw [ofSamples_concat, merge, name_record]
      exact ih

@[simp] theorem calls_ofSamples (name : String) (samples : List Sample) :
    (ofSamples name samples).calls = samples.length := by
  induction samples using List.reverseRecOn with
  | nil => rfl
  | append_singleton samples s ih =>
      rw [ofSamples_concat, merge, calls_record, ih, List.length_append, List.length_singleton]

/-- The samples that failed are counted as errors. -/
theorem errors_ofSamples (name : String) (samples : List Sample) :
    (ofSamples name samples).errors = samples.countP fun s => !s.succeeded := by
  induction samples using List.reverseRecOn with
  | nil => rfl
  | append_singleton samples s ih =>
      rw [ofSamples_concat, List.countP_append, ← ih, List.countP_singleton]
      show (if s.succeeded then _ else _) = _
      cases s.succeeded <;> rfl

/-- No more samples failed than were recorded. -/
theorem errors_le_calls (name : String) (samples : List Sample) :
    (ofSamples name samples).errors ≤ (ofSamples name samples).calls := by
  rw [errors_ofSamples, calls_ofSamples]
  exact List.countP_le_length

/-- The mean is the share of the final total, also before the first sample. -/
theorem mean_ofSamples (name : String) (samples : List Sample) :
    (ofSamples name samples).mean = (ofSamples name samples).total.share samples.length := by
  rcases List.eq_nil_or_concat samples with rfl | ⟨before, s, rfl⟩
  · rfl
  · rw [List.concat_eq_append, ofSamples_concat, List.length_append, List.length_singleton,
      ← calls_ofSamples name before]
    rfl

theorem total_concat (name : String) (samples : List Sample) (s : Sample) :
    (ofSamples name (samples ++ [s])).total = (ofSamples name samples).total + s.duration := by
  rw [ofSamples_concat]
  rfl

theorem least_concat (name : String) (samples : List Sample) (s : Sample) :
    (ofSamples name (samples ++ [s])).least.toInt
      = min (ofSamples name samples).least.toInt s.duration.toInt := by
  rw [ofSamples_concat]
  exact Nanos.toInt_min _ _

theorem greatest_concat (name : String) (samples : List Sample) (s : Sample) :
    (ofSamples name (samples ++ [s])).greatest.toInt
      = max (ofSamples name samples).greatest.toInt s.duration.toInt := by
  rw [ofSamples_concat]
  exact Nanos.toInt_max _ _

theorem least_le_of_mem (name : String) {samples : List Sample} {s : Sample} (h : s ∈ samples) :
    (ofSamples name samples).least.toInt ≤ s.duration.toInt := by
  induction samples using List.reverseRecOn with
  | nil => exact absurd h List.not_mem_nil
  | append_singleton samples last ih =>
      rw [least_concat]
      rcases List.mem_append.mp h with h | h
      · have hbefore := ih h
        omega
      · rw [List.mem_singleton.mp h]
        omega

theorem le_greatest_of_mem (name : String) {samples : List Sample} {s : Sample} (h : s ∈ samples) :
    s.duration.toInt ≤ (ofSamples name samples).greatest.toInt := by
  induction samples using List.reverseRecOn with
  | nil => exact absurd h List.not_mem_nil
  | append_singleton samples last ih =>
      rw [greatest_concat]
      rcases List.mem_append.mp h with h | h
      · have hbefore := ih h
        omega
      · rw [List.mem_singleton.mp h]
        omega

/-- The first sample replaces the least duration that a profile starts with. -/
theorem exists_least (name : String) {samples : List Sample} (h : samples ≠ []) :
    ∃ s ∈ samples, s.duration.toInt = (ofSamples name samples).least.toInt := by
  induction samples using List.reverseRecOn with
  | nil => exact absurd rfl h
  | append_singleton samples last ih =>
      rw [least_concat]
      have htop := last.duration.le_greatest
      by_cases hless : last.duration.toInt ≤ (ofSamples name samples).least.toInt
      · exact ⟨last, List.mem_append_right _ (List.mem_singleton_self last), by omega⟩
      · have hne : samples ≠ [] := by
          rintro rfl
          exact hless htop
        obtain ⟨s, hs, heq⟩ := ih hne
        exact ⟨s, List.mem_append_left _ hs, by omega⟩

/-- The greatest duration is that of a sample, or the zero that a profile starts with. -/
theorem greatest_cases (name : String) (samples : List Sample) :
    (ofSamples name samples).greatest.toInt = 0 ∨
      ∃ s ∈ samples, s.duration.toInt = (ofSamples name samples).greatest.toInt := by
  induction samples using List.reverseRecOn with
  | nil => exact Or.inl rfl
  | append_singleton samples last ih =>
      rw [greatest_concat]
      by_cases hmore : (ofSamples name samples).greatest.toInt ≤ last.duration.toInt
      · exact Or.inr ⟨last, List.mem_append_right _ (List.mem_singleton_self last), by omega⟩
      · rcases ih with hzero | ⟨s, hs, heq⟩
        · exact Or.inl (by omega)
        · exact Or.inr ⟨s, List.mem_append_left _ hs, by omega⟩

theorem zero_le_greatest (name : String) (samples : List Sample) :
    0 ≤ (ofSamples name samples).greatest.toInt := by
  induction samples using List.reverseRecOn with
  | nil => exact Int.le_refl 0
  | append_singleton samples last ih =>
      rw [greatest_concat]
      omega

/-- **The least duration** is the least of the samples. -/
theorem isLeast_least (name : String) {samples : List Sample} (h : samples ≠ []) :
    IsLeast {d | d ∈ samples.map fun s => s.duration.toInt} (ofSamples name samples).least.toInt := by
  constructor
  · obtain ⟨s, hs, heq⟩ := exists_least name h
    exact List.mem_map.mpr ⟨s, hs, heq⟩
  · intro d hd
    obtain ⟨s, hs, rfl⟩ := List.mem_map.mp hd
    exact least_le_of_mem name hs

/-- **The greatest duration** is the greatest of the samples, unless all of them are negative. -/
theorem isGreatest_greatest (name : String) {samples : List Sample} (h : samples ≠ [])
    (hdurations : ∀ s ∈ samples, 0 ≤ s.duration.toInt) :
    IsGreatest {d | d ∈ samples.map fun s => s.duration.toInt} (ofSamples name samples).greatest.toInt := by
  constructor
  · rcases greatest_cases name samples with hzero | ⟨s, hs, heq⟩
    · -- all durations are zero then, and there is one
      obtain ⟨s, hs⟩ := List.exists_mem_of_ne_nil samples h
      have hle := le_greatest_of_mem name hs
      have hnonneg := hdurations s hs
      exact List.mem_map.mpr ⟨s, hs, by omega⟩
    · exact List.mem_map.mpr ⟨s, hs, heq⟩
  · intro d hd
    obtain ⟨s, hs, rfl⟩ := List.mem_map.mp hd
    exact le_greatest_of_mem name hs

/-- After the first sample the least duration is no more than the greatest. -/
theorem least_le_greatest (name : String) {samples : List Sample} (h : samples ≠ []) :
    (ofSamples name samples).least.toInt ≤ (ofSamples name samples).greatest.toInt := by
  obtain ⟨s, hs⟩ := List.exists_mem_of_ne_nil samples h
  exact Int.le_trans (least_le_of_mem name hs) (le_greatest_of_mem name hs)

/-- **The total** is the sum of the durations, up to the top of the range. -/
theorem total_ofSamples (name : String) {samples : List Sample}
    (hdurations : ∀ s ∈ samples, 0 ≤ s.duration.toInt) :
    (ofSamples name samples).total.toInt
      = min (samples.map fun s => s.duration.toInt).sum 9223372036854775807 := by
  induction samples using List.reverseRecOn with
  | nil => rfl
  | append_singleton samples s ih =>
      have hbefore := ih fun t ht => hdurations t (List.mem_append_left _ ht)
      have hs : 0 ≤ s.duration.toInt := hdurations s (List.mem_append_right _ (List.mem_singleton_self s))
      have hadd : (ofSamples name (samples ++ [s])).total.toInt
          = min ((ofSamples name samples).total.toInt + s.duration.toInt) 9223372036854775807 := by
        rw [total_concat]
        exact Nanos.toInt_add_of_nonneg _ hs
      rw [hadd, hbefore, List.map_append, List.sum_append, List.map_singleton, List.sum_singleton]
      omega

/-! ## Order -/

/-- Two samples without negative durations can be recorded in either order. -/
theorem merge_right_comm (p : Profile) {s t : Sample} (hs : 0 ≤ s.duration.toInt)
    (ht : 0 ≤ t.duration.toInt) : (p.merge s).merge t = (p.merge t).merge s := by
  have htotal : p.total + s.duration + t.duration = p.total + t.duration + s.duration := by
    apply Nanos.ext
    rw [Nanos.toInt_add_of_nonneg _ ht, Nanos.toInt_add_of_nonneg _ hs, Nanos.toInt_add_of_nonneg _ hs,
      Nanos.toInt_add_of_nonneg _ ht]
    omega
  have hleast : min (min p.least s.duration) t.duration = min (min p.least t.duration) s.duration := by
    apply Nanos.ext
    simp only [Nanos.toInt_min]
    omega
  have hgreatest : max (max p.greatest s.duration) t.duration = max (max p.greatest t.duration) s.duration := by
    apply Nanos.ext
    simp only [Nanos.toInt_max]
    omega
  have herrors : (if t.succeeded then (if s.succeeded then p.errors else p.errors + 1)
      else (if s.succeeded then p.errors else p.errors + 1) + 1)
      = (if s.succeeded then (if t.succeeded then p.errors else p.errors + 1)
        else (if t.succeeded then p.errors else p.errors + 1) + 1) := by
    cases s.succeeded <;> cases t.succeeded <;> rfl
  simp only [merge, record, htotal, hleast, hgreatest, herrors]

/-- **The order of samples does not matter** as long as no duration is negative. -/
theorem ofSamples_perm (name : String) {samples other : List Sample} (h : samples.Perm other)
    (hdurations : ∀ s ∈ samples, 0 ≤ s.duration.toInt) : ofSamples name samples = ofSamples name other := by
  refine h.foldl_eq' ?_ (empty name)
  intro s hs t ht p
  exact merge_right_comm p (hdurations s hs) (hdurations t ht)

/-! ## Summaries -/

/-- The profile tells of the samples all that a profile can: how many there were and how many of them failed,
    the extremes of their durations, the sum up to the top of the range, and its share per sample. -/
structure Summarizes (p : Profile) (samples : List Sample) : Prop where
  calls : p.calls = samples.length
  errors : p.errors = samples.countP fun s => !s.succeeded
  least : IsLeast {d | d ∈ samples.map fun s => s.duration.toInt} p.least.toInt
  greatest : IsGreatest {d | d ∈ samples.map fun s => s.duration.toInt} p.greatest.toInt
  total : p.total.toInt = min (samples.map fun s => s.duration.toInt).sum 9223372036854775807
  mean : p.mean = p.total.share samples.length

/-- **The closed form** of a profile. -/
theorem summarizes_ofSamples (name : String) {samples : List Sample} (h : samples ≠ [])
    (hdurations : ∀ s ∈ samples, 0 ≤ s.duration.toInt) : (ofSamples name samples).Summarizes samples where
  calls := calls_ofSamples name samples
  errors := errors_ofSamples name samples
  least := isLeast_least name h
  greatest := isGreatest_greatest name h hdurations
  total := total_ofSamples name hdurations
  mean := mean_ofSamples name samples

/-! ## More samples -/

/-- With more samples, in whatever order, the least duration can only fall. -/
theorem least_antitone (name : String) {samples more : List Sample} (h : samples ⊆ more) :
    (ofSamples name more).least ≤ (ofSamples name samples).least := by
  rw [Nanos.le_def]
  by_cases hne : samples = []
  · rw [hne]
    exact Nanos.le_greatest _
  · obtain ⟨s, hs, heq⟩ := exists_least name hne
    rw [← heq]
    exact least_le_of_mem name (h hs)

/-- With more samples, in whatever order, the greatest duration can only rise. -/
theorem greatest_mono (name : String) {samples more : List Sample} (h : samples ⊆ more) :
    (ofSamples name samples).greatest ≤ (ofSamples name more).greatest := by
  rw [Nanos.le_def]
  rcases greatest_cases name samples with hzero | ⟨s, hs, heq⟩
  · rw [hzero]
    exact zero_le_greatest name more
  · rw [← heq]
    exact le_greatest_of_mem name (h hs)

/-- **More samples in front**: counts can only rise, and the extremes can only move apart. -/
theorem ofSamples_append (name : String) (earlier samples : List Sample) :
    let p := ofSamples name samples
    let q := ofSamples name (earlier ++ samples)
    p.calls ≤ q.calls ∧ p.errors ≤ q.errors ∧ q.least ≤ p.least ∧ p.greatest ≤ q.greatest := by
  intro p q
  have hmore : samples ⊆ earlier ++ samples := List.subset_append_right earlier samples
  refine ⟨?_, ?_, least_antitone name hmore, greatest_mono name hmore⟩
  · rw [calls_ofSamples, calls_ofSamples, List.length_append]
    omega
  · rw [errors_ofSamples, errors_ofSamples, List.countP_append]
    omega

/-! ## Many profiles -/

/-- The calls that profiles count, taken together. -/
def callsOf (profiles : List Profile) : Nat :=
  (profiles.map Profile.calls).sum

theorem callsOf_append (profiles more : List Profile) :
    callsOf (profiles ++ more) = callsOf profiles + callsOf more := by
  rw [callsOf, List.map_append, List.sum_append, callsOf, callsOf]

theorem length_le_callsOf {profiles : List Profile} (h : ∀ p ∈ profiles, 1 ≤ p.calls) :
    profiles.length ≤ callsOf profiles := by
  have hsum := List.length_le_sum_of_one_le (profiles.map Profile.calls) (List.forall_mem_map.mpr h)
  rw [List.length_map] at hsum
  exact hsum

end Profile

end SampleProfiler
