import SampleProfiler.Proofs.Statistics

/-!
# `SampleProfiler.Proofs.Extremes` — the extremes of signed durations

Both extremes of a profile are folds that start from a value of their own. The least duration starts at the top of
the range, where no sample can be above it, so it is always that of a sample. The greatest starts at zero, and
zero is above every negative duration: it takes part like one more sample, and it stays as long as a clock runs
backwards at every call. So the greatest duration is that of a sample exactly when some duration is not negative.

## Contents
- **With the zero.** `isGreatest_insert_zero`: the greatest duration, the starting zero counted in.
- **Without it.** `greatest_eq_zero`, and `isGreatest_greatest_iff`.
- **Both extremes.** `extremes_ofSamples`.
-/

namespace SampleProfiler.Profile

/-! ## With the zero -/

/-- **The greatest duration** is the greatest of the samples and of the zero that it starts from. -/
theorem isGreatest_insert_zero (name : String) (samples : List Sample) :
    IsGreatest {d | d = 0 ∨ d ∈ samples.map fun s => s.duration.toInt} (ofSamples name samples).greatest.toInt := by
  constructor
  · rcases greatest_cases name samples with hzero | ⟨s, hs, heq⟩
    · exact Or.inl hzero
    · exact Or.inr (List.mem_map.mpr ⟨s, hs, heq⟩)
  · rintro d (rfl | hd)
    · exact zero_le_greatest name samples
    · obtain ⟨s, hs, rfl⟩ := List.mem_map.mp hd
      exact le_greatest_of_mem name hs

/-! ## Without it -/

/-- No negative duration replaces the zero. -/
theorem greatest_eq_zero (name : String) {samples : List Sample} (h : ∀ s ∈ samples, s.duration.toInt < 0) :
    (ofSamples name samples).greatest = .zero := by
  apply Nanos.ext
  rcases greatest_cases name samples with hzero | ⟨s, hs, heq⟩
  · exact hzero
  · have hneg := h s hs
    have hnonneg := zero_le_greatest name samples
    omega

/-- The greatest duration is that of a sample as soon as one of them is not negative, and only then. -/
theorem isGreatest_greatest_iff (name : String) (samples : List Sample) :
    IsGreatest {d | d ∈ samples.map fun s => s.duration.toInt} (ofSamples name samples).greatest.toInt ↔
      ∃ s ∈ samples, 0 ≤ s.duration.toInt := by
  obtain ⟨hmem, hupper⟩ := isGreatest_insert_zero name samples
  constructor
  · rintro ⟨hsample, _⟩
    obtain ⟨s, hs, heq⟩ := List.mem_map.mp hsample
    exact ⟨s, hs, heq ▸ zero_le_greatest name samples⟩
  · rintro ⟨s, hs, hnonneg⟩
    refine ⟨?_, fun d hd => hupper (Or.inr hd)⟩
    rcases hmem with hzero | hsample
    · -- the zero can only be the greatest if the sample at hand has no other duration
      have hle : s.duration.toInt ≤ (ofSamples name samples).greatest.toInt := le_greatest_of_mem name hs
      exact List.mem_map.mpr ⟨s, hs, by omega⟩
    · exact hsample

/-! ## Both extremes -/

/-- **The extremes of signed durations.** After the first sample the least duration is the least of the samples,
    whatever their signs are. The greatest is the greatest of the samples if one of them is not negative; if all
    of them are negative, it is the zero that a profile starts with. -/
theorem extremes_ofSamples (name : String) {samples : List Sample} (h : samples ≠ []) :
    let p := ofSamples name samples
    let durations := samples.map fun s => s.duration.toInt
    IsLeast {d | d ∈ durations} p.least.toInt ∧
    (IsGreatest {d | d ∈ durations} p.greatest.toInt ↔ ∃ s ∈ samples, 0 ≤ s.duration.toInt) ∧
    ((∀ s ∈ samples, s.duration.toInt < 0) → p.greatest = .zero) := by
  intro p durations
  exact ⟨isLeast_least name h, isGreatest_greatest_iff name samples, greatest_eq_zero name⟩

/-- Two calls that seemed to end before they began: the least duration is that of the first, the greatest is that
    of neither. -/
theorem extremes_ofSamples_negative :
    let samples : List Sample := [⟨"a", .clamp (-5), true, .reading 0⟩, ⟨"a", .clamp (-3), false, .reading 1⟩]
    let p := ofSamples "a" samples
    samples ≠ [] ∧ p.least = .clamp (-5) ∧ p.greatest = .zero ∧
      ¬ IsGreatest {d | d ∈ samples.map fun s => s.duration.toInt} p.greatest.toInt := by
  intro samples p
  have hne : samples ≠ [] := List.cons_ne_nil _ _
  obtain ⟨_, hgreatest, hzero⟩ := extremes_ofSamples "a" hne
  exact ⟨hne, by decide, hzero (by decide), fun hsample => absurd (hgreatest.mp hsample) (by decide)⟩

/-- **The starting zero can outlive all samples**: one negative duration is enough. -/
theorem not_isGreatest_greatest :
    ¬ ∀ (name : String) (samples : List Sample), samples ≠ [] →
      IsLeast {d | d ∈ samples.map fun s => s.duration.toInt} (ofSamples name samples).least.toInt ∧
        IsGreatest {d | d ∈ samples.map fun s => s.duration.toInt} (ofSamples name samples).greatest.toInt := by
  intro hextremes
  let samples : List Sample := [⟨"a", .clamp (-5), true, .reading 0⟩]
  have hsample := (hextremes "a" samples (List.cons_ne_nil _ _)).2.1
  exact absurd hsample (by decide)

end SampleProfiler.Profile
