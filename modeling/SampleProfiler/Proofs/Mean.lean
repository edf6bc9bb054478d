import SampleProfiler.Proofs.Statistics

/-!
# `SampleProfiler.Proofs.Mean` — the mean against the extremes

The mean of a profile is a share of its total, and the total is a running sum that stops at both ends of the
range, while the extremes are kept apart from it. This module compares the three. A sum that stops moves towards
zero, so the mean never exceeds the greatest duration, which is zero at least. The least duration is another
matter: when even as many calls of that duration are more than a total can hold, the total stops short of them and
the mean falls below all durations (`not_least_le_mean`). That is the only case (`mean_against_extremes`).

## Contents
- **Shares.** `Nanos.toInt_share`: a share needs no clamping, and what bounds it.
- **The total.** A bound on every duration, taken once for each sample, bounds the total.
- **The mean.** `mean_against_extremes`.
-/

namespace SampleProfiler

/-! ## Shares -/

namespace Nanos

variable {total : Nanos} {count : Nat} {b : Int}

/-- **A share needs no clamping**, because it is no further from zero than the total. -/
theorem toInt_share (total : Nanos) (count : Nat) : (total.share count).toInt = total.toInt.tdiv count := by
  have hlow := total.least_le
  have hhigh := total.le_greatest
  have hsize := Int.natAbs_tdiv_le_natAbs total.toInt count
  apply toInt_clamp
  · omega
  · by_cases hsign : 0 ≤ total.toInt
    · omega
    · -- the bottom of the range has no mirror image in it, but a share of it is not positive
      have hmirror : 0 ≤ (-total.toInt).tdiv count := Int.tdiv_nonneg (by omega) (Int.natCast_nonneg count)
      rw [Int.neg_tdiv] at hmirror
      omega

/-- A share is at least what every call has at least. -/
theorem le_toInt_share (hcount : 0 < count) (h : b * count ≤ total.toInt) : b ≤ (total.share count).toInt := by
  have hpos : (0 : Int) < count := Int.natCast_pos.mpr hcount
  rw [toInt_share]
  calc b = (b * count).tdiv count := (Int.mul_tdiv_cancel b (Int.ne_of_gt hpos)).symm
    _ ≤ total.toInt.tdiv count := Int.tdiv_le_tdiv hpos h

/-- A share is at most what every call has at most. -/
theorem toInt_share_le (hcount : 0 < count) (h : total.toInt ≤ b * count) : (total.share count).toInt ≤ b := by
  have hpos : (0 : Int) < count := Int.natCast_pos.mpr hcount
  rw [toInt_share]
  calc total.toInt.tdiv count ≤ (b * count).tdiv count := Int.tdiv_le_tdiv hpos h
    _ = b := Int.mul_tdiv_cancel b (Int.ne_of_gt hpos)

/-- A positive share comes from a total that is no less than all shares together. -/
theorem mul_le_of_le_share (hcount : 0 < count) (hb : 0 < b) (h : b ≤ (total.share count).toInt) :
    b * count ≤ total.toInt := by
  have hpos : (0 : Int) < count := Int.natCast_pos.mpr hcount
  have hnonneg : 0 ≤ total.toInt := by
    by_contra hneg
    have hle : (total.share count).toInt ≤ 0 := toInt_share_le hcount (by omega)
    omega
  rw [toInt_share] at h
  have hback := Int.tdiv_mul_le total.toInt (Int.ne_of_gt hpos)
  rw [if_pos hnonneg] at hback
  calc b * count ≤ total.toInt.tdiv count * count := Int.mul_le_mul_of_nonneg_right h (Int.le_of_lt hpos)
    _ ≤ total.toInt := by simpa using hback

end Nanos

namespace Profile

/-! ## The total -/

variable {samples : List Sample} {b : Int}

/-- One more of a number is a multiple of it more. -/
theorem mul_length_concat (b : Int) (samples : List Sample) (s : Sample) :
    b * (samples ++ [s]).length = b * samples.length + b := by
  rw [List.length_append, List.length_singleton, Int.natCast_add, Int.mul_add]
  simp

/-- **The total from below**: as long as it is in range, a lower bound of the durations, taken once for each
    sample, is a lower bound of the total, whether that stopped at an end of the range or not. -/
theorem mul_length_le_total (name : String) (hbound : ∀ s ∈ samples, b ≤ s.duration.toInt)
    (hrange : b * samples.length ≤ 9223372036854775807) :
    b * samples.length ≤ (ofSamples name samples).total.toInt := by
  induction samples using List.reverseRecOn with
  | nil => simp [ofSamples, empty, Nanos.zero]
  | append_singleton samples s ih =>
      have hs : b ≤ s.duration.toInt := hbound s (List.mem_append_right _ (List.mem_singleton_self s))
      rw [mul_length_concat] at hrange ⊢
      have hshorter : b * samples.length ≤ 9223372036854775807 := by
        by_cases hsign : 0 ≤ b
        · omega
        · have hneg : b * samples.length ≤ 0 :=
            Int.mul_nonpos_of_nonpos_of_nonneg (by omega) (Int.natCast_nonneg _)
          omega
      have hbefore := ih (fun t ht => hbound t (List.mem_append_left _ ht)) hshorter
      rw [total_concat, Nanos.toInt_add]
      omega

/-- **The total from above.** -/
theorem total_le_mul_length (name : String) (hbound : ∀ s ∈ samples, s.duration.toInt ≤ b) (hb : 0 ≤ b) :
    (ofSamples name samples).total.toInt ≤ b * samples.length := by
  induction samples using List.reverseRecOn with
  | nil => simp [ofSamples, empty, Nanos.zero]
  | append_singleton samples s ih =>
      have hs : s.duration.toInt ≤ b := hbound s (List.mem_append_right _ (List.mem_singleton_self s))
      have hbefore := ih fun t ht => hbound t (List.mem_append_left _ ht)
      have hnonneg : 0 ≤ b * samples.length := Int.mul_nonneg hb (Int.natCast_nonneg _)
      rw [mul_length_concat, total_concat, Nanos.toInt_add]
      omega

/-! ## The mean -/

theorem mean_le_greatest (name : String) (h : samples ≠ []) :
    (ofSamples name samples).mean ≤ (ofSamples name samples).greatest := by
  rw [Nanos.le_def, mean_ofSamples]
  apply Nanos.toInt_share_le (List.length_pos_iff.mpr h)
  exact total_le_mul_length name (fun s hs => le_greatest_of_mem name hs) (zero_le_greatest name samples)

/-- The mean falls below the least duration exactly when the total cannot hold that many calls of it. -/
theorem least_le_mean_iff (name : String) (h : samples ≠ []) :
    (ofSamples name samples).least ≤ (ofSamples name samples).mean ↔
      (ofSamples name samples).least.toInt * samples.length ≤ 9223372036854775807 := by
  have hcount : 0 < samples.length := List.length_pos_iff.mpr h
  rw [Nanos.le_def, mean_ofSamples]
  constructor
  · intro hle
    by_cases hsign : 0 < (ofSamples name samples).least.toInt
    · have htotal := Nanos.mul_le_of_le_share hcount hsign hle
      exact Int.le_trans htotal (Nanos.le_greatest _)
    · have hneg : (ofSamples name samples).least.toInt * samples.length ≤ 0 :=
        Int.mul_nonpos_of_nonpos_of_nonneg (by omega) (Int.natCast_nonneg _)
      omega
  · intro hrange
    apply Nanos.le_toInt_share hcount
    exact mul_length_le_total name (fun s hs => least_le_of_mem name hs) hrange

/-- **The mean against the extremes.** Whatever durations were recorded, and however often their running sum
    stopped at an end of the range, the mean is at most the greatest duration. It is at least the least one
    exactly when that many calls of the least duration fit into a total; so it is whenever a duration is not
    positive. -/
theorem mean_against_extremes (name : String) {samples : List Sample} (h : samples ≠ []) :
    let p := ofSamples name samples
    p.mean ≤ p.greatest ∧
    (p.least ≤ p.mean ↔ p.least.toInt * samples.length ≤ 9223372036854775807) ∧
    ((∃ s ∈ samples, s.duration.toInt ≤ 0) → p.least ≤ p.mean) := by
  intro p
  refine ⟨mean_le_greatest name h, least_le_mean_iff name h, ?_⟩
  rintro ⟨s, hs, hsign⟩
  apply (least_le_mean_iff name h).mpr
  have hleast : (ofSamples name samples).least.toInt ≤ 0 := Int.le_trans (least_le_of_mem name hs) hsign
  have hneg : (ofSamples name samples).least.toInt * samples.length ≤ 0 :=
    Int.mul_nonpos_of_nonpos_of_nonneg hleast (Int.natCast_nonneg _)
  omega

/-- The sum stops at the bottom with the second sample, and at the top with the last one. -/
theorem mean_against_extremes_stopped :
    let samples : List Sample := [⟨"a", .least, true, .reading 0⟩, ⟨"a", .least, false, .reading 1⟩,
      ⟨"a", .greatest, true, .reading 2⟩, ⟨"a", .greatest, true, .reading 3⟩, ⟨"a", .greatest, true, .reading 4⟩]
    let p := ofSamples "a" samples
    samples ≠ [] ∧ p.total = .greatest ∧ p.mean ≤ p.greatest ∧ p.least ≤ p.mean := by
  intro samples p
  have hne : samples ≠ [] := List.cons_ne_nil _ _
  obtain ⟨hgreatest, _, hleast⟩ := mean_against_extremes "a" hne
  exact ⟨hne, by decide, hgreatest, hleast ⟨_, List.mem_cons_self, by decide⟩⟩

/-- **The mean can be below all durations**: of two calls of the greatest duration the total holds one. -/
theorem not_least_le_mean :
    ¬ ∀ (name : String) (samples : List Sample), samples ≠ [] →
      (ofSamples name samples).least ≤ (ofSamples name samples).mean ∧
        (ofSamples name samples).mean ≤ (ofSamples name samples).greatest := by
  intro hbetween
  let samples : List Sample := [⟨"a", .greatest, true, .reading 0⟩, ⟨"a", .greatest, true, .reading 1⟩]
  have hle := (hbetween "a" samples (List.cons_ne_nil _ _)).1
  exact absurd hle (by decide)

end Profile

end SampleProfiler
