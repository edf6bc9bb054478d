import Mathlib.Data.List.Dedup
import SampleProfiler.Proofs.Contents
import SampleProfiler.Proofs.Gathering

/-!
# `SampleProfiler.Proofs.Reordering` — the order of merging without evictions

Calls, errors and extremes of a profile never depend on the order of its samples. Its total does: a sum that stopped
at one end of the range has lost what a later duration of the other sign would have taken off. `Profile.OrderFree`
names the samples for which this cannot happen, because durations have no second sign or sums never reach an end
of the range, and then the whole profile is the same for every order.

A registry with room for all names evicts nothing. It keeps of every name all samples, so its listing can be read off
the received samples (`Keeps.listing_eq`), and neither their order nor the cuts between the batches can be read
off the listing (`listing_after_eq_of_perm`).

## Contents
- **One profile.** `Profile.OrderFree`, and `Profile.ofSamples_eq_of_perm`.
- **Room for all names.** Recent names and stretches when nothing falls out of reach.
- **Listings.** `increasing`, names by increasing order, and what a listing shows of each.
- **All batches.** `listing_after_eq_of_perm`.
-/

namespace SampleProfiler

attribute [ext] Profile

/-! ## One profile -/

namespace Profile

variable {samples other : List Sample}

/-- Samples whose total is the same in every order: no duration is negative, or no sum of them can reach an end
    of the range. -/
def OrderFree (samples : List Sample) : Prop :=
  (∀ s ∈ samples, 0 ≤ s.duration.toInt) ∨
    (samples.map fun s => s.duration.toInt.natAbs).sum ≤ 9223372036854775807

instance (samples : List Sample) : Decidable (OrderFree samples) :=
  inferInstanceAs (Decidable (_ ∨ _))

theorem natAbs_sum_le (samples : List Sample) :
    (samples.map fun s : Sample => s.duration.toInt).sum.natAbs ≤ (samples.map fun s => s.duration.toInt.natAbs).sum := by
  induction samples with
  | nil => exact Nat.le_refl 0
  | cons s rest ih =>
      rw [List.map_cons, List.sum_cons, List.map_cons, List.sum_cons]
      exact Nat.le_trans (Int.natAbs_add_le _ _) (Nat.add_le_add_left ih _)

/-- A total that cannot reach an end of the range is the sum of the durations. -/
theorem total_eq_sum (name : String)
    (h : (samples.map fun s => s.duration.toInt.natAbs).sum ≤ 9223372036854775807) :
    (ofSamples name samples).total.toInt = (samples.map fun s => s.duration.toInt).sum := by
  induction samples using List.reverseRecOn with
  | nil => rfl
  | append_singleton samples s ih =>
      -- the sum up to the last sample is in the range as well as the sum with it
      have hwhole := natAbs_sum_le (samples ++ [s])
      simp only [List.map_append, List.sum_append, List.map_singleton, List.sum_singleton] at h hwhole ⊢
      rw [total_concat, Nanos.toInt_add, ih (by omega)]
      omega

/-- The total is all that the order of samples can change. -/
theorem ofSamples_eq_of_total_eq (name : String) (h : samples.Perm other)
    (htotal : (ofSamples name samples).total = (ofSamples name other).total) :
    ofSamples name samples = ofSamples name other := by
  apply Profile.ext
  · rw [name_ofSamples, name_ofSamples]
  · rw [calls_ofSamples, calls_ofSamples, h.length_eq]
  · rw [errors_ofSamples, errors_ofSamples, h.countP_eq]
  · exact htotal
  · exact Nanos.ext (Int.le_antisymm (least_antitone name h.symm.subset) (least_antitone name h.subset))
  · exact Nanos.ext (Int.le_antisymm (greatest_mono name h.subset) (greatest_mono name h.symm.subset))
  · rw [mean_ofSamples, mean_ofSamples, htotal, h.length_eq]

/-- **Samples whose total cannot depend on their order** have one profile, whatever their order is. -/
theorem ofSamples_eq_of_perm (name : String) (h : samples.Perm other) (hfree : OrderFree samples) :
    ofSamples name samples = ofSamples name other := by
  rcases hfree with hnonneg | hsmall
  · exact ofSamples_perm name h hnonneg
  · apply ofSamples_eq_of_total_eq name h
    have hother : (other.map fun s => s.duration.toInt.natAbs).sum ≤ 9223372036854775807 := by
      rw [← (h.map fun s => s.duration.toInt.natAbs).sum_eq]
      exact hsmall
    apply Nanos.ext
    rw [total_eq_sum name hsmall, total_eq_sum name hother]
    exact (h.map fun s => s.duration.toInt).sum_eq

/-- Otherwise the order can matter: the second sum stops at the top one sample earlier. -/
example :
    let s : Sample := ⟨"a", .greatest, true, .reading 0⟩
    let t : Sample := ⟨"a", .least, true, .reading 1⟩
    (ofSamples "a" [s, t, s]).total ≠ (ofSamples "a" [s, s, t]).total := by
  decide

end Profile

/-! ## Room for all names -/

namespace Recency

variable {bound : Nat}

/-- No name is out of reach while there is room for all. -/
theorem mem_recent_iff {names : List String} (hroom : names.dedup.length ≤ bound) {x : String} :
    x ∈ recent bound names ↔ x ∈ names := by
  have hall : (order names).length ≤ bound := by
    rw [order_eq_reverse_dedup, List.length_reverse]
    exact hroom
  rw [recent, List.take_of_length_le hall, mem_order]

/-- With room for all names, the stretch of a name never breaks. -/
theorem stretch_eq_filter (name : String) {samples : List Sample}
    (hroom : (distinctNames samples).length ≤ bound) :
    stretch bound name samples = samples.filter fun s => s.name = name := by
  induction samples using List.reverseRecOn with
  | nil => rfl
  | append_singleton samples s ih =>
      have hfewer : (distinctNames samples).length ≤ (distinctNames (samples ++ [s])).length :=
        ((nodup_distinctNames samples).subperm
          (distinctNames_mono (List.subset_append_left samples [s]))).length_le
      have hbefore : (distinctNames samples).length ≤ bound := Nat.le_trans hfewer hroom
      rw [List.filter_append, ← ih hbefore]
      by_cases hs : s.name = name
      · subst hs
        have hself : [s].filter (fun t => t.name = s.name) = [s] := List.filter_cons_of_pos (decide_eq_true rfl)
        rw [stretch_concat_self, hself]
        by_cases hseen : s.name ∈ samples.map Sample.name
        · rw [if_pos ((mem_recent_iff hbefore).mpr hseen)]
        · rw [if_neg (mt mem_of_mem_recent hseen), stretch_of_notMem hseen]
      · rw [stretch_concat_of_ne hs, List.filter_cons_of_neg (by simpa using hs), List.filter_nil, List.append_nil]

end Recency

namespace Registry

open Recency

/-! ## Listings -/

/-- Names in increasing order. -/
def increasing (names : List String) : List String :=
  names.mergeSort fun a b => !decide (b < a)

theorem pairwise_increasing (names : List String) : (increasing names).Pairwise (· ≤ ·) := by
  have hsorted : (increasing names).Pairwise fun a b => (!decide (b < a)) = true := by
    apply List.pairwise_mergeSort
    · intro a b c hab hbc
      simp only [Bool.not_eq_true', decide_eq_false_iff_not, String.not_lt] at hab hbc ⊢
      exact String.le_trans hab hbc
    · intro a b
      simp only [Bool.or_eq_true, Bool.not_eq_true', decide_eq_false_iff_not, String.not_lt]
      exact String.le_total a b
  refine hsorted.imp ?_
  intro a b hab
  simp only [Bool.not_eq_true', decide_eq_false_iff_not, String.not_lt] at hab
  exact hab

/-- Names are arranged in one way. -/
theorem increasing_eq_of_perm {names other : List String} (h : names.Perm other) :
    increasing names = increasing other := by
  have hperm : (increasing names).Perm (increasing other) :=
    (List.mergeSort_perm _ _).trans (h.trans (List.mergeSort_perm _ _).symm)
  exact hperm.eq_of_pairwise (fun _ _ _ _ => String.le_antisymm) (pairwise_increasing names)
    (pairwise_increasing other)

variable {bound : Nat} {r : Registry} {past : List Sample}

/-- A listing shows the names in increasing order, each with its profile. -/
theorem listing_eq_map {f : String → Profile} (h : ∀ e ∈ r.tracked.entries, e.content = f e.name) :
    r.listing = (increasing r.tracked.names).map fun name => (name, f name) := by
  have hentries : (r.tracked.entries.map fun e => (e.name, e.content))
      = r.tracked.names.map fun name => (name, f name) := by
    rw [Lru.names, List.map_map]
    apply List.map_congr_left
    intro e he
    rw [h e he]
    rfl
  rw [listing, hentries, increasing, List.map_mergeSort]
  exact fun _ _ _ _ => rfl

/-- With room for all names, every name that was received is tracked. -/
theorem Keeps.names_perm (h : Keeps bound r past) (hroom : (distinctNames past).length ≤ max bound 1) :
    r.tracked.names.Perm (distinctNames past) := by
  refine (List.perm_ext_iff_of_nodup h.reflects.ordered.names (nodup_distinctNames past)).mpr ?_
  intro name
  rw [← Lru.contains_iff_mem_names, distinctNames, List.mem_dedup]
  exact h.reflects.contains_iff.trans (mem_recent_iff hroom)

/-- **The listing of a registry with room for all names**: each name that was received, with the profile of all
    its samples. -/
theorem Keeps.listing_eq (h : Keeps bound r past) (hroom : (distinctNames past).length ≤ max bound 1) :
    r.listing = (increasing (distinctNames past)).map fun name =>
      (name, Profile.ofSamples name (past.filter fun s => s.name = name)) := by
  rw [← increasing_eq_of_perm (h.names_perm hroom)]
  apply listing_eq_map
  intro e he
  rw [h.contents e.name e.content (Lru.find?_of_mem h.reflects.ordered.names he), stretch_eq_filter e.name hroom]

/-! ## All batches -/

theorem sinceClear_map_receive (batches : List (List Sample)) :
    sinceClear (batches.map .receive) = batches.flatten := by
  induction batches using List.reverseRecOn with
  | nil => rfl
  | append_singleton batches batch ih =>
      rw [List.map_append, List.map_singleton, sinceClear_concat, ih, List.flatten_append, List.flatten_singleton]
      rfl

/-- **Neither the order of samples nor the cuts between batches matter** to registries with room for all names, be
    the two bounds equal or not: if no total can depend on the order of its durations, the listings are equal, and
    show each name with the profile of all its samples. -/
theorem listing_after_eq_of_perm {batches others : List (List Sample)} {bound more : Nat}
    (h : batches.flatten.Perm others.flatten)
    (hroom : (distinctNames batches.flatten).length ≤ max bound 1)
    (hmore : (distinctNames batches.flatten).length ≤ max more 1)
    (hfree : ∀ name ∈ distinctNames batches.flatten,
      Profile.OrderFree (batches.flatten.filter fun s => s.name = name)) :
    let listing := ((empty bound).after (batches.map .receive)).listing
    listing = ((empty more).after (others.map .receive)).listing ∧
      listing = (increasing (distinctNames batches.flatten)).map fun name =>
        (name, Profile.ofSamples name (batches.flatten.filter fun s => s.name = name)) := by
  intro listing
  have hkeeps := keeps_after bound (batches.map .receive)
  have hothers := keeps_after more (others.map .receive)
  rw [sinceClear_map_receive] at hkeeps hothers
  have hnames : (distinctNames batches.flatten).Perm (distinctNames others.flatten) := distinctNames_perm h
  have hlisting := hkeeps.listing_eq hroom
  refine ⟨?_, hlisting⟩
  rw [hothers.listing_eq (hnames.length_eq ▸ hmore), ← increasing_eq_of_perm hnames]
  refine hlisting.trans (List.map_congr_left ?_)
  intro name hname
  rw [Profile.ofSamples_eq_of_perm name (h.filter _) (hfree name ((List.mergeSort_perm _ _).subset hname))]

/-- The total of `a` stops at the top in either order, and the durations of `b` have both signs. -/
theorem listing_after_eq_of_perm_stopped :
    let a : Sample := ⟨"a", .greatest, true, .reading 0⟩
    let b : Sample := ⟨"b", .clamp (-5), false, .reading 1⟩
    let c : Sample := ⟨"b", .clamp 3, true, .reading 2⟩
    let batches := [[a, b], [a, c]]
    let others := [[c], [], [b, a, a]]
    ((empty 2).after (batches.map .receive)).listing = ((empty 3).after (others.map .receive)).listing := by
  intro a b c batches others
  have hperm : batches.flatten.Perm others.flatten := by decide
  exact (listing_after_eq_of_perm hperm (by decide) (by decide) (by decide)).1

end Registry

end SampleProfiler
