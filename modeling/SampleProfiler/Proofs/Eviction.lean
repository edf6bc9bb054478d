import SampleProfiler.Proofs.History
import SampleProfiler.Proofs.Lru

/-!
# `SampleProfiler.Proofs.Eviction` — which names are tracked, and how many were evicted

A registry decides by stamps which name it evicts. Seen from outside only the samples since the last clear
count: `Registry.Reflects` says that the stored state is the one which least-recently-used eviction prescribes
for them, one sample keeps it (`Reflects.take`), and so it holds after every run of calls
(`reflects_after`). Reads are calls of such a run and change nothing.

Stamps are natural numbers here. `clock_after` says how far they get: one for each sample ever received, so a
64-bit clock shows the same as long as fewer than `2^64` samples are.
-/

namespace SampleProfiler.Registry

open Recency

/-- The registry holds what a map of `max bound 1` names holds after the given samples: the names rank by
    their last use, and every miss either added a name or evicted one. -/
structure Reflects (bound : Nat) (r : Registry) (past : List Sample) : Prop where
  ordered : r.tracked.Ordered
  bounded : r.tracked.bound = max bound 1
  ranking : r.tracked.ranking = recent (max bound 1) (past.map Sample.name)
  evictions : r.evictions + r.tracked.size = misses (max bound 1) [] (past.map Sample.name)

variable {bound : Nat} {r : Registry} {past : List Sample}

theorem reflects_empty (bound : Nat) : Reflects bound (empty bound) [] where
  ordered := Lru.ordered_empty bound
  bounded := rfl
  ranking := (Lru.ranking_of_nil rfl).trans (recent_nil _).symm
  evictions := rfl

theorem Reflects.clear (h : Reflects bound r past) : Reflects bound r.clear.1 [] where
  ordered := h.ordered.clear
  bounded := h.bounded
  ranking := (Lru.ranking_of_nil rfl).trans (recent_nil _).symm
  evictions := rfl

theorem Reflects.countBatch (h : Reflects bound r past) (n : Nat) : Reflects bound (r.countBatch n) past :=
  ⟨h.ordered, h.bounded, h.ranking, h.evictions⟩

/-- A tracked name is a recent one. -/
theorem Reflects.contains_iff (h : Reflects bound r past) {name : String} :
    r.contains name = true ↔ name ∈ recent (max bound 1) (past.map Sample.name) := by
  rw [← h.ranking, Lru.mem_ranking]
  exact Lru.contains_iff_mem_names

/-- **One sample**: what falls out of the registry is what falls behind the bound in the order of use. -/
theorem Reflects.take (h : Reflects bound r past) (s : Sample) :
    Reflects bound (r.take s).1 (past ++ [s]) := by
  have hordered := h.ordered.visit s.name (Profile.empty s.name)
  have hmap : (past ++ [s]).map Sample.name = past.map Sample.name ++ [s.name] := List.map_append
  refine ⟨?_, ?_, ?_, ?_⟩
  · rw [tracked_take]
    exact hordered.update _ _
  · rw [tracked_take]
    exact (Lru.bound_visit _ _ _).trans h.bounded
  · rw [tracked_take, Lru.ranking_update hordered, Lru.ranking_visit h.ordered, h.ranking, h.bounded, hmap,
      recent_concat]
  · -- a miss either adds a name or evicts one, so it counts once on both sides
    have hsize := Lru.size_visit h.ordered s.name (Profile.empty s.name)
    have hold := h.evictions
    have hupdate : (r.take s).1.tracked.size = (r.tracked.visit s.name (Profile.empty s.name)).2.size := by
      rw [tracked_take, Lru.size, Lru.update, List.length_map, Lru.size]
    rw [h.ranking] at hsize
    rw [evictions_take, hupdate, hmap, misses_concat]
    omega

/-- **Every run**: the stored state is the one that the samples since the last clear prescribe. -/
theorem reflects_after (bound : Nat) (calls : List Call) :
    Reflects bound ((empty bound).after calls) (sinceClear calls) :=
  after_induction (reflects_empty bound) (fun _ _ h => h.clear)
    (receive_induction (fun _ _ n h => h.countBatch n) (fun _ _ s h => h.take s)) calls

theorem clock_absorb (r : Registry) (samples : List Sample) :
    (r.absorb samples).tracked.clock = r.tracked.clock + samples.length := by
  induction samples generalizing r with
  | nil => rfl
  | cons s rest ih =>
      have hone : (r.take s).1.tracked.clock = r.tracked.clock + 1 := by
        rw [tracked_take]
        exact Lru.clock_visit _ _ _
      rw [absorb, List.foldl_cons, ← absorb, ih (r.take s).1, hone, List.length_cons]
      omega

/-- One stamp is drawn for each sample ever received; clearing does not turn the clock back. -/
theorem clock_after (bound : Nat) (calls : List Call) :
    ((empty bound).after calls).tracked.clock = (everReceived calls).length := by
  induction calls using List.reverseRecOn with
  | nil => rfl
  | append_singleton calls call ih =>
      have hever : everReceived (calls ++ [call]) = everReceived calls ++ call.batch := by
        rw [everReceived, List.flatMap_append, List.flatMap_singleton, everReceived]
      rw [after_concat, hever, List.length_append, ← ih]
      cases call with
      | receive batch =>
          by_cases hbatch : batch = []
          · rw [hbatch]
            rfl
          · have hreceive := receive_fst hbatch ((empty bound).after calls)
            rw [perform, hreceive, clock_absorb]
            rfl
      | clear => rfl
      | contains name => rfl
      | profile name => rfl
      | listing => rfl
      | totals => rfl

/-- **Exact least-recently-used eviction.** After any run of calls on a new registry the tracked names are the
    `max bound 1` most recently used distinct names since the last clear, ranked by their last use, and the
    evictions are the misses since then less the names that are tracked. -/
theorem tracked_after_eq_recent (bound : Nat) (calls : List Call) :
    let r := (empty bound).after calls
    let uses := (sinceClear calls).map Sample.name
    r.tracked.ranking = recent (max bound 1) uses ∧
      r.tracked.names.Perm (uses.dedup.reverse.take (max bound 1)) ∧
      (∀ name, r.contains name = true ↔ name ∈ recent (max bound 1) uses) ∧
      r.totals.evictions + r.totals.operations = misses (max bound 1) [] uses ∧
      r.tracked.clock = (everReceived calls).length := by
  intro r uses
  have h : Reflects bound r (sinceClear calls) := reflects_after bound calls
  refine ⟨h.ranking, ?_, fun name => h.contains_iff, h.evictions, clock_after bound calls⟩
  rw [← order_eq_reverse_dedup, ← recent, ← h.ranking]
  exact r.tracked.ranking_perm.symm

end SampleProfiler.Registry
