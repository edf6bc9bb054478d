import SampleProfiler.Proofs.Eviction
import SampleProfiler.Proofs.Statistics
import SampleProfiler.Proofs.Stretch

/-!
# `SampleProfiler.Proofs.Contents` — what a tracked profile holds

An eviction throws a profile away, and its name may come back later, with an empty profile. So the profile of
a tracked name holds the samples of the name since it was last out of reach: `Registry.Keeps` states this for
one registry, `keeps_after` for every run, and `profile_after_eq_fold` in terms of positions in the received
samples.
-/

namespace SampleProfiler

namespace Registry

open Recency

theorem find?_take_self (r : Registry) (s : Sample) :
    (r.take s).1.tracked.find? s.name
      = some (((r.tracked.find? s.name).getD (.empty s.name)).merge s) := by
  rw [tracked_take, Lru.find?_update, if_pos rfl, Lru.find?_visit_self, Option.map_some]

theorem find?_of_take {r : Registry} {s : Sample} {name : String} {p : Profile} (hne : name ≠ s.name)
    (h : (r.take s).1.tracked.find? name = some p) : r.tracked.find? name = some p := by
  rw [tracked_take, Lru.find?_update, if_neg hne] at h
  exact Lru.find?_of_visit hne h

/-- Every tracked profile holds the samples of its name since the name was last out of reach. -/
structure Keeps (bound : Nat) (r : Registry) (past : List Sample) : Prop where
  reflects : Reflects bound r past
  contents : ∀ name p, r.tracked.find? name = some p →
    p = Profile.ofSamples name (stretch (max bound 1) name past)

variable {bound : Nat} {r : Registry} {past : List Sample}

theorem keeps_empty (bound : Nat) : Keeps bound (empty bound) [] where
  reflects := reflects_empty bound
  contents := by
    intro _ p hp
    exact absurd hp.symm (Option.some_ne_none p)

theorem Keeps.clear (h : Keeps bound r past) : Keeps bound r.clear.1 [] where
  reflects := h.reflects.clear
  contents := by
    intro _ p hp
    exact absurd hp.symm (Option.some_ne_none p)

theorem Keeps.countBatch (h : Keeps bound r past) (n : Nat) : Keeps bound (r.countBatch n) past :=
  ⟨h.reflects.countBatch n, h.contents⟩

theorem Keeps.take (h : Keeps bound r past) (s : Sample) : Keeps bound (r.take s).1 (past ++ [s]) := by
  refine ⟨h.reflects.take s, ?_⟩
  intro name p hp
  by_cases hname : name = s.name
  · subst hname
    rw [find?_take_self] at hp
    rw [← Option.some.inj hp, stretch_concat_self, Profile.ofSamples_concat]
    cases hfound : r.tracked.find? s.name with
    | none =>
        -- the name is new or was evicted, so it is not recent and its stretch starts anew
        have habsent : ¬ r.contains s.name = true := by
          rw [contains, Lru.contains, hfound]
          exact Bool.false_ne_true
        rw [if_neg (mt h.reflects.contains_iff.mpr habsent)]
        rfl
    | some q =>
        have hpresent : r.contains s.name = true := by
          rw [contains, Lru.contains, hfound]
          rfl
        rw [if_pos (h.reflects.contains_iff.mp hpresent), Option.getD_some, h.contents s.name q hfound]
  · rw [stretch_concat_of_ne (Ne.symm hname)]
    exact h.contents name p (find?_of_take hname hp)

theorem keeps_after (bound : Nat) (calls : List Call) :
    Keeps bound ((empty bound).after calls) (sinceClear calls) :=
  after_induction (keeps_empty bound) (fun _ _ h => h.clear)
    (receive_induction (fun _ _ n h => h.countBatch n) (fun _ _ s h => h.take s)) calls

/-- **Exact contents under eviction and return.** After any run of calls the profile of a tracked name is the
    record of the samples of the name from the earliest position on from which fewer than `max bound 1`
    distinct other names lie between any two consecutive ones. -/
theorem profile_after_eq_fold (bound : Nat) (calls : List Call) (name : String)
    (h : ((empty bound).after calls).contains name = true) :
    ∃ p, IsLeast (UnbrokenFrom (max bound 1) name (sinceClear calls)) p ∧
      ((empty bound).after calls).profile name
        = .ok (((sinceClear calls).drop p |>.filter fun s => s.name = name).foldl Profile.merge
            (Profile.empty name)) := by
  have hkeeps := keeps_after bound calls
  have hmem := mem_of_mem_recent (hkeeps.reflects.contains_iff.mp h)
  obtain ⟨p, hleast, hstretch⟩ := stretch_eq_filter_drop (max bound 1) hmem
  obtain ⟨q, hq⟩ := Option.isSome_iff_exists.mp h
  refine ⟨p, hleast, ?_⟩
  rw [profile, hq, hkeeps.contents name q hq, hstretch]
  rfl

/-- A registry for one name: the second batch evicts `a` and brings it back, so its failure is forgotten. -/
theorem profile_after_return :
    let calls := [Call.receive [⟨"a", .zero, true, .reading 0⟩, ⟨"b", .zero, true, .reading 0⟩], .clear,
      .receive [⟨"a", .zero, false, .reading 0⟩, ⟨"b", .zero, true, .reading 0⟩, ⟨"a", .greatest, true, .reading 0⟩]]
    ((empty 0).after calls).contains "a" = true ∧
      ∃ p, IsLeast (UnbrokenFrom 1 "a" (sinceClear calls)) p ∧
        ((empty 0).after calls).profile "a"
          = .ok (((sinceClear calls).drop p |>.filter fun s => s.name = "a").foldl Profile.merge
              (Profile.empty "a")) :=
  ⟨by decide, profile_after_eq_fold 0 _ "a" (by decide)⟩

end Registry

end SampleProfiler
