import SampleProfiler.Proofs.Inclusion

/-!
# `SampleProfiler.Proofs.Accounting` — every counted sample is in one profile

A registry counts the samples of a batch before it takes the first of them, counts an eviction when it happens,
and counts a call in a profile when a sample is merged. Between batches the three agree: the calls of the tracked
profiles and of those that were evicted since the last clear are the samples. Within a batch the samples that
are still to be taken make up the difference, and that is the invariant which one sample keeps.

## Contents
- **What is lost.** `victims` of a batch, and `lostSince` the last clear.
- **The account.** `Accounted`, kept by a sample, a batch and a call.
- **Counters.** `calls_listing_add_calls_lost`.
-/

namespace SampleProfiler.Registry

/-! ## What is lost -/

/-- The profile that a sample evicts, as it is at that moment. -/
def victim? (r : Registry) (s : Sample) : Option Profile :=
  r.tracked.dropped? s.name (.empty s.name)

/-- The profiles that samples evict when they are taken in order, each as it is at its eviction. -/
def victims (r : Registry) : List Sample → List Profile
  | [] => []
  | s :: rest => (r.victim? s).toList ++ (r.take s).1.victims rest

/-- What a call leaves of the evicted profiles since the last clear, and adds to them. -/
def Call.lose (r : Registry) (lost : List Profile) : Call → List Profile
  | .receive batch => lost ++ (r.countBatch batch.length).victims batch
  | .clear => []
  | _ => lost

/-- The profiles that a run evicts after its last clear, on top of those that were lost before it. -/
def lostSince (r : Registry) (lost : List Profile) : List Call → List Profile
  | [] => lost
  | call :: rest => (r.perform call).2.1.lostSince (call.lose r lost) rest

/-! ## The account -/

/-- The account of a registry that lost some profiles to evictions and has `pending` samples of a batch still to
    take. -/
structure Accounted (r : Registry) (lost : List Profile) (pending : Nat) : Prop where
  ordered : r.tracked.Ordered
  samples : Profile.callsOf r.profiles + Profile.callsOf lost + pending = r.samples
  tracked : ∀ p ∈ r.profiles, 1 ≤ p.calls
  gone : ∀ p ∈ lost, 1 ≤ p.calls
  evictions : lost.length = r.evictions

variable {r : Registry} {lost : List Profile} {pending : Nat}

theorem accounted_empty (bound : Nat) : Accounted (empty bound) [] 0 where
  ordered := Lru.ordered_empty bound
  samples := rfl
  tracked := fun _ hp => absurd hp List.not_mem_nil
  gone := fun _ hp => absurd hp List.not_mem_nil
  evictions := rfl

theorem Accounted.clear (h : Accounted r lost pending) : Accounted r.clear.1 [] 0 where
  ordered := h.ordered.clear
  samples := rfl
  tracked := fun _ hp => absurd hp List.not_mem_nil
  gone := fun _ hp => absurd hp List.not_mem_nil
  evictions := rfl

theorem Accounted.countBatch (h : Accounted r lost 0) (n : Nat) : Accounted (r.countBatch n) lost n where
  ordered := h.ordered
  samples := congrArg (· + n) h.samples
  tracked := h.tracked
  gone := h.gone
  evictions := h.evictions

/-- What a sample evicts was tracked before it. -/
theorem mem_profiles_of_victim? {s : Sample} {p : Profile} (h : r.victim? s = some p) : p ∈ r.profiles := by
  obtain ⟨name, _, hfound⟩ := Option.bind_eq_some_iff.mp h
  obtain ⟨e, he, _, rfl⟩ := Lru.exists_entry_of_find? hfound
  exact List.mem_map_of_mem he

/-- A profile after a sample is one from before, or the sample was merged into it. -/
theorem Accounted.mem_profiles_take (h : Accounted r lost pending) {s : Sample} {p : Profile}
    (hp : p ∈ (r.take s).1.profiles) : p ∈ r.profiles ∨ ∃ before : Profile, p = before.merge s := by
  rw [profiles, tracked_take] at hp
  obtain ⟨e, he, rfl⟩ := List.mem_map.mp hp
  obtain ⟨d, hd, rfl⟩ := List.mem_map.mp he
  by_cases hname : d.name = s.name
  · rw [if_pos hname]
    exact Or.inr ⟨d.content, rfl⟩
  · rw [if_neg hname]
    rcases h.ordered.exists_of_mem_entries_visit hd with ⟨was, hwas, _, hcontent⟩ | ⟨hself, _⟩
    · rw [← hcontent]
      exact Or.inl (List.mem_map_of_mem hwas)
    · exact absurd hself hname

/-- A sample adds one call to those of the tracked profiles and of the one that it evicts. -/
theorem Accounted.callsOf_take (h : Accounted r lost pending) (s : Sample) :
    Profile.callsOf (r.take s).1.profiles + Profile.callsOf (r.victim? s).toList
      = Profile.callsOf r.profiles + 1 := by
  have hthere : (r.tracked.visit s.name (.empty s.name)).2.contains s.name = true := by
    rw [Lru.contains, Lru.find?_visit_self]
    rfl
  have hfresh : (Profile.empty s.name).calls = 0 := rfl
  have hmerge : ∀ p : Profile, (p.merge s).calls = p.calls + 1 := fun _ => rfl
  have hvisit := h.ordered.sum_contents_visit s.name Profile.calls hfresh
  have hupdate := (h.ordered.visit s.name (.empty s.name)).sum_contents_update hthere Profile.calls hmerge
  rw [← tracked_take] at hupdate
  show ((r.take s).1.tracked.contents.map Profile.calls).sum + _ = (r.tracked.contents.map Profile.calls).sum + 1
  rw [hupdate, ← hvisit, Nat.add_right_comm]
  rfl

/-- **One sample keeps the account**: it is no longer pending, and is counted as a call. -/
theorem Accounted.take (h : Accounted r lost (pending + 1)) (s : Sample) :
    Accounted (r.take s).1 (lost ++ (r.victim? s).toList) pending := by
  have hsamples : (r.take s).1.samples = r.samples := (counts_absorb r [s]).1
  refine ⟨?_, ?_, ?_, ?_, ?_⟩
  · rw [tracked_take]
    exact (h.ordered.visit _ _).update _ _
  · have hcalls := h.callsOf_take s
    have hbefore := h.samples
    rw [Profile.callsOf_append, hsamples]
    omega
  · intro p hp
    rcases h.mem_profiles_take hp with hold | ⟨before, rfl⟩
    · exact h.tracked p hold
    · exact Nat.le_add_left 1 before.calls
  · intro p hp
    rcases List.mem_append.mp hp with hp | hp
    · exact h.gone p hp
    · exact h.tracked p (mem_profiles_of_victim? (Option.mem_toList.mp hp))
  · have hdropped := (h.ordered.contents_visit s.name (.empty s.name)).1
    rw [List.length_append, h.evictions, evictions_take, ← hdropped]
    show _ + (r.victim? s).toList.length = _ + if (r.victim? s).isSome then 1 else 0
    cases r.victim? s <;> rfl

/-- **A run of samples keeps the account** until none is pending. -/
theorem Accounted.absorb {samples : List Sample} (h : Accounted r lost samples.length) :
    Accounted (r.absorb samples) (lost ++ r.victims samples) 0 := by
  induction samples generalizing r lost with
  | nil =>
      rw [victims, List.append_nil]
      exact h
  | cons s rest ih =>
      have hrest := ih (h.take s)
      rw [List.append_assoc] at hrest
      exact hrest

theorem Accounted.perform (h : Accounted r lost 0) (call : Call) :
    Accounted (r.perform call).2.1 (call.lose r lost) 0 := by
  cases call with
  | receive batch =>
      show Accounted (r.receive batch).1 (lost ++ (r.countBatch batch.length).victims batch) 0
      by_cases hbatch : batch = []
      · rw [hbatch, victims, List.append_nil]
        exact h
      · rw [receive_fst hbatch]
        exact (h.countBatch batch.length).absorb
  | clear => exact h.clear
  | contains name => exact h
  | profile name => exact h
  | listing => exact h
  | totals => exact h

/-- **Every run keeps the account.** -/
theorem Accounted.after (h : Accounted r lost 0) (calls : List Call) :
    Accounted (r.after calls) (r.lostSince lost calls) 0 := by
  induction calls generalizing r lost with
  | nil => exact h
  | cons call rest ih => exact ih (h.perform call)

/-! ## Counters -/

/-- The listing shows every tracked profile once. -/
theorem listing_perm (r : Registry) : (r.listing.map Prod.snd).Perm r.profiles := by
  refine ((List.mergeSort_perm _ _).map Prod.snd).trans ?_
  rw [List.map_map]
  exact List.Perm.refl _

/-- **Every counted sample is in one profile.** After any run of calls on a new registry, the calls of the listed
    profiles and of those evicted since the last clear, as they were at their eviction, add up to the samples
    that the registry counts. Every listed profile counts a call, and so did every evicted one, of which there
    are as many as the registry counts evictions; so the listed calls and the evictions are at most the samples,
    and the listed calls are all samples exactly when nothing was evicted. -/
theorem calls_listing_add_calls_lost (bound : Nat) (calls : List Call) :
    let r := (empty bound).after calls
    let listed := r.listing.map Prod.snd
    let lost := (empty bound).lostSince [] calls
    Profile.callsOf listed + Profile.callsOf lost = r.totals.samples ∧
    (∀ p ∈ listed, 1 ≤ p.calls) ∧
    (∀ p ∈ lost, 1 ≤ p.calls) ∧
    lost.length = r.totals.evictions ∧
    Profile.callsOf listed + r.totals.evictions ≤ r.totals.samples ∧
    (Profile.callsOf listed = r.totals.samples ↔ r.totals.evictions = 0) := by
  intro r listed lost
  have haccount : Accounted r lost 0 := (accounted_empty bound).after calls
  have hlisted : Profile.callsOf listed = Profile.callsOf r.profiles := ((listing_perm r).map Profile.calls).sum_eq
  have hsamples : Profile.callsOf listed + Profile.callsOf lost = r.totals.samples := by
    rw [hlisted]
    exact haccount.samples
  have hevictions : lost.length = r.totals.evictions := haccount.evictions
  have hlost : lost.length ≤ Profile.callsOf lost := Profile.length_le_callsOf haccount.gone
  refine ⟨hsamples, ?_, haccount.gone, hevictions, by omega, ?_⟩
  · intro p hp
    exact haccount.tracked p ((listing_perm r).subset hp)
  · constructor
    · intro hall
      omega
    · intro hnone
      have hempty : lost = [] := List.eq_nil_of_length_eq_zero (hevictions.trans hnone)
      rw [hempty] at hsamples
      exact hsamples

/-- Four samples for a registry of one name: `a` is evicted with two calls, within the second batch. -/
example :
    let s : Sample := ⟨"a", .zero, true, .reading 0⟩
    let t : Sample := ⟨"b", .zero, false, .reading 1⟩
    let calls := [Call.receive [t], .clear, .receive [s], .receive [s, t, t]]
    ((empty 1).lostSince [] calls).map (fun p => (p.name, p.calls)) = [("a", 2)] := by
  decide

end SampleProfiler.Registry
