import Mathlib.Data.List.ProdSigma
import SampleProfiler.Proofs.Production
import SampleProfiler.Proofs.Progress
import SampleProfiler.Proofs.Serial

/-!
# `SampleProfiler.Proofs.Scheduling` — a load run does not hang on the scheduling

The producers of a load run work on one registry at the same time. Here their steps may interleave in any way,
and what `run` does, one producer after the other, is one of the ways. Which samples there are, where the batches
are cut and how many names occur is decided by the plan alone, so the totals of the report are the same for all
schedules and all draws.

## Contents
- **Interleaved runs.** `Plan.crew`, `Plan.settle` and `Plan.Outcome`; `outcome_run`, where `run` is found among
  the outcomes.
- **The load.** All samples of a plan, the names that occur in it, and how often.
- **The report.** `Plan.Accounts`, and `accounts_of_outcome`.
-/

namespace SampleProfiler.Load

/-! ## Interleaved runs -/

/-- The productions of all threads. -/
def Plan.productions (p : Plan) (draws : Draws) (h : Handle) : List Production :=
  (List.range p.threads).map (p.production draws h)

/-- The batches of all threads. -/
def Plan.sent (p : Plan) (draws : Draws) (h : Handle) : List (List Sample) :=
  (p.productions draws h).flatMap Production.batches

/-- The producers of a plan as threads on a registry, before their first step. -/
def Plan.crew (p : Plan) (draws : Draws) (h : Handle) (r : Registry) : Shared :=
  { pool := .ofRegistry r
    threads := (p.productions draws h).map fun made => { requests := made.batches.map .batch } }

/-- What is reported of producers that are all done and left the registry as it is. -/
def Plan.settle (p : Plan) (draws : Draws) (elapsed : Span) (h : Handle) (r : Registry) : Except Fault Report :=
  let aborted := (p.productions draws h).countP Production.isAborted
  if 0 < aborted then .error (.producersFailed aborted p.threads)
  else
    .ok
      { elapsed := elapsed
        totals := r.totals
        forced := ((p.productions draws h).map Production.forced).sum
        profiles := ranked r.profiles }

/-- What a run of a plan can come to, with the registry afterwards, when its producers take their steps in
    whatever order. -/
inductive Plan.Outcome (p : Plan) (draws : Draws) (elapsed : Span) (h : Handle) (r : Registry) :
    Except Fault Report → Registry → Prop where
  | refused {fault : Fault} : p.checked = .error fault → Outcome p draws elapsed h r (.error fault) r
  | finished {s : Shared} : p.checked = .ok p → Shared.Reachable (p.crew draws h r) s → s.isFinished = true →
      Outcome p draws elapsed h r (p.settle draws elapsed h s.pool.registry) s.pool.registry

/-- A plan that passes the check is run as it is. -/
theorem Plan.eq_of_checked {p q : Plan} (h : p.checked = .ok q) : q = p := by
  unfold Plan.checked at h
  split at h
  · exact absurd h (by simp)
  · exact (Except.ok.inj h).symm

/-- What a run gives and leaves behind, once the deliveries of all threads are known. -/
theorem run_of_checked {p : Plan} {draws : Draws} (elapsed : Span) {h : Handle} {c : Collector} {after : Registry}
    (hchecked : p.checked = .ok p)
    (hafter : Collector.registry? (deliverAll h c (p.sent draws h)) h = some after) :
    (run p draws elapsed h c).1 = p.settle draws elapsed h after ∧
      Collector.registry? (run p draws elapsed h c).2 h = some after := by
  have hproduced : Producers.inTurn draws h p c
      = (((p.productions draws h).map Production.forced).sum,
          (p.productions draws h).countP Production.isAborted, deliverAll h c (p.sent draws h)) :=
    produceAll_eq p draws h c (List.range p.threads)
  obtain ⟨hresult, hleft⟩ := runWith_of_checked hchecked hproduced elapsed h
  rw [hafter, Option.getD_some] at hresult
  refine ⟨hresult, ?_⟩
  rw [← hafter]
  exact congrArg (fun registries : Array Registry => registries[h]?) hleft

/-- **The run is one of the interleavings**, the one in which the producers take turns. -/
theorem outcome_run (p : Plan) (draws : Draws) (elapsed : Span) {h : Handle} {c : Collector} {r : Registry}
    (hr : c.registry? h = some r) (htidy : (Pool.ofRegistry r).Tidy) :
    ∃ after, Collector.registry? (run p draws elapsed h c).2 h = some after ∧
      p.Outcome draws elapsed h r (run p draws elapsed h c).1 after := by
  cases hchecked : p.checked with
  | error fault =>
      rw [run, runWith_of_refused hchecked]
      exact ⟨r, hr, .refused hchecked⟩
  | ok q =>
      obtain rfl := Plan.eq_of_checked hchecked
      -- the schedule in question lets each thread finish before the next one begins
      obtain ⟨s, hreach, hfinished, hregistry⟩ :=
        Shared.exists_finished_after htidy ((q.productions draws h).map Production.batches)
      rw [List.map_map] at hreach
      rw [Pool.registry_ofRegistry, ← List.flatMap_def] at hregistry
      have hafter := registry?_deliverAll h c (q.sent draws h)
      rw [hr, Option.map_some, show r.after ((q.sent draws h).map .receive) = _ from hregistry.symm] at hafter
      obtain ⟨hresult, hleft⟩ := run_of_checked elapsed hchecked hafter
      rw [hresult]
      exact ⟨s.pool.registry, hleft, .finished hchecked hreach hfinished⟩

/-! ## The load -/

/-- Operations have different names, because numbers can be read back from their digits. -/
theorem operation_inj {i k : Nat} (h : operation i = operation k) : i = k := by
  have hshown : i.repr = k.repr := (String.append_right_inj "op_").mp h
  rw [Nat.repr_eq_ofList_toDigits, Nat.repr_eq_ofList_toDigits, String.ofList_inj] at hshown
  have hread := congrArg (fun digits => Nat.ofDigitChars 10 digits 0) hshown
  rwa [Nat.ofDigitChars_ten_toDigits, Nat.ofDigitChars_ten_toDigits] at hread

namespace Plan

variable {p : Plan} {draws : Draws}

/-- **All that the check of a plan asks for.** -/
theorem defect?_eq_none_iff (p : Plan) :
    p.defect? = none ↔
      0 < p.threads ∧ 0 < p.operations ∧ 0 < p.capacity ∧ isProbability p.errorRate = true ∧
        p.threads * p.samples < sampleLimit := by
  have htotal : p.total?.isNone = true ↔ ¬ p.threads * p.samples < sampleLimit := by
    unfold total?
    split <;> simp_all
  unfold defect?
  -- every question that is answered badly denies one part of the right side
  split
  · next hthreads => simp [hthreads]
  · next hthreads =>
      split
      · next hoperations => simp [hoperations]
      · next hoperations =>
          split
          · next hcapacity => simp [hcapacity]
          · next hcapacity =>
              split
              · next hrate => simp_all
              · next hrate =>
                  rw [Bool.not_eq_true', Bool.not_eq_false] at hrate
                  simp [htotal, Nat.pos_of_ne_zero, hthreads, hoperations, hcapacity, hrate]

/-- A plan without defects has threads, operations and room for a sample. -/
theorem pos_of_defect? (h : p.defect? = none) : 0 < p.threads ∧ 0 < p.operations ∧ 0 < p.capacity := by
  obtain ⟨hthreads, hoperations, hcapacity, _⟩ := (defect?_eq_none_iff p).mp h
  exact ⟨hthreads, hoperations, hcapacity⟩

/-- Threads and turns, each pair standing for one sample. -/
def turns (p : Plan) : List (Nat × Nat) :=
  List.range p.threads ×ˢ List.range p.samples

/-- The number of samples of the `k`-th operation. -/
def callsOf (p : Plan) (k : Nat) : Nat :=
  p.turns.countP fun (thread, i) => (thread + i) % p.operations = k

/-- The number of operations that have a sample. -/
def reached (p : Plan) : Nat :=
  if p.samples = 0 then 0 else min p.operations (p.threads + p.samples - 1)

/-- All samples of all threads. -/
def load (p : Plan) (draws : Draws) : List Sample :=
  (List.range p.threads).flatMap (p.samplesOf draws)

theorem load_eq_map (p : Plan) (draws : Draws) :
    p.load draws = p.turns.map fun (thread, i) =>
      { name := operation ((thread + i) % p.operations)
        duration := (draws thread i).duration
        succeeded := !(draws thread i).failed } := by
  have hturns : p.turns
      = (List.range p.threads).flatMap fun thread => (List.range p.samples).map (Prod.mk thread) :=
    rfl
  rw [load, hturns, List.map_flatMap]
  congr 1
  funext thread
  rw [List.map_map]
  rfl

theorem length_load (p : Plan) (draws : Draws) : (p.load draws).length = p.threads * p.samples := by
  rw [load_eq_map, List.length_map, turns, List.length_product, List.length_range, List.length_range]

/-- Which operations have a sample. -/
theorem exists_turn_iff (hthreads : 0 < p.threads) (hoperations : 0 < p.operations) (k : Nat) :
    (∃ turn ∈ p.turns, (turn.1 + turn.2) % p.operations = k) ↔ k < p.reached := by
  unfold reached
  constructor
  · rintro ⟨⟨thread, i⟩, hturn, rfl⟩
    obtain ⟨hthread, hi⟩ := List.mem_product.mp hturn
    rw [List.mem_range] at hthread hi
    have hmod := Nat.mod_lt (thread + i) hoperations
    have hle := Nat.mod_le (thread + i) p.operations
    rw [if_neg (by omega)]
    dsimp only
    omega
  · intro hk
    by_cases hsamples : p.samples = 0
    · rw [if_pos hsamples] at hk
      exact absurd hk (Nat.not_lt_zero k)
    · rw [if_neg hsamples] at hk
      -- the first threads start at `k`, and the last one reaches what lies behind
      refine ⟨(min k (p.threads - 1), k - min k (p.threads - 1)), List.mem_product.mpr ⟨?_, ?_⟩, ?_⟩
      · rw [List.mem_range]
        omega
      · rw [List.mem_range]
        omega
      · have hsum : min k (p.threads - 1) + (k - min k (p.threads - 1)) = k := by omega
        dsimp only
        rw [hsum]
        exact Nat.mod_eq_of_lt (by omega)

/-- **The names of the load** are those of the first operations. -/
theorem distinctNames_load (draws : Draws) (hthreads : 0 < p.threads) (hoperations : 0 < p.operations) :
    (distinctNames (p.load draws)).Perm ((List.range p.reached).map operation) := by
  have hnodup : ((List.range p.reached).map operation).Nodup :=
    List.nodup_range.map fun _ _ => operation_inj
  refine (List.perm_ext_iff_of_nodup (nodup_distinctNames _) hnodup).mpr ?_
  intro name
  rw [mem_distinctNames, load_eq_map, List.mem_map]
  constructor
  · rintro ⟨x, hx, rfl⟩
    obtain ⟨turn, hturn, rfl⟩ := List.mem_map.mp hx
    have hk := (exists_turn_iff hthreads hoperations _).mp ⟨turn, hturn, rfl⟩
    exact ⟨_, List.mem_range.mpr hk, rfl⟩
  · rintro ⟨k, hk, rfl⟩
    obtain ⟨turn, hturn, rfl⟩ := (exists_turn_iff hthreads hoperations k).mpr (List.mem_range.mp hk)
    exact ⟨_, List.mem_map_of_mem hturn, rfl⟩

theorem length_distinctNames_load (draws : Draws) (hthreads : 0 < p.threads) (hoperations : 0 < p.operations) :
    (distinctNames (p.load draws)).length = p.reached := by
  rw [(distinctNames_load draws hthreads hoperations).length_eq, List.length_map, List.length_range]

/-- Every sample of the load comes from a draw. -/
theorem exists_draw_of_mem_load {x : Sample} (hx : x ∈ p.load draws) :
    ∃ thread i, x.duration = (draws thread i).duration ∧ x.succeeded = !(draws thread i).failed := by
  rw [load_eq_map] at hx
  obtain ⟨turn, _, rfl⟩ := List.mem_map.mp hx
  exact ⟨turn.1, turn.2, rfl, rfl⟩

/-- **The samples of an operation** are as many as the pairs that name it. -/
theorem length_filter_load (p : Plan) (draws : Draws) (k : Nat) :
    ((p.load draws).filter fun x => x.name = operation k).length = p.callsOf k := by
  rw [← List.countP_eq_length_filter, load_eq_map, List.countP_map, callsOf]
  congr 1
  funext turn
  rw [Function.comp_apply, decide_eq_decide]
  exact ⟨operation_inj, fun h => congrArg operation h⟩

end Plan

/-! ## The report -/

namespace Plan

variable {p : Plan} {draws : Draws} {h : Handle}

/-- What is known of the draws of a plan: durations from 100 to 99999 nanoseconds, and outcomes that are certain
    where the rate says so. -/
structure Allows (p : Plan) (draws : Draws) : Prop where
  durations : ∀ thread i, 100 ≤ (draws thread i).duration.toInt ∧ (draws thread i).duration.toInt < 100000
  never : (p.errorRate == 0.0) = true → ∀ thread i, (draws thread i).failed = false
  always : (p.errorRate == 1.0) = true → ∀ thread i, (draws thread i).failed = true

/-- What a report on a plan says, whatever the scheduling and the draws were, with the registry afterwards. -/
structure Accounts (p : Plan) (bound : Nat) (report : Report) (after : Registry) : Prop where
  forced : report.forced = p.threads * ((p.samples - 1) / p.capacity)
  batches : report.totals.batches = p.threads * ((p.samples + p.capacity - 1) / p.capacity)
  samples : report.totals.samples = p.threads * p.samples
  operations : report.totals.operations = min bound p.reached
  evictions : p.reached - report.totals.operations ≤ report.totals.evictions
  kept : p.reached ≤ bound → report.totals.evictions = 0
  names : p.reached ≤ bound → (report.profiles.map Profile.name).Perm ((List.range p.reached).map operation)
  profiles : p.reached ≤ bound → ∀ k < p.reached, ∃ q ∈ report.profiles,
    after.profile (operation k) = .ok q ∧ q.name = operation k ∧ q.calls = p.callsOf k ∧
    100 ≤ q.least.toInt ∧ q.greatest.toInt < 100000 ∧
    ((p.errorRate == 0.0) = true → q.errors = 0) ∧ ((p.errorRate == 1.0) = true → q.errors = q.calls)

/-- The productions of any of the threads together. -/
theorem map_production_eq (draws : Draws) (h : Handle) (hcapacity : 0 < p.capacity)
    (hstorage : p.capacity * Buffer.slotBytes ≤ Buffer.storageLimit) (threads : List Nat) :
    let made := threads.map (p.production draws h)
    let sent := made.flatMap Production.batches
    (made.map Production.forced).sum = threads.length * ((p.samples - 1) / p.capacity) ∧
    made.countP Production.isAborted = 0 ∧
    sent.flatten = threads.flatMap (p.samplesOf draws) ∧
    sent.length = threads.length * ((p.samples + p.capacity - 1) / p.capacity) := by
  induction threads with
  | nil =>
      dsimp only [List.map_nil, List.flatMap_nil, List.length_nil]
      rw [Nat.zero_mul, Nat.zero_mul]
      exact ⟨rfl, rfl, rfl, rfl⟩
  | cons thread rest ih =>
      obtain ⟨hforced, haborted, hsamples, hlength⟩ := ih
      obtain ⟨mine, hmine, _, hflatten, hcount⟩ := production_eq_ok p draws h thread hcapacity hstorage
      simp only [List.map_cons, List.flatMap_cons, List.sum_cons, List.countP_cons, List.length_cons,
        List.flatten_append, List.length_append]
      rw [hforced, haborted, hsamples, hlength, hmine]
      refine ⟨?_, rfl, ?_, ?_⟩
      · rw [Nat.add_mul, Nat.one_mul, Nat.add_comm]
        rfl
      · rw [← hflatten]
        rfl
      · rw [Nat.add_mul, Nat.one_mul, Nat.add_comm, ← hcount]
        rfl

/-- A thread that is to send batches that are not empty has these ahead. -/
theorem ahead_of_batches {batches : List (List Sample)} (hfull : ∀ batch ∈ batches, batch ≠ []) :
    Thread.ahead { requests := batches.map .batch } = batches := by
  unfold Thread.ahead
  induction batches with
  | nil => rfl
  | cons batch rest ih =>
      have hrest := ih fun other hother => hfull other (List.mem_cons_of_mem _ hother)
      rw [List.map_cons, List.flatMap_cons, hrest]
      cases batch with
      | nil => exact absurd rfl (hfull [] List.mem_cons_self)
      | cons s others => rfl

theorem ahead_crew (hcapacity : 0 < p.capacity) (hstorage : p.capacity * Buffer.slotBytes ≤ Buffer.storageLimit)
    (r : Registry) : (p.crew draws h r).threads.flatMap Thread.ahead = p.sent draws h := by
  unfold crew sent productions
  rw [List.flatMap_map, List.flatMap_map, List.flatMap_map]
  apply List.flatMap_congr
  intro thread _
  obtain ⟨mine, hmine, hfull, _⟩ := production_eq_ok p draws h thread hcapacity hstorage
  rw [hmine]
  exact ahead_of_batches hfull

/-- A registry without profiles and counts is fit to start on. -/
theorem fresh_crew {r : Registry} (hempty : r.tracked.entries = []) (hbound : 0 < r.bound)
    (hcounts : r.samples = 0 ∧ r.batches = 0 ∧ r.evictions = 0) : (p.crew draws h r).Fresh where
  entries := by
    show r.tracked.entries.mapIdx _ = []
    rw [hempty]
    rfl
  positive := hbound
  cells := by
    show r.tracked.contents = []
    rw [Lru.contents, hempty]
    rfl
  samples := hcounts.1
  batches := hcounts.2.1
  evictions := hcounts.2.2
  idle := by
    intro t ht
    obtain ⟨thread, _, rfl⟩ := List.mem_map.mp ht
    rfl
  unseen := by
    intro t ht
    obtain ⟨thread, _, rfl⟩ := List.mem_map.mp ht
    rfl

/-- The profile of an operation, from its samples. -/
theorem bounds_of_samples (hallows : p.Allows draws) {k : Nat} {samples : List Sample} (hne : samples ≠ [])
    (hperm : samples.Perm ((p.load draws).filter fun x => x.name = operation k)) :
    let q := Profile.ofSamples (operation k) samples
    q.calls = p.callsOf k ∧ 100 ≤ q.least.toInt ∧ q.greatest.toInt < 100000 ∧
    ((p.errorRate == 0.0) = true → q.errors = 0) ∧ ((p.errorRate == 1.0) = true → q.errors = q.calls) := by
  intro q
  have hdrawn : ∀ x ∈ samples, ∃ thread i, x.duration = (draws thread i).duration ∧
      x.succeeded = !(draws thread i).failed := fun x hx =>
    exists_draw_of_mem_load (List.mem_filter.mp (hperm.subset hx)).1
  have hdurations : ∀ x ∈ samples, 100 ≤ x.duration.toInt ∧ x.duration.toInt < 100000 := by
    intro x hx
    obtain ⟨thread, i, hduration, _⟩ := hdrawn x hx
    rw [hduration]
    exact hallows.durations thread i
  refine ⟨?_, ?_, ?_, ?_, ?_⟩
  · rw [Profile.calls_ofSamples, hperm.length_eq, length_filter_load]
  · obtain ⟨x, hx, heq⟩ := Profile.exists_least (operation k) hne
    rw [← heq]
    exact (hdurations x hx).1
  · -- the greatest duration starts at zero, and zero is below the limit too
    rcases Profile.greatest_cases (operation k) samples with hzero | ⟨x, hx, heq⟩
    · rw [hzero]
      omega
    · rw [← heq]
      exact (hdurations x hx).2
  · intro hrate
    rw [Profile.errors_ofSamples, List.countP_eq_zero]
    intro x hx
    obtain ⟨thread, i, _, hsucceeded⟩ := hdrawn x hx
    rw [hsucceeded, hallows.never hrate]
    simp
  · intro hrate
    rw [Profile.errors_ofSamples, Profile.calls_ofSamples, List.countP_eq_length]
    intro x hx
    obtain ⟨thread, i, _, hsucceeded⟩ := hdrawn x hx
    rw [hsucceeded, hallows.always hrate]
    simp

/-- If no producer aborted, there is a report. -/
theorem settle_of_none_aborted (hnone : (p.productions draws h).countP Production.isAborted = 0) (elapsed : Span)
    (r : Registry) : p.settle draws elapsed h r = .ok
      { elapsed := elapsed
        totals := r.totals
        forced := ((p.productions draws h).map Production.forced).sum
        profiles := ranked r.profiles } := by
  unfold settle
  rw [hnone]
  rfl

/-- **The report in closed form**, on any registry that received the productions of all threads. -/
theorem accounts_of_settle (hplan : p.defect? = none)
    (hstorage : p.capacity * Buffer.slotBytes ≤ Buffer.storageLimit) (hallows : p.Allows draws) (elapsed : Span)
    {bound : Nat} {after : Registry}
    (houtcome : after.Outcome bound (p.sent draws h)) :
    ∃ report, p.settle draws elapsed h after = .ok report ∧ p.Accounts bound report after := by
  obtain ⟨hthreads, hoperations, hcapacity⟩ := pos_of_defect? hplan
  obtain ⟨hforced, haborted, hload, hlength⟩ :=
    map_production_eq draws h hcapacity hstorage (List.range p.threads)
  change (p.sent draws h).flatten = p.load draws at hload
  have hnames := distinctNames_load draws hthreads hoperations
  have hreached : (distinctNames (p.sent draws h).flatten).length = p.reached := by
    rw [hload]
    exact length_distinctNames_load draws hthreads hoperations
  have hsize := houtcome.size
  have hinsertions := houtcome.insertions
  rw [hreached] at hsize hinsertions
  have hfew : p.reached ≤ bound → (distinctNames (p.sent draws h).flatten).length ≤ bound := by
    rw [hreached]
    exact id
  have hranked : (ranked after.profiles).Perm after.profiles := List.mergeSort_perm _ _
  refine ⟨_, settle_of_none_aborted haborted elapsed after, ?_, ?_, ?_, ?_, ?_, ?_, ?_, ?_⟩
  · rw [List.length_range] at hforced
    exact hforced
  · rw [List.length_range] at hlength
    exact houtcome.batches.trans hlength
  · exact houtcome.samples.trans (by rw [hload, length_load])
  · exact hsize
  · show p.reached - after.tracked.size ≤ after.evictions
    omega
  · intro hroom
    exact houtcome.kept (hfew hroom)
  · -- a report lists the profiles in another order than the map
    intro hroom
    have hall := houtcome.names (hfew hroom)
    rw [hload] at hall
    refine (hranked.map Profile.name).trans ?_
    rw [houtcome.names_profiles (hfew hroom)]
    exact hall.trans hnames
  · intro hroom k hk
    have hmem : operation k ∈ distinctNames (p.load draws) :=
      hnames.symm.subset (List.mem_map_of_mem (List.mem_range.mpr hk))
    have hprofiles := houtcome.profiles (hfew hroom)
    rw [hload] at hprofiles
    obtain ⟨samples, hperm, hprofile⟩ := hprofiles (operation k) hmem
    have hne : samples ≠ [] := ne_nil_of_mem_distinctNames hmem hperm
    exact ⟨_, hranked.symm.subset (Registry.mem_profiles_of_profile hprofile), hprofile,
      Profile.name_ofSamples _ _, bounds_of_samples hallows hne hperm⟩

end Plan

/-- **A load run does not hang on the scheduling.** Take any plan without defects whose buffers can be made, any
    draws that it allows, and any registry without profiles and counts. Then every interleaving of the producers
    comes to an end, what `run` does is one of the interleavings, and each of them succeeds with a report that
    says what the plan says. -/
theorem accounts_of_outcome (p : Plan) (draws : Draws) (elapsed : Span) (h : Handle) (c : Collector) (r : Registry)
    (hplan : p.defect? = none) (hstorage : p.capacity * Buffer.slotBytes ≤ Buffer.storageLimit)
    (hallows : p.Allows draws) (hr : c.registry? h = some r) (hempty : r.tracked.entries = [])
    (hbound : 0 < r.bound) (hcounts : r.samples = 0 ∧ r.batches = 0 ∧ r.evictions = 0) :
    (p.crew draws h r).Settles ∧
    (∃ after, Collector.registry? (run p draws elapsed h c).2 h = some after ∧
      p.Outcome draws elapsed h r (run p draws elapsed h c).1 after) ∧
    ∀ result after, p.Outcome draws elapsed h r result after →
      ∃ report, result = .ok report ∧ p.Accounts r.bound report after := by
  have hcapacity := (Plan.pos_of_defect? hplan).2.2
  have hchecked : p.checked = .ok p := by rw [Plan.checked, hplan]
  have hfresh : (p.crew draws h r).Fresh := Plan.fresh_crew hempty hbound hcounts
  refine ⟨hfresh.settles, outcome_run p draws elapsed hr ⟨hfresh.stamped.ordered, hfresh.filled.mapped⟩, ?_⟩
  intro result after houtcome
  cases houtcome with
  | refused hrefused =>
      rw [hchecked] at hrefused
      exact absurd hrefused (by simp)
  | @finished s _ hreach hfinished =>
      obtain ⟨history, hhistory⟩ := Shared.reachable_iff_exists_history.mp hreach
      have hcalm : ∀ t ∈ (p.crew draws h r).threads, Request.clear ∉ t.requests := by
        intro t ht hclear
        obtain ⟨thread, _, rfl⟩ := List.mem_map.mp ht
        obtain ⟨batch, _, hbatch⟩ := List.mem_map.mp hclear
        exact absurd hbatch (by simp)
      have hend := hhistory.outcome hfresh hcalm hfinished
      rw [Plan.ahead_crew hcapacity hstorage] at hend
      obtain ⟨report, hreport, haccounts⟩ := Plan.accounts_of_settle hplan hstorage hallows elapsed hend
      exact ⟨report, hreport, haccounts⟩

/-- Two threads with three failing samples each and room for two of them, on a registry with room for all names. -/
theorem accounts_of_outcome_two :
    let p : Plan := { threads := 2, samples := 3, operations := 4, errorRate := 1.0, capacity := 2 }
    let draws : Draws := fun thread i => ⟨.clamp (100 + (thread + i) % 10 : Nat), true⟩
    let c : Collector := { registries := #[.empty 5] }
    ∃ report, (run p draws ⟨0, 0⟩ 0 c).1 = .ok report ∧ report.forced = 2 ∧ report.totals = ⟨4, 6, 4, 0⟩ ∧
      ∃ q ∈ report.profiles, q.name = operation 1 ∧ q.calls = 2 ∧ q.errors = 2 := by
  intro p draws c
  have hallows : p.Allows draws := by
    refine ⟨?_, fun hrate => absurd hrate (by decide), fun _ _ _ => rfl⟩
    intro thread i
    have hclamped : (draws thread i).duration.toInt = (100 + (thread + i) % 10 : Nat) :=
      Nanos.toInt_clamp (by omega) (by omega)
    omega
  obtain ⟨_, ⟨after, _, houtcome⟩, hall⟩ :=
    accounts_of_outcome p draws ⟨0, 0⟩ 0 c (.empty 5) (by decide) (by decide) hallows rfl rfl (by decide)
      ⟨rfl, rfl, rfl⟩
  obtain ⟨report, hreport, haccounts⟩ := hall _ _ houtcome
  have hroom : p.reached ≤ (Registry.empty 5).bound := by decide
  refine ⟨report, hreport, ?_, ?_, ?_⟩
  · exact haccounts.forced.trans (by decide)
  · have hoperations : report.totals.operations = 4 := haccounts.operations.trans (by decide)
    have hsamples : report.totals.samples = 6 := haccounts.samples.trans (by decide)
    have hbatches : report.totals.batches = 4 := haccounts.batches.trans (by decide)
    calc report.totals
        = ⟨report.totals.operations, report.totals.samples, report.totals.batches, report.totals.evictions⟩ := rfl
      _ = ⟨4, 6, 4, 0⟩ := by rw [hoperations, hsamples, hbatches, haccounts.kept hroom]
  · obtain ⟨q, hq, _, hname, hcalls, _, _, _, herrors⟩ := haccounts.profiles hroom 1 (by decide)
    have hcount : q.calls = 2 := hcalls.trans (by decide)
    exact ⟨q, hq, hname, hcount, (herrors (by decide)).trans hcount⟩

end SampleProfiler.Load
