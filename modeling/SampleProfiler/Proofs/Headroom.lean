import Mathlib.Algebra.Order.Ring.Nat
import SampleProfiler.Proofs.Forcing
import SampleProfiler.Proofs.Probability
import SampleProfiler.Proofs.Scheduling

/-!
# `SampleProfiler.Proofs.Headroom` — plans that no producer can fail on

A producer adds its number to the number of a sample, takes the sum modulo the number of names, draws with the rate
of failures, and counts in words of 64 bits; all of that could go wrong. A plan is checked for little: nothing may
be zero, the rate has to be a probability, and the number of all samples has to fit in a word. The last of these
carries the rest. A thread and a sample of a plan are together below the product of the numbers of threads and of
samples, since neither of these is zero then (`add_lt_mul`), and there are no more flushes than samples.

## Contents
- **Counters.** `Buffer.Below`, the counters against a limit, while a buffer is filled and after its last flush.
- **Headroom.** `Plan.Headroom`, and `headroom_of_defect?`.
-/

namespace SampleProfiler

/-! ## Counters -/

namespace Buffer

/-- The counters of a buffer are below a limit. -/
structure Below (limit : Nat) (b : Buffer) : Prop where
  records : b.records < limit
  flushes : b.flushes < limit
  forced : b.forced < limit

variable {b : Buffer} {h : Handle} {accepted : List Sample} {handed : List Delivery} {limit : Nat}

/-- Every batch has a sample, so there are no more of them than samples. -/
theorem length_handed_le (hbalanced : Balanced b accepted handed) : handed.length ≤ accepted.length := by
  have hone : handed.length ≤ (handed.flatMap Delivery.batch).length := by
    -- the account holds for all batches together, so it cannot go along with the induction
    have hbatches := hbalanced.batches
    clear hbalanced
    induction handed with
    | nil => exact Nat.le_refl 0
    | cons d rest ih =>
        have hrest := ih fun e he => hbatches e (List.mem_cons_of_mem d he)
        have hd := (hbatches d List.mem_cons_self).1
        rw [List.flatMap_cons, List.length_append, List.length_cons]
        omega
  rw [hbalanced.samples, List.length_append]
  omega

/-- A buffer that accepted fewer samples than the limit is below it, if every forced flush was a flush. -/
theorem below_of_serving (hserving : Serving b h accepted handed) (hforced : b.forced ≤ b.flushes)
    (hlt : accepted.length < limit) : Below limit b := by
  have hhanded := length_handed_le hserving.balanced
  have hflushes := hserving.balanced.flushes
  constructor
  · rw [hserving.balanced.records]
    exact hlt
  · omega
  · omega

/-- **The counters stay below the limit** while samples are recorded, and when the buffer is flushed after that. -/
theorem below_recordAllInto {capacity : Nat} (h : Handle) (hcapacity : 0 < capacity) (c : Collector)
    {samples : List Sample} (hlt : samples.length < limit) :
    let recorded := ((of capacity (some h)).recordAllInto c samples).2
    Below limit recorded.1 ∧ Below limit (recorded.1.flushInto recorded.2).2.1 := by
  intro recorded
  have hrecorded : recorded.1 = ((of capacity (some h)).emit samples).2 :=
    congrArg Prod.fst (recordAllInto_eq_emit _ c samples)
  have hserving := (serving_of h hcapacity).emit samples
  have hlazy := (lazy_of capacity h).emit hcapacity samples
  rw [← hrecorded] at hserving hlazy
  have hflushed : (recorded.1.flushInto recorded.2).2.1 = recorded.1.flush.2 :=
    congrArg Prod.fst (flushInto_eq recorded.1 recorded.2)
  refine ⟨below_of_serving hserving hlazy.forced.le hlt, ?_⟩
  rw [hflushed]
  -- the last flush counts a flush or nothing, and it is never forced
  obtain ⟨_, hflushes, hforced⟩ := counts_flush recorded.1
  have hmore : recorded.1.flush.2.forced ≤ recorded.1.flush.2.flushes := by
    rw [hflushes, hforced, hlazy.forced]
    exact Nat.le_add_right _ _
  exact below_of_serving hserving.flush.1 hmore hlt

end Buffer

/-! ## Headroom -/

namespace Load.Plan

open Decimal

variable {p : Plan}

/-- The names that all threads share. -/
def names (p : Plan) : List String :=
  (List.range p.operations).map operation

/-- All that could go wrong with a producer of a plan does not: the rate is one to draw with, the name of every
    sample is found, the buffer can be made and its counters hold, and so does the sum of the forced flushes of the
    first threads, none of which aborts. -/
structure Headroom (p : Plan) (draws : Draws) (h : Handle) : Prop where
  rate : ∃ q, (exact p.errorRate).value? = some q ∧ 0 ≤ q ∧ q ≤ 1
  index : ∀ thread < p.threads, ∀ i < p.samples, thread + i < 2 ^ 64 ∧ 0 < p.names.length ∧
    ∃ s, (p.samplesOf draws thread)[i]? = some s ∧ p.names[(thread + i) % p.names.length]? = some s.name
  buffer : ∀ thread < p.threads, ∀ c : Collector, ∃ b, Buffer.make p.capacity (some h) = .ok b ∧
    ∀ i ≤ p.samples,
      let recorded := (b.recordAllInto c ((p.samplesOf draws thread).take i)).2
      Buffer.Below (2 ^ 64) recorded.1 ∧ Buffer.Below (2 ^ 64) (recorded.1.flushInto recorded.2).2.1
  joined : ∀ c : Collector, ∀ k ≤ p.threads,
    (produceAll p draws h c (List.range k)).1 < 2 ^ 64 ∧ (produceAll p draws h c (List.range k)).2.1 = 0

/-- Two numbers below two bounds are together below the product of these. -/
theorem add_lt_mul {thread threads i samples : Nat} (hthread : thread < threads) (hi : i < samples) :
    thread + i < threads * samples := by
  -- the thread is below its own number of rows, each of which has a sample at least
  have hthreads : (thread + 1) * samples ≤ threads * samples := Nat.mul_le_mul_right samples hthread
  have hrow : thread ≤ thread * samples := Nat.le_mul_of_pos_right thread (Nat.zero_lt_of_lt hi)
  rw [Nat.succ_mul] at hthreads
  omega

theorem samplesOf_getElem? (p : Plan) (draws : Draws) (thread : Nat) {i : Nat} (hi : i < p.samples) :
    ∃ s, (p.samplesOf draws thread)[i]? = some s ∧ s.name = operation ((thread + i) % p.operations) := by
  simp [samplesOf, List.getElem?_range hi]

/-- The remainder by the number of names is the place of one. -/
theorem names_getElem? (hoperations : 0 < p.operations) (n : Nat) :
    p.names.length = p.operations ∧ p.names[n % p.names.length]? = some (operation (n % p.operations)) := by
  have hlength : p.names.length = p.operations := by
    rw [names, List.length_map, List.length_range]
  refine ⟨hlength, ?_⟩
  rw [hlength, names, List.getElem?_map, List.getElem?_range (Nat.mod_lt n hoperations)]
  rfl

/-- The samples of a single thread fit in a word. -/
theorem samples_lt (hthreads : 0 < p.threads) (htotal : p.threads * p.samples < 2 ^ 64) : p.samples < 2 ^ 64 :=
  lt_of_le_of_lt (Nat.le_mul_of_pos_left p.samples hthreads) htotal

theorem joined_of_total (draws : Draws) (h : Handle) (hcapacity : 0 < p.capacity)
    (hstorage : p.capacity * Buffer.slotBytes ≤ Buffer.storageLimit) (htotal : p.threads * p.samples < 2 ^ 64)
    (c : Collector) {k : Nat} (hk : k ≤ p.threads) :
    (produceAll p draws h c (List.range k)).1 < 2 ^ 64 ∧
      (produceAll p draws h c (List.range k)).2.1 = 0 := by
  obtain ⟨hforced, haborted, _⟩ := map_production_eq draws h hcapacity hstorage (List.range k)
  rw [produceAll_eq]
  refine ⟨?_, haborted⟩
  -- a forced flush of a thread makes room for a sample of that thread
  have hone : (p.samples - 1) / p.capacity ≤ p.samples :=
    (Nat.div_le_self _ _).trans (Nat.sub_le p.samples 1)
  calc (((List.range k).map (p.production draws h)).map Production.forced).sum
      = k * ((p.samples - 1) / p.capacity) := by rw [hforced, List.length_range]
    _ ≤ p.threads * p.samples := Nat.mul_le_mul hk hone
    _ < 2 ^ 64 := htotal

/-- **A checked plan cannot make a producer fail**, whatever is drawn, as long as its buffers can be made. Of the rate
    nothing more is asked than what it takes to draw with it; the negative zero is such a rate. -/
theorem headroom_of_defect? (p : Plan) (draws : Draws) (h : Handle) (hplan : p.defect? = none)
    (hstorage : p.capacity * Buffer.slotBytes ≤ Buffer.storageLimit) :
    p.Headroom draws h ∧
      (∀ rate : Float, { p with errorRate := rate }.defect? = none ↔
        ∃ q, (exact rate).value? = some q ∧ 0 ≤ q ∧ q ≤ 1) ∧
      { p with errorRate := -0.0 }.defect? = none := by
  obtain ⟨hthreads, hoperations, hcapacity, hrate, htotal⟩ := (defect?_eq_none_iff p).mp hplan
  have hrates : ∀ rate : Float, { p with errorRate := rate }.defect? = none ↔
      ∃ q, (exact rate).value? = some q ∧ 0 ≤ q ∧ q ≤ 1 := by
    intro rate
    rw [defect?_eq_none_iff, ← isProbability_iff]
    exact ⟨fun hall => hall.2.2.2.1, fun hone => ⟨hthreads, hoperations, hcapacity, hone, htotal⟩⟩
  refine ⟨?_, hrates, ?_⟩
  · constructor
    · exact (isProbability_iff p.errorRate).mp hrate
    · intro thread hthread i hi
      obtain ⟨s, hs, hname⟩ := p.samplesOf_getElem? draws thread hi
      obtain ⟨hlength, hfound⟩ := names_getElem? hoperations (thread + i)
      rw [← hname] at hfound
      exact ⟨(add_lt_mul hthread hi).trans htotal, hlength ▸ hoperations, s, hs, hfound⟩
    · -- the first `i` samples are no more than all of them, and these fit in a word
      intro thread _ c
      refine ⟨_, Buffer.make_eq_ok hcapacity hstorage (some h), fun i hi => ?_⟩
      have hlength : ((p.samplesOf draws thread).take i).length ≤ p.samples := by
        rw [List.length_take, p.length_samplesOf]
        exact Nat.min_le_right i p.samples
      exact Buffer.below_recordAllInto h hcapacity c (lt_of_le_of_lt hlength (samples_lt hthreads htotal))
    · intro c k hk
      exact joined_of_total draws h hcapacity hstorage htotal c hk
  · rw [hrates]
    have hzero : (exact (-0.0)).value? = some 0 := by
      rw [exact_eq_ofUnpacked]
      show some ((-1 : ℚ) * ((0 : ℕ) * 2 ^ (-1074 : ℤ))) = some 0
      simp
    exact ⟨0, hzero, le_rfl, zero_le_one⟩

/-- Three threads that fill a word with the number of their samples. The last sample of the last thread finds its name,
    and with one more sample for each thread the plan is refused. -/
theorem headroom_of_defect?_widest :
    let p : Plan := { threads := 3, samples := 6148914691236517205, operations := 2, errorRate := -0.0, capacity := 4 }
    let draws : Draws := fun _ _ => ⟨.zero, false⟩
    p.defect? = none ∧ 2 + 6148914691236517204 < 2 ^ 64 ∧
      ¬ { p with samples := 6148914691236517206 }.defect? = none ∧
      ∃ s, (p.samplesOf draws 2)[6148914691236517204]? = some s ∧ p.names[0]? = some s.name := by
  intro p draws
  have hplan : p.defect? = none := by decide +kernel
  obtain ⟨hroom, _⟩ := headroom_of_defect? p draws 0 hplan (by decide)
  obtain ⟨hsum, _, s, hs, hname⟩ := hroom.index 2 (by decide) 6148914691236517204 (by decide)
  have hlength : p.names.length = 2 := rfl
  have hplace : (2 + 6148914691236517204) % 2 = 0 := by decide
  rw [hlength, hplace] at hname
  exact ⟨hplan, hsum, by decide +kernel, s, hs, hname⟩

end Load.Plan

end SampleProfiler
