import Mathlib.Algebra.GroupWithZero.Nat
import SampleProfiler.Load.Run
import SampleProfiler.Proofs.Transparency

/-!
# `SampleProfiler.Proofs.Production` — what a producer does apart from the registry

A producer of a load run looks at nothing but its own buffer, and the registry sees nothing of it but the
batches that it hands on. This module takes the two apart: the production of a thread is the number of its
forced flushes and the list of its batches, which hang on the plan and the draws alone, and `produce` is to
deliver these batches one after the other.

## Contents
- **Emitting.** `Buffer.emit`, the deliveries of a buffer that is filled, and the accounts that it keeps.
- **Productions.** `Plan.production`, in closed form for every buffer that can be made.
- **Deliveries.** `produce` and `produceAll` as deliveries of productions.
-/

namespace SampleProfiler

/-! ## Emitting -/

namespace Buffer

/-- Records samples in order, flushing whenever the buffer is full: what it hands on meanwhile, and the buffer
    afterwards. -/
def emit (b : Buffer) : List Sample → List Delivery × Buffer
  | [] => ([], b)
  | s :: rest =>
    let (_, delivery?, b) := b.recordFlushing s
    let (more, b) := b.emit rest
    (delivery?.toList ++ more, b)

/-- Records samples in order and flushes once more at the end. -/
def emitAll (b : Buffer) (samples : List Sample) : List Delivery × Buffer :=
  let (sent, b) := b.emit samples
  let (last, b) := b.flush
  (sent ++ last.toList, b)

/-- A buffer with room can be made if its storage can be reserved. -/
theorem make_eq_ok {capacity : Nat} (hcapacity : 0 < capacity) (hstorage : capacity * slotBytes ≤ storageLimit)
    (sink : Option Handle) : make capacity sink = .ok (of capacity sink) := by
  rw [make, if_neg (Nat.ne_of_gt hcapacity), if_neg (Nat.not_lt_of_le hstorage)]

variable {b : Buffer} {h : Handle} {accepted : List Sample} {handed : List Delivery}

/-- **Emitting keeps the account.** -/
theorem Serving.emit (hserving : Serving b h accepted handed) (samples : List Sample) :
    Serving (b.emit samples).2 h (accepted ++ samples) (handed ++ (b.emit samples).1) := by
  induction samples generalizing b accepted handed with
  | nil =>
      show Serving b h (accepted ++ []) (handed ++ [])
      rw [List.append_nil, List.append_nil]
      exact hserving
  | cons s rest ih =>
      have hrest := ih (hserving.recordFlushing s)
      rw [List.append_assoc, List.append_assoc] at hrest
      exact hrest

theorem Serving.emitAll (hserving : Serving b h accepted handed) (samples : List Sample) :
    Serving (b.emitAll samples).2 h (accepted ++ samples) (handed ++ (b.emitAll samples).1) ∧
      (b.emitAll samples).2.slots = #[] := by
  obtain ⟨hflushed, hempty⟩ := (hserving.emit samples).flush
  rw [List.append_assoc] at hflushed
  exact ⟨hflushed, hempty⟩

theorem Lazy.emit {capacity count : Nat} (hlazy : Lazy b capacity count) (hcapacity : 0 < capacity)
    (samples : List Sample) : Lazy (b.emit samples).2 capacity (count + samples.length) := by
  induction samples generalizing b count with
  | nil => exact hlazy
  | cons s rest ih =>
      rw [List.length_cons, Nat.add_comm rest.length, ← Nat.add_assoc]
      exact ih (hlazy.recordFlushing hcapacity s)

theorem deliver?_eq_foldl (c : Collector) (delivery : Option Delivery) :
    c.deliver? delivery = delivery.toList.foldl Collector.deliver c := by
  cases delivery <;> rfl

/-- Records one more sample through a collector, and counts it if it is accepted. -/
def recordNext (made : Nat × Buffer × Collector) (s : Sample) : Nat × Buffer × Collector :=
  let recorded := made.2.1.recordInto s made.2.2
  (if recorded.1 then made.1 + 1 else made.1, recorded.2)

theorem recordAllInto_eq_foldl (b : Buffer) (c : Collector) (samples : List Sample) :
    b.recordAllInto c samples = samples.foldl recordNext (0, b, c) := rfl

/-- Recording through a collector is to deliver what the buffer emits. -/
theorem recordAllInto_eq_emit (b : Buffer) (c : Collector) (samples : List Sample) :
    (b.recordAllInto c samples).2 = ((b.emit samples).2, (b.emit samples).1.foldl Collector.deliver c) := by
  -- the count of accepted samples goes along without an effect on the rest
  have general : ∀ (count : Nat) (b : Buffer) (c : Collector),
      (samples.foldl recordNext (count, b, c)).2
        = ((b.emit samples).2, (b.emit samples).1.foldl Collector.deliver c) := by
    induction samples with
    | nil => exact fun _ _ _ => rfl
    | cons s rest ih =>
        intro count b c
        rw [List.foldl_cons]
        refine (ih _ (b.recordInto s c).2.1 (b.recordInto s c).2.2).trans ?_
        have hdeliver : (b.recordInto s c).2.2 = (b.recordFlushing s).2.1.toList.foldl Collector.deliver c :=
          deliver?_eq_foldl c _
        rw [emit, List.foldl_append, ← hdeliver]
        rfl
  rw [recordAllInto_eq_foldl]
  exact general 0 b c

theorem dropInto_of_empty (hempty : b.slots = #[]) (c : Collector) : b.dropInto c = c := by
  unfold dropInto ending isEmpty size
  rw [hempty]
  rfl

/-- Recording everything, flushing and dropping is to deliver what the buffer emits in all. -/
theorem dropInto_eq_emitAll (hserving : Serving b h accepted handed) (c : Collector) (samples : List Sample) :
    let recorded := (b.recordAllInto c samples).2
    let flushed := (recorded.1.flushInto recorded.2).2
    flushed.1 = (b.emitAll samples).2 ∧
      flushed.1.dropInto flushed.2 = (b.emitAll samples).1.foldl Collector.deliver c := by
  intro recorded flushed
  have hrecorded : recorded = ((b.emit samples).2, (b.emit samples).1.foldl Collector.deliver c) :=
    recordAllInto_eq_emit b c samples
  have hflushed : flushed = (recorded.1.flush.2, recorded.2.deliver? recorded.1.flush.1) :=
    flushInto_eq recorded.1 recorded.2
  rw [hrecorded, deliver?_eq_foldl, ← List.foldl_append] at hflushed
  have hbuffer : flushed.1 = (b.emitAll samples).2 := congrArg Prod.fst hflushed
  refine ⟨hbuffer, ?_⟩
  rw [hbuffer, dropInto_of_empty (hserving.emitAll samples).2]
  exact congrArg Prod.snd hflushed

end Buffer

namespace Load

/-! ## Productions -/

/-- What came of a producer: why it aborted, or the number of its forced flushes and its batches in order. -/
abbrev Production := Except Abort (Nat × List (List Sample))

namespace Production

/-- The forced flushes, if the producer ended well. -/
def forced : Production → Nat
  | .ok (n, _) => n
  | .error _ => 0

/-- The batches that were handed on. -/
def batches : Production → List (List Sample)
  | .ok (_, sent) => sent
  | .error _ => []

/-- True if the producer aborted. -/
def isAborted : Production → Bool
  | .ok _ => false
  | .error _ => true

end Production

/-- The production of a thread. The buffer is dropped after a flush, so there is nothing left to hand on. -/
def Plan.production (p : Plan) (draws : Draws) (h : Handle) (thread : Nat) : Production :=
  match Buffer.make p.capacity (some h) with
  | .error cause => .error cause
  | .ok b =>
    let (sent, b) := b.emitAll (p.samplesOf draws thread)
    .ok (b.forced, sent.map Delivery.batch)

namespace Plan

theorem length_samplesOf (p : Plan) (draws : Draws) (thread : Nat) :
    (p.samplesOf draws thread).length = p.samples := by
  rw [samplesOf, List.length_map, List.length_range]

end Plan

/-- **A production in closed form.** A buffer that can be made hands on all samples, in batches that are not
    empty, one for every `capacity` samples begun, and all of these are forced but the last. -/
theorem production_eq_ok (p : Plan) (draws : Draws) (h : Handle) (thread : Nat) (hcapacity : 0 < p.capacity)
    (hstorage : p.capacity * Buffer.slotBytes ≤ Buffer.storageLimit) :
    ∃ sent, p.production draws h thread = .ok ((p.samples - 1) / p.capacity, sent) ∧
      (∀ batch ∈ sent, batch ≠ []) ∧ sent.flatten = p.samplesOf draws thread ∧
      sent.length = (p.samples + p.capacity - 1) / p.capacity := by
  have hmake := Buffer.make_eq_ok hcapacity hstorage (some h)
  obtain ⟨hserving, hempty⟩ := (Buffer.serving_of h hcapacity).emitAll (p.samplesOf draws thread)
  have hlazy := (Buffer.lazy_of p.capacity h).emit hcapacity (p.samplesOf draws thread)
  obtain ⟨hflushes, hforced⟩ := hlazy.flush hcapacity
  rw [Nat.zero_add, p.length_samplesOf] at hflushes hforced
  have hsamples := hserving.balanced.samples
  rw [hempty, Array.toList_empty, List.append_nil, List.nil_append, List.nil_append] at hsamples
  refine ⟨((Buffer.of p.capacity (some h)).emitAll (p.samplesOf draws thread)).1.map Delivery.batch,
    ?_, ?_, ?_, ?_⟩
  · rw [Plan.production, hmake, ← hforced]
    rfl
  · intro batch hbatch
    obtain ⟨d, hd, rfl⟩ := List.mem_map.mp hbatch
    exact List.ne_nil_of_length_pos (hserving.balanced.batches d hd).1
  · rw [← List.flatMap_def]
    exact hsamples.symm
  · rw [List.length_map, ← hflushes]
    exact hserving.balanced.flushes.symm

/-! ## Deliveries -/

/-- The batches reach the registry of the handle one after the other. -/
def deliverAll (h : Handle) (c : Collector) (batches : List (List Sample)) : Collector :=
  batches.foldl (fun c batch => c.deliver ⟨h, batch⟩) c

theorem registry?_deliverAll (h : Handle) (c : Collector) (batches : List (List Sample)) :
    Collector.registry? (deliverAll h c batches) h
      = (c.registry? h).map fun r => r.after (batches.map .receive) := by
  induction batches generalizing c with
  | nil => exact (Registry.map_after_nil _).symm
  | cons batch rest ih =>
      have hone := Collector.registry?_deliver? c (some ⟨h, batch⟩) h
      rw [Fleet.callOf, if_pos rfl] at hone
      have hall := ih (c.deliver ⟨h, batch⟩)
      rw [show Collector.registry? (c.deliver ⟨h, batch⟩) h = _ from hone, ← Registry.map_after_append] at hall
      exact hall

/-- Deliveries to one registry. -/
theorem foldl_deliver {h : Handle} {sent : List Delivery} (hsinks : ∀ d ∈ sent, d.sink = h) (c : Collector) :
    sent.foldl Collector.deliver c = deliverAll h c (sent.map Delivery.batch) := by
  induction sent generalizing c with
  | nil => rfl
  | cons d rest ih =>
      have hd : d = ⟨h, d.batch⟩ := by rw [← hsinks d List.mem_cons_self]
      rw [List.foldl_cons, ih (fun e he => hsinks e (List.mem_cons_of_mem _ he)), hd]
      rfl

/-- **A producer delivers its production** and does nothing else. -/
theorem produce_eq (p : Plan) (draws : Draws) (h : Handle) (thread : Nat) (c : Collector) :
    produce p draws h thread c
      = ((p.production draws h thread).map Prod.fst, deliverAll h c (p.production draws h thread).batches) := by
  unfold produce Plan.production Buffer.make
  by_cases hcapacity : p.capacity = 0
  · rw [if_pos hcapacity]
    rfl
  · rw [if_neg hcapacity]
    by_cases hstorage : Buffer.storageLimit < p.capacity * Buffer.slotBytes
    · rw [if_pos hstorage]
      rfl
    · rw [if_neg hstorage]
      dsimp only
      have hserving := Buffer.serving_of h (Nat.pos_of_ne_zero hcapacity)
      obtain ⟨hbuffer, hdropped⟩ := Buffer.dropInto_eq_emitAll hserving c (p.samplesOf draws thread)
      have hsinks := (hserving.emitAll (p.samplesOf draws thread)).1.sinks
      rw [List.nil_append] at hsinks
      rw [foldl_deliver hsinks] at hdropped
      exact Prod.ext (congrArg (fun b : Buffer => Except.ok b.forced) hbuffer) hdropped

/-- Lets one more producer produce, and counts its forced flushes or that it aborted. -/
def produceNext (p : Plan) (draws : Draws) (h : Handle) (made : Nat × Nat × Collector) (thread : Nat) :
    Nat × Nat × Collector :=
  match produce p draws h thread made.2.2 with
  | (.ok n, c) => (made.1 + n, made.2.1, c)
  | (.error _, c) => (made.1, made.2.1 + 1, c)

theorem produceAll_eq_foldl (p : Plan) (draws : Draws) (h : Handle) (c : Collector) (threads : List Nat) :
    produceAll p draws h c threads = threads.foldl (produceNext p draws h) (0, 0, c) := rfl

/-- **All producers in turn** deliver their productions in turn. -/
theorem produceAll_eq (p : Plan) (draws : Draws) (h : Handle) (c : Collector) (threads : List Nat) :
    let productions := threads.map (p.production draws h)
    produceAll p draws h c threads
      = ((productions.map Production.forced).sum, productions.countP Production.isAborted,
          deliverAll h c (productions.flatMap Production.batches)) := by
  -- the numbers of the producers before are added to those of the producers to come
  have general : ∀ (threads : List Nat) (forced aborted : Nat) (c : Collector),
      threads.foldl (produceNext p draws h) (forced, aborted, c)
        = (forced + ((threads.map (p.production draws h)).map Production.forced).sum,
            aborted + (threads.map (p.production draws h)).countP Production.isAborted,
            deliverAll h c ((threads.map (p.production draws h)).flatMap Production.batches)) := by
    intro threads
    induction threads with
    | nil => exact fun _ _ _ => rfl
    | cons thread rest ih =>
        intro forced aborted c
        rw [List.foldl_cons, produceNext, produce_eq]
        simp only [List.map_cons, List.sum_cons, List.countP_cons, List.flatMap_cons]
        have hdelivered : ∀ more, deliverAll h c ((p.production draws h thread).batches ++ more)
            = deliverAll h (deliverAll h c (p.production draws h thread).batches) more :=
          fun _ => List.foldl_append
        rw [hdelivered]
        cases p.production draws h thread with
        | ok made =>
            refine (ih _ _ _).trans ?_
            rw [Nat.add_assoc]
            rfl
        | error cause =>
            refine (ih _ _ _).trans ?_
            rw [Nat.add_assoc, Nat.add_comm 1]
            show _ = (forced + (0 + _), _, _)
            rw [Nat.zero_add]
            rfl
  intro productions
  have hall := general threads 0 0 c
  rw [Nat.zero_add, Nat.zero_add, ← produceAll_eq_foldl] at hall
  exact hall

end Load

end SampleProfiler
