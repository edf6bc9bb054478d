import SampleProfiler.Proofs.Delivery

/-!
# `SampleProfiler.Proofs.Transparency` — a buffer in between makes no difference

Samples that pass one by one through a buffer reach the registry in batches whose cuts depend on the capacity
and on the flushes in between. The registry cannot tell: apart from the count of batches it is in the state in
which one batch of all the samples leaves it.

## Contents
- **Counts.** `Registry.recount`; the counts of samples and batches steer nothing.
- **Batches.** `Registry.inBatches`, and `after_receives`, where the cuts between batches disappear.
- **Serving.** `Buffer.Serving`, the account of a buffer that has a sink and so accepts everything.
- **Feeding.** `Feed`, `Buffer.feedInto`, and the account `Buffer.Feeding` that each step keeps.
- **Counting flushes.** `Buffer.Lazy`, for a buffer that is flushed only when it is full.
- **Transparency.** `registry_feed_eq_receive`.
-/

namespace SampleProfiler

namespace Registry

/-! ## Counts -/

/-- The registry with other counts of samples and batches. -/
def recount (r : Registry) (samples batches : Nat) : Registry :=
  { r with samples := samples, batches := batches }

theorem take_recount (r : Registry) (m n : Nat) (s : Sample) :
    ((r.recount m n).take s).1 = (r.take s).1.recount m n := by
  unfold take recount
  obtain ⟨evicted, tracked⟩ := r.tracked.visit s.name (.empty s.name)
  cases evicted <;> rfl

theorem absorb_recount (r : Registry) (m n : Nat) (samples : List Sample) :
    (r.recount m n).absorb samples = (r.absorb samples).recount m n := by
  induction samples generalizing r with
  | nil => rfl
  | cons s rest ih =>
      show ((r.recount m n).take s).1.absorb rest = ((r.take s).1.absorb rest).recount m n
      rw [take_recount, ih]

/-- A batch is counted before its samples are taken, or afterwards. -/
theorem receive_eq_recount {batch : List Sample} (h : batch ≠ []) (r : Registry) :
    (r.receive batch).1 = (r.absorb batch).recount (r.samples + batch.length) (r.batches + 1) := by
  rw [receive_fst h, ← absorb_recount]
  rfl

/-- The count of batches steers nothing but itself. -/
theorem perform_rebatch (r : Registry) (n : Nat) (call : Call) :
    ∃ m, (({ r with batches := n } : Registry).perform call).2.1
      = { (r.perform call).2.1 with batches := m } := by
  cases call with
  | receive batch =>
      show ∃ m, (({ r with batches := n } : Registry).receive batch).1
        = { (r.receive batch).1 with batches := m }
      by_cases hbatch : batch = []
      · rw [hbatch]
        exact ⟨n, rfl⟩
      · refine ⟨n + 1, ?_⟩
        have hrecount : ({ r with batches := n } : Registry) = r.recount r.samples n := rfl
        rw [receive_eq_recount hbatch, receive_eq_recount hbatch, hrecount, absorb_recount]
        rfl
  | clear => exact ⟨0, rfl⟩
  | contains name => exact ⟨n, rfl⟩
  | profile name => exact ⟨n, rfl⟩
  | listing => exact ⟨n, rfl⟩
  | totals => exact ⟨n, rfl⟩

/-- Whatever is called later, two registries that agree up to their counts of batches keep agreeing. -/
theorem after_rebatch (r : Registry) (n : Nat) (calls : List Call) :
    ∃ m, ({ r with batches := n } : Registry).after calls = { r.after calls with batches := m } := by
  induction calls using List.reverseRecOn with
  | nil => exact ⟨n, rfl⟩
  | append_singleton calls call ih =>
      obtain ⟨m, hm⟩ := ih
      rw [after_concat, after_concat, hm]
      exact perform_rebatch (r.after calls) m call

/-! ## Batches -/

/-- The registry after samples that came in `n` batches, wherever the cuts were. -/
def inBatches (r : Registry) (samples : List Sample) (n : Nat) : Registry :=
  (r.absorb samples).recount (r.samples + samples.length) (r.batches + n)

theorem receive_inBatches (r : Registry) (samples : List Sample) (n : Nat) {batch : List Sample}
    (h : batch ≠ []) :
    ((r.inBatches samples n).receive batch).1 = r.inBatches (samples ++ batch) (n + 1) := by
  rw [receive_eq_recount h, inBatches, absorb_recount, ← absorb_append, inBatches, List.length_append,
    ← Nat.add_assoc]
  rfl

/-- **The cuts between batches disappear**, as long as no batch is empty. -/
theorem after_receives (r : Registry) {batches : List (List Sample)} (h : ∀ batch ∈ batches, batch ≠ []) :
    r.after (batches.map .receive) = r.inBatches batches.flatten batches.length := by
  induction batches using List.reverseRecOn with
  | nil => rfl
  | append_singleton batches batch ih =>
      have hbefore := ih fun earlier hearlier => h earlier (List.mem_append_left _ hearlier)
      have hbatch : batch ≠ [] := h batch (List.mem_append_right _ (List.mem_singleton_self batch))
      rw [List.map_append, List.map_singleton, after_concat, hbefore, List.flatten_append,
        List.length_append, List.flatten_singleton]
      exact receive_inBatches r batches.flatten batches.length hbatch

/-- One batch, with its count of batches replaced. -/
theorem inBatches_eq_receive (r : Registry) (samples : List Sample) (n : Nat) :
    r.inBatches samples n = { (r.receive samples).1 with batches := r.batches + n } := by
  by_cases hsamples : samples = []
  · rw [hsamples]
    rfl
  · rw [receive_eq_recount hsamples]
    rfl

end Registry

namespace Buffer

/-! ## Serving -/

variable {b : Buffer} {h : Handle}

/-- A full buffer with a sink hands its samples on and starts anew with the sample that came. -/
theorem recordFlushing_of_full_of_sink (hsink : b.sink = some h) (hcapacity : 0 < b.capacity)
    (hfull : b.capacity ≤ b.size) (s : Sample) :
    b.recordFlushing s
      = (true, some ⟨h, b.slots.toList⟩,
          { b with slots := #[s], records := b.records + 1, flushes := b.flushes + 1, forced := b.forced + 1 }) := by
  rcases flush_cases b with ⟨hnone | hempty, _⟩ | ⟨sink, hsome, _, hflush⟩
  · rw [hsink] at hnone
    exact absurd hnone (Option.some_ne_none h)
  · rw [size, hempty] at hfull
    exact absurd (Nat.lt_of_lt_of_le hcapacity hfull) (Nat.lt_irrefl 0)
  · rw [hsink] at hsome
    rw [recordFlushing_of_full hfull, hflush, Option.some.inj hsome]
    rcases record_cases { b with slots := #[], flushes := b.flushes + 1, forced := b.forced + 1 } s with
      ⟨hfull', _⟩ | ⟨_, hrecord⟩
    · exact absurd (Nat.lt_of_lt_of_le hcapacity hfull') (Nat.lt_irrefl 0)
    · rw [hrecord]
      rfl

/-- A buffer with room keeps the sample. -/
theorem recordFlushing_eq_push (hroom : b.size < b.capacity) (s : Sample) :
    b.recordFlushing s = (true, none, { b with slots := b.slots.push s, records := b.records + 1 }) := by
  rw [recordFlushing_of_room hroom]
  rcases record_cases b s with ⟨hfull, _⟩ | ⟨_, hrecord⟩
  · exact absurd hroom (Nat.not_lt_of_le hfull)
  · rw [hrecord]

/-- A buffer that has a sink accepts every sample and keeps its sink and its capacity. -/
theorem recordFlushing_accepts (hsink : b.sink = some h) (hcapacity : 0 < b.capacity) (s : Sample) :
    (b.recordFlushing s).1 = true ∧ (b.recordFlushing s).2.2.sink = some h ∧
      (b.recordFlushing s).2.2.capacity = b.capacity := by
  by_cases hfull : b.capacity ≤ b.size
  · rw [recordFlushing_of_full_of_sink hsink hcapacity hfull]
    exact ⟨rfl, hsink, rfl⟩
  · rw [recordFlushing_eq_push (Nat.lt_of_not_le hfull)]
    exact ⟨rfl, hsink, rfl⟩

theorem sink_flush (b : Buffer) : b.flush.2.sink = b.sink ∧ b.flush.2.capacity = b.capacity := by
  rcases flush_cases b with ⟨_, hflush⟩ | ⟨sink, _, _, hflush⟩
  · rw [hflush]
    exact ⟨rfl, rfl⟩
  · rw [hflush]
    exact ⟨rfl, rfl⟩

/-- The account of a buffer that accepts everything: it has a sink, and all that leaves it goes there. -/
structure Serving (b : Buffer) (h : Handle) (accepted : List Sample) (handed : List Delivery) : Prop where
  balanced : b.Balanced accepted handed
  sink : b.sink = some h
  room : 0 < b.capacity
  sinks : ∀ d ∈ handed, d.sink = h

theorem serving_of {capacity : Nat} (h : Handle) (hcapacity : 0 < capacity) :
    Serving (of capacity (some h)) h [] [] where
  balanced := balanced_of capacity (some h)
  sink := rfl
  room := hcapacity
  sinks := fun _ hd => absurd hd List.not_mem_nil

variable {accepted : List Sample} {handed : List Delivery}

/-- What a flush adds to the deliveries goes to the sink. -/
theorem Serving.sinks_append (hserving : Serving b h accepted handed) {delivery : Option Delivery}
    (hsink : ∀ d, delivery = some d → b.sink = some d.sink) :
    ∀ d ∈ handed ++ delivery.toList, d.sink = h := by
  intro d hd
  rcases List.mem_append.mp hd with hd | hd
  · exact hserving.sinks d hd
  · have hwas := hsink d (Option.mem_toList.mp hd)
    rw [hserving.sink] at hwas
    exact (Option.some.inj hwas).symm

theorem Serving.recordFlushing (hserving : Serving b h accepted handed) (s : Sample) :
    Serving (b.recordFlushing s).2.2 h (accepted ++ [s]) (handed ++ (b.recordFlushing s).2.1.toList) := by
  obtain ⟨haccepts, hsink, hcapacity⟩ := recordFlushing_accepts hserving.sink hserving.room s
  have hbalanced := hserving.balanced.recordFlushing s
  rw [if_pos haccepts] at hbalanced
  refine ⟨hbalanced, hsink, ?_, hserving.sinks_append ?_⟩
  · rw [hcapacity]
    exact hserving.room
  · intro d hd
    have hhanded : (b.does {} (.recordFlushing s)).1.handed = some d := hd
    exact sink_of_does hhanded

theorem Serving.flush (hserving : Serving b h accepted handed) :
    Serving b.flush.2 h accepted (handed ++ b.flush.1.toList) ∧ b.flush.2.slots = #[] := by
  obtain ⟨hsink, hcapacity⟩ := sink_flush b
  refine ⟨⟨hserving.balanced.flush, ?_, ?_, hserving.sinks_append fun d hd => sink_of_flush hd⟩, ?_⟩
  · rw [hsink]
    exact hserving.sink
  · rw [hcapacity]
    exact hserving.room
  · apply slots_flush
    rw [hsink, hserving.sink]
    rfl

/-! ## Feeding -/

/-- What a producer that always flushes a full buffer does: record a sample, or flush early. -/
inductive Feed where
  | sample (s : Sample)
  | flush

/-- The sample that is recorded, if one is. -/
def Feed.sample? : Feed → Option Sample
  | .sample s => some s
  | .flush => none

/-- Feeds a buffer in order; tells of each sample whether it was accepted. -/
def feedInto (b : Buffer) (c : Collector) : List Feed → List Bool × Buffer × Collector
  | [] => ([], b, c)
  | .sample s :: rest =>
    let (accepted, b, c) := b.recordInto s c
    let (answers, b, c) := b.feedInto c rest
    (accepted :: answers, b, c)
  | .flush :: rest =>
    let (_, b, c) := b.flushInto c
    b.feedInto c rest

/-- The account of a buffer that is fed for the registry `a` under the handle `h`: what left the buffer is all
    that the registry has received since. -/
structure Feeding (b : Buffer) (c : Collector) (h : Handle) (a : Registry) (accepted : List Sample)
    (handed : List Delivery) : Prop where
  balanced : b.Balanced accepted handed
  sink : b.sink = some h
  room : 0 < b.capacity
  registry : c.registry? h = some (a.after (handed.map fun d => .receive d.batch))

variable {c : Collector} {a : Registry}

/-- What a delivery of this buffer is to its registry. -/
theorem callOf_of_sink {delivery : Option Delivery} (hsink : ∀ d, delivery = some d → d.sink = h) :
    Fleet.callOf h delivery = delivery.toList.map fun d => .receive d.batch := by
  cases delivery with
  | none => rfl
  | some d =>
      rw [Fleet.callOf, if_pos (hsink d rfl)]
      rfl

/-- A deed that leaves the sink and the capacity alone keeps the account. -/
theorem Feeding.does (hfeeding : Feeding b c h a accepted handed) (deed : Deed)
    (hsink : (b.does c deed).2.1.sink = some h) (hcapacity : (b.does c deed).2.1.capacity = b.capacity) :
    Feeding (b.does c deed).2.1 (b.does c deed).2.2 h a (accepted ++ (b.does c deed).1.accepted.toList)
      (handed ++ (b.does c deed).1.handed.toList) := by
  refine ⟨hfeeding.balanced.does c deed, hsink, ?_, ?_⟩
  · rw [hcapacity]
    exact hfeeding.room
  · have hcall : Fleet.callOf h (b.does c deed).1.handed
        = (b.does c deed).1.handed.toList.map fun d => .receive d.batch := by
      apply callOf_of_sink
      intro d hd
      have hwas := sink_of_does hd
      rw [hfeeding.sink] at hwas
      exact (Option.some.inj hwas).symm
    rw [registry?_does, hfeeding.registry, Option.map_some, ← Registry.after_append, hcall, List.map_append]

/-- A sample that is fed is accepted, and keeps the account. -/
theorem Feeding.sample (hfeeding : Feeding b c h a accepted handed) (s : Sample) :
    (b.recordInto s c).1 = true ∧
    ∃ more, Feeding (b.recordInto s c).2.1 (b.recordInto s c).2.2 h a (accepted ++ [s]) (handed ++ more) := by
  obtain ⟨haccepts, hsink, hcapacity⟩ := recordFlushing_accepts hfeeding.sink hfeeding.room s
  have hdoes := hfeeding.does (.recordFlushing s) hsink hcapacity
  have heffect : (b.does c (.recordFlushing s)).1.accepted = some s := if_pos haccepts
  rw [heffect] at hdoes
  exact ⟨haccepts, _, hdoes⟩

/-- An early flush keeps the account, and leaves nothing in the buffer. -/
theorem Feeding.flush (hfeeding : Feeding b c h a accepted handed) :
    (b.flushInto c).2.1.slots = #[] ∧
    ∃ more, Feeding (b.flushInto c).2.1 (b.flushInto c).2.2 h a accepted (handed ++ more) := by
  have hbuffer : (b.flushInto c).2.1 = b.flush.2 := congrArg Prod.fst (flushInto_eq b c)
  have hsink : (b.flushInto c).2.1.sink = some h := by
    rw [hbuffer, (sink_flush b).1, hfeeding.sink]
  have hcapacity : (b.flushInto c).2.1.capacity = b.capacity := by
    rw [hbuffer, (sink_flush b).2]
  have hdoes := hfeeding.does .flush hsink hcapacity
  have heffect : (b.does c .flush).1.accepted = none := rfl
  rw [heffect, Option.toList_none, List.append_nil] at hdoes
  refine ⟨?_, _, hdoes⟩
  rw [hbuffer] at hsink ⊢
  apply slots_flush
  rw [hsink]
  rfl

/-- **Feeding keeps the account**, and every sample is accepted. -/
theorem Feeding.feedInto (hfeeding : Feeding b c h a accepted handed) (feed : List Feed) :
    (b.feedInto c feed).1 = List.replicate (feed.filterMap Feed.sample?).length true ∧
    ∃ more, Feeding (b.feedInto c feed).2.1 (b.feedInto c feed).2.2 h a
      (accepted ++ feed.filterMap Feed.sample?) (handed ++ more) := by
  induction feed generalizing b c accepted handed with
  | nil =>
      refine ⟨rfl, [], ?_⟩
      show Feeding b c h a (accepted ++ []) (handed ++ [])
      rw [List.append_nil, List.append_nil]
      exact hfeeding
  | cons next rest ih =>
      cases next with
      | sample s =>
          obtain ⟨haccepts, first, hfirst⟩ := hfeeding.sample s
          obtain ⟨hrest, more, hmore⟩ := ih hfirst
          rw [List.append_assoc, List.append_assoc] at hmore
          refine ⟨?_, first ++ more, hmore⟩
          show (b.recordInto s c).1 :: ((b.recordInto s c).2.1.feedInto (b.recordInto s c).2.2 rest).1
            = List.replicate ((rest.filterMap Feed.sample?).length + 1) true
          rw [haccepts, hrest, List.replicate_succ]
      | flush =>
          obtain ⟨_, first, hfirst⟩ := hfeeding.flush
          obtain ⟨hrest, more, hmore⟩ := ih hfirst
          rw [List.append_assoc] at hmore
          exact ⟨hrest, first ++ more, hmore⟩

/-- What an emptied buffer has sent to its registry is everything it accepted, in as many batches as it
    counts flushes. -/
theorem Feeding.settled (hfeeding : Feeding b c h a accepted handed) (hempty : b.slots = #[]) :
    c.registry? h = some (a.inBatches accepted b.flushes) := by
  have hsamples := hfeeding.balanced.samples
  rw [hempty, Array.toList_empty, List.append_nil] at hsamples
  have hbatches : ∀ batch ∈ handed.map Delivery.batch, batch ≠ [] := by
    intro batch hbatch
    obtain ⟨d, hd, rfl⟩ := List.mem_map.mp hbatch
    exact List.ne_nil_of_length_pos (hfeeding.balanced.batches d hd).1
  have hafter := a.after_receives hbatches
  rw [List.map_map, List.length_map, ← List.flatMap_def, ← hsamples, ← hfeeding.balanced.flushes] at hafter
  rw [hfeeding.registry]
  exact congrArg some hafter

/-! ## Counting flushes -/

/-- A buffer with a sink that took `count` samples and was flushed only when it was full: every batch was
    full, every flush was forced, and the last sample is still there. -/
structure Lazy (b : Buffer) (capacity count : Nat) : Prop where
  sink : b.sink.isSome = true
  room : b.capacity = capacity
  fits : b.size ≤ capacity
  forced : b.forced = b.flushes
  samples : count = capacity * b.flushes + b.size
  pending : 0 < count → 0 < b.size

theorem lazy_of (capacity : Nat) (h : Handle) : Lazy (of capacity (some h)) capacity 0 where
  sink := rfl
  room := rfl
  fits := Nat.zero_le capacity
  forced := rfl
  samples := rfl
  pending := fun hpos => hpos

theorem Lazy.recordFlushing {capacity count : Nat} (hlazy : Lazy b capacity count) (hcapacity : 0 < capacity)
    (s : Sample) : Lazy (b.recordFlushing s).2.2 capacity (count + 1) := by
  have hsamples := hlazy.samples
  by_cases hfull : b.capacity ≤ b.size
  · obtain ⟨h, hsink⟩ := Option.isSome_iff_exists.mp hlazy.sink
    have hroom : 0 < b.capacity := by
      rw [hlazy.room]
      exact hcapacity
    rw [recordFlushing_of_full_of_sink hsink hroom hfull]
    -- the batch that left was full
    have hsize : b.size = capacity := by
      rw [hlazy.room] at hfull
      exact Nat.le_antisymm hlazy.fits hfull
    refine ⟨hlazy.sink, hlazy.room, hcapacity, ?_, ?_, fun _ => Nat.one_pos⟩
    · rw [hlazy.forced]
    · show count + 1 = capacity * (b.flushes + 1) + 1
      rw [Nat.mul_succ, hsamples, hsize]
  · rw [recordFlushing_eq_push (Nat.lt_of_not_le hfull)]
    have hpush : (b.slots.push s).size = b.size + 1 := Array.size_push s
    rw [hlazy.room] at hfull
    refine ⟨hlazy.sink, hlazy.room, ?_, hlazy.forced, ?_, fun _ => ?_⟩
    · show (b.slots.push s).size ≤ capacity
      omega
    · show count + 1 = capacity * b.flushes + (b.slots.push s).size
      omega
    · show 0 < (b.slots.push s).size
      omega

theorem Lazy.feedInto {capacity count : Nat} (hlazy : Lazy b capacity count) (hcapacity : 0 < capacity)
    (c : Collector) (samples : List Sample) :
    Lazy (b.feedInto c (samples.map .sample)).2.1 capacity (count + samples.length) := by
  induction samples generalizing b c count with
  | nil => exact hlazy
  | cons s rest ih =>
      rw [List.length_cons, Nat.add_comm rest.length, ← Nat.add_assoc]
      exact ih (hlazy.recordFlushing hcapacity s) (b.recordInto s c).2.2

/-- All batches but the last one were full, so the number of forced flushes is the number of full batches
    before the last sample. -/
theorem Lazy.forced_eq {capacity count : Nat} (hlazy : Lazy b capacity count) (hcapacity : 0 < capacity) :
    b.forced = (count - 1) / capacity := by
  have hsamples := hlazy.samples
  have hfits := hlazy.fits
  rw [hlazy.forced]
  by_cases hpos : 0 < count
  · have hpending := hlazy.pending hpos
    have hcount : count - 1 = (b.size - 1) + capacity * b.flushes := by omega
    have hsmall : (b.size - 1) / capacity = 0 := Nat.div_eq_of_lt (by omega)
    rw [hcount, Nat.add_mul_div_left _ _ hcapacity, hsmall, Nat.zero_add]
  · have hzero : capacity * b.flushes = 0 := by omega
    rcases Nat.mul_eq_zero.mp hzero with hcap | hflushes
    · exact absurd hcap (Nat.ne_of_gt hcapacity)
    · rw [hflushes, Nat.eq_zero_of_not_pos hpos, Nat.zero_sub, Nat.zero_div]

/-- The last flush adds the batch that is still there, if any sample came. -/
theorem Lazy.flush {capacity count : Nat} (hlazy : Lazy b capacity count) (hcapacity : 0 < capacity) :
    b.flush.2.flushes = (count + capacity - 1) / capacity ∧ b.flush.2.forced = (count - 1) / capacity := by
  have hforced := hlazy.forced_eq hcapacity
  rcases flush_cases b with ⟨hnone | hempty, hflush⟩ | ⟨_, _, hpending, hflush⟩
  · have hsink := hlazy.sink
    rw [hnone] at hsink
    exact absurd hsink Bool.false_ne_true
  · -- nothing is pending, so no sample came
    have hcount : count = 0 := by
      have hsize : b.size = 0 := by rw [size, hempty]; rfl
      have hlast := hlazy.pending
      omega
    rw [hflush]
    refine ⟨?_, hforced⟩
    rw [← hlazy.forced, hforced, hcount, Nat.zero_sub, Nat.zero_div, Nat.zero_add]
    exact (Nat.div_eq_of_lt (Nat.sub_one_lt_of_lt hcapacity)).symm
  · have hpos : 0 < count := by
      have hsize : b.slots.size ≠ 0 := by simpa using hpending
      have hsamples := hlazy.samples
      unfold size at hsamples
      omega
    rw [hflush]
    refine ⟨?_, hforced⟩
    show b.flushes + 1 = (count + capacity - 1) / capacity
    have hshift : count + capacity - 1 = (count - 1) + capacity := by omega
    rw [← hlazy.forced, hforced, hshift, Nat.add_div_right _ hcapacity]

/-! ## Transparency -/

/-- **A buffer in between makes no difference.** Feeding samples through a new buffer of any capacity, with
    flushes wherever one likes and one at the end, is accepted throughout and leaves the registry as one batch
    of all the samples does, except for the count of batches, which grows by the flushes of the buffer; so no
    later run of calls can tell the difference either. Without early flushes there is one batch for every
    `capacity` samples begun, and all of these are forced but the last. -/
theorem registry_feed_eq_receive (c : Collector) (h : Handle) (a : Registry) (capacity : Nat)
    (feed : List Feed) (ha : c.registry? h = some a) (hcapacity : 0 < capacity) :
    let samples := feed.filterMap Feed.sample?
    let fed := (of capacity (some h)).feedInto c feed
    let flushed := fed.2.1.flushInto fed.2.2
    let gauge := flushed.2.1.gauge
    fed.1 = List.replicate samples.length true ∧
    (∃ r, Collector.registry? flushed.2.2 h = some r ∧
      r = { (a.receive samples).1 with batches := a.batches + gauge.flushes } ∧
      ∀ calls, ∃ n, r.after calls = { (a.receive samples).1.after calls with batches := n }) ∧
    (feed = samples.map .sample →
      gauge.flushes = (samples.length + capacity - 1) / capacity ∧
      gauge.forced = (samples.length - 1) / capacity) := by
  intro samples fed flushed gauge
  have hstart : Feeding (of capacity (some h)) c h a [] [] :=
    ⟨balanced_of capacity (some h), rfl, hcapacity, ha⟩
  obtain ⟨hanswers, handed, hfed⟩ := hstart.feedInto feed
  obtain ⟨hempty, last, hflushed⟩ := hfed.flush
  have hregistry : Collector.registry? flushed.2.2 h = some (a.inBatches samples gauge.flushes) :=
    hflushed.settled hempty
  rw [Registry.inBatches_eq_receive] at hregistry
  refine ⟨hanswers, ⟨_, hregistry, rfl, Registry.after_rebatch _ _⟩, ?_⟩
  intro hfeed
  have hlazy := (lazy_of capacity h).feedInto hcapacity c samples
  rw [← hfeed, Nat.zero_add] at hlazy
  have hbuffer : flushed.2.1 = fed.2.1.flush.2 := congrArg Prod.fst (flushInto_eq fed.2.1 fed.2.2)
  show flushed.2.1.flushes = _ ∧ flushed.2.1.forced = _
  rw [hbuffer]
  exact hlazy.flush hcapacity

/-- A registry that tracks one name is fed two names in turns, with an early flush after the first sample and
    then without: the cuts fall between evictions. -/
theorem registry_feed_eq_receive_cut :
    let s : Sample := ⟨"a", .zero, true, .reading 0⟩
    let t : Sample := ⟨"b", .zero, false, .reading 1⟩
    let a : Registry := ((Registry.empty 1).receive [s]).1
    let c : Collector := { registries := #[a] }
    let early := (of 2 (some 0)).feedInto c [.sample t, .flush, .sample s, .sample t, .sample s]
    let steady := (of 2 (some 0)).feedInto c [.sample t, .sample s, .sample t, .sample s]
    c.registry? 0 = some a ∧ 0 < 2 ∧ early.1 = [true, true, true, true] ∧
    (∃ r, Collector.registry? (early.2.1.flushInto early.2.2).2.2 0 = some r ∧
      r = { (a.receive [t, s, t, s]).1 with
        batches := a.batches + (early.2.1.flushInto early.2.2).2.1.gauge.flushes }) ∧
    (steady.2.1.flushInto steady.2.2).2.1.gauge.flushes = 2 ∧
    (steady.2.1.flushInto steady.2.2).2.1.gauge.forced = 1 := by
  intro s t a c early steady
  have ha : c.registry? 0 = some a := rfl
  have hsamples : [Feed.sample t, .flush, .sample s, .sample t, .sample s].filterMap Feed.sample?
      = [t, s, t, s] := rfl
  obtain ⟨hanswers, ⟨r, hearly, hr, _⟩, _⟩ :=
    registry_feed_eq_receive c 0 a 2 [.sample t, .flush, .sample s, .sample t, .sample s] ha (by decide)
  -- unfolding the list here keeps the registries from being evaluated
  rw [hsamples] at hanswers hr
  obtain ⟨_, _, hcounts⟩ :=
    registry_feed_eq_receive c 0 a 2 [.sample t, .sample s, .sample t, .sample s] ha (by decide)
  obtain ⟨hflushes, hforced⟩ := hcounts rfl
  exact ⟨ha, by decide, hanswers, ⟨r, hearly, hr⟩, hflushes.trans (by decide), hforced.trans (by decide)⟩

end Buffer

end SampleProfiler
