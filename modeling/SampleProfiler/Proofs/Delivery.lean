import SampleProfiler.Proofs.Fleet

/-!
# `SampleProfiler.Proofs.Delivery` — every accepted sample is handed on once, in order

The account of a buffer (`Buffer.Balanced`) says that what it accepted is what it handed on followed by what it
still holds. Each operation of a buffer keeps the account, so every deed does, and so does every turn of a
fleet (`Fleet.sound_run`): batches that leave by a flush, by a forced flush, by a drop or after the buffer was
turned to another registry make no difference.
-/

namespace SampleProfiler

namespace Buffer

/-- The account of a buffer: what it accepted and what it handed on so far agree with what it holds and
    counts, and it never held more than it has room for. -/
structure Balanced (b : Buffer) (accepted : List Sample) (handed : List Delivery) : Prop where
  samples : accepted = handed.flatMap Delivery.batch ++ b.slots.toList
  fits : b.size ≤ b.capacity
  batches : ∀ d ∈ handed, 1 ≤ d.batch.length ∧ d.batch.length ≤ b.capacity
  records : b.records = accepted.length
  flushes : b.flushes = handed.length

variable {b : Buffer} {accepted : List Sample} {handed : List Delivery}

theorem balanced_of (capacity : Nat) (sink : Option Handle) : Balanced (of capacity sink) [] [] where
  samples := rfl
  fits := Nat.zero_le _
  batches := fun _ hd => absurd hd List.not_mem_nil
  records := rfl
  flushes := rfl

/-- All that recording can do. -/
theorem record_cases (b : Buffer) (s : Sample) :
    (b.capacity ≤ b.size ∧ b.record s = (false, b)) ∨
    (b.size < b.capacity ∧
      b.record s = (true, { b with slots := b.slots.push s, records := b.records + 1 })) := by
  unfold record isFull
  by_cases hfull : b.capacity ≤ b.size
  · rw [if_pos (decide_eq_true hfull)]
    exact Or.inl ⟨hfull, rfl⟩
  · rw [if_neg (by simpa using hfull)]
    exact Or.inr ⟨Nat.lt_of_not_le hfull, rfl⟩

/-- All that a flush can do. -/
theorem flush_cases (b : Buffer) :
    ((b.sink = none ∨ b.slots = #[]) ∧ b.flush = (none, b)) ∨
    ∃ sink, b.sink = some sink ∧ b.slots ≠ #[] ∧
      b.flush = (some ⟨sink, b.slots.toList⟩, { b with slots := #[], flushes := b.flushes + 1 }) := by
  unfold flush isEmpty size
  cases hsink : b.sink with
  | none => exact Or.inl ⟨Or.inl rfl, rfl⟩
  | some sink =>
      by_cases hempty : b.slots = #[]
      · rw [hempty]
        exact Or.inl ⟨Or.inr rfl, rfl⟩
      · have hsize : ¬ (b.slots.size == 0) = true := by simpa using hempty
        dsimp only
        rw [if_neg hsize]
        exact Or.inr ⟨sink, rfl, hempty, rfl⟩

/-- A full buffer is flushed, counts that, and then records. -/
theorem recordFlushing_of_full (h : b.capacity ≤ b.size) (s : Sample) :
    b.recordFlushing s
      = ((({ b.flush.2 with forced := b.flush.2.forced + 1 } : Buffer).record s).1, b.flush.1,
          (({ b.flush.2 with forced := b.flush.2.forced + 1 } : Buffer).record s).2) := by
  rw [recordFlushing, isFull, if_pos (decide_eq_true h)]

/-- A buffer with room just records. -/
theorem recordFlushing_of_room (h : b.size < b.capacity) (s : Sample) :
    b.recordFlushing s = ((b.record s).1, none, (b.record s).2) := by
  rw [recordFlushing, isFull, if_neg (by simpa using h)]

theorem Balanced.record (h : Balanced b accepted handed) (s : Sample) :
    Balanced (b.record s).2 (accepted ++ (if (b.record s).1 then some s else none).toList) handed := by
  rcases record_cases b s with ⟨_, hrecord⟩ | ⟨hroom, hrecord⟩
  · rw [hrecord]
    simpa using h
  · rw [hrecord]
    refine ⟨?_, ?_, h.batches, ?_, h.flushes⟩
    · rw [h.samples]
      simp
    · show (b.slots.push s).size ≤ b.capacity
      rw [Array.size_push]
      exact hroom
    · rw [h.records]
      simp

theorem Balanced.flush (h : Balanced b accepted handed) :
    Balanced b.flush.2 accepted (handed ++ b.flush.1.toList) := by
  rcases flush_cases b with ⟨_, hflush⟩ | ⟨sink, _, hfull, hflush⟩
  · rw [hflush]
    simpa using h
  · rw [hflush]
    refine ⟨?_, Nat.zero_le _, ?_, h.records, ?_⟩
    · rw [h.samples]
      simp
    · intro d hd
      rcases List.mem_append.mp hd with hd | hd
      · exact h.batches d hd
      · have hbatch : d.batch = b.slots.toList := by
          rw [List.mem_singleton.mp hd]
        have hsize : b.slots.size ≠ 0 := by simpa using hfull
        have hfits := h.fits
        rw [hbatch, Array.length_toList]
        exact ⟨Nat.one_le_iff_ne_zero.mpr hsize, hfits⟩
    · rw [h.flushes]
      simp

/-- The account does not mention how many flushes were forced. -/
theorem Balanced.force (h : Balanced b accepted handed) (n : Nat) :
    Balanced { b with forced := n } accepted handed :=
  ⟨h.samples, h.fits, h.batches, h.records, h.flushes⟩

theorem Balanced.recordFlushing (h : Balanced b accepted handed) (s : Sample) :
    Balanced (b.recordFlushing s).2.2
      (accepted ++ (if (b.recordFlushing s).1 then some s else none).toList)
      (handed ++ (b.recordFlushing s).2.1.toList) := by
  by_cases hfull : b.capacity ≤ b.size
  · rw [recordFlushing_of_full hfull]
    exact (h.flush.force _).record s
  · rw [recordFlushing_of_room (Nat.lt_of_not_le hfull), Option.toList_none, List.append_nil]
    exact h.record s

/-- **Every deed keeps the account.** -/
theorem Balanced.does (h : Balanced b accepted handed) (c : Collector) (deed : Deed) :
    Balanced (b.does c deed).2.1 (accepted ++ (b.does c deed).1.accepted.toList)
      (handed ++ (b.does c deed).1.handed.toList) := by
  -- a deed that accepts or hands on nothing adds an empty list on that side
  cases deed with
  | record s =>
      have hrecord := h.record s
      rw [← List.append_nil handed] at hrecord
      exact hrecord
  | recordFlushing s => exact h.recordFlushing s
  | flush =>
      have hflush := h.flush
      rw [← List.append_nil accepted] at hflush
      have hbuffer : (b.does c .flush).2.1 = b.flush.2 := congrArg Prod.fst (flushInto_eq b c)
      rw [hbuffer]
      exact hflush
  | attach sink =>
      rw [← List.append_nil accepted, ← List.append_nil handed] at h
      exact ⟨h.samples, h.fits, h.batches, h.records, h.flushes⟩
  | detach =>
      rw [← List.append_nil accepted, ← List.append_nil handed] at h
      exact ⟨h.samples, h.fits, h.batches, h.records, h.flushes⟩
  | drop =>
      have hflush := h.flush
      rw [← List.append_nil accepted] at hflush
      exact hflush

/-- A flush hands on to the sink that the buffer has. -/
theorem sink_of_flush {d : Delivery} (h : b.flush.1 = some d) : b.sink = some d.sink := by
  rcases flush_cases b with ⟨_, hflush⟩ | ⟨sink, hsink, _, hflush⟩
  · rw [hflush] at h
    exact absurd h.symm (Option.some_ne_none d)
  · rw [hflush] at h
    rw [hsink, ← Option.some.inj h]

/-- Whatever leaves a buffer goes to the sink that the buffer had at that moment. -/
theorem sink_of_does {c : Collector} {deed : Deed} {d : Delivery} (h : (b.does c deed).1.handed = some d) :
    b.sink = some d.sink := by
  cases deed with
  | record s => exact absurd h.symm (Option.some_ne_none d)
  | recordFlushing s =>
      change (b.recordFlushing s).2.1 = some d at h
      by_cases hfull : b.capacity ≤ b.size
      · rw [recordFlushing_of_full hfull] at h
        exact sink_of_flush h
      · rw [recordFlushing_of_room (Nat.lt_of_not_le hfull)] at h
        exact absurd h.symm (Option.some_ne_none d)
  | flush => exact sink_of_flush h
  | attach sink => exact absurd h.symm (Option.some_ne_none d)
  | detach => exact absurd h.symm (Option.some_ne_none d)
  | drop => exact sink_of_flush h

/-- A buffer that has a sink keeps nothing back when it is flushed. -/
theorem slots_flush (h : b.flush.2.sink.isSome = true) : b.flush.2.slots = #[] := by
  rcases flush_cases b with ⟨hnone, hflush⟩ | ⟨sink, _, _, hflush⟩
  · rw [hflush] at h ⊢
    rcases hnone with hnone | hempty
    · rw [hnone] at h
      exact absurd h Bool.false_ne_true
    · exact hempty
  · rw [hflush]

/-- Nothing leaves an empty buffer. -/
theorem flush_of_empty (h : b.slots = #[]) : b.flush.1 = none := by
  rcases flush_cases b with ⟨_, hflush⟩ | ⟨_, _, hpending, _⟩
  · rw [hflush]
  · exact absurd h hpending

/-- A flush of a buffer that has a sink hands on all its samples. -/
theorem flushInto_fst (h : b.sink.isSome = true) (c : Collector) : (b.flushInto c).1 = b.size := by
  unfold flushInto
  rcases flush_cases b with ⟨hnone | hempty, hflush⟩ | ⟨_, _, _, hflush⟩
  · rw [hnone] at h
    exact absurd h Bool.false_ne_true
  · rw [hflush, size, hempty]
    rfl
  · rw [hflush]
    exact Array.length_toList

end Buffer

namespace Fleet

/-- The account of all buffers and registries after the recorded turns. -/
structure Sound (c : Collector) (turns : List Turn) (f : Fleet) : Prop where
  balanced : ∀ (i : Nat) (berth : Berth), f.berths[i]? = some berth →
    berth.buffer.Balanced (accepted i turns) (handed i turns)
  released : ∀ (i : Nat) (berth : Berth), f.berths[i]? = some berth → berth.dropped = true →
    berth.buffer.sink.isSome = true → berth.buffer.slots = #[]
  unmade : ∀ i : Nat, f.berths[i]? = none → accepted i turns = [] ∧ handed i turns = []
  sinks : ∀ t ∈ turns, ∀ d, t.effect.handed = some d → t.sink = some d.sink
  registries : ∀ h, f.collector.registry? h = (c.registry? h).map fun r => r.after (calls h turns)

variable {c : Collector} {turns : List Turn} {f : Fleet}

theorem sound_start (c : Collector) : Sound c [] { collector := c, berths := [] } where
  balanced := fun _ _ hberth => absurd hberth.symm (Option.some_ne_none _)
  released := fun _ _ hberth => absurd hberth.symm (Option.some_ne_none _)
  unmade := fun _ _ => ⟨rfl, rfl⟩
  sinks := fun _ ht => absurd ht List.not_mem_nil
  registries := fun h => (Registry.map_after_nil (c.registry? h)).symm

/-- A turn without an effect adds nothing to what a buffer accepted and handed on. -/
theorem concat_of_no_effect {t : Turn} (h : t.effect = {}) (i : Nat) (turns : List Turn) :
    accepted i (turns ++ [t]) = accepted i turns ∧ handed i (turns ++ [t]) = handed i turns := by
  have heffect : t.effectOn i = {} := by
    unfold Turn.effectOn
    split
    · split
      · exact h
      · rfl
    · rfl
  rw [accepted_concat, handed_concat, heffect]
  exact ⟨List.append_nil _, List.append_nil _⟩

/-- A turn that touches no buffer keeps the account if the registries see its calls. -/
theorem Sound.pass (h : Sound c turns f) {t : Turn} {after : Collector} (heffect : t.effect = {})
    (hcalls : ∀ k, after.registry? k = (f.collector.registry? k).map fun r => r.after (t.calls k)) :
    Sound c (turns ++ [t]) { f with collector := after } := by
  refine ⟨?_, h.released, ?_, ?_, ?_⟩
  · intro i berth hberth
    rw [(concat_of_no_effect heffect i turns).1, (concat_of_no_effect heffect i turns).2]
    exact h.balanced i berth hberth
  · intro i hnone
    rw [(concat_of_no_effect heffect i turns).1, (concat_of_no_effect heffect i turns).2]
    exact h.unmade i hnone
  · intro u hu d hd
    rcases List.mem_append.mp hu with hu | hu
    · exact h.sinks u hu d hd
    · rw [List.mem_singleton.mp hu, heffect] at hd
      exact absurd hd.symm (Option.some_ne_none d)
  · intro k
    rw [calls_concat, Registry.map_after_append, ← h.registries k]
    exact hcalls k

/-- A turn that touches nothing at all keeps the account. -/
theorem Sound.idle (h : Sound c turns f) {t : Turn} (heffect : t.effect = {}) (hcalls : ∀ k, t.calls k = []) :
    Sound c (turns ++ [t]) f := by
  refine h.pass heffect fun k => ?_
  rw [hcalls, Registry.map_after_nil]

/-- A new buffer starts with an empty account. -/
theorem Sound.make (h : Sound c turns f) (capacity : Nat) (sink : Option Handle) :
    Sound c turns { f with berths := f.berths ++ [⟨Buffer.of capacity sink, false⟩] } := by
  have hnew : ∀ (i : Nat) (berth : Berth), (f.berths ++ [⟨Buffer.of capacity sink, false⟩])[i]? = some berth →
      f.berths[i]? = some berth ∨ (f.berths[i]? = none ∧ berth = ⟨Buffer.of capacity sink, false⟩) := by
    intro i berth hberth
    rw [List.getElem?_append] at hberth
    by_cases hlt : i < f.berths.length
    · rw [if_pos hlt] at hberth
      exact Or.inl hberth
    · rw [if_neg hlt] at hberth
      have hmem := List.mem_of_getElem? hberth
      exact Or.inr ⟨List.getElem?_eq_none (Nat.le_of_not_lt hlt), List.mem_singleton.mp hmem⟩
  refine ⟨?_, ?_, ?_, h.sinks, h.registries⟩
  · -- no turn before this one can have been a turn of the new buffer
    intro i berth hberth
    rcases hnew i berth hberth with hold | ⟨hnone, rfl⟩
    · exact h.balanced i berth hold
    · rw [(h.unmade i hnone).1, (h.unmade i hnone).2]
      exact Buffer.balanced_of capacity sink
  · intro i berth hberth hdropped
    rcases hnew i berth hberth with hold | ⟨_, rfl⟩
    · exact h.released i berth hold hdropped
    · exact absurd hdropped Bool.false_ne_true
  · intro i hnone
    rw [List.getElem?_eq_none_iff, List.length_append] at hnone
    exact h.unmade i (List.getElem?_eq_none (by omega))

/-- **One deed in a fleet** keeps the account of its buffer, and of all others because it is not theirs. -/
theorem Sound.use (h : Sound c turns f) {i : Nat} {b : Buffer} (hb : f.berths[i]? = some ⟨b, false⟩)
    (deed : Deed) :
    Sound c
      (turns ++ [{ act := .use i deed, sink := b.sink, effect := (b.does f.collector deed).1 }])
      { collector := (b.does f.collector deed).2.2
        berths := f.berths.set i { buffer := (b.does f.collector deed).2.1, dropped := ends deed } } := by
  have hlt : i < f.berths.length := (List.getElem?_eq_some_iff.mp hb).1
  refine ⟨?_, ?_, ?_, ?_, ?_⟩
  · intro j berth hberth
    rw [accepted_concat, handed_concat]
    by_cases hij : i = j
    · subst hij
      rw [List.getElem?_set_self hlt] at hberth
      rw [← Option.some.inj hberth, effectOn_self]
      exact (h.balanced i ⟨b, false⟩ hb).does f.collector deed
    · rw [List.getElem?_set_ne hij] at hberth
      rw [effectOn_of_ne hij, Option.toList_none, List.append_nil, Option.toList_none, List.append_nil]
      exact h.balanced j berth hberth
  · intro j berth hberth hdropped hsink
    by_cases hij : i = j
    · subst hij
      rw [List.getElem?_set_self hlt] at hberth
      rw [← Option.some.inj hberth] at hdropped hsink ⊢
      -- only a drop ends a buffer, and it flushes first
      cases deed with
      | drop => exact Buffer.slots_flush hsink
      | record s => exact absurd hdropped Bool.false_ne_true
      | recordFlushing s => exact absurd hdropped Bool.false_ne_true
      | flush => exact absurd hdropped Bool.false_ne_true
      | attach sink => exact absurd hdropped Bool.false_ne_true
      | detach => exact absurd hdropped Bool.false_ne_true
    · rw [List.getElem?_set_ne hij] at hberth
      exact h.released j berth hberth hdropped hsink
  · intro j hnone
    rw [List.getElem?_eq_none_iff, List.length_set] at hnone
    have hij : i ≠ j := by omega
    rw [accepted_concat, handed_concat, effectOn_of_ne hij, Option.toList_none, List.append_nil,
      Option.toList_none, List.append_nil]
    exact h.unmade j (List.getElem?_eq_none hnone)
  · intro u hu d hd
    rcases List.mem_append.mp hu with hu | hu
    · exact h.sinks u hu d hd
    · rw [List.mem_singleton.mp hu] at hd ⊢
      exact Buffer.sink_of_does hd
  · intro k
    rw [calls_concat, Registry.map_after_append, ← h.registries k]
    exact Buffer.registry?_does b f.collector deed k

/-- A direct call reaches the registry that it names. -/
theorem Sound.call (h : Sound c turns f) (k : Handle) (call : Registry.Call) :
    Sound c (turns ++ [{ act := .call k call }])
      { f with collector := f.collector.modify k fun r => (r.perform call).2 } :=
  h.pass rfl fun j => Collector.registry?_call f.collector k j call

/-- **One turn keeps the account.** -/
theorem Sound.step (h : Sound c turns f) (act : Act) :
    Sound c (turns ++ [(f.step act).1]) (f.step act).2 := by
  cases act with
  | make capacity sink =>
      have hidle : Sound c (turns ++ [{ act := .make capacity sink }]) f := h.idle rfl fun _ => rfl
      rw [Fleet.step, Buffer.make]
      by_cases hzero : capacity = 0
      · rw [if_pos hzero]
        exact hidle
      · rw [if_neg hzero]
        by_cases hlarge : Buffer.storageLimit < capacity * Buffer.slotBytes
        · rw [if_pos hlarge]
          exact hidle
        · rw [if_neg hlarge]
          exact hidle.make capacity sink
  | use i deed =>
      have hidle : Sound c (turns ++ [{ act := .use i deed }]) f := h.idle rfl fun _ => rfl
      rw [Fleet.step]
      cases hberth : f.berths[i]? with
      | none => exact hidle
      | some berth =>
          obtain ⟨b, dropped⟩ := berth
          cases dropped with
          | true => exact hidle
          | false => exact h.use hberth deed
  | call k call => exact h.call k call

theorem sound_run (c : Collector) (acts : List Act) : Sound c (run c acts).1 (run c acts).2 := by
  induction acts using List.reverseRecOn with
  | nil => exact sound_start c
  | append_singleton acts act ih =>
      rw [run_concat]
      exact ih.step act

/-- **Exactly once, in order.** After any run of any number of buffers on any number of registries, what a
    buffer accepted is what it handed on, batch by batch, followed by what it still holds; a dropped buffer
    holds something only if it had no sink. Every batch went to the sink that the buffer had at that moment,
    and each registry is in the state in which the batches that it was handed, and the calls of others, in the
    order in which they came, leave it. -/
theorem accepted_eq_handed_append_slots (c : Collector) (acts : List Act) :
    let turns := (run c acts).1
    let fleet := (run c acts).2
    (∀ (i : Nat) (berth : Berth), fleet.berths[i]? = some berth →
      accepted i turns = (handed i turns).flatMap Delivery.batch ++ berth.buffer.slots.toList ∧
      (berth.dropped = true → berth.buffer.sink.isSome = true → berth.buffer.slots = #[]) ∧
      (∀ d ∈ handed i turns, 1 ≤ d.batch.length ∧ d.batch.length ≤ berth.buffer.capacity) ∧
      berth.buffer.gauge.size ≤ berth.buffer.gauge.capacity ∧
      berth.buffer.gauge.flushes = (handed i turns).length ∧
      berth.buffer.gauge.records = (accepted i turns).length) ∧
    (∀ t ∈ turns, ∀ d, t.effect.handed = some d → t.sink = some d.sink) ∧
    ∀ h, fleet.collector.registry? h = (c.registry? h).map fun r => r.after (calls h turns) := by
  intro turns fleet
  have hsound : Sound c turns fleet := sound_run c acts
  refine ⟨?_, hsound.sinks, hsound.registries⟩
  intro i berth hberth
  have hbalanced := hsound.balanced i berth hberth
  exact ⟨hbalanced.samples, hsound.released i berth hberth, hbalanced.batches, hbalanced.fits,
    hbalanced.flushes, hbalanced.records⟩

/-- A buffer that is full without a sink refuses a sample, takes it after it was turned to a registry, and
    hands on what is pending when it is dropped; another one is dropped without a sink and keeps its sample. -/
theorem accepted_eq_handed_append_slots_reattached :
    let s : Sample := ⟨"a", .zero, true, .reading 0⟩
    let t : Sample := ⟨"b", .zero, false, .reading 1⟩
    let c : Collector := { registries := #[.empty 2, .empty 1] }
    let acts := [Act.make 1 (some 0), .use 0 (.record s), .use 0 .detach, .use 0 (.recordFlushing t),
      .use 0 (.attach 1), .use 0 (.recordFlushing t), .use 0 .drop, .make 2 none, .use 1 (.record s), .use 1 .drop]
    (∃ berth, (run c acts).2.berths[0]? = some berth ∧
      accepted 0 (run c acts).1 = [s, t] ∧ handed 0 (run c acts).1 = [⟨1, [s]⟩, ⟨1, [t]⟩] ∧
      accepted 0 (run c acts).1
        = (handed 0 (run c acts).1).flatMap Delivery.batch ++ berth.buffer.slots.toList) ∧
    (∃ berth, (run c acts).2.berths[1]? = some berth ∧ berth.buffer.slots = #[s] ∧
      accepted 1 (run c acts).1
        = (handed 1 (run c acts).1).flatMap Delivery.batch ++ berth.buffer.slots.toList) := by
  intro s t c acts
  have h := accepted_eq_handed_append_slots c acts
  exact ⟨⟨_, rfl, rfl, rfl, (h.1 0 _ rfl).1⟩, ⟨_, rfl, rfl, (h.1 1 _ rfl).1⟩⟩

end Fleet

end SampleProfiler
