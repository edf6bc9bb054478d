import SampleProfiler.Proofs.Transparency

/-!
# `SampleProfiler.Proofs.Forcing` — forced flushes against flushes

A buffer counts its flushes where a batch is handed on, and its forced flushes where a sample finds it full, whatever
the flush that follows comes to. Without a sink that flush hands on nothing, so a full detached buffer counts one
forced flush for every sample that it refuses, and the forced flushes can outnumber all flushes
(`not_forced_le_flushes`). They do so by the refused samples at most: the forced flushes are those that handed a
batch on, which are flushes, and those that were followed by a refusal.

## Contents
- **Runs.** `Turn`, with what it counts as, and `Buffer.run`.
- **One deed.** What a deed adds to the counters.
- **The account.** `Tallied`, kept by every deed, and `forced_le_flushes_add_refused`.
-/

namespace SampleProfiler.Buffer

/-! ## Runs -/

/-- A deed with the buffer that it was done with, and what came of it. -/
structure Turn where
  before : Buffer
  deed : Deed
  effect : Effect

/-- True if a batch was handed on. -/
def Turn.isHanded (t : Turn) : Bool :=
  t.effect.handed.isSome

/-- True if a batch was handed on to make room for a sample. -/
def Turn.isForced (t : Turn) : Bool :=
  match t.deed with
  | .recordFlushing _ => t.effect.handed.isSome
  | _ => false

/-- True if a sample was not accepted although the buffer could be flushed for it. -/
def Turn.isRefused (t : Turn) : Bool :=
  match t.deed with
  | .recordFlushing _ => t.effect.accepted.isNone
  | _ => false

/-- True if there is no room, and no sink to make room with. -/
def isStuck (b : Buffer) : Bool :=
  b.isFull && b.sink.isNone

/-- Does a deed, with a record of it. -/
def turn (b : Buffer) (c : Collector) (deed : Deed) : Turn × Buffer × Collector :=
  let (effect, after, c) := b.does c deed
  (⟨b, deed, effect⟩, after, c)

/-- Does deeds in order, with a record of them. -/
def run (b : Buffer) (c : Collector) (deeds : List Deed) : List Turn × Buffer × Collector :=
  deeds.foldl
    (fun (turns, b, c) deed =>
      let (t, b, c) := b.turn c deed
      (turns ++ [t], b, c))
    ([], b, c)

theorem run_concat (b : Buffer) (c : Collector) (deeds : List Deed) (deed : Deed) :
    b.run c (deeds ++ [deed])
      = ((b.run c deeds).1 ++ [((b.run c deeds).2.1.turn (b.run c deeds).2.2 deed).1],
          ((b.run c deeds).2.1.turn (b.run c deeds).2.2 deed).2) :=
  List.foldl_append

/-! ## One deed -/

variable {b : Buffer}

/-- A full buffer with a sink is flushed and has room then; one without a sink stays as it is, but for the count. -/
theorem recordFlushing_cases (hcapacity : 0 < b.capacity) (s : Sample) :
    (b.size < b.capacity ∧
      b.recordFlushing s = (true, none, { b with slots := b.slots.push s, records := b.records + 1 })) ∨
    (b.capacity ≤ b.size ∧ b.sink = none ∧
      b.recordFlushing s = (false, none, { b with forced := b.forced + 1 })) ∨
    ∃ sink, b.capacity ≤ b.size ∧ b.sink = some sink ∧
      b.recordFlushing s = (true, some ⟨sink, b.slots.toList⟩,
        { b with slots := #[s], records := b.records + 1, flushes := b.flushes + 1, forced := b.forced + 1 }) := by
  by_cases hfull : b.capacity ≤ b.size
  · right
    cases hsink : b.sink with
    | none =>
        left
        refine ⟨hfull, rfl, ?_⟩
        have hflush : b.flush = (none, b) := by
          rw [flush, hsink]
        have hrecord : ({ b with forced := b.forced + 1 } : Buffer).record s
            = (false, { b with forced := b.forced + 1 }) := if_pos (decide_eq_true hfull)
        rw [recordFlushing_of_full hfull, hflush, hrecord, hsink]
    | some sink =>
        right
        refine ⟨sink, hfull, rfl, ?_⟩
        rw [recordFlushing_of_full_of_sink hsink hcapacity hfull, hsink]
  · left
    have hroom : b.size < b.capacity := Nat.lt_of_not_le hfull
    exact ⟨hroom, recordFlushing_eq_push hroom s⟩

/-- What a deed does to the room of a buffer and to its counters of flushes, and when it refuses a sample. -/
structure Counts (t : Turn) (after : Buffer) : Prop where
  capacity : after.capacity = t.before.capacity
  flushes : after.flushes = t.before.flushes + t.isHanded.toNat
  forced : after.forced = t.before.forced + (t.isForced.toNat + t.isRefused.toNat)
  refused : t.isRefused = true ↔ (∃ s, t.deed = .recordFlushing s) ∧ t.before.isStuck = true

/-- A sample that may be flushed for counts a forced flush if the buffer was full, whether that made room or not. -/
theorem counts_recordFlushing (hcapacity : 0 < b.capacity) (c : Collector) (s : Sample) :
    Counts (b.turn c (.recordFlushing s)).1 (b.turn c (.recordFlushing s)).2.1 := by
  show Counts ⟨b, .recordFlushing s,
    { accepted := if (b.recordFlushing s).1 then some s else none, handed := (b.recordFlushing s).2.1 }⟩
    (b.recordFlushing s).2.2
  rcases recordFlushing_cases hcapacity s with ⟨hroom, h⟩ | ⟨hfull, hnone, h⟩ | ⟨sink, hfull, hsink, h⟩
  · rw [h]
    have hstuck : b.isStuck = false := by simp [isStuck, isFull, Nat.not_le_of_lt hroom]
    constructor <;> simp [Turn.isHanded, Turn.isForced, Turn.isRefused, hstuck]
  · rw [h]
    have hstuck : b.isStuck = true := by simp [isStuck, isFull, hfull, hnone]
    constructor <;> simp [Turn.isHanded, Turn.isForced, Turn.isRefused, hstuck]
  · rw [h]
    have hstuck : b.isStuck = false := by simp [isStuck, hsink]
    constructor <;> simp [Turn.isHanded, Turn.isForced, Turn.isRefused, hstuck]

/-- A flush counts itself if it hands something on, and no forced flush. -/
theorem counts_flush (b : Buffer) :
    b.flush.2.capacity = b.capacity ∧ b.flush.2.flushes = b.flushes + b.flush.1.isSome.toNat ∧
      b.flush.2.forced = b.forced := by
  rcases flush_cases b with ⟨_, h⟩ | ⟨sink, _, _, h⟩ <;> simp [h]

/-- **One deed** counts a flush for a batch that it hands on, and a forced flush for a batch that makes room for a
    sample or for a sample that it refuses. -/
theorem counts_turn (hcapacity : 0 < b.capacity) (c : Collector) (deed : Deed) :
    Counts (b.turn c deed).1 (b.turn c deed).2.1 := by
  cases deed with
  | recordFlushing s => exact counts_recordFlushing hcapacity c s
  | record s =>
      show Counts ⟨b, .record s, { accepted := if (b.record s).1 then some s else none }⟩ (b.record s).2
      rcases record_cases b s with ⟨_, h⟩ | ⟨_, h⟩
      · rw [h]
        constructor <;> simp [Turn.isHanded, Turn.isForced, Turn.isRefused]
      · rw [h]
        constructor <;> simp [Turn.isHanded, Turn.isForced, Turn.isRefused]
  | flush =>
      obtain ⟨hcapacity, hflushes, hforced⟩ := counts_flush b
      have hafter : (b.turn c .flush).2.1 = b.flush.2 := congrArg Prod.fst (flushInto_eq b c)
      rw [hafter]
      exact ⟨hcapacity, hflushes, hforced, by simp [turn, does, Turn.isRefused]⟩
  | attach sink => constructor <;> simp [turn, does, attach, Turn.isHanded, Turn.isForced, Turn.isRefused]
  | detach => constructor <;> simp [turn, does, detach, Turn.isHanded, Turn.isForced, Turn.isRefused]
  | drop =>
      obtain ⟨hcapacity, hflushes, hforced⟩ := counts_flush b
      exact ⟨hcapacity, hflushes, hforced, by simp [turn, does, Turn.isRefused]⟩

/-! ## The account -/

/-- The counters of flushes against the record of a run. -/
structure Tallied (turns : List Turn) (b : Buffer) : Prop where
  room : 0 < b.capacity
  flushes : b.flushes = turns.countP Turn.isHanded
  forced : b.forced = turns.countP Turn.isForced + turns.countP Turn.isRefused
  refused : ∀ t ∈ turns, t.isRefused = true ↔ (∃ s, t.deed = .recordFlushing s) ∧ t.before.isStuck = true

theorem tallied_make {capacity : Nat} {sink : Option Handle} (hmake : Buffer.make capacity sink = .ok b) :
    Tallied [] b := by
  unfold Buffer.make at hmake
  split at hmake
  · cases hmake
  · next hcapacity =>
      split at hmake
      · cases hmake
      · cases hmake
        exact ⟨Nat.pos_of_ne_zero hcapacity, rfl, rfl, fun t ht => absurd ht List.not_mem_nil⟩

theorem countP_concat (p : Turn → Bool) (turns : List Turn) (t : Turn) :
    (turns ++ [t]).countP p = turns.countP p + (p t).toNat := by
  rw [List.countP_append, List.countP_singleton]
  cases p t <;> rfl

/-- **One more deed keeps the account.** -/
theorem Tallied.turn {turns : List Turn} (h : Tallied turns b) (c : Collector) (deed : Deed) :
    Tallied (turns ++ [(b.turn c deed).1]) (b.turn c deed).2.1 := by
  have hcounts := counts_turn h.room c deed
  have hbefore : (b.turn c deed).1.before = b := rfl
  constructor
  · rw [hcounts.capacity]
    exact h.room
  · rw [hcounts.flushes, hbefore, h.flushes, countP_concat]
  · rw [hcounts.forced, hbefore, h.forced, countP_concat, countP_concat]
    omega
  · intro t ht
    rcases List.mem_append.mp ht with ht | ht
    · exact h.refused t ht
    · rw [List.mem_singleton.mp ht]
      exact hcounts.refused

theorem Tallied.run (h : Tallied [] b) (c : Collector) (deeds : List Deed) :
    Tallied (b.run c deeds).1 (b.run c deeds).2.1 := by
  induction deeds using List.reverseRecOn with
  | nil => exact h
  | append_singleton deeds deed ih =>
      rw [run_concat]
      exact ih.turn _ deed

/-- What makes room for a sample is a batch that is handed on. -/
theorem countP_isForced_le (turns : List Turn) : turns.countP Turn.isForced ≤ turns.countP Turn.isHanded := by
  apply List.countP_mono_left
  intro t _ hforced
  unfold Turn.isForced at hforced
  split at hforced
  · exact hforced
  · exact absurd hforced Bool.false_ne_true

/-- **Forced flushes are flushes or refusals.** Whatever is done with a buffer, and whatever registry it is turned
    to or taken off along the way, the flushes that it counts are the batches that it handed on, and the forced ones
    are the batches that made room for a sample and the samples that were refused although a flush was tried. Those
    are the samples that found it full and without a sink, so without any the forced flushes are among the flushes. -/
theorem forced_le_flushes_add_refused {capacity : Nat} {sink : Option Handle}
    (hmake : Buffer.make capacity sink = .ok b) (c : Collector) (deeds : List Deed) :
    let turns := (b.run c deeds).1
    let gauge := (b.run c deeds).2.1.gauge
    gauge.forced ≤ gauge.flushes + turns.countP Turn.isRefused ∧
    gauge.flushes = turns.countP Turn.isHanded ∧
    gauge.forced = turns.countP Turn.isForced + turns.countP Turn.isRefused ∧
    (∀ t ∈ turns, t.isRefused = true ↔
      (∃ s, t.deed = .recordFlushing s) ∧ t.before.isFull = true ∧ t.before.sink = none) ∧
    ((∀ t ∈ turns, t.isRefused = false) → gauge.forced ≤ gauge.flushes) := by
  intro turns gauge
  have htallied := (tallied_make hmake).run c deeds
  have hflushes : gauge.flushes = turns.countP Turn.isHanded := htallied.flushes
  have hforced : gauge.forced = turns.countP Turn.isForced + turns.countP Turn.isRefused := htallied.forced
  have hle : turns.countP Turn.isForced ≤ turns.countP Turn.isHanded := countP_isForced_le turns
  refine ⟨by omega, hflushes, hforced, ?_, ?_⟩
  · intro t ht
    rw [htallied.refused t ht]
    simp [isStuck]
  · intro hnone
    have hzero : turns.countP Turn.isRefused = 0 := by
      rw [List.countP_eq_zero]
      intro t ht
      simp [hnone t ht]
    omega

/-- A full buffer without a registry refuses a sample and counts a forced flush for it, and another one after it was
    turned to a registry: two forced flushes, one flush. -/
theorem forced_le_flushes_add_refused_attached :
    let s : Sample := ⟨"a", .zero, true, .reading 0⟩
    let deeds := [Deed.record s, .recordFlushing s, .attach 0, .recordFlushing s]
    let ran := (Buffer.of 1 none).run { registries := #[.empty 2] } deeds
    Buffer.make 1 none = .ok (Buffer.of 1 none) ∧
      ran.2.1.gauge.forced = 2 ∧ ran.2.1.gauge.flushes = 1 ∧ ran.1.countP Turn.isRefused = 1 ∧
      ran.2.1.gauge.forced ≤ ran.2.1.gauge.flushes + ran.1.countP Turn.isRefused := by
  intro s deeds ran
  have hmake : Buffer.make 1 none = .ok (Buffer.of 1 none) := rfl
  obtain ⟨hle, _⟩ := forced_le_flushes_add_refused hmake { registries := #[.empty 2] } deeds
  exact ⟨hmake, rfl, rfl, rfl, hle⟩

/-- **Forced flushes can outnumber flushes**: a buffer of one sample that never had a sink counts one forced flush
    for the second sample, and it never handed on anything. -/
theorem not_forced_le_flushes :
    ¬ ∀ (capacity : Nat) (sink : Option Handle) (b : Buffer) (c : Collector) (deeds : List Deed),
      Buffer.make capacity sink = .ok b →
        (b.run c deeds).2.1.gauge.forced ≤ (b.run c deeds).2.1.gauge.flushes := by
  intro hle
  let s : Sample := ⟨"a", .zero, true, .reading 0⟩
  have hrefused := hle 1 none (Buffer.of 1 none) {} [.recordFlushing s, .recordFlushing s] rfl
  exact absurd hrefused (by decide)

end SampleProfiler.Buffer
