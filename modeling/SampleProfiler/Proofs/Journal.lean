import Mathlib.Data.List.DropRight
import SampleProfiler.Proofs.Inclusion
import SampleProfiler.Proofs.Interleaving
import SampleProfiler.Proofs.Transparency

/-!
# `SampleProfiler.Proofs.Journal` — the log agrees with the counters

Registries and buffers count what they do, and they log it, and the two are done in different places: an eviction
happens within a batch, a batch within a flush, and a flush on its own, for a sample that finds the buffer full, or at
the end of a buffer. This module cuts a run on one registry into its `Beat`s, which are so small that each logs one
event at most. A run is its beats played one after the other, so what holds of a beat in any state holds all along the
log.

## Contents
- **Reading a log.** `sinceCleared`, and the readings of events.
- **Beats.** `Beat`, `Registry.beat`, and `Registry.play` for a run of them.
- **One beat.** What it counts (`Counted`), the beat of an event (`exists_beat_of_play`), and what an eviction finds.
- **Announcements.** `Announced`: a buffer tells of a flush after the registry told of the batch.
- **Runs.** `Fleet.beats` of a run; `Fleet.Does`, all that an act can do; and `Fleet.Told`, the registry and the log
  played from the beats.
- **Samples.** `Fleet.Settled`: what was accepted was flushed, is pending, or was discarded.
- **The log.** `Fleet.log_agrees`.
-/

namespace SampleProfiler

/-! ## Reading a log -/

namespace Event

/-- The size of a batch that a registry received. -/
def received? : Event → Option Nat
  | received samples => some samples
  | _ => none

/-- The number of samples that a buffer handed on. -/
def flushed? : Event → Option Nat
  | flushed samples => some samples
  | _ => none

/-- The number of samples that were lost with a buffer. -/
def discarded? : Event → Option Nat
  | discarded samples => some samples
  | _ => none

/-- True for an eviction. -/
def isEvicted : Event → Bool
  | evicted _ _ => true
  | _ => false

end Event

/-- The events after the last clear, or all of them if there was none. -/
def sinceCleared (events : List Event) : List Event :=
  events.rtakeWhile (· ≠ .cleared)

theorem sinceCleared_cleared (events : List Event) : sinceCleared (events ++ [.cleared]) = [] :=
  List.rtakeWhile_concat_neg _ _ _ (by simp)

theorem sinceCleared_concat (events : List Event) {e : Event} (h : e ≠ .cleared) :
    sinceCleared (events ++ [e]) = sinceCleared events ++ [e] :=
  List.rtakeWhile_concat_pos _ _ _ (by simpa using h)

/-! ## Beats -/

/-- The smallest things that happen in a run on one registry. -/
inductive Beat where
  /-- A batch is counted, before its first sample is taken. -/
  | count (samples : Nat)
  | take (s : Sample)
  | clear
  /-- A buffer handed samples on. -/
  | flushed (samples : Nat)
  /-- A buffer ended with samples that it had nobody to hand to. -/
  | discarded (samples : Nat)

namespace Registry

/-- What a beat does to the registry, and the events that tell of it. -/
def beat (r : Registry) : Beat → Registry × List Event
  | .count n => (r.countBatch n, [.received n])
  | .take s => ((r.take s).1, (r.take s).2.toList)
  | .clear => (r.clear.1, r.clear.2.toList)
  | .flushed n => (r, [.flushed n])
  | .discarded n => (r, [.discarded n])

/-- The registry after some beats, and the events that tell of them. -/
def play (r : Registry) : List Beat → Registry × List Event
  | [] => (r, [])
  | b :: rest => (((r.beat b).1.play rest).1, (r.beat b).2 ++ ((r.beat b).1.play rest).2)

theorem play_append (r : Registry) (beats more : List Beat) :
    r.play (beats ++ more) = (((r.play beats).1.play more).1, (r.play beats).2 ++ ((r.play beats).1.play more).2) := by
  induction beats generalizing r with
  | nil => rfl
  | cons b rest ih =>
      rw [List.cons_append, play, ih, play]
      simp only [List.append_assoc]

theorem play_singleton (r : Registry) (b : Beat) : r.play [b] = r.beat b := by
  rw [play, play]
  simp only [List.append_nil]

end Registry

/-- The beats of a batch; none, if it is empty. -/
def Beat.ofBatch (batch : List Sample) : List Beat :=
  if batch.isEmpty then [] else .count batch.length :: batch.map .take

/-- The beats of samples that leave a buffer; none, if none leave. -/
def Beat.ofDelivery : Option Delivery → List Beat
  | none => []
  | some d => ofBatch d.batch ++ [.flushed d.batch.length]

/-- The beats of a call. -/
def Registry.Call.beats : Registry.Call → List Beat
  | .receive batch => Beat.ofBatch batch
  | .clear => [.clear]
  | _ => []

/-- The beats of what becomes of the samples of a dropped buffer. -/
def Buffer.Ending.beats : Buffer.Ending → List Beat
  | .nothing => []
  | .delivered d => Beat.ofDelivery (some d)
  | .discarded n => [.discarded n]

/-- The beats of a deed. -/
def Buffer.beats (b : Buffer) : Deed → List Beat
  | .recordFlushing s => Beat.ofDelivery (b.recordFlushing s).2.1
  | .flush => Beat.ofDelivery b.flush.1
  | .drop => b.ending.beats
  | _ => []

/-- The beats of an act. -/
def Fleet.beatsOf (f : Fleet) : Fleet.Act → List Beat
  | .use i deed =>
    match f.berths[i]? with
    | some ⟨b, false⟩ => b.beats deed
    | _ => []
  | .call _ call => call.beats
  | .make _ _ => []

/-! ## One beat -/

namespace Registry

/-- What a use evicts was there before it, and the name that is used was not. -/
theorem contains_of_visit {α : Type} {m : Lru α} {name x : String} {fresh : α}
    (h : (m.visit name fresh).1 = some x) : m.contains x = true ∧ m.contains name = false := by
  unfold Lru.visit at h
  by_cases hname : m.contains name = true
  · rw [if_pos hname] at h
    cases h
  · rw [if_neg hname] at h
    refine ⟨?_, Bool.not_eq_true _ ▸ hname⟩
    by_cases hfull : m.bound ≤ m.size
    · rw [if_pos hfull] at h
      unfold Lru.evict at h
      cases hv : stalest? m.entries with
      | none =>
          rw [hv] at h
          cases h
      | some v =>
          rw [hv] at h
          have hx : v.name = x := Option.some.inj h
          rw [Lru.contains_iff_mem_names, ← hx]
          exact List.mem_map_of_mem (stalest?_spec hv).1
    · rw [if_neg hfull] at h
      cases h

/-- A sample logs the name that it evicts. -/
theorem log_take (r : Registry) (s : Sample) :
    (r.take s).2.toList
      = (r.tracked.visit s.name (.empty s.name)).1.toList.map fun x => .evicted x s.name := by
  unfold take
  obtain ⟨evicted, tracked⟩ := r.tracked.visit s.name (.empty s.name)
  cases evicted <;> rfl

/-- **All that one sample can do**: it evicts nothing and logs nothing, or it evicts a tracked name for one that is not
    tracked, and counts and logs that. -/
theorem take_cases (r : Registry) (s : Sample) :
    ((r.take s).2.toList = [] ∧ (r.take s).1.evictions = r.evictions) ∨
    ∃ x, (r.take s).2.toList = [.evicted x s.name] ∧ (r.take s).1.evictions = r.evictions + 1 ∧
      r.contains x = true ∧ r.contains s.name = false := by
  rw [log_take, evictions_take]
  cases hevicted : (r.tracked.visit s.name (.empty s.name)).1 with
  | none => exact Or.inl ⟨rfl, rfl⟩
  | some x => exact Or.inr ⟨x, rfl, rfl, contains_of_visit hevicted⟩

/-- The counters of a registry against the events since the last clear. -/
structure Counted (r : Registry) (events : List Event) : Prop where
  batches : r.batches = ((sinceCleared events).filterMap Event.received?).length
  samples : r.samples = ((sinceCleared events).filterMap Event.received?).sum
  evictions : r.evictions = (sinceCleared events).countP Event.isEvicted

variable {r : Registry} {events : List Event}

/-- An event that is no clear adds what it says. -/
theorem Counted.concat (h : Counted r events) {e : Event} (he : e ≠ .cleared) {after : Registry}
    (hbatches : after.batches = r.batches + e.received?.toList.length)
    (hsamples : after.samples = r.samples + e.received?.toList.sum)
    (hevictions : after.evictions = r.evictions + e.isEvicted.toNat) : Counted after (events ++ [e]) := by
  have hreceived : [e].filterMap Event.received? = e.received?.toList := by
    cases h : e.received? <;> simp [h]
  have hevicted : [e].countP Event.isEvicted = e.isEvicted.toNat := by
    cases h : e.isEvicted <;> simp [h]
  constructor
  · rw [sinceCleared_concat events he, List.filterMap_append, List.length_append, hreceived, ← h.batches, hbatches]
  · rw [sinceCleared_concat events he, List.filterMap_append, List.sum_append, hreceived, ← h.samples, hsamples]
  · rw [sinceCleared_concat events he, List.countP_append, hevicted, ← h.evictions, hevictions]

/-- **Every beat counts what it logs.** -/
theorem Counted.beat (h : Counted r events) (b : Beat) : Counted (r.beat b).1 (events ++ (r.beat b).2) := by
  cases b with
  | count n => exact h.concat (by simp) rfl rfl rfl
  | flushed n => exact h.concat (by simp) rfl rfl rfl
  | discarded n => exact h.concat (by simp) rfl rfl rfl
  | clear =>
      show Counted r.clear.1 (events ++ [.cleared])
      constructor <;> rw [sinceCleared_cleared] <;> rfl
  | take s =>
      obtain ⟨hsamples, hbatches⟩ := counts_absorb r [s]
      show Counted (r.take s).1 (events ++ (r.take s).2.toList)
      rcases take_cases r s with ⟨hquiet, hevictions⟩ | ⟨x, hlogged, hevictions, _⟩
      · rw [hquiet, List.append_nil]
        exact ⟨hbatches.trans h.batches, hsamples.trans h.samples, hevictions.trans h.evictions⟩
      · rw [hlogged]
        exact h.concat (by simp) hbatches hsamples hevictions

theorem Counted.play (h : Counted r events) (beats : List Beat) :
    Counted (r.play beats).1 (events ++ (r.play beats).2) := by
  induction beats generalizing r events with
  | nil =>
      rw [Registry.play, List.append_nil]
      exact h
  | cons b rest ih =>
      rw [Registry.play, ← List.append_assoc]
      exact ih (h.beat b)

theorem counted_empty (bound : Nat) : Counted (empty bound) [] where
  batches := rfl
  samples := rfl
  evictions := rfl

/-- A beat logs one event at most. -/
theorem log_beat (r : Registry) (b : Beat) : (r.beat b).2 = [] ∨ ∃ e, (r.beat b).2 = [e] := by
  cases b with
  | take s =>
      rcases take_cases r s with ⟨hquiet, _⟩ | ⟨x, hlogged, _⟩
      · exact Or.inl hquiet
      · exact Or.inr ⟨_, hlogged⟩
  | _ => exact Or.inr ⟨_, rfl⟩

/-- **Every event has its beat**, which is the next one after those that logged the events before it. -/
theorem exists_beat_of_play {beats : List Beat} {before after : List Event} {e : Event}
    (h : (r.play beats).2 = before ++ e :: after) :
    ∃ earlier b later, beats = earlier ++ b :: later ∧ (r.play earlier).2 = before ∧
      ((r.play earlier).1.beat b).2 = [e] := by
  induction beats generalizing r before with
  | nil => exact absurd h.symm (by simp [play])
  | cons b rest ih =>
      -- the event is one of the other beats, with the events of this beat in front of it
      have hlater : ∀ front, before = (r.beat b).2 ++ front → ((r.beat b).1.play rest).2 = front ++ e :: after →
          ∃ earlier c later, b :: rest = earlier ++ c :: later ∧ (r.play earlier).2 = before ∧
            ((r.play earlier).1.beat c).2 = [e] := by
        intro front hbefore hrest
        obtain ⟨earlier, c, later, hbeats, hevents, hlogged⟩ := ih hrest
        refine ⟨b :: earlier, c, later, ?_, ?_, hlogged⟩
        · rw [hbeats, List.cons_append]
        · rw [play, hevents, hbefore]
      rw [play] at h
      rcases log_beat r b with hquiet | ⟨first, hlogged⟩
      · rw [hquiet, List.nil_append] at h
        exact hlater before (by rw [hquiet, List.nil_append]) h
      · rw [hlogged, List.singleton_append] at h
        cases before with
        | nil =>
            obtain ⟨hfirst, _⟩ := List.cons.inj h
            rw [hfirst] at hlogged
            exact ⟨[], b, rest, rfl, rfl, hlogged⟩
        | cons head front =>
            obtain ⟨hfirst, hrest⟩ := List.cons.inj h
            exact hlater front (by rw [hlogged, hfirst, List.singleton_append]) hrest

/-- An eviction is logged for a sample only. -/
theorem evicted_of_beat {b : Beat} {x y : String} (h : (r.beat b).2 = [.evicted x y]) :
    ∃ s, b = .take s ∧ s.name = y ∧ r.contains x = true ∧ r.contains y = false := by
  cases b with
  | take s =>
      change (r.take s).2.toList = [.evicted x y] at h
      rcases take_cases r s with ⟨hquiet, _⟩ | ⟨z, hlogged, _, hthere, hnew⟩
      · rw [hquiet] at h
        cases h
      · rw [hlogged] at h
        cases h
        exact ⟨s, rfl, rfl, hthere, hnew⟩
  | count n => cases h
  | clear => cases h
  | flushed n => cases h
  | discarded n => cases h

/-- **What an eviction finds**: wherever one is logged, the registry that all before it left behind tracks the evicted
    name, and not the incoming one, which is the name of the sample that comes next. -/
theorem play_evicted {beats : List Beat} {before after : List Event} {x y : String}
    (h : (r.play beats).2 = before ++ .evicted x y :: after) :
    ∃ earlier s later, beats = earlier ++ .take s :: later ∧ s.name = y ∧ (r.play earlier).2 = before ∧
      (r.play earlier).1.contains x = true ∧ (r.play earlier).1.contains y = false := by
  obtain ⟨earlier, b, later, hbeats, hbefore, hlogged⟩ := exists_beat_of_play h
  obtain ⟨s, rfl, hname, hthere, hnew⟩ := evicted_of_beat hlogged
  exact ⟨earlier, s, later, hbeats, hname, hbefore, hthere, hnew⟩

end Registry

/-! ## Announcements -/

/-- Every buffer that tells of a flush does so after the registry told of a batch of as many samples, with nothing but
    evictions in between. -/
def Announced (events : List Event) : Prop :=
  ∀ before n after, events = before ++ .flushed n :: after →
    ∃ earlier between, before = earlier ++ .received n :: between ∧ ∀ e ∈ between, e.isEvicted = true

theorem announced_of_notMem {events : List Event} (h : ∀ n, .flushed n ∉ events) : Announced events := by
  intro before n after hevents
  refine absurd ?_ (h n)
  rw [hevents]
  exact List.mem_append_right before List.mem_cons_self

theorem announced_nil : Announced [] :=
  announced_of_notMem fun _ hn => absurd hn List.not_mem_nil

theorem announced_singleton {e : Event} (h : ∀ n, .flushed n ≠ e) : Announced [e] :=
  announced_of_notMem fun n hn => h n (List.mem_singleton.mp hn)

theorem Announced.append {events more : List Event} (h : Announced events) (hmore : Announced more) :
    Announced (events ++ more) := by
  intro before n after hevents
  rcases List.append_eq_append_iff.mp hevents with ⟨front, hbefore, hrest⟩ | ⟨middle, hfirst, hrest⟩
  · obtain ⟨earlier, between, hfront, hevicted⟩ := hmore front n after hrest
    exact ⟨events ++ earlier, between, by rw [hbefore, hfront, List.append_assoc], hevicted⟩
  · cases middle with
    | nil =>
        -- the flush would be the first event of the second part, where nothing is in front of it
        obtain ⟨earlier, between, hfront, _⟩ := hmore [] n after hrest.symm
        exact absurd hfront.symm (by simp)
    | cons e rest =>
        obtain ⟨he, _⟩ := List.cons.inj hrest
        rw [← he] at hfirst
        exact h before n rest hfirst

namespace Registry

/-- Samples log evictions only. -/
theorem isEvicted_of_mem_play_take (r : Registry) (samples : List Sample) :
    ∀ e ∈ (r.play (samples.map .take)).2, e.isEvicted = true := by
  induction samples generalizing r with
  | nil => exact fun e he => absurd he List.not_mem_nil
  | cons s rest ih =>
      intro e he
      rcases List.mem_append.mp he with he | he
      · change e ∈ (r.take s).2.toList at he
        rcases take_cases r s with ⟨hquiet, _⟩ | ⟨x, hlogged, _⟩
        · rw [hquiet] at he
          exact absurd he List.not_mem_nil
        · rw [hlogged, List.mem_singleton] at he
          rw [he]
          rfl
      · exact ih _ e he

theorem announced_batch (r : Registry) (batch : List Sample) : Announced (r.play (Beat.ofBatch batch)).2 := by
  apply announced_of_notMem
  intro n hn
  unfold Beat.ofBatch at hn
  split at hn
  · exact absurd hn List.not_mem_nil
  · rcases List.mem_append.mp hn with hn | hn
    · exact absurd (List.mem_singleton.mp hn) (by simp)
    · exact absurd (isEvicted_of_mem_play_take _ batch _ hn) (by simp [Event.isEvicted])

end Registry

/-- A flush that follows on a batch and its evictions is announced. -/
theorem announced_flushed {evictions : List Event} (h : ∀ e ∈ evictions, e.isEvicted = true) (n : Nat) :
    Announced ((.received n :: evictions) ++ [.flushed n]) := by
  intro before m after hevents
  rcases List.eq_nil_or_concat after with hafter | ⟨front, last, hafter⟩
  · rw [hafter] at hevents
    obtain ⟨hbefore, hlast⟩ := List.append_inj' hevents rfl
    cases hlast
    exact ⟨[], evictions, hbefore.symm, h⟩
  · -- any other flush would be among the batch and its evictions
    rw [hafter, List.concat_eq_append, ← List.cons_append, ← List.append_assoc] at hevents
    obtain ⟨hfront, _⟩ := List.append_inj' hevents rfl
    have hmem : .flushed m ∈ Event.received n :: evictions := by
      rw [hfront]
      exact List.mem_append_right before List.mem_cons_self
    rcases List.mem_cons.mp hmem with hsame | hevicted
    · cases hsame
    · exact absurd (h _ hevicted) (by simp [Event.isEvicted])

namespace Registry

/-- The flush of a batch is announced by the batch. -/
theorem announced_delivery (r : Registry) {delivery : Option Delivery}
    (h : ∀ d, delivery = some d → d.batch ≠ []) : Announced (r.play (Beat.ofDelivery delivery)).2 := by
  cases delivery with
  | none => exact announced_nil
  | some d =>
      have hbatch : Beat.ofBatch d.batch = .count d.batch.length :: d.batch.map .take :=
        if_neg (by simpa using h d rfl)
      rw [Beat.ofDelivery, play_append, hbatch]
      exact announced_flushed (isEvicted_of_mem_play_take _ d.batch) d.batch.length

theorem announced_call (r : Registry) (call : Call) : Announced (r.play call.beats).2 := by
  cases call with
  | receive batch => exact r.announced_batch batch
  | clear => exact announced_singleton nofun
  | contains name => exact announced_nil
  | profile name => exact announced_nil
  | listing => exact announced_nil
  | totals => exact announced_nil

end Registry

namespace Buffer

variable {b : Buffer}

/-- No empty batch leaves a buffer. -/
theorem batch_ne_nil_of_flush {d : Delivery} (h : b.flush.1 = some d) : d.batch ≠ [] := by
  rcases flush_cases b with ⟨_, hflush⟩ | ⟨sink, _, hpending, hflush⟩
  · rw [hflush] at h
    cases h
  · rw [hflush] at h
    cases h
    simpa using hpending

/-- What leaves a buffer that records is a flush, if anything leaves it. -/
theorem flush_of_recordFlushing {s : Sample} {d : Delivery} (h : (b.recordFlushing s).2.1 = some d) :
    b.flush.1 = some d := by
  by_cases hfull : b.capacity ≤ b.size
  · rw [recordFlushing_of_full hfull] at h
    exact h
  · rw [recordFlushing_of_room (Nat.lt_of_not_le hfull)] at h
    cases h

/-- **All that can become of the samples of a dropped buffer.** -/
theorem ending_cases (b : Buffer) :
    (b.ending = .nothing ∧ b.size = 0) ∨
      (∃ d, b.ending = .delivered d ∧ b.flush.1 = some d ∧ d.batch.length = b.size) ∨
      (b.ending = .discarded b.size ∧ b.sink = none) := by
  unfold ending isEmpty
  by_cases hempty : b.size = 0
  · rw [if_pos (by simpa using hempty)]
    exact Or.inl ⟨rfl, hempty⟩
  · rw [if_neg (by simpa using hempty)]
    rcases flush_cases b with ⟨hnone | hslots, hflush⟩ | ⟨_, _, _, hflush⟩
    · rw [hflush]
      exact Or.inr (Or.inr ⟨rfl, hnone⟩)
    · rw [size, hslots] at hempty
      exact absurd rfl hempty
    · rw [hflush]
      exact Or.inr (Or.inl ⟨_, rfl, rfl, Array.length_toList⟩)

theorem announced_deed (b : Buffer) (deed : Deed) (r : Registry) : Announced (r.play (b.beats deed)).2 := by
  cases deed with
  | recordFlushing s =>
      exact r.announced_delivery fun d hd => batch_ne_nil_of_flush (flush_of_recordFlushing hd)
  | flush => exact r.announced_delivery fun d hd => batch_ne_nil_of_flush hd
  | drop =>
      rw [beats]
      rcases ending_cases b with ⟨hending, _⟩ | ⟨d, hending, hflush, _⟩ | ⟨hending, _⟩
      · rw [hending]
        exact announced_nil
      · rw [hending]
        have hbatch : ∀ e, some d = some e → e.batch ≠ [] := fun e he => batch_ne_nil_of_flush (hflush.trans he)
        exact r.announced_delivery hbatch
      · rw [hending]
        exact announced_singleton nofun
  | record s => exact announced_nil
  | attach sink => exact announced_nil
  | detach => exact announced_nil

end Buffer

/-! ## Runs -/

namespace Fleet

/-- The beats of a run, and the fleet after it. -/
def narrate (c : Collector) (acts : List Act) : List Beat × Fleet :=
  acts.foldl (fun (beats, f) act => (beats ++ f.beatsOf act, (f.step act).2)) ([], { collector := c, berths := [] })

/-- The beats of a run. -/
def beats (c : Collector) (acts : List Act) : List Beat :=
  (narrate c acts).1

theorem narrate_concat (c : Collector) (acts : List Act) (act : Act) :
    narrate c (acts ++ [act])
      = ((narrate c acts).1 ++ (narrate c acts).2.beatsOf act, ((narrate c acts).2.step act).2) :=
  List.foldl_append

theorem narrate_snd (c : Collector) (acts : List Act) : (narrate c acts).2 = (run c acts).2 := by
  induction acts using List.reverseRecOn with
  | nil => rfl
  | append_singleton acts act ih => rw [narrate_concat, run_concat, ih]

theorem beats_concat (c : Collector) (acts : List Act) (act : Act) :
    beats c (acts ++ [act]) = beats c acts ++ (run c acts).2.beatsOf act := by
  rw [beats, narrate_concat, narrate_snd, beats]

end Fleet

namespace Registry

theorem play_take (r : Registry) (log : Log) (samples : List Sample) :
    (r.takeAll log samples).1 = (r.play (samples.map .take)).1 ∧
      (r.takeAll log samples).2.toList = log.toList ++ (r.play (samples.map .take)).2 := by
  induction samples generalizing r log with
  | nil => exact ⟨rfl, (List.append_nil log.toList).symm⟩
  | cons s rest ih =>
      obtain ⟨hregistry, hlog⟩ := ih (r.take s).1 (log ++ (r.take s).2)
      rw [Array.toList_append, List.append_assoc] at hlog
      exact ⟨hregistry, hlog⟩

/-- A batch is received as its beats are played. -/
theorem play_batch (r : Registry) (batch : List Sample) :
    r.play (Beat.ofBatch batch) = ((r.receive batch).1, (r.receive batch).2.toList) := by
  unfold Beat.ofBatch receive
  by_cases hempty : batch.isEmpty = true
  · rw [if_pos hempty, if_pos hempty]
    rfl
  · rw [if_neg hempty, if_neg hempty]
    obtain ⟨hregistry, hlog⟩ := play_take (r.countBatch batch.length) #[.received batch.length] batch
    exact Prod.ext hregistry.symm hlog.symm

/-- A call is answered as its beats are played. -/
theorem play_call (r : Registry) (call : Call) :
    r.play call.beats = ((r.perform call).2.1, (r.perform call).2.2.toList) := by
  cases call with
  | receive batch => exact r.play_batch batch
  | clear => rfl
  | contains name => rfl
  | profile name => rfl
  | listing => rfl
  | totals => rfl

end Registry

namespace Collector

/-- The registry under a handle, and the whole log, are what the beats leave behind. -/
structure Told (c : Collector) (h : Handle) (start : Registry) (beats : List Beat) : Prop where
  registry : c.registry? h = some (start.play beats).1
  log : c.log.toList = (start.play beats).2

variable {c : Collector} {h : Handle} {start : Registry} {beats : List Beat}

theorem log_modify {r : Registry} (hr : c.registry? h = some r) (act : Registry → Registry × Log) :
    (c.modify h act).log = c.log ++ (act r).2 := by
  unfold registry? at hr
  rw [modify, hr]

theorem Told.silent (htold : Told c h start beats) : Told c h start (beats ++ []) := by
  rw [List.append_nil]
  exact htold

theorem Told.modify (htold : Told c h start beats) {act : Registry → Registry × Log} {more : List Beat}
    (hact : ∀ r, r.play more = ((act r).1, (act r).2.toList)) : Told (c.modify h act) h start (beats ++ more) where
  registry := by rw [registry?_modify, if_pos rfl, htold.registry, Option.map_some, Registry.play_append, hact]
  log := by rw [log_modify htold.registry, Array.toList_append, htold.log, Registry.play_append, hact]

/-- A buffer tells of its samples, and the registry does nothing. -/
theorem Told.note (htold : Told c h start beats) {b : Beat} {e : Event} (hb : ∀ r : Registry, r.beat b = (r, [e])) :
    Told (c.note e) h start (beats ++ [b]) where
  registry := by rw [registry?_note, htold.registry, Registry.play_append, Registry.play_singleton, hb]
  log := by
    rw [Registry.play_append, Registry.play_singleton, hb, ← htold.log]
    exact Array.toList_push

/-- A delivery reaches its registry, and then the buffer tells of it. -/
theorem Told.deliver? (htold : Told c h start beats) {delivery : Option Delivery}
    (hsink : ∀ d, delivery = some d → d.sink = h) :
    Told (c.deliver? delivery) h start (beats ++ Beat.ofDelivery delivery) := by
  cases delivery with
  | none => exact htold.silent
  | some d =>
      have hreceived : Told (c.receive d.sink d.batch) h start (beats ++ Beat.ofBatch d.batch) := by
        rw [hsink d rfl]
        exact htold.modify fun r => r.play_batch d.batch
      rw [Beat.ofDelivery, ← List.append_assoc]
      exact hreceived.note fun r => rfl

end Collector

namespace Buffer

variable {c : Collector} {h : Handle} {start : Registry} {b : Buffer}

/-- **A deed is told beat by beat**, if the buffer is attached to this registry or to none. -/
theorem told_does {beats : List Beat} (htold : c.Told h start beats) (hb : ∀ k ∈ b.sink, k = h) (deed : Deed) :
    Collector.Told (b.does c deed).2.2 h start (beats ++ b.beats deed) := by
  have hflush : ∀ d, b.flush.1 = some d → d.sink = h := fun d hd => hb d.sink (sink_of_flush hd)
  cases deed with
  | recordFlushing s => exact htold.deliver? fun d hd => hflush d (flush_of_recordFlushing hd)
  | flush =>
      have hcollector : (b.does c .flush).2.2 = c.deliver? b.flush.1 := congrArg Prod.snd (flushInto_eq b c)
      rw [hcollector]
      exact htold.deliver? hflush
  | drop =>
      show Collector.Told (b.dropInto c) h start (beats ++ b.ending.beats)
      unfold dropInto
      rcases ending_cases b with ⟨hending, _⟩ | ⟨d, hending, hd, _⟩ | ⟨hending, _⟩
      · rw [hending]
        exact htold.silent
      · rw [hending]
        have hsink : ∀ e, some d = some e → e.sink = h := fun e he => hflush e (hd.trans he)
        exact htold.deliver? hsink
      · rw [hending]
        exact htold.note fun r => rfl
  | record s => exact htold.silent
  | attach sink => exact htold.silent
  | detach => exact htold.silent

theorem sink_record (b : Buffer) (s : Sample) : (b.record s).2.sink = b.sink := by
  rcases record_cases b s with ⟨_, hrecord⟩ | ⟨_, hrecord⟩
  · rw [hrecord]
  · rw [hrecord]

theorem sink_recordFlushing (b : Buffer) (s : Sample) : (b.recordFlushing s).2.2.sink = b.sink := by
  by_cases hfull : b.capacity ≤ b.size
  · rw [recordFlushing_of_full hfull, sink_record]
    exact (sink_flush b).1
  · rw [recordFlushing_of_room (Nat.lt_of_not_le hfull), sink_record]

end Buffer

/-- True for a deed that turns the buffer to no other registry than `h`. -/
def Deed.Within (h : Handle) : Deed → Prop
  | .attach sink => sink = h
  | _ => True

/-- True for an act that concerns no other registry than `h`. -/
def Fleet.Act.Within (h : Handle) : Fleet.Act → Prop
  | .make _ sink => ∀ k ∈ sink, k = h
  | .use _ deed => deed.Within h
  | .call k _ => k = h

/-- A buffer stays with the registry unless it is turned to another one. -/
theorem Buffer.within_does {b : Buffer} {h : Handle} (hb : ∀ k ∈ b.sink, k = h) (c : Collector) {deed : Deed}
    (hdeed : deed.Within h) : ∀ k ∈ (b.does c deed).2.1.sink, k = h := by
  have hflush : ∀ k ∈ b.flush.2.sink, k = h := by
    rw [(sink_flush b).1]
    exact hb
  cases deed with
  | record s =>
      show ∀ k ∈ (b.record s).2.sink, k = h
      rw [sink_record]
      exact hb
  | recordFlushing s =>
      show ∀ k ∈ (b.recordFlushing s).2.2.sink, k = h
      rw [sink_recordFlushing]
      exact hb
  | flush =>
      have hbuffer : (b.does c .flush).2.1 = b.flush.2 := congrArg Prod.fst (flushInto_eq b c)
      rw [hbuffer]
      exact hflush
  | attach sink =>
      rintro k ⟨⟩
      exact hdeed
  | detach => exact fun k hk => absurd hk (Option.not_mem_none k)
  | drop => exact hflush

namespace Fleet

/-- **All that an act can do**, with its beats and what came of it. -/
inductive Does (f : Fleet) : Act → List Beat → Effect → Fleet → Prop where
  | nothing (act : Act) : Does f act [] {} f
  | make (capacity : Nat) (sink : Option Handle) :
      Does f (.make capacity sink) [] {} { f with berths := f.berths ++ [{ buffer := .of capacity sink }] }
  | use (i : Nat) (b : Buffer) (deed : Deed) : f.berths[i]? = some ⟨b, false⟩ →
      Does f (.use i deed) (b.beats deed) (b.does f.collector deed).1
        { collector := (b.does f.collector deed).2.2
          berths := f.berths.set i { buffer := (b.does f.collector deed).2.1, dropped := ends deed } }
  | call (h : Handle) (call : Registry.Call) :
      Does f (.call h call) call.beats {}
        { f with collector := f.collector.modify h fun r => (r.perform call).2 }

variable {f after : Fleet} {act : Act} {more : List Beat} {effect : Effect}

theorem does_step (f : Fleet) (act : Act) :
    Does f act (f.beatsOf act) (f.step act).1.effect (f.step act).2 := by
  cases act with
  | make capacity sink =>
      rw [step, Buffer.make]
      by_cases hzero : capacity = 0
      · rw [if_pos hzero]
        exact .nothing _
      · rw [if_neg hzero]
        by_cases hlarge : Buffer.storageLimit < capacity * Buffer.slotBytes
        · rw [if_pos hlarge]
          exact .nothing _
        · rw [if_neg hlarge]
          exact .make capacity sink
  | use i deed =>
      rw [step, beatsOf]
      cases hberth : f.berths[i]? with
      | none => exact .nothing _
      | some berth =>
          obtain ⟨b, dropped⟩ := berth
          cases dropped with
          | true => exact .nothing _
          | false => exact .use i b deed hberth
  | call h call => exact .call h call

/-- What an act logs is announced within it. -/
theorem Does.announced (hdoes : Does f act more effect after) (r : Registry) : Announced (r.play more).2 := by
  cases hdoes with
  | nothing act => exact announced_nil
  | make capacity sink => exact announced_nil
  | use i b deed hberth => exact b.announced_deed deed r
  | call h call => exact r.announced_call call

/-- A fleet whose buffers are attached to the registry `h` or to none, and whose log is told by the beats. -/
structure Told (f : Fleet) (h : Handle) (start : Registry) (beats : List Beat) : Prop where
  collector : f.collector.Told h start beats
  sinks : ∀ berth ∈ f.berths, ∀ k ∈ berth.buffer.sink, k = h

variable {h : Handle} {start : Registry} {beats : List Beat}

/-- **An act is told beat by beat.** -/
theorem Told.does (htold : f.Told h start beats) (hdoes : Does f act more effect after) (hact : act.Within h) :
    after.Told h start (beats ++ more) := by
  cases hdoes with
  | nothing act => exact ⟨htold.collector.silent, htold.sinks⟩
  | make capacity sink =>
      refine ⟨htold.collector.silent, ?_⟩
      intro berth hberth
      rcases List.mem_append.mp hberth with hberth | hberth
      · exact htold.sinks berth hberth
      · rw [List.mem_singleton.mp hberth]
        exact hact
  | use i b deed hberth =>
      have hb : ∀ k ∈ b.sink, k = h := htold.sinks ⟨b, false⟩ (List.mem_of_getElem? hberth)
      refine ⟨Buffer.told_does htold.collector hb deed, ?_⟩
      intro berth hmem
      rcases List.mem_or_eq_of_mem_set hmem with hmem | hmem
      · exact htold.sinks berth hmem
      · rw [hmem]
        exact Buffer.within_does hb f.collector hact
  | call k call =>
      refine ⟨?_, htold.sinks⟩
      rw [show k = h from hact]
      exact htold.collector.modify fun r => r.play_call call

/-- **A run is told beat by beat**, and its log is announced throughout. -/
theorem told_run {c : Collector} (hstart : c.registry? h = some start) (hlog : c.log = #[]) (acts : List Act)
    (hacts : ∀ act ∈ acts, act.Within h) :
    (run c acts).2.Told h start (Fleet.beats c acts) ∧ Announced (start.play (Fleet.beats c acts)).2 := by
  induction acts using List.reverseRecOn with
  | nil =>
      refine ⟨⟨⟨hstart, ?_⟩, fun _ hberth => absurd hberth List.not_mem_nil⟩, ?_⟩
      · show c.log.toList = []
        rw [hlog]
      · exact announced_nil
  | append_singleton acts act ih =>
      obtain ⟨htold, hannounced⟩ := ih fun earlier hearlier => hacts earlier (List.mem_append_left _ hearlier)
      have hdoes := does_step (run c acts).2 act
      rw [run_concat, beats_concat, Registry.play_append]
      exact ⟨htold.does hdoes (hacts act (List.mem_append_right _ List.mem_cons_self)),
        hannounced.append (hdoes.announced _)⟩

end Fleet

/-! ## Samples -/

/-- The number of samples that leave a buffer for good with an event. -/
def Event.released : Event → Nat
  | flushed n => n
  | discarded n => n
  | _ => 0

/-- The number of samples that leave a buffer for good with a beat. -/
def Beat.released : Beat → Nat
  | flushed n => n
  | discarded n => n
  | _ => 0

/-- Samples are flushed or discarded. -/
theorem sum_released (events : List Event) :
    (events.map Event.released).sum
      = (events.filterMap Event.flushed?).sum + (events.filterMap Event.discarded?).sum := by
  induction events with
  | nil => rfl
  | cons e rest ih =>
      cases e <;> simp only [List.map_cons, List.sum_cons, List.filterMap_cons, Event.released, Event.flushed?,
        Event.discarded?, ih] <;> omega

namespace Registry

/-- The log of some beats tells of all samples that left buffers with them. -/
theorem released_play (r : Registry) (beats : List Beat) :
    ((r.play beats).2.map Event.released).sum = (beats.map Beat.released).sum := by
  induction beats generalizing r with
  | nil => rfl
  | cons b rest ih =>
      have hbeat : ((r.beat b).2.map Event.released).sum = b.released := by
        cases b with
        | take s =>
            show ((r.take s).2.toList.map Event.released).sum = 0
            rcases take_cases r s with ⟨hquiet, _⟩ | ⟨x, hlogged, _⟩
            · rw [hquiet]
              rfl
            · rw [hlogged]
              rfl
        | count n => rfl
        | flushed n => rfl
        | discarded n => rfl
        | clear => rfl
      rw [play, List.map_append, List.sum_append, hbeat, ih, List.map_cons, List.sum_cons]

end Registry

/-- Nothing is released with a batch; the buffer tells of it when the batch has been received. -/
theorem Beat.released_batch (batch : List Sample) : ((Beat.ofBatch batch).map Beat.released).sum = 0 := by
  unfold ofBatch
  split
  · rfl
  · have hzero : ∀ n ∈ (batch.map Beat.take).map released, n = 0 := by
      intro n hn
      obtain ⟨b, hb, rfl⟩ := List.mem_map.mp hn
      obtain ⟨s, _, rfl⟩ := List.mem_map.mp hb
      rfl
    rw [List.map_cons, List.sum_cons, List.sum_eq_zero hzero]
    rfl

theorem Beat.released_delivery (d : Delivery) :
    ((Beat.ofDelivery (some d)).map Beat.released).sum = d.batch.length := by
  rw [ofDelivery, List.map_append, List.sum_append, released_batch, Nat.zero_add]
  rfl

namespace Buffer

theorem released_flush (b : Buffer) :
    b.size = ((Beat.ofDelivery b.flush.1).map Beat.released).sum + b.flush.2.size := by
  rcases flush_cases b with ⟨_, hflush⟩ | ⟨sink, _, _, hflush⟩
  · rw [hflush]
    exact (Nat.zero_add b.size).symm
  · rw [hflush, Beat.released_delivery]
    exact Array.length_toList.symm

theorem size_record (b : Buffer) (s : Sample) :
    (b.record s).2.size = b.size + (if (b.record s).1 then some s else none).toList.length := by
  rcases record_cases b s with ⟨_, hrecord⟩ | ⟨_, hrecord⟩
  · rw [hrecord]
    rfl
  · rw [hrecord]
    exact Array.size_push s

end Buffer

/-- The samples that a buffer may still hand on; a dropped one has none. -/
def Berth.pending (berth : Berth) : List Sample :=
  if berth.dropped then [] else berth.buffer.slots.toList

theorem Berth.length_pending (b : Buffer) : (pending { buffer := b }).length = b.size :=
  Array.length_toList

/-- **A deed settles its samples**: what the buffer had and what it accepts leaves it or is pending. -/
theorem Buffer.settles_does (b : Buffer) (c : Collector) (deed : Deed) :
    (b.does c deed).1.accepted.toList.length + b.size
      = ((b.beats deed).map Beat.released).sum
        + (Berth.pending { buffer := (b.does c deed).2.1, dropped := Fleet.ends deed }).length := by
  have hflush := b.released_flush
  cases deed with
  | record s =>
      show (if (b.record s).1 then some s else none).toList.length + b.size
        = 0 + (Berth.pending { buffer := (b.record s).2 }).length
      rw [Berth.length_pending, size_record, Nat.zero_add, Nat.add_comm]
  | recordFlushing s =>
      show (if (b.recordFlushing s).1 then some s else none).toList.length + b.size
        = ((Beat.ofDelivery (b.recordFlushing s).2.1).map Beat.released).sum
          + (Berth.pending { buffer := (b.recordFlushing s).2.2 }).length
      rw [Berth.length_pending]
      by_cases hfull : b.capacity ≤ b.size
      · rw [recordFlushing_of_full hfull, size_record]
        show _ = _ + (b.flush.2.size + _)
        rw [← Nat.add_assoc, ← hflush, Nat.add_comm]
      · rw [recordFlushing_of_room (Nat.lt_of_not_le hfull), size_record, Nat.add_comm]
        exact (Nat.zero_add _).symm
  | flush =>
      have hbuffer : (b.does c .flush).2.1 = b.flush.2 := congrArg Prod.fst (flushInto_eq b c)
      show 0 + b.size = ((Beat.ofDelivery b.flush.1).map Beat.released).sum
        + (Berth.pending { buffer := (b.does c .flush).2.1 }).length
      rw [hbuffer, Berth.length_pending, Nat.zero_add]
      exact hflush
  | drop =>
      show 0 + b.size = (b.ending.beats.map Beat.released).sum + 0
      rw [Nat.zero_add, Nat.add_zero]
      rcases ending_cases b with ⟨hending, hsize⟩ | ⟨d, hending, _, hsize⟩ | ⟨hending, _⟩
      · rw [hending, hsize]
        rfl
      · rw [hending, ← hsize]
        exact (Beat.released_delivery d).symm
      · rw [hending]
        rfl
  | attach sink =>
      show 0 + b.size = 0 + (Berth.pending { buffer := b.attach sink }).length
      rw [Berth.length_pending]
      rfl
  | detach =>
      show 0 + b.size = 0 + (Berth.pending { buffer := b.detach.2 }).length
      rw [Berth.length_pending]
      rfl

namespace Fleet

/-- All samples that buffers accepted. -/
def everAccepted (turns : List Turn) : List Sample :=
  turns.flatMap fun t => t.effect.accepted.toList

/-- The samples that are still to be handed on. -/
def pending (f : Fleet) : List Sample :=
  f.berths.flatMap Berth.pending

/-- The account of the samples: what was accepted left its buffer with some beat, or is pending. -/
def Settled (accepted : List Sample) (f : Fleet) (beats : List Beat) : Prop :=
  accepted.length = (beats.map Beat.released).sum + f.pending.length

variable {f after : Fleet} {act : Act} {beats more : List Beat} {effect : Effect} {accepted : List Sample}

theorem Settled.append (h : Settled accepted f beats)
    (hmore : effect.accepted.toList.length + f.pending.length = (more.map Beat.released).sum + after.pending.length) :
    Settled (accepted ++ effect.accepted.toList) after (beats ++ more) := by
  unfold Settled at h ⊢
  rw [List.length_append, List.map_append, List.sum_append]
  omega

/-- **An act settles its samples.** -/
theorem Settled.does (h : Settled accepted f beats) (hdoes : Does f act more effect after) :
    Settled (accepted ++ effect.accepted.toList) after (beats ++ more) := by
  apply h.append
  cases hdoes with
  | nothing act => rfl
  | make capacity sink =>
      show 0 + f.pending.length = 0 + ((f.berths ++ [_]).flatMap Berth.pending).length
      rw [List.flatMap_append, List.length_append]
      rfl
  | use i b deed hberth =>
      obtain ⟨rest, hbefore, hafter⟩ := Shared.flatMap_set_perm hberth
        { buffer := (b.does f.collector deed).2.1, dropped := ends deed } Berth.pending
      have hdeed := b.settles_does f.collector deed
      have hsize := Berth.length_pending b
      have hold := hbefore.length_eq
      have hnew := hafter.length_eq
      rw [List.length_append] at hold hnew
      rw [pending, hold, hsize, pending, hnew, ← Nat.add_assoc, hdeed, Nat.add_assoc]
  | call h call =>
      have hcall : (call.beats.map Beat.released).sum = 0 := by
        cases call with
        | receive batch => exact Beat.released_batch batch
        | _ => rfl
      rw [hcall]
      rfl

theorem settled_run (c : Collector) (acts : List Act) :
    Settled (everAccepted (run c acts).1) (run c acts).2 (Fleet.beats c acts) := by
  induction acts using List.reverseRecOn with
  | nil => rfl
  | append_singleton acts act ih =>
      rw [run_concat, beats_concat, everAccepted, List.flatMap_append, List.flatMap_singleton]
      exact ih.does (does_step (run c acts).2 act)

/-! ## The log -/

/-- **The log agrees with the counters.** Any number of buffers, each attached to the one registry or to none, are made,
    used and dropped in any order, and others call the registry in between. Then the run is its beats played on the
    registry: they leave it in its state and write the log. Since the last clear there are as many events of a batch as
    batches are counted, and of as many samples, and as many evictions as are counted. Wherever an eviction is logged,
    the registry that the beats before it left behind tracks the evicted name, and not the name of the sample that
    comes next. Wherever a buffer tells of a flush, the registry told of a batch of as many samples before, and of
    nothing but evictions since. And all samples that buffers accepted were flushed, are pending, or were discarded. -/
theorem log_agrees (bound : Nat) (acts : List Act) (hacts : ∀ act ∈ acts, act.Within 0) :
    let start := Registry.empty bound
    let c : Collector := { registries := #[start] }
    let fleet := (run c acts).2
    let log := fleet.collector.log.toList
    (∃ r, fleet.collector.registry? 0 = some r ∧ start.play (Fleet.beats c acts) = (r, log) ∧
      r.totals.batches = ((sinceCleared log).filterMap Event.received?).length ∧
      r.totals.samples = ((sinceCleared log).filterMap Event.received?).sum ∧
      r.totals.evictions = (sinceCleared log).countP Event.isEvicted) ∧
    (∀ before x y after, log = before ++ .evicted x y :: after →
      ∃ earlier s later, Fleet.beats c acts = earlier ++ .take s :: later ∧ s.name = y ∧
        (start.play earlier).2 = before ∧ (start.play earlier).1.contains x = true ∧
        (start.play earlier).1.contains y = false) ∧
    (∀ before n after, log = before ++ .flushed n :: after →
      ∃ earlier between, before = earlier ++ .received n :: between ∧ ∀ e ∈ between, e.isEvicted = true) ∧
    (everAccepted (run c acts).1).length
      = (log.filterMap Event.flushed?).sum + fleet.pending.length + (log.filterMap Event.discarded?).sum := by
  intro start c fleet log
  have hstart : c.registry? 0 = some start := rfl
  obtain ⟨⟨⟨hregistry, hlog⟩, _⟩, hannounced⟩ := told_run hstart rfl acts hacts
  have hcounted : Registry.Counted (start.play (Fleet.beats c acts)).1 log := by
    have hplayed := (Registry.counted_empty bound).play (Fleet.beats c acts)
    rw [List.nil_append, ← hlog] at hplayed
    exact hplayed
  refine ⟨⟨_, hregistry, Prod.ext rfl hlog.symm, hcounted.batches, hcounted.samples, hcounted.evictions⟩, ?_, ?_, ?_⟩
  · intro before x y after h
    exact Registry.play_evicted (hlog.symm.trans h)
  · rw [← hlog] at hannounced
    exact hannounced
  · have hsettled : Settled _ fleet (Fleet.beats c acts) := settled_run c acts
    have hreleased : (log.map Event.released).sum = ((Fleet.beats c acts).map Beat.released).sum := by
      rw [show log = _ from hlog, Registry.released_play]
    unfold Settled at hsettled
    rw [hsettled, ← hreleased, sum_released]
    exact Nat.add_right_comm _ _ _

/-- Two buffers and a registry that tracks one name: a forced flush before a clear, a flush after it, and a forced
    flush of a buffer that is then taken off and dropped with a sample in it, while the other one still holds a
    sample. -/
theorem log_agrees_mixed :
    let s : Sample := ⟨"a", .zero, true, .reading 0⟩
    let t : Sample := ⟨"b", .zero, false, .reading 1⟩
    let c : Collector := { registries := #[.empty 1] }
    let acts := [Act.make 2 (some 0), .make 1 none, .use 0 (.record s), .use 0 (.record t), .use 0 (.recordFlushing s),
      .call 0 .clear, .use 0 (.recordFlushing t), .use 1 (.record s), .use 0 .flush, .use 1 (.attach 0),
      .use 1 (.recordFlushing t), .use 1 .detach, .use 1 .drop, .use 0 (.record s)]
    let fleet := (run c acts).2
    let log := fleet.collector.log.toList
    (∀ act ∈ acts, act.Within 0) ∧
    log = [.received 2, .evicted "a" "b", .flushed 2, .cleared, .received 2, .evicted "a" "b", .flushed 2, .received 1,
      .evicted "b" "a", .flushed 1, .discarded 1] ∧
    (∃ r, fleet.collector.registry? 0 = some r ∧ r.totals.batches = 2 ∧ r.totals.samples = 3 ∧
      r.totals.evictions = 2) ∧
    (∃ earlier s later, Fleet.beats c acts = earlier ++ .take s :: later ∧ s.name = "a" ∧
      ((Registry.empty 1).play earlier).1.contains "b" = true ∧
      ((Registry.empty 1).play earlier).1.contains "a" = false) ∧
    (everAccepted (run c acts).1).length = 5 + fleet.pending.length + 1 := by
  intro s t c acts fleet log
  have hacts : ∀ act ∈ acts, act.Within 0 := by simp [acts, Act.Within, Deed.Within]
  have hlog : log = [.received 2, .evicted "a" "b", .flushed 2, .cleared, .received 2, .evicted "a" "b", .flushed 2,
      .received 1, .evicted "b" "a", .flushed 1, .discarded 1] := by decide +kernel
  -- the last eviction, which a forced flush made after the clear
  have hsplit : log = [.received 2, .evicted "a" "b", .flushed 2, .cleared, .received 2, .evicted "a" "b", .flushed 2,
      .received 1] ++ .evicted "b" "a" :: [.flushed 1, .discarded 1] := hlog
  obtain ⟨⟨r, hr, _, hbatches, hsamples, hevictions⟩, hevicted, _, haccount⟩ := log_agrees 1 acts hacts
  obtain ⟨earlier, next, later, hbeats, hname, _, hthere, hnew⟩ := hevicted _ "b" "a" _ hsplit
  refine ⟨hacts, hlog, ⟨r, hr, ?_, ?_, ?_⟩, ⟨earlier, next, later, hbeats, hname, hthere, hnew⟩, ?_⟩
  · exact hbatches.trans (by decide +kernel)
  · exact hsamples.trans (by decide +kernel)
  · exact hevictions.trans (by decide +kernel)
  · exact haccount.trans (by decide +kernel)

end Fleet

end SampleProfiler
