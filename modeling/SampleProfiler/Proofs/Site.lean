import Mathlib.Logic.Function.Basic
import SampleProfiler.Load.Run
import SampleProfiler.Proofs.Transparency
import SampleProfiler.Session

/-!
# `SampleProfiler.Proofs.Site` — failed calls leave no trace

Registries, buffers, the slots of all threads and load runs together, under calls in any order. A call can fail in
many places: settings and plans are checked, storage is reserved, a buffer is full, there is nothing to flush. Each of
them comes before the first change, so a failed call leaves everything as it was, the log included. Whether a call
fails can be told before it (`Site.Refuses`), and deleting the failed calls of a run cannot be noticed by the others.

## Contents
- **The site.** `Site`, `Site.Act` with its `Site.Answer`s, `Site.step`, and `Site.serve` for a run.
- **Failures.** `Site.Turn.isFailed`, read off an answer, and `Site.Refuses`, read off the state before.
- **One call.** `Site.Verdict`, with a lemma for each kind of call that can fail, and `Site.verdict`.
- **All runs.** `serve_without_failures`.
-/

namespace SampleProfiler

/-! ## The site -/

namespace Measure

/-- A size that is measured like this: as a number says, as checked settings say, or by default. -/
def size (of : Settings → Nat) : Measure → Except Fault Nat
  | default => .ok (of {})
  | number n => .ok n
  | settings s => s.checked.map of

/-- True for settings with something wrong. -/
def isDefective : Measure → Bool
  | settings s => s.defect?.isSome
  | _ => false

end Measure

/-- A capacity that no buffer can be made with. -/
def Buffer.Unfit (capacity : Nat) : Prop :=
  capacity = 0 ∨ storageLimit < capacity * slotBytes

/-- Registries, buffers in the order in which they were made, and a slot for every thread. -/
structure Site where
  collector : Collector := {}
  berths : List Berth := []
  slots : Nat → Slot := fun _ => none

namespace Site

/-- A call, or the end of a buffer or of a thread. -/
inductive Act where
  | makeRegistry (bound : Measure)
  | call (h : Handle) (call : Registry.Call)
  | inspectRegistry (h : Handle)
  | makeBuffer (sink : Option Handle) (capacity : Measure)
  | use (i : Nat) (deed : Deed)
  | inspectBuffer (i : Nat)
  | install (thread : Nat) (sink : Handle) (capacity : Nat)
  | uninstall (thread : Nat)
  | record (thread : Nat) (s : Sample)
  | flush (thread : Nat)
  | inspectSlot (thread : Nat)
  | leave (thread : Nat)
  | load (h : Handle) (p : Load.Plan) (elapsed : Span) (produced : Load.Producers)

/-- What an act answers. -/
inductive Answer where
  | done
  /-- There is no such registry or buffer. -/
  | absent
  | failed (fault : Fault)
  | aborted (cause : Abort)
  /-- The handle of a new registry, or the place of a new buffer. -/
  | made (place : Nat)
  | truth (value : Bool)
  | count (samples : Nat)
  | sink (sink : Option Handle)
  | read (answer : Registry.Answer)
  | registry (r : Registry)
  | buffer (b : Buffer)
  | slot (slot : Slot)
  | report (result : Except Fault Load.Report)

/-- An act and its answer. -/
structure Turn where
  act : Act
  answer : Answer

/-- What a deed answers. -/
def answerOf (b : Buffer) (c : Collector) : Deed → Answer
  | .record s => .truth (b.record s).1
  | .recordFlushing s => .truth (b.recordInto s c).1
  | .flush => .count (b.flushInto c).1
  | .attach _ => .done
  | .detach => .sink b.detach.1
  | .drop => .done

/-- The buffer at a place, unless it was dropped. -/
def buffer? (site : Site) (i : Nat) : Option Buffer :=
  match site.berths[i]? with
  | some ⟨b, false⟩ => some b
  | _ => none

/-- Puts a buffer in the slot of a thread, and a collector in place. -/
def put (site : Site) (thread : Nat) (slot : Slot) (c : Collector) : Site :=
  { site with collector := c, slots := Function.update site.slots thread slot }

/-- Carries out an act. -/
def step (site : Site) (act : Act) : Answer × Site :=
  match act with
  | .makeRegistry bound =>
    match bound.size Settings.bound with
    | .error fault => (.failed fault, site)
    | .ok n =>
      let (h, c) := site.collector.add (.empty n)
      (.made h, { site with collector := c })
  | .call h call =>
    match site.collector.registry? h with
    | none => (.absent, site)
    | some r =>
      (.read (r.perform call).1, { site with collector := site.collector.modify h fun r => (r.perform call).2 })
  | .inspectRegistry h =>
    match site.collector.registry? h with
    | none => (.absent, site)
    | some r => (.registry r, site)
  | .makeBuffer sink capacity =>
    match capacity.size Settings.capacity with
    | .error fault => (.failed fault, site)
    | .ok n =>
      match Buffer.make n sink with
      | .error cause => (.aborted cause, site)
      | .ok b => (.made site.berths.length, { site with berths := site.berths ++ [{ buffer := b }] })
  | .use i deed =>
    match site.buffer? i with
    | none => (.absent, site)
    | some b =>
      let (_, after, c) := b.does site.collector deed
      (answerOf b site.collector deed,
        { site with
          collector := c
          berths := site.berths.set i { buffer := after, dropped := Fleet.ends deed } })
  | .inspectBuffer i =>
    match site.buffer? i with
    | none => (.absent, site)
    | some b => (.buffer b, site)
  | .install thread sink capacity =>
    match (site.slots thread).install sink capacity site.collector with
    | .error cause => (.aborted cause, site)
    | .ok (slot, c) => (.done, site.put thread slot c)
  | .uninstall thread =>
    let (count, slot, c) := (site.slots thread).uninstall site.collector
    (.count count, site.put thread slot c)
  | .record thread s =>
    let (accepted, slot, c) := (site.slots thread).record s site.collector
    (.truth accepted, site.put thread slot c)
  | .flush thread =>
    let (count, slot, c) := (site.slots thread).flush site.collector
    (.count count, site.put thread slot c)
  | .inspectSlot thread => (.slot (site.slots thread), site)
  | .leave thread => (.done, site.put thread none ((site.slots thread).leave site.collector))
  | .load h p elapsed produced =>
    let (result, c) := Load.runWith produced p elapsed h site.collector
    (.report result, { site with collector := c })

/-- Carries out acts in order, with a record of them. -/
def serve (site : Site) : List Act → List Turn × Site
  | [] => ([], site)
  | act :: rest =>
    let (answer, after) := site.step act
    let (turns, last) := after.serve rest
    (⟨act, answer⟩ :: turns, last)

/-! ## Failures -/

/-- True for a call that failed, by what it answered. -/
def Turn.isFailed (t : Turn) : Bool :=
  match t.act, t.answer with
  | .makeRegistry _, .failed _ => true
  | .makeBuffer _ _, .failed _ => true
  | .makeBuffer _ _, .aborted _ => true
  | .install _ _ _, .aborted _ => true
  | .call _ (.profile _), .read (.profile (.error _)) => true
  | .use _ (.record _), .truth accepted => !accepted
  | .use _ .flush, .count n => n == 0
  | .record _ _, .truth accepted => !accepted
  | .flush _, .count n => n == 0
  | .load _ _ _ _, .report (.error (.invalid _)) => true
  | _, _ => false

/-- When a call fails: settings or a plan have a defect, a buffer can not be made, no profile is tracked under a name,
    a buffer is full, nothing can be flushed, or nothing is installed. -/
def Refuses (site : Site) : Act → Prop
  | .makeRegistry bound => bound.isDefective = true
  | .makeBuffer _ capacity =>
    capacity.isDefective = true ∨ ∃ n, capacity.size Settings.capacity = .ok n ∧ Buffer.Unfit n
  | .install _ _ capacity => Buffer.Unfit capacity
  | .call h (.profile name) => ∃ r, site.collector.registry? h = some r ∧ r.contains name = false
  | .use i (.record _) => ∃ b, site.buffer? i = some b ∧ b.isFull = true
  | .use i .flush => ∃ b, site.buffer? i = some b ∧ (b.sink = none ∨ b.isEmpty = true)
  | .record thread _ => site.slots thread = none
  | .flush thread => (site.slots thread).pending = 0
  | .load _ p _ _ => p.defect?.isSome = true
  | _ => False

/-! ## One call -/

/-- A call that the site refuses fails and leaves everything as it was, and no other call fails. -/
structure Verdict (site : Site) (act : Act) : Prop where
  failed : (⟨act, (site.step act).1⟩ : Turn).isFailed = true ↔ site.Refuses act
  kept : site.Refuses act → (site.step act).2 = site

end Site

/-- Only settings with a defect have no size. -/
theorem Measure.size_cases (of : Settings → Nat) (m : Measure) :
    (m.isDefective = true ∧ ∃ defect, m.size of = .error (.invalid defect)) ∨
    (m.isDefective = false ∧ ∃ n, m.size of = .ok n) := by
  cases m with
  | default => exact Or.inr ⟨rfl, _, rfl⟩
  | number n => exact Or.inr ⟨rfl, n, rfl⟩
  | settings s =>
      simp only [isDefective, size, Settings.checked]
      cases s.defect? with
      | none => exact Or.inr ⟨rfl, _, rfl⟩
      | some defect => exact Or.inl ⟨rfl, defect, rfl⟩

/-- A buffer can be made with every capacity that fits. -/
theorem Buffer.make_cases (capacity : Nat) (sink : Option Handle) :
    (Unfit capacity ∧ ∃ cause, make capacity sink = .error cause) ∨
    (¬ Unfit capacity ∧ make capacity sink = .ok (of capacity sink)) := by
  unfold Unfit make
  by_cases hzero : capacity = 0
  · rw [if_pos hzero]
    exact Or.inl ⟨Or.inl hzero, _, rfl⟩
  · rw [if_neg hzero]
    by_cases hlarge : storageLimit < capacity * slotBytes
    · rw [if_pos hlarge]
      exact Or.inl ⟨Or.inr hlarge, _, rfl⟩
    · rw [if_neg hlarge]
      exact Or.inr ⟨not_or.mpr ⟨hzero, hlarge⟩, rfl⟩

/-- A flush hands nothing on and changes nothing, or it hands something on. -/
theorem Buffer.flushInto_cases (b : Buffer) (c : Collector) :
    ((b.sink = none ∨ b.isEmpty = true) ∧ b.flushInto c = (0, b, c)) ∨
    ((b.sink ≠ none ∧ b.isEmpty = false) ∧ (b.flushInto c).1 ≠ 0) := by
  unfold flushInto
  rcases flush_cases b with ⟨hidle, hflush⟩ | ⟨sink, hsink, hpending, hflush⟩
  · rw [hflush]
    exact Or.inl ⟨hidle.imp id fun hempty => by simp [isEmpty, size, hempty], rfl⟩
  · rw [hflush]
    exact Or.inr ⟨by simp [hsink, isEmpty, size, hpending], by simpa using hpending⟩

/-- A change that changes nothing and logs nothing. -/
theorem Collector.modify_self (c : Collector) (h : Handle) : (c.modify h fun r => (r, #[])) = c := by
  unfold modify
  cases hr : c.registries[h]? with
  | none => rfl
  | some r =>
      obtain ⟨hlt, rfl⟩ := Array.getElem?_eq_some_iff.mp hr
      have hsame : c.registries.setIfInBounds h c.registries[h] = c.registries := by
        simp [Array.setIfInBounds, hlt]
      dsimp only
      rw [hsame, Array.append_empty]

namespace Site

variable {site : Site}

section Calls

-- `simp` carries a call out, and reads its answer, wherever it is known which call it is
attribute [local simp] step Turn.isFailed Refuses

theorem verdict_makeRegistry (bound : Measure) : Verdict site (.makeRegistry bound) := by
  rcases bound.size_cases Settings.bound with ⟨hdefective, defect, hsize⟩ | ⟨hsound, n, hsize⟩
  · constructor <;> simp [hsize, hdefective]
  · constructor <;> simp [hsize, hsound]

theorem verdict_makeBuffer (sink : Option Handle) (capacity : Measure) :
    Verdict site (.makeBuffer sink capacity) := by
  rcases capacity.size_cases Settings.capacity with ⟨hdefective, defect, hsize⟩ | ⟨hsound, n, hsize⟩
  · constructor <;> simp [hsize, hdefective]
  · rcases Buffer.make_cases n sink with ⟨hunfit, cause, hmake⟩ | ⟨hfit, hmake⟩
    · constructor <;> simp [hsize, hsound, hmake, hunfit]
    · constructor <;> simp [hsize, hsound, hmake, hfit]

theorem verdict_install (thread : Nat) (sink : Handle) (capacity : Nat) :
    Verdict site (.install thread sink capacity) := by
  rcases Buffer.make_cases capacity (some sink) with ⟨hunfit, cause, hmake⟩ | ⟨hfit, hmake⟩
  · constructor <;> simp [Slot.install, Except.map, hmake, hunfit]
  · constructor <;> simp [Slot.install, Except.map, hmake, hfit]

/-- A call of a registry fails if it asks for a profile that is not tracked, and a read changes nothing. -/
theorem verdict_call (h : Handle) (call : Registry.Call) : Verdict site (.call h call) := by
  cases hr : site.collector.registry? h with
  | none => constructor <;> cases call <;> simp [hr]
  | some r =>
      cases call with
      | profile name =>
          have hkept := site.collector.modify_self h
          cases hfound : r.tracked.find? name with
          | none =>
              constructor <;> simp [hr, Registry.perform, Registry.profile,
                Registry.contains, Lru.contains, hfound, hkept]
          | some p =>
              constructor <;> simp [hr, Registry.perform, Registry.profile,
                Registry.contains, Lru.contains, hfound]
      | _ => constructor <;> simp [hr, Registry.perform]

/-- A buffer that is put back as it was. -/
theorem set_self {i : Nat} {b : Buffer} (h : site.buffer? i = some b) :
    site.berths.set i { buffer := b } = site.berths := by
  unfold buffer? at h
  split at h
  · next was hberth =>
      cases h
      obtain ⟨hlt, heq⟩ := List.getElem?_eq_some_iff.mp hberth
      rw [← heq, List.set_getElem_self]
  · cases h

theorem verdict_use (i : Nat) (deed : Deed) : Verdict site (.use i deed) := by
  cases hb : site.buffer? i with
  | none => constructor <;> cases deed <;> simp [hb]
  | some b =>
      have hself := set_self hb
      cases deed with
      | record s =>
          rcases b.record_cases s with ⟨hfull, hrecord⟩ | ⟨hroom, hrecord⟩
          · have hrefused : b.isFull = true := decide_eq_true hfull
            constructor <;> simp [hb, answerOf, Buffer.does, hrecord, hrefused,
              Fleet.ends, hself]
          · have haccepted : b.isFull = false := decide_eq_false (Nat.not_le_of_lt hroom)
            constructor <;> simp [hb, answerOf, Buffer.does, hrecord, haccepted]
      | flush =>
          rcases b.flushInto_cases site.collector with ⟨hidle, hflush⟩ | ⟨⟨hsink, hpending⟩, hcount⟩
          · constructor <;> simp [hb, answerOf, Buffer.does, hflush, hidle,
              Fleet.ends, hself]
          · constructor <;> simp [hb, answerOf, hsink, hpending, hcount]
      | _ => constructor <;> simp [hb, answerOf]

/-- Every buffer in a slot has a registry and room for a sample. -/
def Armed (site : Site) : Prop :=
  ∀ thread b, site.slots thread = some b → b.sink.isSome = true ∧ 0 < b.capacity

/-- A slot that is put back as it was. -/
theorem put_self {thread : Nat} {slot : Slot} (h : site.slots thread = slot) :
    site.put thread slot site.collector = site := by
  rw [put, ← h, Function.update_eq_self]

/-- A buffer that is installed accepts every sample, so only an empty slot refuses one. -/
theorem verdict_record (harmed : site.Armed) (thread : Nat) (s : Sample) : Verdict site (.record thread s) := by
  cases hslot : site.slots thread with
  | none => constructor <;> simp [hslot, Slot.record, put_self hslot]
  | some b =>
      obtain ⟨hsink, hroom⟩ := harmed thread b hslot
      obtain ⟨sink, hsome⟩ := Option.isSome_iff_exists.mp hsink
      have haccepted : (b.recordInto s site.collector).1 = true := (Buffer.recordFlushing_accepts hsome hroom s).1
      constructor <;> simp [hslot, Slot.record, haccepted]

/-- A buffer that is installed has a registry, so only an empty one has nothing to flush. -/
theorem verdict_flush (harmed : site.Armed) (thread : Nat) : Verdict site (.flush thread) := by
  cases hslot : site.slots thread with
  | none => constructor <;> simp [hslot, Slot.flush, Slot.pending, put_self hslot]
  | some b =>
      obtain ⟨hsink, _⟩ := harmed thread b hslot
      rcases b.flushInto_cases site.collector with ⟨hidle, hflush⟩ | ⟨⟨_, hpending⟩, hcount⟩
      · have hempty : b.size = 0 := by
          rcases hidle with hnone | hempty
          · rw [hnone] at hsink
            exact absurd hsink Bool.false_ne_true
          · exact beq_iff_eq.mp hempty
        constructor <;> simp [hslot, Slot.flush, Slot.pending, hflush, hempty,
          put_self hslot]
      · have hfull : b.size ≠ 0 := beq_eq_false_iff_ne.mp hpending
        constructor <;> simp [hslot, Slot.flush, Slot.pending, hcount, hfull]

/-- A plan is checked before the producers start, and what goes wrong later is another fault. -/
theorem verdict_load (h : Handle) (p : Load.Plan) (elapsed : Span) (produced : Load.Producers) :
    Verdict site (.load h p elapsed produced) := by
  cases hdefect : p.defect? with
  | some defect =>
      have hchecked : p.checked = .error (.invalid defect) := by rw [Load.Plan.checked, hdefect]
      constructor <;> simp [Load.runWith_of_refused hchecked, hdefect]
  | none =>
      have hchecked : p.checked = .ok p := by rw [Load.Plan.checked, hdefect]
      obtain ⟨⟨forced, aborted, after⟩, hproduced⟩ : ∃ result, produced p site.collector = result := ⟨_, rfl⟩
      obtain ⟨hresult, _⟩ := Load.runWith_of_checked hchecked hproduced elapsed h
      by_cases haborted : 0 < aborted
      · rw [if_pos haborted] at hresult
        constructor <;> simp [hresult, hdefect]
      · rw [if_neg haborted] at hresult
        constructor <;> simp [hresult, hdefect]

/-- **Whether a call fails can be told before it**, and a call that fails changes nothing. -/
theorem verdict (harmed : site.Armed) (act : Act) : Verdict site act := by
  cases act with
  | makeRegistry bound => exact verdict_makeRegistry bound
  | call h call => exact verdict_call h call
  | makeBuffer sink capacity => exact verdict_makeBuffer sink capacity
  | use i deed => exact verdict_use i deed
  | install thread sink capacity => exact verdict_install thread sink capacity
  | record thread s => exact verdict_record harmed thread s
  | flush thread => exact verdict_flush harmed thread
  | load h p elapsed produced => exact verdict_load h p elapsed produced
  | _ => constructor <;> simp

end Calls

/-! ## All runs -/

theorem Armed.put (harmed : site.Armed) (thread : Nat) {slot : Slot}
    (hslot : ∀ b, slot = some b → b.sink.isSome = true ∧ 0 < b.capacity) (c : Collector) :
    (site.put thread slot c).Armed := by
  intro other b hb
  change Function.update site.slots thread slot other = some b at hb
  by_cases hother : other = thread
  · rw [hother, Function.update_self] at hb
    exact hslot b hb
  · rw [Function.update_of_ne hother] at hb
    exact harmed other b hb

/-- A buffer is installed with a registry and room for a sample, and recording and flushing leave it both. -/
theorem Armed.step (harmed : site.Armed) (act : Act) : (site.step act).2.Armed := by
  cases act with
  | makeRegistry | call | inspectRegistry | use | inspectBuffer =>
      simp only [Site.step]
      split <;> exact harmed
  | makeBuffer sink capacity =>
      simp only [Site.step]
      split
      · exact harmed
      · split <;> exact harmed
  | install thread sink capacity =>
      simp only [Site.step, Slot.install]
      rcases Buffer.make_cases capacity (some sink) with ⟨_, cause, hmake⟩ | ⟨hfit, hmake⟩
      · rw [hmake]
        exact harmed
      · rw [hmake]
        apply harmed.put
        rintro b ⟨⟩
        exact ⟨rfl, Nat.pos_of_ne_zero fun hzero => hfit (Or.inl hzero)⟩
  | uninstall thread =>
      have hempty : ((site.slots thread).uninstall site.collector).2.1 = none := by
        cases site.slots thread <;> rfl
      apply harmed.put
      show ∀ b, ((site.slots thread).uninstall site.collector).2.1 = some b → _
      rw [hempty]
      rintro b ⟨⟩
  | record thread s =>
      apply harmed.put
      cases hslot : site.slots thread with
      | none => rintro b ⟨⟩
      | some b =>
          rintro after ⟨⟩
          obtain ⟨hsink, hroom⟩ := harmed thread b hslot
          obtain ⟨sink, hsome⟩ := Option.isSome_iff_exists.mp hsink
          obtain ⟨_, hkept, hcapacity⟩ := Buffer.recordFlushing_accepts hsome hroom s
          exact ⟨Option.isSome_iff_exists.mpr ⟨sink, hkept⟩, hcapacity ▸ hroom⟩
  | flush thread =>
      apply harmed.put
      cases hslot : site.slots thread with
      | none => rintro b ⟨⟩
      | some b =>
          have hflushed : (b.flushInto site.collector).2.1 = b.flush.2 :=
            congrArg Prod.fst (Buffer.flushInto_eq b site.collector)
          obtain ⟨hsink, hcapacity⟩ := Buffer.sink_flush b
          show ∀ after, some (b.flushInto site.collector).2.1 = some after → _
          intro after hafter
          rw [← Option.some.inj hafter, hflushed, hsink, hcapacity]
          exact harmed thread b hslot
  | inspectSlot thread => exact harmed
  | leave thread =>
      apply harmed.put
      rintro b ⟨⟩
  | load h p elapsed produced => exact harmed

theorem serve_cons (site : Site) (act : Act) (rest : List Act) :
    site.serve (act :: rest)
      = (⟨act, (site.step act).1⟩ :: ((site.step act).2.serve rest).1, ((site.step act).2.serve rest).2) :=
  rfl

theorem Armed.serve (harmed : site.Armed) (acts : List Act) : (site.serve acts).2.Armed := by
  induction acts generalizing site with
  | nil => exact harmed
  | cons act rest ih => exact ih (harmed.step act)

/-- A run without its failed calls, from any state whose slots are armed. -/
theorem Armed.serve_filter (harmed : site.Armed) (acts : List Act) :
    site.serve (((site.serve acts).1.filter fun t => !t.isFailed).map Turn.act)
      = ((site.serve acts).1.filter fun t => !t.isFailed, (site.serve acts).2) := by
  induction acts generalizing site with
  | nil => rfl
  | cons act rest ih =>
      have hverdict := verdict harmed act
      have hrest := ih (harmed.step act)
      rw [serve_cons]
      by_cases hfailed : (⟨act, (site.step act).1⟩ : Turn).isFailed = true
      · -- the rest of the run starts from where the failed call started
        have hkept := hverdict.kept (hverdict.failed.mp hfailed)
        rw [List.filter_cons_of_neg (by simp [hfailed])]
        rw [hkept] at hrest ⊢
        exact hrest
      · rw [List.filter_cons_of_pos (by simp [hfailed]), List.map_cons, serve_cons, hrest]

theorem armed_start : ({} : Site).Armed := by
  rintro thread b ⟨⟩

/-- **Failed calls leave no trace.** Take any run of calls on registries, buffers, slots and load runs, and delete the
    calls that failed. Then all others are answered as before, and in the end the registries, the buffers, the slots
    and the log are the same. A call fails exactly when it is refused in the state that it comes to, and nothing is
    changed then. A buffer without room for a sample is not installed either: the buffer that was installed stays,
    with its samples and its registry. -/
theorem serve_without_failures (acts : List Act) :
    let turns := (serve {} acts).1
    let site := (serve {} acts).2
    let succeeded := turns.filter fun t => !t.isFailed
    serve {} (succeeded.map Turn.act) = (succeeded, site) ∧
    (∀ act, site.Verdict act) ∧
    ∀ thread sink, site.step (.install thread sink 0) = (.aborted .emptyCapacity, site) := by
  intro turns site succeeded
  exact ⟨armed_start.serve_filter acts, verdict (armed_start.serve acts), fun _ _ => rfl⟩

/-- A registry for one name and a slot with one pending sample: no room for a buffer, no such profile, no thread in a
    plan. The sample is flushed as if nothing had been asked in between. -/
example :
    let s : Sample := ⟨"a", .zero, true, .reading 0⟩
    let plan : Load.Plan := { threads := 0, samples := 1, operations := 1, errorRate := 0.0, capacity := 1 }
    let acts := [.makeRegistry (.number 1), .install 0 0 2, .record 0 s, .record 1 s, .install 0 0 0,
      .call 0 (.profile "a"), .makeRegistry (.settings { bound := 0 }), .load 0 plan ⟨0, 0⟩ fun _ c => (0, 0, c),
      .flush 0, .flush 0, .makeBuffer none (.number 1), .use 0 .flush, .use 0 (.record s), .use 0 (.record s)]
    (serve {} acts).1.map Turn.isFailed
      = [false, false, false, true, true, true, true, true, false, true, false, true, false, true] := by
  decide

end Site

end SampleProfiler
