import Mathlib.Data.List.TakeWhile
import SampleProfiler.Timer

/-!
# `SampleProfiler.Proofs.Stopwatch` — a timer records once

Timed code can mark its timer as failed, complete it and look at it in any order, and it can abort; in the end the
timer is dropped. Whatever it does, the buffer and the collector end up as after one sample: that of the first
completion, or of the drop if there was none. A sample that the buffer refuses is not recorded again, neither by a
later completion nor by the drop.

## Contents
- **Reading the steps.** What a step is to its timer, the steps that are `done`, and the `sample` that they lead to.
- **One step.** `Stands`, where a timer stands after some steps, and `Stands.step`.
- **A whole life.** `Stands.steps`, `Stands.drop`, and `run_eq_recordInto`.
-/

namespace SampleProfiler.Timer

/-! ## Reading the steps -/

namespace Act

/-- The time after which a step completes the timer, if it does. -/
def took? : Act → Option Span
  | .complete took => some took
  | _ => none

/-- True for a step that completes the timer. -/
def completes (a : Act) : Bool :=
  a.took?.isSome

/-- True for a step that marks the operation as failed. -/
def marks : Act → Bool
  | .markFailed => true
  | _ => false

/-- Why a step aborts the timed code, if it does. -/
def cause? : Act → Option Abort
  | .abort cause => some cause
  | _ => none

end Act

/-- The steps that are done: those before the first abort. -/
def done (acts : List Act) : List Act :=
  acts.takeWhile fun a => a.cause?.isNone

/-- The sample that steps lead to if the timer is dropped after the time `last`: it takes as long as the first
    completion says, and it succeeded unless the operation was marked as failed before that. -/
def sample (name : String) (acts : List Act) (last : Span) : Sample :=
  Sample.timed name ((acts.findSome? Act.took?).getD last)
    (!(acts.takeWhile fun a => !a.completes).any Act.marks)

variable {name : String} {earlier : List Act}

/-- Before the first completion it is the drop that decides, and every mark counts. -/
theorem sample_of_running (hrunning : earlier.any Act.completes = false) (last : Span) :
    sample name earlier last = Sample.timed name last (!earlier.any Act.marks) := by
  have hall : ∀ a ∈ earlier, a.took? = none := by simpa [Act.completes] using hrunning
  have hnone : earlier.findSome? Act.took? = none := List.findSome?_eq_none_iff.mpr hall
  have hbefore : (earlier.takeWhile fun a => !a.completes) = earlier := by
    rw [List.takeWhile_eq_self_iff]
    intro a ha
    simp [Act.completes, hall a ha]
  rw [sample, hnone, hbefore, Option.getD_none]

/-- The first completion settles the sample. -/
theorem sample_of_completing (hrunning : earlier.any Act.completes = false) (took : Span) (rest : List Act)
    (last : Span) :
    sample name (earlier ++ .complete took :: rest) last = Sample.timed name took (!earlier.any Act.marks) := by
  have hall : ∀ a ∈ earlier, a.took? = none := by simpa [Act.completes] using hrunning
  have hfirst : (earlier ++ .complete took :: rest).findSome? Act.took? = some took := by
    rw [List.findSome?_append, List.findSome?_eq_none_iff.mpr hall]
    rfl
  have hbefore : ((earlier ++ .complete took :: rest).takeWhile fun a => !a.completes) = earlier := by
    rw [List.takeWhile_append_of_pos fun a ha => by simp [Act.completes, hall a ha]]
    exact List.append_nil earlier
  rw [sample, hfirst, hbefore, Option.getD_some]

/-- From the first completion on, nothing changes the sample. -/
theorem sample_of_completed (hcompleted : earlier.any Act.completes = true) (rest : List Act) (first last : Span) :
    sample name (earlier ++ rest) last = sample name earlier first := by
  obtain ⟨a, ha, hcompletes⟩ := List.any_eq_true.mp hcompleted
  have hfirst : (earlier.findSome? Act.took?).isSome = true := List.findSome?_isSome_iff.mpr ⟨a, ha, hcompletes⟩
  obtain ⟨took, htook⟩ := Option.isSome_iff_exists.mp hfirst
  have hbefore : ((earlier ++ rest).takeWhile fun a => !a.completes) = earlier.takeWhile fun a => !a.completes := by
    rw [List.takeWhile_append, if_neg]
    intro hlength
    have hself := (List.takeWhile_prefix fun a : Act => !a.completes).eq_of_length hlength
    have hnot := List.takeWhile_eq_self_iff.mp hself a ha
    rw [hcompletes] at hnot
    exact absurd hnot Bool.false_ne_true
  rw [sample, sample, hbefore, List.findSome?_append, htook]
  rfl

/-! ## One step -/

/-- The answer to a step that does not abort, given the steps before it and whether the sample is accepted. -/
def reply (accepted : Bool) (earlier : List Act) : Act → Answer
  | .complete _ => .truth (accepted && !earlier.any Act.completes)
  | .isCompleted => .truth (earlier.any Act.completes)
  | .elapsed took => .reading took
  | _ => .none

/-- Where a timer stands after some steps. Before the first completion nothing but marks has happened; from then on
    the sample has been recorded, and all else is as it was. -/
structure Stands (name : String) (b : Buffer) (c : Collector) (earlier : List Act) (w : Stopwatch) : Prop where
  named : w.timer.name = name
  completed : w.timer.completed = earlier.any Act.completes
  running : earlier.any Act.completes = false →
    w.timer.succeeded = !earlier.any Act.marks ∧ w.buffer = b ∧ w.collector = c
  recorded : earlier.any Act.completes = true →
    ∀ last, (w.buffer, w.collector) = (b.recordInto (sample name earlier last) c).2

variable {b : Buffer} {c : Collector} {w : Stopwatch}

theorem stands_start (name : String) (b : Buffer) (c : Collector) : Stands name b c [] ⟨{ name := name }, b, c⟩ where
  named := rfl
  completed := rfl
  running := fun _ => ⟨rfl, rfl, rfl⟩
  recorded := fun h => absurd h Bool.false_ne_true

/-- A running timer records its sample. -/
theorem complete_of_running (hrunning : ¬ w.timer.completed = true) (took : Span) :
    Timer.complete took w
      = ((w.buffer.recordInto (Sample.timed w.timer.name took w.timer.succeeded) w.collector).1,
          ⟨{ w.timer with completed := true },
            (w.buffer.recordInto (Sample.timed w.timer.name took w.timer.succeeded) w.collector).2.1,
            (w.buffer.recordInto (Sample.timed w.timer.name took w.timer.succeeded) w.collector).2.2⟩) :=
  if_neg hrunning

/-- A step that neither marks nor completes is not seen. -/
theorem Stands.idle (h : Stands name b c earlier w) {a : Act} (hcompletes : a.completes = false)
    (hmarks : a.marks = false) : Stands name b c (earlier ++ [a]) w where
  named := h.named
  completed := by simp [h.completed, hcompletes]
  running := by
    intro hrunning
    have hbefore : earlier.any Act.completes = false := by simpa [hcompletes] using hrunning
    simpa [hmarks] using h.running hbefore
  recorded := by
    intro hcompleted last
    have hbefore : earlier.any Act.completes = true := by simpa [hcompletes] using hcompleted
    rw [sample_of_completed hbefore [a] last last]
    exact h.recorded hbefore last

/-- A mark counts until the sample has been recorded. -/
theorem Stands.mark (h : Stands name b c earlier w) :
    Stands name b c (earlier ++ [.markFailed]) { w with timer := { w.timer with succeeded := false } } where
  named := h.named
  completed := by simp [h.completed, Act.completes, Act.took?]
  running := by
    intro hrunning
    have hbefore : earlier.any Act.completes = false := by simpa [Act.completes, Act.took?] using hrunning
    simpa [Act.marks] using (h.running hbefore).2
  recorded := by
    intro hcompleted last
    have hbefore : earlier.any Act.completes = true := by simpa [Act.completes, Act.took?] using hcompleted
    rw [sample_of_completed hbefore _ last last]
    exact h.recorded hbefore last

/-- The first completion records, and every later one does nothing. -/
theorem Stands.complete (h : Stands name b c earlier w) (took : Span) (rest : List Act) (last : Span) :
    (Timer.complete took w).1
      = ((b.recordInto (sample name (earlier ++ .complete took :: rest) last) c).1 && !earlier.any Act.completes) ∧
    Stands name b c (earlier ++ [.complete took]) (Timer.complete took w).2 := by
  have hdone : (earlier ++ [Act.complete took]).any Act.completes = true := by simp [Act.completes, Act.took?]
  cases hbefore : earlier.any Act.completes with
  | true =>
      have hcompleted : w.timer.completed = true := h.completed.trans hbefore
      have hnothing : Timer.complete took w = (false, w) := if_pos hcompleted
      rw [hnothing]
      refine ⟨by simp, h.named, hcompleted.trans hdone.symm, fun hno => ?_, fun _ last => ?_⟩
      · rw [hdone] at hno
        cases hno
      · rw [sample_of_completed hbefore _ last last]
        exact h.recorded hbefore last
  | false =>
      have hrunning : ¬ w.timer.completed = true := by simp [h.completed, hbefore]
      obtain ⟨hsucceeded, hbuffer, hcollector⟩ := h.running hbefore
      have hsample : ∀ rest last, Sample.timed w.timer.name took w.timer.succeeded
          = sample name (earlier ++ .complete took :: rest) last := by
        intro rest last
        rw [sample_of_completing hbefore, h.named, hsucceeded]
      rw [complete_of_running hrunning, hbuffer, hcollector]
      refine ⟨?_, h.named, hdone.symm, fun hno => ?_, fun _ last => ?_⟩
      · rw [hsample rest last, Bool.not_false, Bool.and_true]
      · rw [hdone] at hno
        cases hno
      · rw [← hsample [] last]

/-- **One step** that does not abort is answered as the steps before it say. -/
theorem Stands.step (h : Stands name b c earlier w) {a : Act} (ha : a.cause? = none) (rest : List Act)
    (last : Span) :
    (Timer.step w a).1 = .ok (reply (b.recordInto (sample name (earlier ++ a :: rest) last) c).1 earlier a) ∧
    Stands name b c (earlier ++ [a]) (Timer.step w a).2 := by
  cases a with
  | markFailed => exact ⟨rfl, h.mark⟩
  | complete took =>
      obtain ⟨haccepted, hstands⟩ := h.complete took rest last
      exact ⟨congrArg (fun accepted => Except.ok (Answer.truth accepted)) haccepted, hstands⟩
  | isCompleted => exact ⟨congrArg (fun done => Except.ok (Answer.truth done)) h.completed, h.idle rfl rfl⟩
  | elapsed took => exact ⟨rfl, h.idle rfl rfl⟩
  | abort cause => cases ha

/-! ## A whole life -/

/-- **The steps of a timer**, up to the first abort. -/
theorem Stands.steps (h : Stands name b c earlier w) (acts : List Act) (last : Span) :
    (Timer.steps w acts).1 = ((done acts).mapIdx fun i =>
      reply (b.recordInto (sample name (earlier ++ done acts) last) c).1 (earlier ++ (done acts).take i)) ∧
    (Timer.steps w acts).2.1 = acts.findSome? Act.cause? ∧
    Stands name b c (earlier ++ done acts) (Timer.steps w acts).2.2 := by
  induction acts generalizing earlier w with
  | nil =>
      rw [show done [] = [] from rfl, List.append_nil]
      exact ⟨rfl, rfl, h⟩
  | cons a rest ih =>
      cases hcause : a.cause? with
      | some cause =>
          have habort : a = .abort cause := by
            cases a with
            | abort => exact congrArg Act.abort (Option.some.inj hcause)
            | _ => cases hcause
          rw [habort, show done (.abort cause :: rest) = [] from rfl, List.append_nil]
          exact ⟨rfl, rfl, h⟩
      | none =>
          have hdone : done (a :: rest) = a :: done rest := List.takeWhile_cons_of_pos (by simp [hcause])
          obtain ⟨hanswer, hstands⟩ := h.step hcause (done rest) last
          obtain ⟨hanswers, hends, hafter⟩ := ih hstands
          rw [List.append_assoc] at hanswers hafter
          have hsteps : Timer.steps w (a :: rest)
              = (reply (b.recordInto (sample name (earlier ++ a :: done rest) last) c).1 earlier a
                  :: (Timer.steps (Timer.step w a).2 rest).1, (Timer.steps (Timer.step w a).2 rest).2) := by
            rw [Timer.steps, ← Prod.eta (Timer.step w a), hanswer]
          rw [hsteps, hdone]
          refine ⟨?_, ?_, hafter⟩
          · rw [hanswers, List.mapIdx_cons]
            simp
          · rw [List.findSome?_cons, hcause]
            exact hends

/-- The drop records the sample if nothing has recorded it before. -/
theorem Stands.drop (h : Stands name b c earlier w) (last : Span) :
    ((Timer.complete last w).2.buffer, (Timer.complete last w).2.collector)
      = (b.recordInto (sample name earlier last) c).2 := by
  cases hbefore : earlier.any Act.completes with
  | true =>
      have hnothing : Timer.complete last w = (false, w) := if_pos (h.completed.trans hbefore)
      rw [hnothing]
      exact h.recorded hbefore last
  | false =>
      have hrunning : ¬ w.timer.completed = true := by simp [h.completed, hbefore]
      obtain ⟨hsucceeded, hbuffer, hcollector⟩ := h.running hbefore
      rw [complete_of_running hrunning, hbuffer, hcollector, h.named, hsucceeded, sample_of_running hbefore]

/-- A mark is missing before the first completion exactly if every mark has a completion before it. -/
theorem not_any_marks_iff (acts : List Act) :
    (acts.takeWhile fun a => !a.completes).any Act.marks = false ↔
      ∀ i, acts[i]? = some .markFailed → (acts.take i).any Act.completes = true := by
  induction acts with
  | nil => simp
  | cons a rest ih =>
      cases hcompletes : a.completes with
      | true =>
          have hnone : (a :: rest).takeWhile (fun a => !a.completes) = [] :=
            List.takeWhile_cons_of_neg (by simp [hcompletes])
          rw [hnone]
          refine ⟨fun _ i hi => ?_, fun _ => rfl⟩
          cases i with
          | zero =>
              rw [Option.some.inj hi] at hcompletes
              cases hcompletes
          | succ i => simp [hcompletes]
      | false =>
          have hcons : (a :: rest).takeWhile (fun a => !a.completes) = a :: rest.takeWhile fun a => !a.completes :=
            List.takeWhile_cons_of_pos (by simp [hcompletes])
          rw [hcons, List.any_cons, Bool.or_eq_false_iff, ih]
          constructor
          · rintro ⟨hmarks, hrest⟩ i hi
            cases i with
            | zero =>
                rw [Option.some.inj hi] at hmarks
                cases hmarks
            | succ i => simpa [hcompletes] using hrest i hi
          · intro hall
            refine ⟨?_, fun i hi => by simpa [hcompletes] using hall (i + 1) hi⟩
            cases a with
            | markFailed => exact absurd (hall 0 rfl) Bool.false_ne_true
            | _ => rfl

/-- **A timer records once.** Whatever is done with a timer before it is dropped, and also if that ends in an abort,
    its buffer and the collector end up as after one sample of its name was recorded, with a flush if the buffer was
    full. The sample succeeded if no mark came before the first completion, or before the end if there was none. The
    first completion says whether the sample was accepted, every later one is answered by false, and the timer
    counts as completed from the first one on.

    Measured code leaves one sample too, if it returns: one that succeeded, or that succeeded as its outcome did. If it
    aborts, it leaves everything as it was. -/
theorem run_eq_recordInto (name : String) (acts : List Act) (last : Span) (b : Buffer) (c : Collector) :
    let done := done acts
    let s := sample name done last
    let ran := run name acts last b c
    ran.2.2 = (b.recordInto s c).2 ∧
    s.name = name ∧
    (s.succeeded = true ↔ ∀ i, done[i]? = some .markFailed → (done.take i).any Act.completes = true) ∧
    ran.2.1 = acts.findSome? Act.cause? ∧
    ran.1.length = done.length ∧
    (∀ i took, done[i]? = some (Act.complete took) → ran.1[i]? = some
      (Answer.truth (if (done.take i).any Act.completes then false else (b.recordInto s c).1))) ∧
    (∀ i, done[i]? = some Act.isCompleted →
      ran.1[i]? = some (Answer.truth ((done.take i).any Act.completes))) ∧
    (∀ (α : Type) (took : Span) (succeeded : α → Bool) (value : α),
      b.measure name took succeeded (.returns value) c
        = (.ok value, (b.recordInto (.timed name took (succeeded value)) c).2)) ∧
    (∀ (α : Type) (took : Span) (succeeded : α → Bool) (cause : Abort),
      b.measure name took succeeded (.aborts cause) c = (.error cause, b, c)) ∧
    (∀ (α : Type) (took : Span) (value : α),
      b.measureValue name took (.returns value) c = (.ok value, (b.recordInto (.timed name took true) c).2)) ∧
    (∀ (α : Type) (took : Span) (cause : Abort),
      b.measureValue name took (.aborts cause : Body α) c = (.error cause, b, c)) ∧
    (∀ (ε α : Type) (took : Span) (outcome : Except ε α),
      b.measureOutcome name took (.returns outcome) c
        = (.ok outcome, (b.recordInto (.timed name took outcome.toBool) c).2)) ∧
    (∀ (ε α : Type) (took : Span) (cause : Abort),
      b.measureOutcome name took (.aborts cause : Body (Except ε α)) c = (.error cause, b, c)) := by
  intro done s ran
  obtain ⟨hanswers, hcause, hstands⟩ := (stands_start name b c).steps acts last
  have hlength : ran.1.length = done.length := (congrArg List.length hanswers).trans List.length_mapIdx
  have hanswer : ∀ i, ran.1[i]? = done[i]?.map (reply (b.recordInto s c).1 (done.take i)) := fun i =>
    (congrArg (fun answers => answers[i]?) hanswers).trans List.getElem?_mapIdx
  have hsucceeded : s.succeeded = true ↔ ∀ i, done[i]? = some .markFailed → (done.take i).any Act.completes = true := by
    rw [← not_any_marks_iff]
    exact iff_of_eq (Bool.not_eq_true' _)
  refine ⟨hstands.drop last, rfl, hsucceeded, hcause, hlength, ?_, ?_, ?_, ?_, ?_, ?_, ?_, ?_⟩
  · intro i took hi
    rw [hanswer i, hi, Option.map_some, reply]
    cases (done.take i).any Act.completes <;> simp
  · intro i hi
    rw [hanswer i, hi]
    rfl
  · exact fun α took succeeded value => b.measure_returns name took succeeded value c
  · exact fun α took succeeded cause => b.measure_aborts name took succeeded cause c
  · exact fun α took value => b.measure_returns name took _ value c
  · exact fun α took cause => b.measure_aborts name took _ cause c
  · exact fun ε α took outcome => b.measure_returns name took _ outcome c
  · exact fun ε α took cause => b.measure_aborts name took _ cause c

/-- A full buffer without a registry refuses the sample of the first completion. The second completion does not try
    again, a mark after the first changes nothing, and the drop after the abort leaves one refusal to count. -/
theorem run_eq_recordInto_refused :
    let b : Buffer := { Buffer.of 1 none with slots := #[⟨"a", .zero, true, .reading 0⟩], records := 1 }
    let acts : List Act := [.isCompleted, .complete ⟨0, 5⟩, .markFailed, .complete ⟨0, 9⟩, .isCompleted,
      .abort .countOverflow, .markFailed]
    let ran := run "b" acts ⟨1, 0⟩ b {}
    (sample "b" (done acts) ⟨1, 0⟩).succeeded = true ∧ ran.2.1 = some .countOverflow ∧
      ran.1[1]? = some (.truth false) ∧ ran.1[3]? = some (.truth false) ∧ ran.1[4]? = some (.truth true) ∧
      ran.2.2.1 = { b with forced := 1 } := by
  intro b acts ran
  obtain ⟨hstate, _, hsucceeded, hcause, _, hcompletes, hcompleted, _⟩ := run_eq_recordInto "b" acts ⟨1, 0⟩ b {}
  refine ⟨hsucceeded.mpr ?_, hcause, hcompletes 1 ⟨0, 5⟩ rfl, hcompletes 3 ⟨0, 9⟩ rfl, hcompleted 4 rfl,
    congrArg Prod.fst hstate⟩
  -- the only mark that is done stands after the first completion
  intro i hi
  match i, hi with
  | 0, hi | 1, hi | 3, hi | 4, hi => cases hi
  | 2, _ => rfl
  | i + 5, hi => cases hi

end SampleProfiler.Timer
