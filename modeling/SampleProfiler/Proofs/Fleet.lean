import SampleProfiler.Collector
import SampleProfiler.Proofs.History

/-!
# `SampleProfiler.Proofs.Fleet` — many buffers at work

Any number of buffers share the registries of one collector. Their owners record, flush, turn a buffer to
another registry and drop it in any order; new buffers are made in between, and others call the registries
directly. This module runs such a history and keeps a record of it, one `Turn` for each act: the sink that the
buffer had at that moment, the sample that it accepted, and the batch that left it.

## Contents
- **One buffer.** `Deed`, `Effect`, and `Buffer.does`.
- **Many buffers.** `Fleet`, `Fleet.Act`, `Fleet.step`, and `Fleet.run` with its `Turn`s.
- **Reading the record.** `accepted` and `handed` by buffer, `calls` by registry.
- **Registries.** What each operation of a collector does to the registry under a handle.
-/

namespace SampleProfiler

/-! ## One buffer -/

/-- What the owner of a buffer does with it. -/
inductive Deed where
  | record (s : Sample)
  | recordFlushing (s : Sample)
  | flush
  | attach (sink : Handle)
  | detach
  | drop

/-- What came of a deed: the sample that the buffer said it accepted, and the batch that left it. -/
structure Effect where
  accepted : Option Sample := none
  handed : Option Delivery := none

/-- Does a deed. A dropped buffer keeps the samples that it could not hand on. -/
def Buffer.does (b : Buffer) (c : Collector) : Deed → Effect × Buffer × Collector
  | .record s =>
    let (accepted, after) := b.record s
    ({ accepted := if accepted then some s else none }, after, c)
  | .recordFlushing s =>
    let (accepted, after, c) := b.recordInto s c
    ({ accepted := if accepted then some s else none, handed := (b.recordFlushing s).2.1 }, after, c)
  | .flush =>
    let (_, after, c) := b.flushInto c
    ({ handed := b.flush.1 }, after, c)
  | .attach sink => ({}, b.attach sink, c)
  | .detach => ({}, b.detach.2, c)
  | .drop => ({ handed := b.flush.1 }, b.flush.2, b.dropInto c)

/-! ## Many buffers -/

/-- A buffer, and whether its owner dropped it. -/
structure Berth where
  buffer : Buffer
  dropped : Bool := false

/-- Buffers in the order in which they were made, with the collector that they share. -/
structure Fleet where
  collector : Collector
  berths : List Berth

namespace Fleet

/-- What happens in a run. -/
inductive Act where
  /-- A buffer is made, attached to a registry or not. -/
  | make (capacity : Nat) (sink : Option Handle)
  /-- The owner of the `i`-th buffer does something with it. -/
  | use (i : Nat) (deed : Deed)
  /-- Somebody calls a registry directly. -/
  | call (h : Handle) (call : Registry.Call)

/-- An act, the sink that the buffer had when it began, and what came of it. -/
structure Turn where
  act : Act
  sink : Option Handle := none
  effect : Effect := {}

/-- True for the deed that ends a buffer. -/
def ends : Deed → Bool
  | .drop => true
  | _ => false

/-- Carries out an act. A dropped buffer, or one that was never made, does nothing any more. -/
def step (f : Fleet) (act : Act) : Turn × Fleet :=
  match act with
  | .make capacity sink =>
    match Buffer.make capacity sink with
    | .error _ => ({ act := act }, f)
    | .ok b => ({ act := act }, { f with berths := f.berths ++ [{ buffer := b }] })
  | .use i deed =>
    match f.berths[i]? with
    | some ⟨b, false⟩ =>
      let (effect, after, c) := b.does f.collector deed
      ({ act := act, sink := b.sink, effect := effect },
        { collector := c, berths := f.berths.set i { buffer := after, dropped := ends deed } })
    | _ => ({ act := act }, f)
  | .call h call => ({ act := act }, { f with collector := f.collector.modify h fun r => (r.perform call).2 })

/-- Carries out acts in order, with a record of them, on registries that are there already. -/
def run (c : Collector) (acts : List Act) : List Turn × Fleet :=
  acts.foldl
    (fun (turns, f) act =>
      let (turn, f) := f.step act
      (turns ++ [turn], f))
    ([], { collector := c, berths := [] })

theorem run_concat (c : Collector) (acts : List Act) (act : Act) :
    run c (acts ++ [act]) = ((run c acts).1 ++ [((run c acts).2.step act).1], ((run c acts).2.step act).2) :=
  List.foldl_append

/-! ## Reading the record -/

/-- What came of a turn of the `i`-th buffer; nothing, if it was the turn of another one. -/
def Turn.effectOn (i : Nat) (t : Turn) : Effect :=
  match t.act with
  | .use j _ => if j = i then t.effect else {}
  | _ => {}

theorem effectOn_self (i : Nat) (deed : Deed) (sink : Option Handle) (effect : Effect) :
    ({ act := .use i deed, sink := sink, effect := effect } : Turn).effectOn i = effect := by
  simp [Turn.effectOn]

theorem effectOn_of_ne {i j : Nat} (h : i ≠ j) (deed : Deed) (sink : Option Handle) (effect : Effect) :
    ({ act := .use i deed, sink := sink, effect := effect } : Turn).effectOn j = {} := by
  simp [Turn.effectOn, h]

/-- The samples that the `i`-th buffer accepted. -/
def accepted (i : Nat) (turns : List Turn) : List Sample :=
  turns.flatMap fun t => (t.effectOn i).accepted.toList

/-- The batches that left the `i`-th buffer. -/
def handed (i : Nat) (turns : List Turn) : List Delivery :=
  turns.flatMap fun t => (t.effectOn i).handed.toList

/-- A delivery as a call on the registry `h`; none, if it goes to another one. -/
def callOf (h : Handle) : Option Delivery → List Registry.Call
  | some d => if d.sink = h then [.receive d.batch] else []
  | none => []

/-- The calls of a turn on the registry `h`. -/
def Turn.calls (h : Handle) (t : Turn) : List Registry.Call :=
  match t.act with
  | .call k call => if k = h then [call] else []
  | _ => callOf h t.effect.handed

/-- All calls on the registry `h`, those that the buffers made included. -/
def calls (h : Handle) (turns : List Turn) : List Registry.Call :=
  turns.flatMap (Turn.calls h)

theorem accepted_concat (i : Nat) (turns : List Turn) (t : Turn) :
    accepted i (turns ++ [t]) = accepted i turns ++ (t.effectOn i).accepted.toList := by
  rw [accepted, List.flatMap_append, List.flatMap_singleton, accepted]

theorem handed_concat (i : Nat) (turns : List Turn) (t : Turn) :
    handed i (turns ++ [t]) = handed i turns ++ (t.effectOn i).handed.toList := by
  rw [handed, List.flatMap_append, List.flatMap_singleton, handed]

theorem calls_concat (h : Handle) (turns : List Turn) (t : Turn) :
    calls h (turns ++ [t]) = calls h turns ++ t.calls h := by
  rw [calls, List.flatMap_append, List.flatMap_singleton, calls]

end Fleet

/-! ## Registries -/

namespace Collector

theorem registry?_modify (c : Collector) (h k : Handle) (act : Registry → Registry × Log) :
    registry? (c.modify h act) k
      = if h = k then (c.registry? k).map fun r => (act r).1 else c.registry? k := by
  unfold modify registry?
  cases hr : c.registries[h]? with
  | none =>
      by_cases hk : h = k
      · subst hk
        rw [if_pos rfl, hr, Option.map_none]
      · rw [if_neg hk]
  | some r =>
      dsimp only
      rw [Array.getElem?_setIfInBounds]
      by_cases hk : h = k
      · subst hk
        rw [if_pos rfl, if_pos rfl, hr, Option.map_some]
        have hlt : h < c.registries.size := (Array.getElem?_eq_some_iff.mp hr).1
        rw [if_pos hlt]
      · rw [if_neg hk, if_neg hk]

@[simp] theorem registry?_note (c : Collector) (e : Event) (k : Handle) : registry? (c.note e) k = c.registry? k :=
  rfl

/-- A direct call reaches the registry that it names. -/
theorem registry?_call (c : Collector) (h k : Handle) (call : Registry.Call) :
    registry? (c.modify h fun r => (r.perform call).2) k
      = (c.registry? k).map fun r => r.after (if h = k then [call] else []) := by
  rw [registry?_modify]
  by_cases hk : h = k
  · rw [if_pos hk, if_pos hk]
    rfl
  · rw [if_neg hk, if_neg hk, Registry.map_after_nil]

theorem registry?_deliver? (c : Collector) (d : Option Delivery) (k : Handle) :
    registry? (c.deliver? d) k = (c.registry? k).map fun r => r.after (Fleet.callOf k d) := by
  cases d with
  | none => exact (Registry.map_after_nil _).symm
  | some d =>
      rw [deliver?, deliver, registry?_note, receive, registry?_modify, Fleet.callOf]
      by_cases hk : d.sink = k
      · rw [if_pos hk, if_pos hk]
        rfl
      · rw [if_neg hk, if_neg hk, Registry.map_after_nil]

end Collector

namespace Buffer

/-- A flush through the collector is the delivery of the batch that left the buffer. -/
theorem flushInto_eq (b : Buffer) (c : Collector) : (b.flushInto c).2 = (b.flush.2, c.deliver? b.flush.1) := by
  unfold flushInto
  obtain ⟨delivery, after⟩ := b.flush
  cases delivery <;> rfl

/-- The registries see a dropped buffer as one that was flushed. -/
theorem registry?_dropInto (b : Buffer) (c : Collector) (k : Handle) :
    Collector.registry? (b.dropInto c) k = Collector.registry? (c.deliver? b.flush.1) k := by
  unfold dropInto ending
  by_cases hempty : b.isEmpty = true
  · have hnone : b.flush.1 = none := by
      unfold flush
      cases b.sink with
      | none => rfl
      | some h => simp [hempty]
    rw [if_pos hempty, hnone]
    rfl
  · rw [if_neg hempty]
    cases hflush : b.flush.1 with
    | none => rfl
    | some d => rfl

/-- Whatever is done with a buffer, the registries see the batch that left it and nothing else. -/
theorem registry?_does (b : Buffer) (c : Collector) (deed : Deed) (k : Handle) :
    Collector.registry? (b.does c deed).2.2 k
      = (c.registry? k).map fun r => r.after (Fleet.callOf k (b.does c deed).1.handed) := by
  rw [← Collector.registry?_deliver?]
  cases deed with
  | record s => rfl
  | recordFlushing s => rfl
  | flush =>
      have hflush := flushInto_eq b c
      rw [does]
      exact congrArg (fun result : Buffer × Collector => Collector.registry? result.2 k) hflush
  | attach sink => rfl
  | detach => rfl
  | drop => exact registry?_dropInto b c k

end Buffer

end SampleProfiler
