import SampleProfiler.Buffer

/-!
# `SampleProfiler.Collector` — registries, and what buffers do to them

A collector holds the registries that buffers hand their samples to, and the log of everything that
happened. The operations of a single buffer become operations on the collector here: a delivery reaches the
registry it names, and the events follow in order.

## Contents
- **The collector.** `Collector`, `Collector.add`, `registry?`, `note`.
- **Registries.** `receive` and `clear`, by handle.
- **Buffers.** `deliver`, and the three ways in which a buffer hands samples on: `Buffer.flushInto`,
  `Buffer.recordInto` and `Buffer.dropInto`.
-/

namespace SampleProfiler

/-- The registries by handle, and the log. -/
structure Collector where
  registries : Array Registry := #[]
  log : Log := #[]
deriving Inhabited

namespace Collector

/-- Adds a registry, and gives its handle. -/
def add (c : Collector) (r : Registry) : Handle × Collector :=
  (c.registries.size, { c with registries := c.registries.push r })

/-- The registry of a handle. -/
def registry? (c : Collector) (h : Handle) : Option Registry :=
  c.registries[h]?

/-- Logs an event. -/
def note (c : Collector) (e : Event) : Collector :=
  { c with log := c.log.push e }

/-- Changes one registry and logs what it did. -/
def modify (c : Collector) (h : Handle) (act : Registry → Registry × Log) : Collector :=
  match c.registries[h]? with
  | none => c
  | some r =>
    let (r, log) := act r
    { registries := c.registries.setIfInBounds h r, log := c.log ++ log }

/-- A registry receives a batch. -/
def receive (c : Collector) (h : Handle) (batch : List Sample) : Collector :=
  c.modify h fun r => r.receive batch

/-- A registry is cleared. -/
def clear (c : Collector) (h : Handle) : Collector :=
  c.modify h Registry.clear

/-- The samples of a buffer reach their registry. -/
def deliver (c : Collector) (d : Delivery) : Collector :=
  (c.receive d.sink d.batch).note (.flushed d.batch.length)

/-- A delivery, if there is one, reaches its registry. -/
def deliver? (c : Collector) : Option Delivery → Collector
  | none => c
  | some d => c.deliver d

end Collector

namespace Buffer

/-- Flushes the buffer, and says how many samples it handed on. -/
def flushInto (b : Buffer) (c : Collector) : Nat × Buffer × Collector :=
  let (delivery?, b) := b.flush
  match delivery? with
  | none => (0, b, c)
  | some d => (d.batch.length, b, c.deliver d)

/-- Records a sample, flushing a full buffer first; says whether the sample was accepted. -/
def recordInto (b : Buffer) (s : Sample) (c : Collector) : Bool × Buffer × Collector :=
  let (accepted, delivery?, b) := b.recordFlushing s
  (accepted, b, c.deliver? delivery?)

/-- Drops the buffer. -/
def dropInto (b : Buffer) (c : Collector) : Collector :=
  match b.ending with
  | .nothing => c
  | .delivered d => c.deliver d
  | .discarded samples => c.note (.discarded samples)

/-- Records samples in order, flushing whenever the buffer is full; counts those that were accepted. -/
def recordAllInto (b : Buffer) (c : Collector) (samples : List Sample) : Nat × Buffer × Collector :=
  samples.foldl
    (fun (count, b, c) s =>
      let (accepted, b, c) := b.recordInto s c
      (if accepted then count + 1 else count, b, c))
    (0, b, c)

/-- Records samples in order while there is room; counts those that were accepted. -/
def recordAll (b : Buffer) (samples : List Sample) : Nat × Buffer :=
  samples.foldl
    (fun (count, b) s =>
      let (accepted, b) := b.record s
      (if accepted then count + 1 else count, b))
    (0, b)

end Buffer

end SampleProfiler
