import SampleProfiler.Event
import SampleProfiler.Registry
import SampleProfiler.Settings

/-!
# `SampleProfiler.Buffer` — samples on their way to a registry

A buffer belongs to one producer. It holds up to `capacity` samples and hands them to its sink, a registry,
as one batch. The operations here are local to the buffer: where samples leave it, they give back a
`Delivery`, which the `Collector` carries out.

Counters are natural numbers here. A call adds one to each of them at most, so 64-bit counters show the same as long
as a buffer sees fewer than `2^64` calls.

## Contents
- **Buffers.** `Buffer`, `Buffer.of` and the checked constructor `Buffer.make`.
- **Recording and flushing.** `record`, `flush`, `recordFlushing`, and `ending`, what becomes of the samples of
  a buffer that is dropped.
- **Sinks.** `attach` and `detach`; neither touches the samples.
- **Gauges.** `Gauge`, the numbers of a buffer, with `Gauge.utilization`.
-/

namespace SampleProfiler

/-! ## Buffers -/

/-- Names a registry of a collector. -/
abbrev Handle := Nat

/-- Samples that leave a buffer together, and the registry they go to. -/
structure Delivery where
  sink : Handle
  batch : List Sample
deriving DecidableEq

/-- A bounded sequence of samples with a single owner. The counters say how many samples it accepted, how
    often it handed a batch on, and how often it was full when a sample came that could flush it. -/
structure Buffer where
  capacity : Nat
  slots : Array Sample
  sink : Option Handle
  records : Nat
  flushes : Nat
  forced : Nat
deriving DecidableEq, Inhabited

namespace Buffer

/-- An empty buffer. -/
def of (capacity : Nat) (sink : Option Handle) : Buffer :=
  { capacity := capacity, slots := #[], sink := sink, records := 0, flushes := 0, forced := 0 }

/-- The bytes that one slot takes up. -/
def slotBytes : Nat := 56

/-- The greatest number of bytes that storage may have. -/
def storageLimit : Nat := 9223372036854775807

/-- An empty buffer with room for at least one sample, whose storage is reserved up front. -/
def make (capacity : Nat) (sink : Option Handle) : Except Abort Buffer :=
  if capacity = 0 then .error .emptyCapacity
  else if storageLimit < capacity * slotBytes then .error .storageOverflow
  else .ok (of capacity sink)

/-- The number of samples in the buffer. -/
def size (b : Buffer) : Nat :=
  b.slots.size

/-- True if the buffer holds nothing. -/
def isEmpty (b : Buffer) : Bool :=
  b.size == 0

/-- True if there is no room for another sample. -/
def isFull (b : Buffer) : Bool :=
  b.capacity ≤ b.size

/-! ## Recording and flushing -/

/-- Records a sample if there is room for it, and says whether there was. -/
def record (b : Buffer) (s : Sample) : Bool × Buffer :=
  if b.isFull then (false, b)
  else (true, { b with slots := b.slots.push s, records := b.records + 1 })

/-- Hands all samples to the sink as one batch. Without a sink, or without samples, nothing happens. -/
def flush (b : Buffer) : Option Delivery × Buffer :=
  match b.sink with
  | none => (none, b)
  | some sink =>
    if b.isEmpty then (none, b)
    else (some ⟨sink, b.slots.toList⟩, { b with slots := #[], flushes := b.flushes + 1 })

/-- Records a sample after flushing a full buffer once. This fails only if the buffer is full and has no
    sink. -/
def recordFlushing (b : Buffer) (s : Sample) : Bool × Option Delivery × Buffer :=
  if b.isFull then
    let (delivery, b) := b.flush
    let (accepted, b) := { b with forced := b.forced + 1 }.record s
    (accepted, delivery, b)
  else
    let (accepted, b) := b.record s
    (accepted, none, b)

/-- What becomes of the samples of a buffer that is dropped. -/
inductive Ending where
  | nothing
  | delivered (delivery : Delivery)
  | discarded (samples : Nat)
deriving DecidableEq

/-- A dropped buffer hands its samples to its sink, or discards them if it has none. -/
def ending (b : Buffer) : Ending :=
  if b.isEmpty then .nothing
  else
    match b.flush.1 with
    | some delivery => .delivered delivery
    | none => .discarded b.size

/-! ## Sinks -/

/-- Turns the buffer to another registry. -/
def attach (b : Buffer) (sink : Handle) : Buffer :=
  { b with sink := some sink }

/-- Takes the buffer off its registry, and says which one that was. -/
def detach (b : Buffer) : Option Handle × Buffer :=
  (b.sink, { b with sink := none })

end Buffer

/-! ## Gauges -/

/-- The numbers of a buffer. -/
structure Gauge where
  records : Nat
  flushes : Nat
  forced : Nat
  size : Nat
  capacity : Nat
deriving DecidableEq, Inhabited

namespace Gauge

/-- How full the buffer is, as a fraction of its capacity. -/
def utilization (g : Gauge) : Float :=
  Ratio.quotient g.size g.capacity

/-- The numbers shown by their fields. -/
def described (g : Gauge) : String :=
  Text.labelled "BufferStats"
    [("total_records", toString g.records), ("total_flushes", toString g.flushes),
      ("auto_flushes", toString g.forced), ("current_size", toString g.size),
      ("capacity", toString g.capacity)]

end Gauge

namespace Buffer

/-- The numbers of a buffer. -/
def gauge (b : Buffer) : Gauge :=
  ⟨b.records, b.flushes, b.forced, b.size, b.capacity⟩

/-- A buffer shown by its numbers and whether it has a sink. -/
def described (b : Buffer) : String :=
  Text.labelled "SampleBuffer"
    [("stats", b.gauge.described), ("has_aggregator", if b.sink.isSome then "true" else "false")]

end Buffer

end SampleProfiler
