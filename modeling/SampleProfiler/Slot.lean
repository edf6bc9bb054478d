import SampleProfiler.Collector

/-!
# `SampleProfiler.Slot` — one buffer per thread

Call sites that cannot carry a buffer around record into the slot of their thread, which holds at most one
buffer. Installing a new buffer drops the one before it, and so does the end of the thread; either way the
pending samples reach the registry they were recorded for.

## Contents
- **`Slot`**, `isInstalled` and `pending`.
- **`install`**, `uninstall`, `record`, `flush`, and `leave`, the end of the thread.
-/

namespace SampleProfiler

/-- The buffer of a thread, if one is installed. -/
abbrev Slot := Option Buffer

namespace Slot

/-- True if a buffer is installed. -/
def isInstalled (s : Slot) : Bool :=
  s.isSome

/-- The number of samples that were recorded and not handed on yet. -/
def pending (s : Slot) : Nat :=
  match s with
  | none => 0
  | some b => b.size

/-- The thread ends: its buffer is dropped. -/
def leave (s : Slot) (c : Collector) : Collector :=
  match s with
  | none => c
  | some b => b.dropInto c

/-- Installs a new buffer for a registry. If it cannot be made, the slot stays as it was; otherwise the
    buffer before it is dropped. -/
def install (s : Slot) (sink : Handle) (capacity : Nat) (c : Collector) : Except Abort (Slot × Collector) :=
  (Buffer.make capacity (some sink)).map fun b => (some b, s.leave c)

/-- Flushes the buffer and removes it; says how many samples were handed on. -/
def uninstall (s : Slot) (c : Collector) : Nat × Slot × Collector :=
  match s with
  | none => (0, none, c)
  | some b =>
    let (count, b, c) := b.flushInto c
    (count, none, b.dropInto c)

/-- Records into the buffer of this thread; false if there is none. -/
def record (s : Slot) (sample : Sample) (c : Collector) : Bool × Slot × Collector :=
  match s with
  | none => (false, none, c)
  | some b =>
    let (accepted, b, c) := b.recordInto sample c
    (accepted, some b, c)

/-- Records samples in order; counts those that were accepted. -/
def recordAll (s : Slot) (c : Collector) (samples : List Sample) : Nat × Slot × Collector :=
  match s with
  | none => (0, none, c)
  | some b =>
    let (count, b, c) := b.recordAllInto c samples
    (count, some b, c)

/-- Flushes the buffer of this thread; says how many samples were handed on. -/
def flush (s : Slot) (c : Collector) : Nat × Slot × Collector :=
  match s with
  | none => (0, none, c)
  | some b =>
    let (count, b, c) := b.flushInto c
    (count, some b, c)

end Slot

end SampleProfiler
