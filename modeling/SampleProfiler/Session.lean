import SampleProfiler.Slot
import SampleProfiler.Timer

/-!
# `SampleProfiler.Session` — scripts over named registries and buffers

A session holds registries and buffers under names and one slot per thread, and carries out a script of
commands. Each command has a reply; a command that fails says why and the session goes on. A thread runs a
script of its own with a slot of its own, on the same registries and buffers.

## Contents
- **Commands.** `Fill` (generated samples), `Action`, and `Command`, which adds nested threads.
- **Replies.** `Reply`, and `Step`, a reply with what was logged meanwhile.
- **The session.** `Session`, with look-ups and updates by name.
- **Running.** `Session.act`, `Session.run`, and `Session.finish`, which ends the slot and all buffers.
-/

namespace SampleProfiler

/-! ## Commands -/

/-- Generated samples: the `k`-th is named by `stem` and `k` modulo `cycle`, takes `base + increment * k`
    nanoseconds, and fails if `k` is a multiple of `errorEvery`, unless that is zero. -/
structure Fill where
  stem : String
  count : Nat
  cycle : Nat
  base : Int
  increment : Int
  errorEvery : Nat
deriving Inhabited

/-- The generated samples in order. -/
def Fill.samples (f : Fill) : List Sample :=
  (List.range f.count).map fun k =>
    { name := f.stem ++ toString (k % f.cycle)
      duration := .clamp (f.base + f.increment * k)
      succeeded := f.errorEvery == 0 || k % f.errorEvery != 0 }

/-- How large something new is: as a number says, as settings say, or by default. -/
inductive Measure where
  | default
  | number (n : Nat)
  | settings (s : Settings)
deriving Inhabited

/-- One of the threads that record at the same time: the capacity of its buffer and its samples. -/
structure Worker where
  capacity : Nat
  fill : Fill
deriving Inhabited

/-- A command that runs on the thread at hand. Measured code returns values of type `α`. -/
inductive Action (α : Type) where
  | makeRegistry (registry : String) (bound : Measure)
  | dropRegistry (registry : String)
  | batch (registry : String) (samples : List Sample)
  | profile (registry name : String)
  | listing (registry : String)
  | names (registry : String)
  | contains (registry name : String)
  | clear (registry : String)
  | inspectRegistry (registry : String)
  | makeBuffer (buffer : String) (sink : Option String) (capacity : Measure)
  | dropBuffer (buffer : String)
  | attach (buffer registry : String)
  | detach (buffer : String) (into : Option String)
  | record (buffer : String) (sample : Sample)
  | recordFlushing (buffer : String) (sample : Sample)
  | fill (buffer : String) (fill : Fill)
  | fillFlushing (buffer : String) (fill : Fill)
  | flush (buffer : String)
  | inspectBuffer (buffer : String)
  | timer (buffer name : String) (acts : List Timer.Act) (last : Span)
  | measure (buffer name : String) (took : Span) (body : Body α)
  | measureOutcome (buffer name : String) (took : Span) (body : Body (Except α α))
  | install (registry : String) (capacity : Nat)
  | uninstall
  | slotRecord (sample : Sample)
  | slotFill (fill : Fill)
  | slotFlush
  | inspectSlot
  | parallel (registry : String) (workers : List Worker)
deriving Inhabited

/-- An action, or a thread with a script of its own. -/
inductive Command (α : Type) where
  | act (action : Action α)
  | thread (script : List (Command α))
deriving Inhabited

/-! ## Replies -/

/-- What a command answers. -/
inductive Reply (α : Type) where
  | failed (fault : Fault)
  | aborted (cause : Abort)
  /-- No registry or buffer has this name. -/
  | absent (name : String)
  | number (n : Nat)
  | truth (value : Bool)
  | totals (t : Totals)
  /-- A profile, and whether its durations were read off a clock. -/
  | profile (p : Profile) (clocked : Bool)
  | listing (entries : List (String × Profile × Bool))
  | names (names : List String)
  | registry (r : Registry)
  | buffer (b : Buffer)
  | answers (answers : List Timer.Answer) (cause : Option Abort)
  | value (v : α)
  | outcome (v : Except α α)
  /-- A reply of the thread's slot, with the samples that are pending in it afterwards. -/
  | slot (answer : Reply α) (pending : Nat)
  | uninstalled (flushed : Nat) (installed : Bool) (pending : Nat)
  /-- A reply of a buffer, with the numbers of the buffer afterwards. -/
  | gauged (answer : Reply α) (gauge : Gauge)
  | workers (results : List (Nat × Nat)) (t : Totals)
  | thread (steps : List (Reply α × Log))

/-- A reply, and what was logged on the thread of the command. -/
abbrev Step (α : Type) := Reply α × Log

/-! ## The session -/

/-- Registries and buffers by name, the slot of the thread at hand, and the names that were timed. -/
structure Session where
  collector : Collector := {}
  registries : List (String × Handle) := []
  buffers : List (String × Buffer) := []
  slot : Slot := none
  clocked : List String := []
deriving Inhabited

namespace Session

/-- An association list with the value under one name replaced or added. -/
def bind {β : Type} (name : String) (value : β) (entries : List (String × β)) : List (String × β) :=
  (name, value) :: entries.filter fun entry => entry.1 ≠ name

/-- An association list without one name. -/
def unbind {β : Type} (name : String) (entries : List (String × β)) : List (String × β) :=
  entries.filter fun entry => entry.1 ≠ name

/-- The registry under a name, with its handle. -/
def registry? (s : Session) (name : String) : Option (Handle × Registry) :=
  (s.registries.lookup name).bind fun h => (s.collector.registry? h).map fun r => (h, r)

/-- Gives a name to a handle. -/
def bindRegistry (s : Session) (name : String) (h : Handle) : Session :=
  { s with registries := bind name h s.registries }

/-- Puts a buffer under a name. -/
def putBuffer (s : Session) (name : String) (b : Buffer) (c : Collector) : Session :=
  { s with buffers := bind name b s.buffers, collector := c }

/-- Does something with the registry under a name. -/
def withRegistry {α : Type} (s : Session) (name : String)
    (act : Handle → Registry → Reply α × Session) : Reply α × Session :=
  match s.registry? name with
  | none => (.absent name, s)
  | some (h, r) => act h r

/-- The counters of a registry after it was changed. -/
def totalsAfter {α : Type} (s : Session) (h : Handle) : Reply α × Session :=
  match s.collector.registry? h with
  | none => (.totals .zero, s)
  | some r => (.totals r.totals, s)

/-- Does something with the buffer under a name, and adds its numbers to the reply. -/
def withBuffer {α : Type} (s : Session) (name : String)
    (act : Buffer → Collector → Reply α × Buffer × Collector) : Reply α × Session :=
  match s.buffers.lookup name with
  | none => (.absent name, s)
  | some b =>
    let (reply, b, c) := act b s.collector
    (.gauged reply b.gauge, s.putBuffer name b c)

/-- Notes that a name was timed. -/
def clock (s : Session) (name : String) : Session :=
  { s with clocked := name :: s.clocked }

/-- Drops the buffer under a name, if there is one. -/
def dropBuffer (s : Session) (name : String) : Bool × Session :=
  match s.buffers.lookup name with
  | none => (false, s)
  | some b =>
    (true, { s with buffers := unbind name s.buffers, collector := b.dropInto s.collector })

/-! ## Running -/

/-- Makes a registry under a name. -/
def makeRegistry {α : Type} (s : Session) (name : String) (bound : Measure) : Reply α × Session :=
  let made : Except Fault Registry :=
    match bound with
    | .default => .ok (.empty ({} : Settings).bound)
    | .number n => .ok (.empty n)
    | .settings settings => Registry.ofSettings settings
  match made with
  | .error fault => (.failed fault, s)
  | .ok r =>
    let (h, c) := s.collector.add r
    (.number r.bound, { s with collector := c }.bindRegistry name h)

/-- Makes a buffer under a name, then drops the one that was there before. -/
def makeBuffer {α : Type} (s : Session) (name : String) (sink : Option Handle) (capacity : Measure) :
    Reply α × Session :=
  let capacity : Except Fault Nat :=
    match capacity with
    | .default => .ok ({} : Settings).capacity
    | .number n => .ok n
    | .settings settings => settings.checked.map Settings.capacity
  match capacity with
  | .error fault => (.failed fault, s)
  | .ok capacity =>
    match Buffer.make capacity sink with
    | .error cause => (.aborted cause, s)
    | .ok b =>
      let (_, s) := s.dropBuffer name
      (.number b.capacity, s.putBuffer name b s.collector)

/-- Runs the workers one after the other, each with a buffer of its own that is dropped at its end. -/
def runWorkers (c : Collector) (h : Handle) : List Worker → Except Abort (List (Nat × Nat) × Collector)
  | [] => .ok ([], c)
  | w :: rest =>
    (Buffer.make w.capacity (some h)).bind fun b =>
      let (accepted, b, c) := b.recordAllInto c w.fill.samples
      (runWorkers (b.dropInto c) h rest).map fun (results, c) => ((accepted, b.forced) :: results, c)

/-- Puts the slot of the thread and the collector in place after a slot command. -/
def afterSlot {α : Type} (s : Session) (reply : Reply α) (slot : Slot) (c : Collector) : Reply α × Session :=
  (.slot reply slot.pending, { s with slot := slot, collector := c })

/-- Carries out an action on the thread at hand. -/
def act {α : Type} (s : Session) : Action α → Reply α × Session
  | .makeRegistry name bound => s.makeRegistry name bound
  | .dropRegistry name =>
    (.truth (s.registries.lookup name).isSome, { s with registries := unbind name s.registries })
  | .batch name samples =>
    s.withRegistry name fun h _ => { s with collector := s.collector.receive h samples }.totalsAfter h
  | .profile registry name =>
    s.withRegistry registry fun _ r =>
      match r.profile name with
      | .ok p => (.profile p (s.clocked.contains p.name), s)
      | .error fault => (.failed fault, s)
  | .listing name =>
    s.withRegistry name fun _ r =>
      (.listing (r.listing.map fun (key, p) => (key, p, s.clocked.contains p.name)), s)
  | .names name => s.withRegistry name fun _ r => (.names r.names, s)
  | .contains registry name => s.withRegistry registry fun _ r => (.truth (r.contains name), s)
  | .clear name =>
    s.withRegistry name fun h _ => { s with collector := s.collector.clear h }.totalsAfter h
  | .inspectRegistry name => s.withRegistry name fun _ r => (.registry r, s)
  | .makeBuffer name none capacity => s.makeBuffer name none capacity
  | .makeBuffer name (some sink) capacity =>
    s.withRegistry sink fun h _ => s.makeBuffer name (some h) capacity
  | .dropBuffer name =>
    let (held, s) := s.dropBuffer name
    (.truth held, s)
  | .attach buffer registry =>
    s.withRegistry registry fun h _ => s.withBuffer buffer fun b c => (.truth true, b.attach h, c)
  | .detach buffer into =>
    let sink := (s.buffers.lookup buffer).bind Buffer.sink
    let (reply, s) := s.withBuffer buffer fun b c =>
      let (sink, b) := b.detach
      (.truth sink.isSome, b, c)
    match sink, into with
    | some h, some name => (reply, s.bindRegistry name h)
    | _, _ => (reply, s)
  | .record name sample =>
    s.withBuffer name fun b c =>
      let (accepted, b) := b.record sample
      (.truth accepted, b, c)
  | .recordFlushing name sample =>
    s.withBuffer name fun b c =>
      let (accepted, b, c) := b.recordInto sample c
      (.truth accepted, b, c)
  | .fill name fill =>
    s.withBuffer name fun b c =>
      let (count, b) := b.recordAll fill.samples
      (.number count, b, c)
  | .fillFlushing name fill =>
    s.withBuffer name fun b c =>
      let (count, b, c) := b.recordAllInto c fill.samples
      (.number count, b, c)
  | .flush name =>
    s.withBuffer name fun b c =>
      let (count, b, c) := b.flushInto c
      (.number count, b, c)
  | .inspectBuffer name =>
    match s.buffers.lookup name with
    | none => (.absent name, s)
    | some b => (.buffer b, s)
  | .timer buffer name acts last =>
    (s.clock name).withBuffer buffer fun b c =>
      let (answers, cause, b, c) := Timer.run name acts last b c
      (.answers answers cause, b, c)
  | .measure buffer name took body =>
    (s.clock name).withBuffer buffer fun b c =>
      match b.measureValue name took body c with
      | (.ok v, b, c) => (.value v, b, c)
      | (.error cause, b, c) => (.aborted cause, b, c)
  | .measureOutcome buffer name took body =>
    (s.clock name).withBuffer buffer fun b c =>
      match b.measureOutcome name took body c with
      | (.ok v, b, c) => (.outcome v, b, c)
      | (.error cause, b, c) => (.aborted cause, b, c)
  | .install registry capacity =>
    s.withRegistry registry fun h _ =>
      match s.slot.install h capacity s.collector with
      | .error cause => (.aborted cause, s)
      | .ok (slot, c) => s.afterSlot (.truth slot.isInstalled) slot c
  | .uninstall =>
    let (flushed, slot, c) := s.slot.uninstall s.collector
    (.uninstalled flushed slot.isInstalled slot.pending, { s with slot := slot, collector := c })
  | .slotRecord sample =>
    let (accepted, slot, c) := s.slot.record sample s.collector
    s.afterSlot (.truth accepted) slot c
  | .slotFill fill =>
    let (count, slot, c) := s.slot.recordAll s.collector fill.samples
    s.afterSlot (.number count) slot c
  | .slotFlush =>
    let (count, slot, c) := s.slot.flush s.collector
    s.afterSlot (.number count) slot c
  | .inspectSlot => s.afterSlot (.truth s.slot.isInstalled) s.slot s.collector
  | .parallel registry workers =>
    s.withRegistry registry fun h _ =>
      match runWorkers s.collector h workers with
      | .error cause => (.aborted cause, s)
      | .ok (results, c) =>
        match c.registry? h with
        | none => (.workers results .zero, { s with collector := { c with log := s.collector.log } })
        | some r => (.workers results r.totals, { s with collector := { c with log := s.collector.log } })

/-- The session with an empty log. -/
def quiet (s : Session) : Session :=
  { s with collector := { s.collector with log := #[] } }

mutual

/-- Carries out one command. A thread starts with an empty slot, which is dropped at its end; what is
    logged on it stays out of the log of the thread that started it. -/
def command {α : Type} (s : Session) : Command α → Reply α × Session
  | .act action => s.act action
  | .thread script =>
    let (steps, inner) := run { s with slot := none } script
    let c := inner.slot.leave inner.collector
    (.thread steps, { inner with slot := s.slot, collector := { c with log := s.collector.log } })

/-- Carries out commands in order, each with a log of its own. -/
def run {α : Type} (s : Session) : List (Command α) → List (Step α) × Session
  | [] => ([], s)
  | c :: rest =>
    let (reply, s) := command s.quiet c
    let (steps, last) := run s rest
    ((reply, s.collector.log) :: steps, last)

end

/-- What the end of a session shows: the samples that its slot handed on, the log of the ending, and the
    registries by name. -/
structure Ending where
  flushed : Nat
  log : Log
  registries : List (String × Registry)

/-- Ends the session: the slot is uninstalled, then the buffers are dropped in the order of their names. -/
def finish (s : Session) : Ending :=
  let s := s.quiet
  let (flushed, _, c) := s.slot.uninstall s.collector
  let ordered := s.buffers.mergeSort fun a b => !decide (b.1 < a.1)
  let c := ordered.foldl (fun c (_, b) => b.dropInto c) c
  { flushed := flushed
    log := c.log
    registries := s.registries.filterMap fun (name, h) => (c.registry? h).map fun r => (name, r) }

end Session

end SampleProfiler
