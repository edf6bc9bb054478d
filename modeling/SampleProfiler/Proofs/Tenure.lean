import SampleProfiler.Proofs.Transparency
import SampleProfiler.Slot

/-!
# `SampleProfiler.Proofs.Tenure` — the slot of a thread never loses a sample

A thread installs buffers in its slot one after the other, each for a registry and with a capacity of its own,
and records into whichever is installed. The samples of an installation leave by a forced flush, by an explicit
one, by `uninstall`, by the next `install` or by the end of the thread. This module runs any history of these
and keeps a record of it, one `Turn` for each act: which installation was current, what was answered, and the
batch that left the slot.

## Contents
- **Runs.** `Act`, `Seat`, `Seat.step`, and `run` with its `Turn`s.
- **Reading the record.** `recorded` and `delivered` by installation, `outstanding`, and `calls` by registry.
- **The account.** `Sound`, with a lemma for each way in which a turn changes the slot.
- **Delivery.** `recorded_eq_delivered_append_samples`.
-/

namespace SampleProfiler

namespace Slot

/-! ## Runs -/

/-- The samples in the buffer of the slot. -/
def samples (s : Slot) : List Sample :=
  match s with
  | none => []
  | some b => b.slots.toList

/-- What leaves the slot when its buffer is flushed. -/
def held (s : Slot) : Option Delivery :=
  s.bind fun b => b.flush.1

/-- What leaves the slot when a sample is recorded. -/
def displaced (s : Slot) (sample : Sample) : Option Delivery :=
  s.bind fun b => (b.recordFlushing sample).2.1

/-- What happens in a run. -/
inductive Act where
  | install (sink : Handle) (capacity : Nat)
  | record (sample : Sample)
  | flush
  | pending
  | uninstall
  /-- The thread ends; the next one starts with an empty slot. -/
  | leave
  /-- Somebody calls a registry directly. -/
  | call (h : Handle) (call : Registry.Call)

/-- What an act answers. -/
inductive Answer where
  | done
  | failed (cause : Abort)
  | accepted (value : Bool)
  | count (samples : Nat)
deriving DecidableEq

/-- An act, the number of the installation that was current when it began, what it answered, and the batch that
    left the slot. -/
structure Turn where
  act : Act
  tenure : Option Nat
  answer : Answer
  handed : Option Delivery := none

/-- What a buffer was installed with. -/
structure Installation where
  sink : Handle
  capacity : Nat
deriving DecidableEq

/-- The slot of a thread, the collector, and the installations so far. -/
structure Seat where
  slot : Slot := none
  collector : Collector
  installs : List Installation := []

namespace Seat

/-- The number of the current installation: the last one, while a buffer is installed. -/
def tenure (seat : Seat) : Option Nat :=
  seat.slot.map fun _ => seat.installs.length - 1

/-- Carries out an act. -/
def step (seat : Seat) (act : Act) : Turn × Seat :=
  match act with
  | .install sink capacity =>
    match seat.slot.install sink capacity seat.collector with
    | .error cause => ({ act := act, tenure := seat.tenure, answer := .failed cause }, seat)
    | .ok (slot, c) =>
      ({ act := act, tenure := seat.tenure, answer := .done, handed := seat.slot.held },
        { slot := slot, collector := c, installs := seat.installs ++ [⟨sink, capacity⟩] })
  | .record sample =>
    let (accepted, slot, c) := seat.slot.record sample seat.collector
    ({ act := act, tenure := seat.tenure, answer := .accepted accepted, handed := seat.slot.displaced sample },
      { seat with slot := slot, collector := c })
  | .flush =>
    let (count, slot, c) := seat.slot.flush seat.collector
    ({ act := act, tenure := seat.tenure, answer := .count count, handed := seat.slot.held },
      { seat with slot := slot, collector := c })
  | .pending => ({ act := act, tenure := seat.tenure, answer := .count seat.slot.pending }, seat)
  | .uninstall =>
    let (count, slot, c) := seat.slot.uninstall seat.collector
    ({ act := act, tenure := seat.tenure, answer := .count count, handed := seat.slot.held },
      { seat with slot := slot, collector := c })
  | .leave =>
    ({ act := act, tenure := seat.tenure, answer := .done, handed := seat.slot.held },
      { seat with slot := none, collector := seat.slot.leave seat.collector })
  | .call h call =>
    ({ act := act, tenure := seat.tenure, answer := .done },
      { seat with collector := seat.collector.modify h fun r => (r.perform call).2 })

end Seat

/-- Carries out acts in order, with a record of them, on an empty slot and registries that are there already. -/
def run (c : Collector) (acts : List Act) : List Turn × Seat :=
  acts.foldl
    (fun (turns, seat) act =>
      let (turn, seat) := seat.step act
      (turns ++ [turn], seat))
    ([], { collector := c })

theorem run_concat (c : Collector) (acts : List Act) (act : Act) :
    run c (acts ++ [act]) = ((run c acts).1 ++ [((run c acts).2.step act).1], ((run c acts).2.step act).2) :=
  List.foldl_append

/-! ## Reading the record -/

/-- The sample that an act records, if it does. -/
def Act.sample? : Act → Option Sample
  | .record sample => some sample
  | _ => none

/-- The samples that were recorded while the `k`-th installation was current. -/
def recorded (k : Nat) (turns : List Turn) : List Sample :=
  turns.flatMap fun t => if t.tenure = some k then t.act.sample?.toList else []

/-- The batches that left the slot while the `k`-th installation was current. -/
def delivered (k : Nat) (turns : List Turn) : List Delivery :=
  turns.flatMap fun t => if t.tenure = some k then t.handed.toList else []

/-- The installation that a turn made, if it did. -/
def Turn.installation? (t : Turn) : Option Installation :=
  match t.act, t.answer with
  | .install sink capacity, .done => some ⟨sink, capacity⟩
  | _, _ => none

/-- Whether a buffer is installed after a turn, from whether one was before. -/
def Turn.leavesInstalled (before : Bool) (t : Turn) : Bool :=
  match t.act with
  | .install _ _ => before || t.installation?.isSome
  | .uninstall => false
  | .leave => false
  | _ => before

/-- How many samples were recorded under an installation and not delivered; 0 without one. -/
def outstanding (tenure : Option Nat) (turns : List Turn) : Nat :=
  match tenure with
  | none => 0
  | some k => (recorded k turns).length - ((delivered k turns).flatMap Delivery.batch).length

/-- The calls of a turn on the registry `h`. -/
def Turn.calls (h : Handle) (t : Turn) : List Registry.Call :=
  match t.act with
  | .call k call => if k = h then [call] else []
  | _ => Fleet.callOf h t.handed

/-- All calls on the registry `h`: the batches that left the slot for it, and what others called. -/
def calls (h : Handle) (turns : List Turn) : List Registry.Call :=
  turns.flatMap (Turn.calls h)

theorem calls_concat (h : Handle) (turns : List Turn) (t : Turn) :
    calls h (turns ++ [t]) = calls h turns ++ t.calls h := by
  rw [calls, List.flatMap_append, List.flatMap_singleton, calls]

/-- A turn adds what it recorded and what left the slot to the installation that was current. -/
theorem concat_self {k : Nat} {t : Turn} (h : t.tenure = some k) (turns : List Turn) :
    recorded k (turns ++ [t]) = recorded k turns ++ t.act.sample?.toList ∧
      delivered k (turns ++ [t]) = delivered k turns ++ t.handed.toList := by
  unfold recorded delivered
  rw [List.flatMap_append, List.flatMap_singleton, if_pos h, List.flatMap_append, List.flatMap_singleton, if_pos h]
  exact ⟨rfl, rfl⟩

/-- A turn adds nothing to the other installations. -/
theorem concat_of_ne {k : Nat} {t : Turn} (h : t.tenure ≠ some k) (turns : List Turn) :
    recorded k (turns ++ [t]) = recorded k turns ∧ delivered k (turns ++ [t]) = delivered k turns := by
  unfold recorded delivered
  rw [List.flatMap_append, List.flatMap_singleton, if_neg h, List.flatMap_append, List.flatMap_singleton, if_neg h]
  exact ⟨List.append_nil _, List.append_nil _⟩

/-- A turn that lets nothing leave adds nothing at all if it records nothing, or no installation is current. -/
theorem concat_of_idle {t : Turn} (h : (t.tenure = none ∨ t.act.sample? = none) ∧ t.handed = none) (k : Nat)
    (turns : List Turn) :
    recorded k (turns ++ [t]) = recorded k turns ∧ delivered k (turns ++ [t]) = delivered k turns := by
  obtain ⟨hnone | hsample, hhanded⟩ := h
  · exact concat_of_ne (fun hk => Option.some_ne_none k (hk.symm.trans hnone)) turns
  · by_cases hk : t.tenure = some k
    · have hconcat := concat_self hk turns
      rw [hsample, hhanded, Option.toList_none, List.append_nil, Option.toList_none, List.append_nil] at hconcat
      exact hconcat
    · exact concat_of_ne hk turns

/-- The seat counts the installations as the turns made them, and a buffer is in the slot when the turns left
    one installed. -/
theorem step_installs (seat : Seat) (act : Act) :
    (seat.step act).2.installs = seat.installs ++ (seat.step act).1.installation?.toList ∧
    (seat.step act).2.slot.isInstalled = (seat.step act).1.leavesInstalled seat.slot.isInstalled := by
  obtain ⟨slot, collector, installs⟩ := seat
  cases act with
  | install sink capacity =>
      rw [Seat.step, install, Buffer.make]
      by_cases hzero : capacity = 0
      · rw [if_pos hzero]
        exact ⟨(List.append_nil installs).symm, (Bool.or_false _).symm⟩
      · rw [if_neg hzero]
        by_cases hlarge : Buffer.storageLimit < capacity * Buffer.slotBytes
        · rw [if_pos hlarge]
          exact ⟨(List.append_nil installs).symm, (Bool.or_false _).symm⟩
        · rw [if_neg hlarge]
          exact ⟨rfl, (Bool.or_true _).symm⟩
  | record sample => cases slot <;> exact ⟨(List.append_nil installs).symm, rfl⟩
  | flush => cases slot <;> exact ⟨(List.append_nil installs).symm, rfl⟩
  | pending => exact ⟨(List.append_nil installs).symm, rfl⟩
  | uninstall => cases slot <;> exact ⟨(List.append_nil installs).symm, rfl⟩
  | leave => exact ⟨(List.append_nil installs).symm, rfl⟩
  | call k call => exact ⟨(List.append_nil installs).symm, rfl⟩

theorem installs_run (c : Collector) (acts : List Act) :
    (run c acts).2.installs = (run c acts).1.filterMap Turn.installation? ∧
    (run c acts).2.slot.isInstalled = (run c acts).1.foldl Turn.leavesInstalled false := by
  induction acts using List.reverseRecOn with
  | nil => exact ⟨rfl, rfl⟩
  | append_singleton acts act ih =>
      obtain ⟨hinstalls, hinstalled⟩ := step_installs (run c acts).2 act
      rw [run_concat, List.filterMap_append, List.foldl_append, ← ih.1, ← ih.2]
      refine ⟨hinstalls.trans (congrArg (_ ++ ·) ?_), hinstalled⟩
      cases hmade : ((run c acts).2.step act).1.installation? <;> simp [hmade]

/-! ## The account -/

/-- The account of the `k`-th installation: the buffer that was installed served its sink. It is the one in the
    slot while the installation is current, and is left empty otherwise. -/
structure Account (turns : List Turn) (seat : Seat) (k : Nat) (install : Installation) (b : Buffer) : Prop where
  serving : b.Serving install.sink (recorded k turns) (delivered k turns)
  capacity : b.capacity = install.capacity
  current : seat.tenure = some k → seat.slot = some b
  former : seat.tenure ≠ some k → b.slots = #[]

/-- The account of all installations and registries after the recorded turns. -/
structure Sound (c : Collector) (turns : List Turn) (seat : Seat) : Prop where
  accounts : ∀ k install, seat.installs[k]? = some install → ∃ b, Account turns seat k install b
  seated : ∀ k, seat.tenure = some k → k < seat.installs.length
  unmade : ∀ k, seat.installs.length ≤ k → recorded k turns = [] ∧ delivered k turns = []
  placed : ∀ t ∈ turns, t.handed.isSome = true → ∃ k < seat.installs.length, t.tenure = some k
  registries : ∀ h, seat.collector.registry? h = (c.registry? h).map fun r => r.after (calls h turns)

variable {c : Collector} {turns : List Turn} {seat : Seat}

theorem sound_start (c : Collector) : Sound c [] { collector := c } where
  accounts := fun _ _ hinstall => absurd hinstall.symm (Option.some_ne_none _)
  seated := fun _ htenure => absurd htenure.symm (Option.some_ne_none _)
  unmade := fun _ _ => ⟨rfl, rfl⟩
  placed := fun _ ht => absurd ht List.not_mem_nil
  registries := fun h => (Registry.map_after_nil (c.registry? h)).symm

/-- The buffer in the slot is that of the current installation. -/
theorem Sound.current (h : Sound c turns seat) {b : Buffer} (hb : seat.slot = some b) :
    ∃ k install, seat.tenure = some k ∧ seat.installs[k]? = some install ∧ Account turns seat k install b := by
  have htenure : seat.tenure = some (seat.installs.length - 1) := by
    rw [Seat.tenure, hb, Option.map_some]
  have hinstall := List.getElem?_eq_getElem (h.seated _ htenure)
  obtain ⟨was, haccount⟩ := h.accounts _ _ hinstall
  have hslot := haccount.current htenure
  rw [hb] at hslot
  rw [← Option.some.inj hslot] at haccount
  exact ⟨_, _, htenure, hinstall, haccount⟩

/-- A turn that does not touch the slot keeps the account if the registries see its calls. -/
theorem Sound.pass (h : Sound c turns seat) {t : Turn} {after : Collector}
    (hidle : (t.tenure = none ∨ t.act.sample? = none) ∧ t.handed = none)
    (hcalls : ∀ k, after.registry? k = (seat.collector.registry? k).map fun r => r.after (t.calls k)) :
    Sound c (turns ++ [t]) { seat with collector := after } := by
  refine ⟨?_, h.seated, ?_, ?_, ?_⟩
  · intro k install hinstall
    obtain ⟨b, haccount⟩ := h.accounts k install hinstall
    refine ⟨b, ?_, haccount.capacity, haccount.current, haccount.former⟩
    rw [(concat_of_idle hidle k turns).1, (concat_of_idle hidle k turns).2]
    exact haccount.serving
  · intro k hk
    rw [(concat_of_idle hidle k turns).1, (concat_of_idle hidle k turns).2]
    exact h.unmade k hk
  · intro u hu hhanded
    rcases List.mem_append.mp hu with hu | hu
    · exact h.placed u hu hhanded
    · rw [List.mem_singleton.mp hu, hidle.2] at hhanded
      exact absurd hhanded Bool.false_ne_true
  · intro k
    rw [calls_concat, Registry.map_after_append, ← h.registries k]
    exact hcalls k

/-- A turn that touches nothing at all keeps the account. -/
theorem Sound.idle (h : Sound c turns seat) {t : Turn}
    (hidle : (t.tenure = none ∨ t.act.sample? = none) ∧ t.handed = none) (hcalls : ∀ k, t.calls k = []) :
    Sound c (turns ++ [t]) seat := by
  refine h.pass hidle fun k => ?_
  rw [hcalls, Registry.map_after_nil]

/-- **A turn that uses the buffer in the slot** keeps the account if the buffer goes on serving its sink, and the
    registries see the batch that left. -/
theorem Sound.use (h : Sound c turns seat) {b b' : Buffer} (hb : seat.slot = some b) {t : Turn}
    (htenure : t.tenure = seat.tenure) (hcapacity : b'.capacity = b.capacity)
    (hserving : ∀ {sink accepted handed}, b.Serving sink accepted handed →
      b'.Serving sink (accepted ++ t.act.sample?.toList) (handed ++ t.handed.toList))
    {after : Collector}
    (hcalls : ∀ k, after.registry? k = (seat.collector.registry? k).map fun r => r.after (t.calls k)) :
    Sound c (turns ++ [t]) { seat with slot := some b', collector := after } := by
  have hsame : ({ seat with slot := some b', collector := after } : Seat).tenure = seat.tenure := by
    rw [Seat.tenure, Seat.tenure, hb]
    rfl
  refine ⟨?_, ?_, ?_, ?_, ?_⟩
  · intro k install hinstall
    obtain ⟨was, haccount⟩ := h.accounts k install hinstall
    by_cases hk : seat.tenure = some k
    · have hslot := haccount.current hk
      rw [hb] at hslot
      rw [← Option.some.inj hslot] at haccount
      refine ⟨b', ?_, hcapacity.trans haccount.capacity, fun _ => rfl,
        fun hother => absurd (hsame.trans hk) hother⟩
      rw [(concat_self (htenure.trans hk) turns).1, (concat_self (htenure.trans hk) turns).2]
      exact hserving haccount.serving
    · have hother : t.tenure ≠ some k := htenure ▸ hk
      refine ⟨was, ?_, haccount.capacity, fun hcurrent => absurd (hsame.symm.trans hcurrent) hk,
        fun _ => haccount.former hk⟩
      rw [(concat_of_ne hother turns).1, (concat_of_ne hother turns).2]
      exact haccount.serving
  · intro k hk
    rw [hsame] at hk
    exact h.seated k hk
  · intro k hk
    have hother : t.tenure ≠ some k := by
      rw [htenure]
      exact fun heq => absurd (h.seated k heq) (Nat.not_lt_of_le hk)
    rw [(concat_of_ne hother turns).1, (concat_of_ne hother turns).2]
    exact h.unmade k hk
  · intro u hu hhanded
    rcases List.mem_append.mp hu with hu | hu
    · exact h.placed u hu hhanded
    · obtain ⟨k, _, hk, _⟩ := h.current hb
      rw [List.mem_singleton.mp hu]
      exact ⟨k, h.seated k hk, htenure.trans hk⟩
  · intro k
    rw [calls_concat, Registry.map_after_append, ← h.registries k]
    exact hcalls k

/-- Taking an empty buffer out of the slot keeps the account. -/
theorem Sound.close (h : Sound c turns seat) (hempty : seat.slot.samples = []) :
    Sound c turns { seat with slot := none } := by
  refine ⟨?_, ?_, h.unmade, h.placed, h.registries⟩
  · intro k install hinstall
    obtain ⟨b, haccount⟩ := h.accounts k install hinstall
    refine ⟨b, haccount.serving, haccount.capacity, fun hcurrent => absurd hcurrent.symm (Option.some_ne_none k),
      fun _ => ?_⟩
    by_cases hk : seat.tenure = some k
    · rw [haccount.current hk] at hempty
      exact Array.toList_eq_nil_iff.mp hempty
    · exact haccount.former hk
  · intro k hk
    exact absurd hk.symm (Option.some_ne_none k)

/-- Putting a new buffer into an empty slot opens a new account. -/
theorem Sound.begin (h : Sound c turns seat) (hslot : seat.slot = none) (sink : Handle) {capacity : Nat}
    (hcapacity : 0 < capacity) :
    Sound c turns
      { seat with slot := some (.of capacity (some sink)), installs := seat.installs ++ [⟨sink, capacity⟩] } := by
  have hbefore : ∀ k, seat.tenure ≠ some k := by
    intro k hk
    rw [Seat.tenure, hslot] at hk
    exact Option.some_ne_none k hk.symm
  have htenure : Seat.tenure ⟨some (.of capacity (some sink)), seat.collector, seat.installs ++ [⟨sink, capacity⟩]⟩
      = some seat.installs.length := by
    rw [Seat.tenure, Option.map_some, List.length_append, List.length_singleton, Nat.add_sub_cancel]
  refine ⟨?_, ?_, ?_, ?_, h.registries⟩
  · intro k install hinstall
    rcases Nat.lt_trichotomy k seat.installs.length with hlt | rfl | hgt
    · rw [List.getElem?_append_left hlt] at hinstall
      obtain ⟨b, haccount⟩ := h.accounts k install hinstall
      refine ⟨b, haccount.serving, haccount.capacity, fun hcurrent => ?_, fun _ => haccount.former (hbefore k)⟩
      rw [htenure] at hcurrent
      exact absurd (Option.some.inj hcurrent) (Nat.ne_of_gt hlt)
    · rw [List.getElem?_concat_length] at hinstall
      rw [← Option.some.inj hinstall]
      refine ⟨_, ?_, rfl, fun _ => rfl, fun hother => absurd htenure hother⟩
      rw [(h.unmade _ (Nat.le_refl _)).1, (h.unmade _ (Nat.le_refl _)).2]
      exact Buffer.serving_of sink hcapacity
    · rw [List.getElem?_eq_none (List.length_append ▸ hgt)] at hinstall
      exact absurd hinstall.symm (Option.some_ne_none install)
  · intro k hk
    rw [htenure] at hk
    rw [← Option.some.inj hk, List.length_append]
    exact Nat.lt_succ_self _
  · intro k hk
    rw [List.length_append] at hk
    exact h.unmade k (Nat.le_of_succ_le hk)
  · intro t ht hhanded
    obtain ⟨k, hk, hcurrent⟩ := h.placed t ht hhanded
    rw [List.length_append]
    exact ⟨k, Nat.lt_succ_of_lt hk, hcurrent⟩

/-- **A turn that flushes the buffer in the slot** and leaves it there keeps the account. -/
theorem Sound.flush (h : Sound c turns seat) {b : Buffer} (hb : seat.slot = some b) {t : Turn}
    (htenure : t.tenure = seat.tenure) (hsample : t.act.sample? = none) (hhanded : t.handed = b.flush.1)
    {after : Collector}
    (hcalls : ∀ k, after.registry? k = (seat.collector.registry? k).map fun r => r.after (t.calls k)) :
    Sound c (turns ++ [t]) { seat with slot := some b.flush.2, collector := after } := by
  refine h.use hb htenure (Buffer.sink_flush b).2 (fun hserving => ?_) hcalls
  rw [hsample, hhanded, Option.toList_none, List.append_nil]
  exact hserving.flush.1

/-- **A turn that empties the slot** keeps the account if the registries see what was held. -/
theorem Sound.release (h : Sound c turns seat) {t : Turn} (htenure : t.tenure = seat.tenure)
    (hsample : t.act.sample? = none) (hhanded : t.handed = seat.slot.held)
    (hcallOf : ∀ k, t.calls k = Fleet.callOf k t.handed) {after : Collector}
    (hafter : ∀ k, after.registry? k = Collector.registry? (seat.collector.deliver? seat.slot.held) k) :
    Sound c (turns ++ [t]) { seat with slot := none, collector := after } := by
  have hcalls : ∀ k, after.registry? k = (seat.collector.registry? k).map fun r => r.after (t.calls k) := by
    intro k
    rw [hafter, hcallOf, hhanded, Collector.registry?_deliver?]
  cases hb : seat.slot with
  | none =>
      rw [hb] at hhanded
      have hpass := h.pass ⟨Or.inr hsample, hhanded⟩ hcalls
      rw [← hb]
      exact hpass
  | some b =>
      rw [hb] at hhanded
      have hflush := h.flush hb htenure hsample hhanded hcalls
      refine hflush.close ?_
      obtain ⟨k, install, _, _, haccount⟩ := h.current hb
      exact Array.toList_eq_nil_iff.mpr haccount.serving.flush.2

/-- A slot that is left lets go what it held. -/
theorem registry?_leave (s : Slot) (c : Collector) (k : Handle) :
    Collector.registry? (s.leave c) k = Collector.registry? (c.deliver? s.held) k := by
  cases s with
  | none => rfl
  | some b => exact Buffer.registry?_dropInto b c k

/-- Uninstalling flushes first, so there is nothing left to let go when the buffer is dropped. -/
theorem Sound.uninstall (h : Sound c turns seat) (k : Handle) :
    (seat.slot.uninstall seat.collector).1 = seat.slot.pending ∧
    (seat.slot.uninstall seat.collector).2.1 = none ∧
    Collector.registry? (seat.slot.uninstall seat.collector).2.2 k
      = Collector.registry? (seat.collector.deliver? seat.slot.held) k := by
  cases hb : seat.slot with
  | none => exact ⟨rfl, rfl, rfl⟩
  | some b =>
      obtain ⟨_, _, _, _, haccount⟩ := h.current hb
      have hserving := haccount.serving
      obtain ⟨hflushed, hempty⟩ := hserving.flush
      have hnothing : b.flush.2.flush.1 = none := Buffer.flush_of_empty hempty
      have hinto := Buffer.flushInto_eq b seat.collector
      have hcount : (b.flushInto seat.collector).1 = b.size :=
        Buffer.flushInto_fst (Option.isSome_of_eq_some hserving.sink) seat.collector
      refine ⟨hcount, rfl, ?_⟩
      show Collector.registry? ((b.flushInto seat.collector).2.1.dropInto (b.flushInto seat.collector).2.2) k = _
      rw [hinto, Buffer.registry?_dropInto, hnothing]
      rfl

/-- **One turn keeps the account.** -/
theorem Sound.step (h : Sound c turns seat) (act : Act) :
    Sound c (turns ++ [(seat.step act).1]) (seat.step act).2 := by
  cases act with
  | install sink capacity =>
      have hfailed : ∀ cause,
          Sound c (turns ++ [⟨.install sink capacity, seat.tenure, .failed cause, none⟩]) seat :=
        fun cause => h.idle ⟨Or.inr rfl, rfl⟩ fun _ => rfl
      rw [Seat.step, install, Buffer.make]
      by_cases hzero : capacity = 0
      · rw [if_pos hzero]
        exact hfailed _
      · rw [if_neg hzero]
        by_cases hlarge : Buffer.storageLimit < capacity * Buffer.slotBytes
        · rw [if_pos hlarge]
          exact hfailed _
        · -- the buffer before it lets go what it held, then the slot is filled again
          rw [if_neg hlarge]
          have hreleased : Sound c (turns ++ [⟨.install sink capacity, seat.tenure, .done, seat.slot.held⟩])
              { seat with slot := none, collector := seat.slot.leave seat.collector } :=
            h.release rfl rfl rfl (fun _ => rfl) (registry?_leave seat.slot seat.collector)
          exact hreleased.begin rfl sink (Nat.pos_of_ne_zero hzero)
  | record sample =>
      obtain ⟨slot, collector, installs⟩ := seat
      cases slot with
      | none => exact h.idle ⟨Or.inl rfl, rfl⟩ fun _ => rfl
      | some b =>
          refine h.use rfl rfl ?_ (fun hserving => hserving.recordFlushing sample)
            fun k => Collector.registry?_deliver? collector (b.recordFlushing sample).2.1 k
          obtain ⟨_, _, _, _, haccount⟩ := h.current rfl
          exact (Buffer.recordFlushing_accepts haccount.serving.sink haccount.serving.room sample).2.2
  | flush =>
      obtain ⟨slot, collector, installs⟩ := seat
      cases slot with
      | none => exact h.idle ⟨Or.inl rfl, rfl⟩ fun _ => rfl
      | some b =>
          show Sound c (turns ++ [⟨.flush, _, .count (b.flushInto collector).1, b.flush.1⟩])
            ⟨some (b.flushInto collector).2.1, (b.flushInto collector).2.2, installs⟩
          rw [Buffer.flushInto_eq]
          exact h.flush rfl rfl rfl rfl (Collector.registry?_deliver? collector b.flush.1)
  | pending => exact h.idle ⟨Or.inr rfl, rfl⟩ fun _ => rfl
  | uninstall =>
      obtain ⟨hcount, hempty, _⟩ := h.uninstall 0
      have hreleased : Sound c (turns ++ [⟨.uninstall, seat.tenure, .count seat.slot.pending, seat.slot.held⟩])
          { seat with slot := none, collector := (seat.slot.uninstall seat.collector).2.2 } :=
        h.release rfl rfl rfl (fun _ => rfl) fun k => (h.uninstall k).2.2
      rw [← hcount, ← hempty] at hreleased
      exact hreleased
  | leave => exact h.release rfl rfl rfl (fun _ => rfl) (registry?_leave seat.slot seat.collector)
  | call k call =>
      exact h.pass ⟨Or.inr rfl, rfl⟩ fun j => Collector.registry?_call seat.collector k j call

theorem sound_run (c : Collector) (acts : List Act) : Sound c (run c acts).1 (run c acts).2 := by
  induction acts using List.reverseRecOn with
  | nil => exact sound_start c
  | append_singleton acts act ih =>
      rw [run_concat]
      exact ih.step act

/-- The pending samples are those that the current installation has not delivered. -/
theorem Sound.pending (h : Sound c turns seat) : seat.slot.pending = outstanding seat.tenure turns := by
  cases hb : seat.slot with
  | none =>
      rw [Seat.tenure, hb]
      rfl
  | some b =>
      obtain ⟨k, _, htenure, _, haccount⟩ := h.current hb
      rw [htenure, outstanding, haccount.serving.balanced.samples, List.length_append, Nat.add_sub_cancel_left,
        Array.length_toList]
      rfl

/-- A sample is accepted exactly when a buffer is installed. -/
theorem Sound.record (h : Sound c turns seat) (sample : Sample) :
    (seat.slot.record sample seat.collector).1 = seat.slot.isInstalled := by
  cases hb : seat.slot with
  | none => rfl
  | some b =>
      obtain ⟨_, _, _, _, haccount⟩ := h.current hb
      exact (Buffer.recordFlushing_accepts haccount.serving.sink haccount.serving.room sample).1

/-- What an installation recorded is what it delivered, followed by what is in the slot while it is current. -/
theorem Sound.samples (h : Sound c turns seat) {k : Nat} {install : Installation}
    (hinstall : seat.installs[k]? = some install) :
    recorded k turns
      = (delivered k turns).flatMap Delivery.batch
        ++ (if seat.tenure = some k then seat.slot.samples else []) := by
  obtain ⟨b, haccount⟩ := h.accounts k install hinstall
  rw [haccount.serving.balanced.samples]
  by_cases hk : seat.tenure = some k
  · rw [if_pos hk, haccount.current hk]
    rfl
  · rw [if_neg hk, haccount.former hk]

/-- **The slot never loses a sample.** After any run, what an installation recorded is what it delivered, batch by
    batch, followed by what is in the slot if it is current; its batches went to the registry that it was made
    for, none empty and none larger than its capacity, and nothing leaves the slot outside of an installation.
    Each registry is in the state in which the batches that left for it, and the calls of others, leave it. The
    next sample is accepted exactly when a buffer is installed, and `pending` and `uninstall` answer how many
    samples are outstanding. So a run that ends with `uninstall` or with the end of the thread has delivered
    everything. -/
theorem recorded_eq_delivered_append_samples (c : Collector) (acts : List Act) :
    let turns := (run c acts).1
    let seat := (run c acts).2
    seat.installs = turns.filterMap Turn.installation? ∧
    seat.slot.isInstalled = turns.foldl Turn.leavesInstalled false ∧
    (∀ k install, seat.installs[k]? = some install →
      recorded k turns
        = (delivered k turns).flatMap Delivery.batch ++ (if seat.tenure = some k then seat.slot.samples else []) ∧
      ∀ d ∈ delivered k turns,
        d.sink = install.sink ∧ 1 ≤ d.batch.length ∧ d.batch.length ≤ install.capacity) ∧
    (∀ t ∈ turns, t.handed.isSome = true → ∃ k < seat.installs.length, t.tenure = some k) ∧
    (∀ h, seat.collector.registry? h = (c.registry? h).map fun r => r.after (calls h turns)) ∧
    (∀ sample, (seat.step (.record sample)).1.answer = .accepted seat.slot.isInstalled) ∧
    (seat.step .pending).1.answer = .count (outstanding seat.tenure turns) ∧
    (seat.step .uninstall).1.answer = .count (outstanding seat.tenure turns) ∧
    (acts.getLast? = some .uninstall ∨ acts.getLast? = some .leave →
      ∀ k < seat.installs.length, recorded k turns = (delivered k turns).flatMap Delivery.batch) := by
  intro turns seat
  have hsound : Sound c turns seat := sound_run c acts
  obtain ⟨hinstalls, hinstalled⟩ := installs_run c acts
  refine ⟨hinstalls, hinstalled, ?_, hsound.placed, hsound.registries,
    fun sample => congrArg Answer.accepted (hsound.record sample), congrArg Answer.count hsound.pending,
    congrArg Answer.count ((hsound.uninstall 0).1.trans hsound.pending), ?_⟩
  · intro k install hinstall
    refine ⟨hsound.samples hinstall, ?_⟩
    obtain ⟨b, haccount⟩ := hsound.accounts k install hinstall
    intro d hd
    have hbatch := haccount.serving.balanced.batches d hd
    rw [haccount.capacity] at hbatch
    exact ⟨haccount.serving.sinks d hd, hbatch⟩
  · intro hlast k hk
    have hempty : seat.slot = none := by
      apply Option.not_isSome_iff_eq_none.mp
      show ¬ (run c acts).2.slot.isInstalled = true
      rcases hlast with hlast | hlast
      all_goals
        obtain ⟨before, rfl⟩ := List.getLast?_eq_some_iff.mp hlast
        rw [run_concat, (step_installs _ _).2]
        exact Bool.false_ne_true
    have hsamples := hsound.samples (List.getElem?_eq_getElem hk)
    rw [Seat.tenure, hempty] at hsamples
    rw [hsamples, Option.map_none, if_neg (fun heq => Option.some_ne_none k heq.symm), List.append_nil]

/-- A thread records before anything is installed, installs a buffer for one sample, fails to install one for none,
    installs another one for the second registry with a sample pending, and ends with two pending there. -/
theorem recorded_eq_delivered_append_samples_reinstalled :
    let s : Sample := ⟨"a", .zero, true, .reading 0⟩
    let t : Sample := ⟨"b", .zero, false, .reading 1⟩
    let c : Collector := { registries := #[.empty 2, .empty 1] }
    let acts := [Act.record s, .install 0 1, .record s, .record t, .install 0 0, .pending, .install 1 2, .record t,
      .record s, .leave]
    (run c acts).2.installs = [⟨0, 1⟩, ⟨1, 2⟩] ∧
    delivered 0 (run c acts).1 = [⟨0, [s]⟩, ⟨0, [t]⟩] ∧ delivered 1 (run c acts).1 = [⟨1, [t, s]⟩] ∧
    acts.getLast? = some .leave ∧
    recorded 0 (run c acts).1 = (delivered 0 (run c acts).1).flatMap Delivery.batch ∧
    recorded 1 (run c acts).1 = (delivered 1 (run c acts).1).flatMap Delivery.batch := by
  intro s t c acts
  obtain ⟨_, _, _, _, _, _, _, _, hended⟩ := recorded_eq_delivered_append_samples c acts
  exact ⟨rfl, rfl, rfl, rfl, hended (Or.inr rfl) 0 (by decide), hended (Or.inr rfl) 1 (by decide)⟩

end Slot

end SampleProfiler
