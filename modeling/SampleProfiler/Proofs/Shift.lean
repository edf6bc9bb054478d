import SampleProfiler.Proofs.Eviction

/-!
# `SampleProfiler.Proofs.Shift` — clearing is starting over

A clear leaves the clock running, so the stamps of a cleared registry go on where those before the clear
stopped, and the state after it is not that of a new registry. The two differ by a shift of all stamps. Every
call commutes with such a shift (`perform_shift`): it answers and logs the same, evictions included, and the
registries afterwards differ by the same shift. So no run of calls can tell them apart.

## Contents
- **Maps.** `Lru.shift`, and how the operations of a map commute with it.
- **Registries.** `Registry.shift`, and `perform_shift` for one call.
- **Runs.** `Registry.performAll` with its replies, and `performAll_clear_eq_performAll_empty`.
-/

namespace SampleProfiler

/-! ## Maps -/

namespace Lru

variable {α : Type}

/-- The map as it would be if `n` more stamps had been drawn before its first use. -/
def shift (n : Nat) (m : Lru α) : Lru α :=
  { m with entries := m.entries.map fun e => { e with stamp := e.stamp + n }, clock := m.clock + n }

@[simp] theorem size_shift (n : Nat) (m : Lru α) : (m.shift n).size = m.size :=
  size_recast id n m

@[simp] theorem find?_shift (n : Nat) (m : Lru α) (name : String) : (m.shift n).find? name = m.find? name :=
  (find?_recast id n m name).trans Option.map_id'

@[simp] theorem contains_shift (n : Nat) (m : Lru α) (name : String) :
    (m.shift n).contains name = m.contains name := by
  rw [contains, find?_shift, contains]

/-- A use drops the same entry, wherever the clock started. -/
theorem visit_shift (n : Nat) (m : Lru α) (name : String) (fresh : α) :
    (m.shift n).visit name fresh = ((m.visit name fresh).1, (m.visit name fresh).2.shift n) :=
  visit_recast id n m name fresh

theorem update_shift (n : Nat) (m : Lru α) (name : String) (change : α → α) :
    (m.shift n).update name change = (m.update name change).shift n := by
  unfold update shift
  simp only [List.map_map]
  congr 1
  apply List.map_congr_left
  intro e _
  simp only [Function.comp_apply]
  split <;> rfl

/-- A cleared map is a new one whose clock has run already. -/
theorem clear_eq_shift_empty {m : Lru α} {bound : Nat} (h : m.bound = (empty bound : Lru α).bound) :
    m.clear = (empty bound).shift m.clock := by
  unfold clear shift
  rw [h]
  simp [empty]

end Lru

/-! ## Registries -/

namespace Registry

/-- The registry as it would be if `n` more stamps had been drawn before its first sample. -/
def shift (n : Nat) (r : Registry) : Registry :=
  { r with tracked := r.tracked.shift n }

theorem take_shift (n : Nat) (r : Registry) (s : Sample) :
    (r.shift n).take s = ((r.take s).1.shift n, (r.take s).2) := by
  unfold take shift
  rw [Lru.visit_shift]
  obtain ⟨evicted, tracked⟩ := r.tracked.visit s.name (.empty s.name)
  simp only [Lru.update_shift]
  cases evicted <;> rfl

theorem takeAll_shift (n : Nat) (r : Registry) (log : Log) (samples : List Sample) :
    (r.shift n).takeAll log samples = ((r.takeAll log samples).1.shift n, (r.takeAll log samples).2) := by
  induction samples generalizing r log with
  | nil => rfl
  | cons s rest ih =>
      rw [takeAll, take_shift]
      exact ih (r.take s).1 (log ++ (r.take s).2)

theorem receive_shift (n : Nat) (r : Registry) (batch : List Sample) :
    (r.shift n).receive batch = ((r.receive batch).1.shift n, (r.receive batch).2) := by
  unfold receive
  split
  · rfl
  · exact takeAll_shift n (r.countBatch batch.length) _ batch

theorem listing_shift (n : Nat) (r : Registry) : (r.shift n).listing = r.listing := by
  unfold listing shift Lru.shift
  rw [List.map_map]
  rfl

/-- **One call commutes with a shift**: it answers the same and logs the same. -/
theorem perform_shift (n : Nat) (r : Registry) (call : Call) :
    (r.shift n).perform call = ((r.perform call).1, (r.perform call).2.1.shift n, (r.perform call).2.2) := by
  cases call with
  | receive batch => exact congrArg (Prod.mk Answer.done) (receive_shift n r batch)
  | clear => rfl
  | contains name =>
      have hcontains : (r.shift n).contains name = r.contains name := Lru.contains_shift n r.tracked name
      rw [perform, hcontains]
      rfl
  | profile name =>
      have hprofile : (r.shift n).profile name = r.profile name := by
        rw [profile, shift, Lru.find?_shift, profile]
      rw [perform, hprofile]
      rfl
  | listing =>
      rw [perform, listing_shift]
      rfl
  | totals =>
      have htotals : (r.shift n).totals = r.totals := by
        rw [totals, shift, Lru.size_shift, totals]
      rw [perform, htotals]
      rfl

/-- A cleared registry is a new one whose clock has run already. -/
theorem clear_eq_shift_empty {r : Registry} {bound : Nat} (h : r.bound = (empty bound).bound) :
    r.clear.1 = (empty bound).shift r.tracked.clock := by
  rw [clear, shift, empty, ← Lru.clear_eq_shift_empty h]

/-! ## Runs -/

/-- Carries out calls in order. Each is replied to with its answer and with what was logged meanwhile. -/
def performAll (r : Registry) : List Call → List (Answer × Log) × Registry
  | [] => ([], r)
  | call :: rest =>
    let (answer, r, log) := r.perform call
    let (replies, last) := r.performAll rest
    ((answer, log) :: replies, last)

theorem performAll_snd (r : Registry) (calls : List Call) : (r.performAll calls).2 = r.after calls := by
  induction calls generalizing r with
  | nil => rfl
  | cons call rest ih => exact ih (r.perform call).2.1

/-- **A run of calls commutes with a shift.** -/
theorem performAll_shift (n : Nat) (r : Registry) (calls : List Call) :
    (r.shift n).performAll calls = ((r.performAll calls).1, (r.performAll calls).2.shift n) := by
  induction calls generalizing r with
  | nil => rfl
  | cons call rest ih => simp only [performAll, perform_shift, ih]

/-- Whatever a registry holds, the calls that follow a clear are answered as by a new registry of its bound. -/
theorem performAll_clear {r : Registry} {bound : Nat} (h : r.bound = (empty bound).bound) (calls : List Call) :
    r.clear.1.performAll calls
      = (((empty bound).performAll calls).1, ((empty bound).performAll calls).2.shift r.tracked.clock) := by
  rw [clear_eq_shift_empty h, performAll_shift]

/-- **Clearing is starting over.** After any run, a clear and the calls that follow it are answered as the same
    calls are by a new registry of the same bound, and log the same events, so the same names are evicted in the
    same order. In the end the two registries differ in nothing but their stamps and their clocks, by the samples
    that were received before the clear: the clock counts those of the whole run. -/
theorem performAll_clear_eq_performAll_empty (bound : Nat) (earlier calls : List Call) :
    let cleared := ((empty bound).after earlier).clear.1.performAll calls
    let fresh := (empty bound).performAll calls
    cleared.1 = fresh.1 ∧
      cleared.2 = fresh.2.shift (everReceived earlier).length ∧
      cleared.2.tracked.clock = (everReceived (earlier ++ calls)).length := by
  intro cleared fresh
  have hbound : ((empty bound).after earlier).bound = (empty bound).bound := (reflects_after bound earlier).bounded
  have hcleared : cleared = (fresh.1, fresh.2.shift (everReceived earlier).length) := by
    rw [← clock_after bound earlier]
    exact performAll_clear hbound calls
  have hfresh : fresh.2.tracked.clock = (everReceived calls).length := by
    rw [performAll_snd]
    exact clock_after bound calls
  have hwhole : (everReceived (earlier ++ calls)).length
      = (everReceived calls).length + (everReceived earlier).length := by
    rw [everReceived, List.flatMap_append, List.length_append, Nat.add_comm]
    rfl
  rw [hcleared, hwhole, ← hfresh]
  exact ⟨rfl, rfl, rfl⟩

/-- A registry for one name whose clock has reached 3 when it is cleared: `a` is evicted for `b` and comes back,
    as if nothing had been before. -/
example :
    let r := (empty 1).after [.receive [⟨"c", .zero, true, .reading 0⟩, ⟨"a", .greatest, false, .reading 0⟩],
      .receive [⟨"b", .zero, true, .reading 0⟩]]
    let calls := [Call.receive [⟨"a", .zero, true, .reading 0⟩, ⟨"b", .zero, false, .reading 0⟩], .profile "a",
      .receive [⟨"a", .greatest, true, .reading 0⟩], .totals, .listing]
    r.tracked.clock = 3 ∧ (r.clear.1.performAll calls).1.map Prod.snd
      = [#[.received 2, .evicted "a" "b"], #[], #[.received 1, .evicted "b" "a"], #[], #[]] := by
  decide

end Registry

end SampleProfiler
