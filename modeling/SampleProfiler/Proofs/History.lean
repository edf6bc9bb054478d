import Mathlib.Data.List.Induction
import SampleProfiler.Registry

/-!
# `SampleProfiler.Proofs.History` — a registry under a run of calls

What a registry holds is decided by the calls that were made on it. This module names those calls, runs them,
and reads the relevant past off a run: the samples received since the last clear. Properties of all runs are
proved through `after_induction`, which asks for one batch and one clear; `receive_induction` in turn asks for
one sample.

## Contents
- **Calls.** `Call` with its `Answer`, `Registry.perform`, and `Registry.after`, the registry after a run.
- **The past.** `sinceClear` and `everReceived`.
- **Samples.** `Registry.absorb`, what a batch does beside being counted, and the laws of `take`.
- **Induction over runs.**
-/

namespace SampleProfiler

namespace Registry

/-! ## Calls -/

/-- What can be asked of a registry. -/
inductive Call where
  | receive (batch : List Sample)
  | clear
  | contains (name : String)
  | profile (name : String)
  | listing
  | totals

/-- What a call answers. -/
inductive Answer where
  | done
  | truth (value : Bool)
  | profile (result : Except Fault Profile)
  | listing (entries : List (String × Profile))
  | totals (counters : Totals)

/-- Carries out a call: its answer, the registry afterwards, and what was logged. -/
def perform (r : Registry) : Call → Answer × Registry × Log
  | .receive batch => (.done, r.receive batch)
  | .clear => (.done, r.clear)
  | .contains name => (.truth (r.contains name), r, #[])
  | .profile name => (.profile (r.profile name), r, #[])
  | .listing => (.listing r.listing, r, #[])
  | .totals => (.totals r.totals, r, #[])

/-- The registry after a run of calls. -/
def after (r : Registry) (calls : List Call) : Registry :=
  calls.foldl (fun r call => (r.perform call).2.1) r

theorem after_append (r : Registry) (calls more : List Call) :
    r.after (calls ++ more) = (r.after calls).after more :=
  List.foldl_append

theorem after_concat (r : Registry) (calls : List Call) (call : Call) :
    r.after (calls ++ [call]) = ((r.after calls).perform call).2.1 :=
  after_append r calls [call]

/-- No calls on a registry that may be missing. -/
theorem map_after_nil (r : Option Registry) : (r.map fun r => r.after []) = r :=
  Option.map_id'

/-- Calls on a registry that may be missing, one run after the other. -/
theorem map_after_append (r : Option Registry) (calls more : List Call) :
    (r.map fun r => r.after (calls ++ more)) = (r.map fun r => r.after calls).map fun r => r.after more := by
  rw [Option.map_map]
  congr 1
  funext r
  exact after_append r calls more

/-! ## The past -/

/-- What a call leaves of the samples since the last clear, and adds to them. -/
def Call.extend (past : List Sample) : Call → List Sample
  | .receive batch => past ++ batch
  | .clear => []
  | _ => past

/-- The samples of all batches since the last clear, or since the start. -/
def sinceClear (calls : List Call) : List Sample :=
  calls.foldl Call.extend []

/-- The samples that a call brings. -/
def Call.batch : Call → List Sample
  | .receive batch => batch
  | _ => []

/-- The samples of all batches of a run. -/
def everReceived (calls : List Call) : List Sample :=
  calls.flatMap Call.batch

theorem sinceClear_concat (calls : List Call) (call : Call) :
    sinceClear (calls ++ [call]) = call.extend (sinceClear calls) :=
  List.foldl_append

/-! ## Samples -/

/-- Takes samples in order. -/
def absorb (r : Registry) (samples : List Sample) : Registry :=
  samples.foldl (fun r s => (r.take s).1) r

theorem absorb_append (r : Registry) (samples more : List Sample) :
    r.absorb (samples ++ more) = (r.absorb samples).absorb more :=
  List.foldl_append

/-- What a run of samples does to the registry does not depend on the log. -/
theorem takeAll_fst (r : Registry) (log : Log) (samples : List Sample) :
    (r.takeAll log samples).1 = r.absorb samples := by
  induction samples generalizing r log with
  | nil => rfl
  | cons s rest ih =>
      rw [takeAll]
      exact ih (r.take s).1 (log ++ (r.take s).2)

theorem receive_nil (r : Registry) : r.receive [] = (r, #[]) := rfl

theorem receive_fst {batch : List Sample} (h : batch ≠ []) (r : Registry) :
    (r.receive batch).1 = (r.countBatch batch.length).absorb batch := by
  rw [receive, if_neg (by simpa using h), takeAll_fst]

/-- A sample uses its name and is merged into the profile of that name. -/
theorem tracked_take (r : Registry) (s : Sample) :
    (r.take s).1.tracked
      = (r.tracked.visit s.name (.empty s.name)).2.update s.name fun p => p.merge s := by
  unfold take
  obtain ⟨evicted, tracked⟩ := r.tracked.visit s.name (.empty s.name)
  cases evicted <;> rfl

/-- Only an eviction is counted. -/
theorem evictions_take (r : Registry) (s : Sample) :
    (r.take s).1.evictions
      = r.evictions + (if (r.tracked.visit s.name (.empty s.name)).1.isSome then 1 else 0) := by
  unfold take
  obtain ⟨evicted, tracked⟩ := r.tracked.visit s.name (.empty s.name)
  cases evicted <;> rfl

/-! ## Induction over runs -/

/-- What one sample keeps, a batch of them keeps. -/
theorem absorb_induction {P : Registry → List Sample → Prop}
    (htake : ∀ r past s, P r past → P (r.take s).1 (past ++ [s]))
    {r : Registry} {past : List Sample} (h : P r past) (samples : List Sample) :
    P (r.absorb samples) (past ++ samples) := by
  induction samples generalizing r past with
  | nil =>
      rw [List.append_nil]
      exact h
  | cons s rest ih =>
      have hrest := ih (htake r past s h)
      rw [List.append_assoc, List.singleton_append] at hrest
      exact hrest

/-- What one sample and the count of a batch keep, receiving a batch keeps. -/
theorem receive_induction {P : Registry → List Sample → Prop}
    (hcount : ∀ r past n, P r past → P (r.countBatch n) past)
    (htake : ∀ r past s, P r past → P (r.take s).1 (past ++ [s]))
    (r : Registry) (past batch : List Sample) (h : P r past) :
    P (r.receive batch).1 (past ++ batch) := by
  by_cases hbatch : batch = []
  · rw [hbatch, receive_nil, List.append_nil]
    exact h
  · rw [receive_fst hbatch]
    exact absorb_induction htake (hcount r past batch.length h) batch

/-- **Induction over runs**: what holds of a new registry without a past, and is kept by a batch and by a
    clear, holds after every run of calls, of the samples since the last clear. -/
theorem after_induction {P : Registry → List Sample → Prop} {bound : Nat}
    (hempty : P (empty bound) [])
    (hclear : ∀ r past, P r past → P r.clear.1 [])
    (hreceive : ∀ r past batch, P r past → P (r.receive batch).1 (past ++ batch)) (calls : List Call) :
    P ((empty bound).after calls) (sinceClear calls) := by
  induction calls using List.reverseRecOn with
  | nil => exact hempty
  | append_singleton calls call ih =>
      rw [after_concat, sinceClear_concat]
      cases call with
      | receive batch => exact hreceive _ _ batch ih
      | clear => exact hclear _ _ ih
      | contains name => exact ih
      | profile name => exact ih
      | listing => exact ih
      | totals => exact ih

end Registry

end SampleProfiler
