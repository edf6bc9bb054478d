import SampleProfiler.Proofs.Gathering

/-!
# `SampleProfiler.Proofs.Flight` — what a clear catches in flight

A batch is counted before its samples are merged, and the clear of another thread may come in between. It sets the
counters to zero but does not call the samples back: they are merged into cells that are made after the clear, and
then the mapped profiles have more calls than the registry counts samples (`not_calls_le_samples`). That is all
that can be missing from the count: the mapped calls and the samples in flight never exceed the counted samples
and those that the last clear caught in flight (`calls_add_inFlight_le`).

## Contents
- **In flight.** `Shared.inFlight`, and `Shared.caughtAlong` a schedule.
- **Mapped calls.** What finding, making and merging does to the calls of the mapped profiles.
- **One step.** `Thread.Moves.calls_le`.
- **All runs.** `calls_add_inFlight_le`, and why the bound needs what was caught.
-/

namespace SampleProfiler

/-! ## In flight -/

/-- The samples of the batch at hand that are counted and not merged yet. -/
def Phase.inFlight : Phase → List Sample
  | counted _ => []
  | phase => phase.pending

/-- True if the next step of the thread is a clear. -/
def Thread.isClearing (t : Thread) : Bool :=
  match t.phase, t.requests with
  | .idle, .clear :: _ => true
  | _, _ => false

namespace Shared

/-- The samples that are counted and not merged yet. -/
def inFlight (s : Shared) : List Sample :=
  s.threads.flatMap fun t => t.phase.inFlight

/-- How many samples were in flight when the last clear of a schedule ran; `caught`, if none does. -/
def caughtAlong (s : Shared) (caught : Nat) : List Nat → Nat
  | [] => caught
  | i :: rest =>
    match s.threads[i]?, s.advance i with
    | some t, some next => next.caughtAlong (if t.isClearing then s.inFlight.length else caught) rest
    | _, _ => caught

end Shared

/-! ## Mapped calls -/

namespace Pool

variable {p : Pool}

/-- The calls of the mapped profiles. -/
def calls (p : Pool) : Nat :=
  (p.tracked.contents.map fun cell => (p.profileAt cell).calls).sum

theorem callsOf_registry (p : Pool) : Profile.callsOf p.registry.profiles = p.calls := by
  unfold Profile.callsOf Registry.profiles registry calls Lru.map Lru.contents
  simp only [List.map_map]
  rfl

/-- Every cell is mapped once at most. -/
theorem nodup_contents (hordered : p.tracked.Ordered)
    (hmapped : ∀ e ∈ p.tracked.entries, p.nameOf e.content = some e.name) : p.tracked.contents.Nodup := by
  have hnames : p.tracked.contents.map p.nameOf = p.tracked.names.map some := by
    rw [Lru.contents, Lru.names, List.map_map, List.map_map]
    exact List.map_congr_left hmapped
  apply List.Nodup.of_map p.nameOf
  rw [hnames]
  exact hordered.names.map (Option.some_injective String)

/-- A new cell has no calls, and another one may be dropped for it. -/
theorem calls_acquire_le (hordered : p.tracked.Ordered)
    (hmapped : ∀ e ∈ p.tracked.entries, p.nameOf e.content = some e.name) {name : String}
    (hname : p.tracked.find? name = none) : (p.acquire name).2.calls ≤ p.calls := by
  have hcells : (p.acquire name).2.cells = p.cells ++ [.empty name] := by
    rw [acquire_of_none hname]
  have hold : p.tracked.contents.map (fun cell => ((p.acquire name).2.profileAt cell).calls)
      = p.tracked.contents.map fun cell => (p.profileAt cell).calls := by
    apply List.map_congr_left
    intro cell hcell
    obtain ⟨e, he, rfl⟩ := List.mem_map.mp hcell
    rw [profileAt, hcells, List.getElem?_append_left (lt_of_nameOf (hmapped e he)), profileAt]
  have hfresh : ((p.acquire name).2.profileAt p.cells.length).calls = 0 := by
    rw [profileAt, hcells, List.getElem?_concat_length]
    rfl
  have hsum := hordered.sum_contents_visit name (fun cell => ((p.acquire name).2.profileAt cell).calls) hfresh
  rw [hold, ← tracked_acquire] at hsum
  exact Nat.le.intro hsum

/-- A merge adds a call to the profile of its cell and leaves the others alone. -/
theorem calls_profileAt_merge_le (p : Pool) (target : Nat) (s : Sample) (cell : Nat) :
    ((p.merge target s).profileAt cell).calls ≤ (p.profileAt cell).calls + if cell = target then 1 else 0 := by
  rw [profileAt, merge, List.getElem?_modify, profileAt]
  cases p.cells[cell]? with
  | none => exact Nat.le_add_right _ _
  | some profile =>
      show (if target = cell then profile.merge s else profile).calls
        ≤ profile.calls + if cell = target then 1 else 0
      by_cases hcell : target = cell
      · rw [if_pos hcell, if_pos hcell.symm]
        exact Nat.le_refl _
      · rw [if_neg hcell, if_neg (Ne.symm hcell)]
        exact Nat.le_refl _

/-- A merge adds one call at most, because its cell is mapped once at most. -/
theorem calls_merge_le (hordered : p.tracked.Ordered)
    (hmapped : ∀ e ∈ p.tracked.entries, p.nameOf e.content = some e.name) (target : Nat) (s : Sample) :
    (p.merge target s).calls ≤ p.calls + 1 := by
  have hcount : p.tracked.contents.count target ≤ 1 :=
    List.nodup_iff_count_le_one.mp (nodup_contents hordered hmapped) target
  have hsum : ∀ cells : List Nat, (cells.map fun cell => ((p.merge target s).profileAt cell).calls).sum
      ≤ (cells.map fun cell => (p.profileAt cell).calls).sum + cells.count target := by
    intro cells
    induction cells with
    | nil => exact Nat.le_refl 0
    | cons cell rest ih =>
        have hcell := calls_profileAt_merge_le p target s cell
        rw [List.map_cons, List.sum_cons, List.map_cons, List.sum_cons, List.count_cons]
        simp only [beq_iff_eq]
        omega
  exact Nat.le_trans (hsum p.tracked.contents) (Nat.add_le_add_left hcount _)

end Pool

/-! ## One step -/

namespace Thread

variable {quiet : Bool} {p p' : Pool} {t t' : Thread} {o : Occurrence}

/-- **One step.** Only a count adds to the samples in flight, and only a merge adds to the mapped calls: it takes
    its sample out of flight. -/
theorem Moves.calls_le (h : Moves quiet p t o t' p') (hordered : p.tracked.Ordered)
    (hmapped : ∀ e ∈ p.tracked.entries, p.nameOf e.content = some e.name) (hcalm : t.isClearing = false) :
    p'.calls + t'.phase.inFlight.length + p.samples ≤ p.calls + t.phase.inFlight.length + p'.samples := by
  cases h with
  | clear => exact absurd hcalm.symm Bool.false_ne_true
  | count batch =>
      show p.calls + batch.length + p.samples ≤ p.calls + 0 + (p.samples + batch.length)
      omega
  | store cell stamp s rest =>
      unfold Pool.calls
      rw [Lru.contents_mark]
      exact Nat.le_refl _
  | refind cell s rest =>
      unfold Pool.calls Lru.touch
      rw [Lru.contents_mark]
      exact Nat.le_refl _
  | insert s rest requests seen hquiet hname =>
      have hcalls := Pool.calls_acquire_le hordered hmapped hname
      have hsamples : (p.acquire s.name).2.samples = p.samples := by rw [Pool.acquire_of_none hname]
      rw [hsamples]
      exact Nat.add_le_add_right (Nat.add_le_add_right hcalls _) _
  | merge cell s rest =>
      have hcalls := Pool.calls_merge_le hordered hmapped cell s
      show (p.merge cell s).calls + rest.length + p.samples ≤ p.calls + (rest.length + 1) + p.samples
      omega
  | _ => exact Nat.le_refl _

/-- A clear empties the map and zeroes the counts, and takes nothing out of flight. -/
theorem Moves.clear_of_isClearing (h : Moves quiet p t o t' p') (hclearing : t.isClearing = true) :
    p' = p.clear ∧ t'.phase = t.phase := by
  cases h with
  | clear => exact ⟨rfl, rfl⟩
  | _ => exact absurd hclearing Bool.false_ne_true

end Thread

/-! ## All runs -/

namespace Shared

variable {first s : Shared} {c : Chronicle} {caught : Nat}

/-- The calls and the samples in flight are covered by the counted samples and those that were caught. -/
def Covered (caught : Nat) (s : Shared) : Prop :=
  s.pool.calls + s.inFlight.length ≤ s.pool.samples + caught

/-- **A step of a thread keeps the cover**; a clear renews it with the samples that it catches. -/
theorem Covered.step (h : Covered caught s) (hbefore : History first c s) (hfirst : first.Fresh) {i : Nat}
    {t t' : Thread} {o : Occurrence} {p' : Pool} (ht : s.threads[i]? = some t)
    (hmove : t.Moves s.isQuiet s.pool o t' p') :
    Covered (if t.isClearing then s.inFlight.length else caught)
      { pool := p', threads := s.threads.set i t' } := by
  have hcovered : s.pool.calls + s.inFlight.length ≤ s.pool.samples + caught := h
  -- the other threads have the same samples in flight before and after
  obtain ⟨rest, hold, hnew⟩ := flatMap_set_perm ht t' fun t => t.phase.inFlight
  have hbeforehand : s.inFlight.length = t.phase.inFlight.length + rest.length :=
    hold.length_eq.trans List.length_append
  have hafterwards : (inFlight { pool := p', threads := s.threads.set i t' }).length
      = t'.phase.inFlight.length + rest.length := hnew.length_eq.trans List.length_append
  rw [Covered, hafterwards]
  cases hclearing : t.isClearing with
  | false =>
      have hstep := hmove.calls_le (hbefore.stamped hfirst).ordered (hbefore.filled hfirst).mapped hclearing
      rw [if_neg Bool.false_ne_true]
      show p'.calls + _ ≤ p'.samples + caught
      omega
  | true =>
      obtain ⟨rfl, hphase⟩ := hmove.clear_of_isClearing hclearing
      rw [if_pos rfl, hphase, ← hbeforehand]
      exact Nat.le_of_eq rfl

/-- **A schedule keeps the cover**, for what its last clear caught. -/
theorem Covered.run (h : Covered caught s) (hbefore : History first c s) (hfirst : first.Fresh)
    {schedule : List Nat} {last : Shared} (hrun : s.run schedule = some last) :
    Covered (s.caughtAlong caught schedule) last := by
  induction schedule generalizing s c caught with
  | nil => exact Option.some.inj hrun ▸ h
  | cons i rest ih =>
      rw [Shared.run, List.foldlM_cons] at hrun
      obtain ⟨next, hadvance, hrest⟩ := Option.bind_eq_some_iff.mp hrun
      obtain ⟨t, o, t', p', ht, hmove, rfl⟩ := moves_of_advance hadvance
      rw [caughtAlong, ht, hadvance]
      exact ih (h.step hbefore hfirst ht hmove) (hbefore.step ht hmove) hrest

/-- **Counters and profiles in every interleaving.** Whatever threads ask of a registry that tracks nothing first,
    and in whatever order they take their steps, with clears at any moment: the calls of the mapped profiles and
    the samples that are counted and not merged yet are at most the counted samples and those that the last
    clear caught in flight. -/
theorem calls_add_inFlight_le {bound : Nat} {requests : List (List Request)} {schedule : List Nat} {s : Shared}
    (h : (start bound requests).run schedule = some s) :
    Profile.callsOf s.pool.registry.profiles + s.inFlight.length
      ≤ s.pool.samples + (start bound requests).caughtAlong 0 schedule := by
  have hfirst := fresh_start bound requests
  have hnone : (start bound requests).inFlight = [] := flatMap_phase_of_idle hfirst.idle rfl
  have hstart : Covered 0 (start bound requests) := by
    rw [Covered, hnone]
    exact Nat.le_refl 0
  rw [Pool.callsOf_registry]
  exact hstart.run .refl hfirst h

/-- A sample is counted, another thread clears, and the sample is merged after that; so what was caught makes up
    for the count. -/
theorem calls_add_inFlight_le_caught :
    let requests := [[Request.batch [⟨"a", .zero, true, .reading 0⟩]], [.clear]]
    let schedule := [0, 0, 1, 0, 0, 0]
    ∃ s, (start 1 requests).run schedule = some s ∧ (start 1 requests).caughtAlong 0 schedule = 1 ∧
      Profile.callsOf s.pool.registry.profiles + s.inFlight.length
        ≤ s.pool.samples + (start 1 requests).caughtAlong 0 schedule := by
  intro requests schedule
  have hrun : ((start 1 requests).run schedule).isSome = true := by decide
  obtain ⟨s, hs⟩ := Option.isSome_iff_exists.mp hrun
  exact ⟨s, hs, by decide, calls_add_inFlight_le hs⟩

/-- **The counted samples alone are no bound**: in that run one call is mapped and no sample is counted. -/
theorem not_calls_le_samples :
    ¬ ∀ s, Reachable (start 1 [[.batch [⟨"a", .zero, true, .reading 0⟩]], [.clear]]) s →
      Profile.callsOf s.pool.registry.profiles ≤ s.pool.samples := by
  intro hbound
  let requests := [[Request.batch [⟨"a", .zero, true, .reading 0⟩]], [.clear]]
  have hfigures : ((start 1 requests).run [0, 0, 1, 0, 0, 0]).map
      (fun s => (Profile.callsOf s.pool.registry.profiles, s.pool.samples)) = some (1, 0) := by
    decide
  obtain ⟨s, hs, hpair⟩ := Option.map_eq_some_iff.mp hfigures
  have hle := hbound s (Reachable.of_run .refl hs)
  obtain ⟨hcalls, hsamples⟩ := Prod.mk.inj hpair
  rw [hcalls, hsamples] at hle
  exact absurd hle (Nat.not_succ_le_zero 0)

end Shared

end SampleProfiler
