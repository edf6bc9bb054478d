import SampleProfiler.Proofs.Stamps
import SampleProfiler.Proofs.Statistics

/-!
# `SampleProfiler.Proofs.Cells` — what the cells hold under many threads

A profile lives in a cell, and a cell stays with the threads that hold it when the map drops it, by an eviction
or a clear. Its name may even get another cell meanwhile. This module shows that nothing goes astray: in every
reachable state the profile of a cell, mapped or not, is the fold of exactly those samples that the chronicle
says were merged into it, all of them its own.

## Contents
- **Handles.** The cells that threads hold, and `Profile.GatheredFrom`.
- **One step.** What a step does to the cells, to their names and to what is held of them.
- **All runs.** `Shared.Filled`, kept by every step, and what readers saw.
- **Safety.** `Shared.Safe`, and `safe_of_reachable`.
-/

namespace SampleProfiler

/-! ## Handles -/

/-- The cell that a thread holds for a sample, with the name of the sample. -/
def Phase.targets : Phase → List (Nat × String)
  | stamping cell _ s _ => [(cell, s.name)]
  | merging cell s _ => [(cell, s.name)]
  | _ => []

/-- The cells that a thread is still to read. -/
def Phase.reads : Phase → List Nat
  | reading cells => cells
  | _ => []

/-- The name of a cell. -/
def Pool.nameOf (p : Pool) (cell : Nat) : Option String :=
  p.cells[cell]?.map Profile.name

/-- The profile is the fold of distinct ones of the given samples, all of them of its own name. -/
def Profile.GatheredFrom (p : Profile) (given : List Sample) : Prop :=
  ∃ samples : List Sample, samples.Subperm given ∧ (∀ s ∈ samples, s.name = p.name) ∧ p = ofSamples p.name samples

namespace Profile

variable {p : Profile} {given : List Sample}

theorem GatheredFrom.mono (h : p.GatheredFrom given) {more : List Sample} (hmore : given.Subperm more) :
    p.GatheredFrom more := by
  obtain ⟨samples, hsub, hrest⟩ := h
  exact ⟨samples, hsub.trans hmore, hrest⟩

theorem GatheredFrom.errors_le_calls (h : p.GatheredFrom given) : p.errors ≤ p.calls := by
  obtain ⟨samples, _, _, heq⟩ := h
  rw [heq]
  exact Profile.errors_le_calls p.name samples

/-- A gathered profile is untouched, or has at least one call and its extremes in order. -/
theorem GatheredFrom.empty_or_called (h : p.GatheredFrom given) :
    p = empty p.name ∨ (1 ≤ p.calls ∧ p.least ≤ p.greatest) := by
  obtain ⟨samples, _, _, heq⟩ := h
  by_cases hne : samples = []
  · left
    rw [hne] at heq
    exact heq
  · right
    rw [heq, calls_ofSamples]
    exact ⟨List.length_pos_iff.mpr hne, least_le_greatest p.name hne⟩

end Profile

namespace Pool

variable {p : Pool} {cell : Nat} {name : String}

theorem nameOf_eq_some_iff : p.nameOf cell = some name ↔ ∃ profile, p.cells[cell]? = some profile ∧
    profile.name = name :=
  Option.map_eq_some_iff

theorem lt_of_nameOf (h : p.nameOf cell = some name) : cell < p.cells.length := by
  obtain ⟨profile, hcell, _⟩ := nameOf_eq_some_iff.mp h
  exact (List.getElem?_eq_some_iff.mp hcell).1

theorem nameOf_of_lt (h : cell < p.cells.length) : ∃ name, p.nameOf cell = some name := by
  refine ⟨p.cells[cell].name, ?_⟩
  rw [nameOf, List.getElem?_eq_getElem h]
  rfl

/-- Merging changes no name. -/
theorem nameOf_merge (p : Pool) (target : Nat) (s : Sample) (cell : Nat) :
    (p.merge target s).nameOf cell = p.nameOf cell := by
  rw [nameOf, merge, List.getElem?_modify, Option.map_eq_map, Option.map_map, nameOf]
  congr 1
  funext profile
  show Profile.name (if target = cell then _ else _) = _
  split <;> rfl

/-- A cell that is made has the name it is made for. -/
theorem nameOf_acquire (h : p.tracked.find? name = none) (cell : Nat) :
    (p.acquire name).2.nameOf cell = if cell = p.cells.length then some name else p.nameOf cell := by
  rw [acquire_of_none h, nameOf, nameOf]
  dsimp only
  by_cases hcell : cell = p.cells.length
  · rw [if_pos hcell, hcell, List.getElem?_concat_length]
    rfl
  · rw [if_neg hcell]
    by_cases hlt : cell < p.cells.length
    · rw [List.getElem?_append_left hlt]
    · have hlonger : (p.cells ++ [Profile.empty name]).length ≤ cell := by
        rw [List.length_append, List.length_singleton]
        omega
      rw [List.getElem?_eq_none hlonger, List.getElem?_eq_none (Nat.le_of_not_lt hlt)]

theorem nameOf_of_find? (hmapped : ∀ e ∈ p.tracked.entries, p.nameOf e.content = some e.name)
    (h : p.tracked.find? name = some cell) : p.nameOf cell = some name := by
  obtain ⟨e, he, rfl, rfl⟩ := Lru.exists_entry_of_find? h
  exact hmapped e he

/-- Entries stay under the names of their cells when a cell is found or made. -/
theorem mapped_acquire (hordered : p.tracked.Ordered)
    (hmapped : ∀ e ∈ p.tracked.entries, p.nameOf e.content = some e.name) (name : String) :
    ∀ e ∈ (p.acquire name).2.tracked.entries, (p.acquire name).2.nameOf e.content = some e.name := by
  intro e he
  cases hfound : p.tracked.find? name with
  | some cell =>
      rw [acquire_of_some hfound] at he ⊢
      obtain ⟨d, hd, hname, hcontent⟩ := Lru.exists_of_mem_entries_mark he
      rw [← hname, ← hcontent]
      exact hmapped d hd
  | none =>
      rw [nameOf_acquire hfound]
      rw [tracked_acquire] at he
      rcases hordered.exists_of_mem_entries_visit he with ⟨d, hd, hname, hcontent⟩ | ⟨hname, hcontent⟩
      · have hold := hmapped d hd
        rw [← hname, ← hcontent, if_neg (Nat.ne_of_lt (lt_of_nameOf hold))]
        exact hold
      · rw [hname, if_pos hcontent]

end Pool

/-! ## One step -/

namespace Thread

variable {quiet : Bool} {p p' : Pool} {t t' : Thread} {o : Occurrence}

/-- **All that a step does to the cells**: a sample is merged into one, or one is made. -/
theorem Moves.cells (h : Moves quiet p t o t' p') :
    (p'.cells = p.cells ∧ o.merges = []) ∨
    (∃ cell s, o.merges = [(cell, s)] ∧ (cell, s.name) ∈ t.phase.targets ∧
      p'.cells = p.cells.modify cell fun profile => profile.merge s) ∨
    (∃ name, o.merges = [] ∧ p'.cells = p.cells ++ [.empty name]) := by
  cases h with
  | merge cell s rest =>
      exact Or.inr (Or.inl ⟨cell, s, rfl, List.mem_singleton_self _, rfl⟩)
  | insert s rest requests seen hquiet hname =>
      rw [Pool.acquire_of_none hname]
      exact Or.inr (Or.inr ⟨s.name, rfl, rfl⟩)
  | _ => exact Or.inl ⟨rfl, rfl⟩

/-- A cell keeps its name. -/
theorem Moves.nameOf (h : Moves quiet p t o t' p') {cell : Nat} {name : String}
    (hname : p.nameOf cell = some name) : p'.nameOf cell = some name := by
  cases h with
  | merge target s =>
      rw [Pool.nameOf_merge]
      exact hname
  | insert s rest requests seen hquiet hfound =>
      rw [Pool.nameOf_acquire hfound, if_neg (Nat.ne_of_lt (Pool.lt_of_nameOf hname))]
      exact hname
  | _ => exact hname

/-- Entries stay under the names of their cells. -/
theorem Moves.mapped (h : Moves quiet p t o t' p') (hordered : p.tracked.Ordered)
    (hmapped : ∀ e ∈ p.tracked.entries, p.nameOf e.content = some e.name) :
    ∀ e ∈ p'.tracked.entries, p'.nameOf e.content = some e.name := by
  cases h with
  | clear => exact fun e he => absurd he List.not_mem_nil
  | store =>
      intro e he
      obtain ⟨d, hd, hname, hcontent⟩ := Lru.exists_of_mem_entries_mark he
      rw [← hname, ← hcontent]
      exact hmapped d hd
  | refind cell s rest requests seen hquiet hfound =>
      have hacquire := Pool.mapped_acquire hordered hmapped s.name
      rwa [Pool.acquire_of_some hfound] at hacquire
  | insert s => exact Pool.mapped_acquire hordered hmapped s.name
  | merge target s =>
      intro e he
      rw [Pool.nameOf_merge]
      exact hmapped e he
  | _ => exact hmapped

/-- A thread holds cells of the names that it wants. -/
theorem Moves.held (h : Moves quiet p t o t' p')
    (hmapped : ∀ e ∈ p.tracked.entries, p.nameOf e.content = some e.name)
    (hheld : ∀ m ∈ t.phase.targets, p.nameOf m.1 = some m.2) :
    ∀ m ∈ t'.phase.targets, p'.nameOf m.1 = some m.2 := by
  intro m hm
  cases h with
  | hit cell s rest requests seen hfound =>
      rw [List.mem_singleton.mp hm]
      show p.nameOf cell = some s.name
      exact Pool.nameOf_of_find? hmapped hfound
  | store => exact hheld m hm
  | refind cell s rest requests seen hquiet hfound =>
      rw [List.mem_singleton.mp hm]
      show p.nameOf cell = some s.name
      exact Pool.nameOf_of_find? hmapped hfound
  | insert s rest requests seen hquiet hname =>
      rw [List.mem_singleton.mp hm]
      rw [Pool.nameOf_acquire hname, if_pos rfl]
  | _ => exact absurd hm List.not_mem_nil

/-- A thread reads cells that exist. -/
theorem Moves.reads (h : Moves quiet p t o t' p')
    (hmapped : ∀ e ∈ p.tracked.entries, p.nameOf e.content = some e.name)
    (hreads : ∀ cell ∈ t.phase.reads, cell < p.cells.length) :
    ∀ cell ∈ t'.phase.reads, cell < p'.cells.length := by
  intro cell hcell
  cases h with
  | read name =>
      have hfound := Option.mem_toList.mp hcell
      exact Pool.lt_of_nameOf (Pool.nameOf_of_find? hmapped hfound)
  | readAll =>
      obtain ⟨e, he, rfl⟩ := List.mem_map.mp hcell
      exact Pool.lt_of_nameOf (hmapped e he)
  | see => exact hreads cell (List.mem_cons_of_mem _ hcell)
  | _ => exact absurd hcell List.not_mem_nil

/-- What a thread sees comes from a cell. -/
theorem Moves.seen (h : Moves quiet p t o t' p') : ∀ q ∈ t'.seen, q ∈ t.seen ∨ q ∈ p.cells := by
  intro q hq
  cases h with
  | see cell rest requests seen =>
      rcases List.mem_append.mp hq with hq | hq
      · exact Or.inl hq
      · exact Or.inr (List.mem_of_getElem? (Option.mem_toList.mp hq))
  | _ => exact Or.inl hq

end Thread

/-! ## All runs -/

namespace Shared

/-- What every reachable state keeps about its cells. -/
structure Filled (c : Chronicle) (s : Shared) : Prop where
  mapped : ∀ e ∈ s.pool.tracked.entries, s.pool.nameOf e.content = some e.name
  held : ∀ t ∈ s.threads, ∀ m ∈ t.phase.targets, s.pool.nameOf m.1 = some m.2
  reads : ∀ t ∈ s.threads, ∀ cell ∈ t.phase.reads, cell < s.pool.cells.length
  merged : ∀ m ∈ c.merges, s.pool.nameOf m.1 = some m.2.name
  contents : ∀ cell p, s.pool.cells[cell]? = some p → p = Profile.ofSamples p.name (c.into cell)

variable {first s : Shared} {c : Chronicle}

theorem Fresh.filled (h : first.Fresh) : Filled [] first where
  mapped := by
    rw [h.entries]
    intro e he
    exact absurd he List.not_mem_nil
  held := by
    intro t ht m hm
    rw [h.idle t ht] at hm
    exact absurd hm List.not_mem_nil
  reads := by
    intro t ht cell hcell
    rw [h.idle t ht] at hcell
    exact absurd hcell List.not_mem_nil
  merged := fun m hm => absurd hm List.not_mem_nil
  contents := by
    intro cell p hp
    rw [h.cells, List.getElem?_nil] at hp
    exact absurd hp.symm (Option.some_ne_none p)

/-- All samples in a cell have its name. -/
theorem Filled.name_of_mem_into (h : Filled c s) {cell : Nat} {p : Profile} (hp : s.pool.cells[cell]? = some p)
    {sample : Sample} (hsample : sample ∈ c.into cell) : sample.name = p.name := by
  obtain ⟨m, hm, rfl⟩ := List.mem_map.mp hsample
  obtain ⟨hmerged, hcell⟩ := List.mem_filter.mp hm
  have hname := h.merged m hmerged
  rw [decide_eq_true_iff.mp hcell, Pool.nameOf, hp] at hname
  exact (Option.some.inj hname).symm

/-- Nothing was merged into a cell that does not exist. -/
theorem Filled.into_eq_nil (h : Filled c s) {cell : Nat} (hcell : s.pool.cells.length ≤ cell) :
    c.into cell = [] := by
  rw [Chronicle.into, List.map_eq_nil_iff, List.filter_eq_nil_iff]
  intro m hm heq
  have hlt := Pool.lt_of_nameOf (h.merged m hm)
  rw [decide_eq_true_iff.mp heq] at hlt
  omega

variable {i : Nat} {t t' : Thread} {o : Occurrence} {p' : Pool}

/-- A step keeps the contents of the cells: a merge adds its sample, and a new cell is empty. -/
theorem Filled.contents_step (h : Filled c s) (hmove : t.Moves s.isQuiet s.pool o t' p') {cell : Nat}
    {q : Profile} (hq : p'.cells[cell]? = some q) :
    q = Profile.ofSamples q.name (Chronicle.into (c ++ [o]) cell) := by
  rw [Chronicle.into_concat]
  rcases hmove.cells with ⟨hcells, hmerges⟩ | ⟨target, sample, hmerges, _, hcells⟩ | ⟨name, hmerges, hcells⟩
  · rw [hmerges, List.filter_nil, List.map_nil, List.append_nil]
    rw [hcells] at hq
    exact h.contents cell q hq
  · rw [hcells, List.getElem?_modify] at hq
    obtain ⟨p, hp, rfl⟩ := Option.map_eq_some_iff.mp hq
    have hbefore := h.contents cell p hp
    rw [hmerges]
    by_cases htarget : target = cell
    · have hmine : [(target, sample)].filter (fun m => m.1 = cell) = [(target, sample)] :=
        List.filter_cons_of_pos (decide_eq_true htarget)
      rw [if_pos htarget, hmine, List.map_singleton, Profile.ofSamples_concat]
      exact congrArg (Profile.merge · sample) hbefore
    · have hother : [(target, sample)].filter (fun m => m.1 = cell) = [] :=
        List.filter_cons_of_neg (by simpa using htarget)
      rw [if_neg htarget, hother, List.map_nil, List.append_nil]
      exact hbefore
  · rw [hmerges, List.filter_nil, List.map_nil, List.append_nil]
    rw [hcells] at hq
    -- the new cell is behind all others, and nothing was merged into it yet
    by_cases hcell : cell < s.pool.cells.length
    · rw [List.getElem?_append_left hcell] at hq
      exact h.contents cell q hq
    · have hnew : q = .empty name := by
        have hmem := List.mem_of_getElem? (List.getElem?_append_right (Nat.le_of_not_lt hcell) ▸ hq)
        exact List.mem_singleton.mp hmem
      rw [h.into_eq_nil (Nat.le_of_not_lt hcell), hnew]
      rfl

/-- A step of a thread keeps the cells filled. -/
theorem Filled.step (h : Filled c s) (hordered : s.pool.tracked.Ordered) (ht : s.threads[i]? = some t)
    (hmove : t.Moves s.isQuiet s.pool o t' p') :
    Filled (c ++ [o]) { pool := p', threads := s.threads.set i t' } where
  mapped := hmove.mapped hordered h.mapped
  held := by
    intro u hu m hm
    rcases List.mem_or_eq_of_mem_set hu with hu | rfl
    · exact hmove.nameOf (h.held u hu m hm)
    · exact hmove.held h.mapped (h.held t (List.mem_of_getElem? ht)) m hm
  reads := by
    intro u hu cell hcell
    rcases List.mem_or_eq_of_mem_set hu with hu | rfl
    · have hlt := h.reads u hu cell hcell
      obtain ⟨name, hname⟩ := Pool.nameOf_of_lt hlt
      exact Pool.lt_of_nameOf (hmove.nameOf hname)
    · exact hmove.reads h.mapped (h.reads t (List.mem_of_getElem? ht)) cell hcell
  merged := by
    intro m hm
    rw [Chronicle.merges_concat] at hm
    rcases List.mem_append.mp hm with hm | hm
    · exact hmove.nameOf (h.merged m hm)
    · rcases hmove.cells with ⟨_, hmerges⟩ | ⟨cell, sample, hmerges, htarget, _⟩ | ⟨_, hmerges, _⟩
      · rw [hmerges] at hm
        exact absurd hm List.not_mem_nil
      · rw [hmerges] at hm
        rw [List.mem_singleton.mp hm]
        exact hmove.nameOf (h.held t (List.mem_of_getElem? ht) _ htarget)
      · rw [hmerges] at hm
        exact absurd hm List.not_mem_nil
  contents := fun cell q hq => h.contents_step hmove hq

/-- **Cells hold what was merged into them** in every run. -/
theorem History.filled (h : History first c s) (hfirst : first.Fresh) : Filled c s := by
  induction h with
  | refl => exact hfirst.filled
  | step hbefore ht hmove ih => exact ih.step (hbefore.stamped hfirst).ordered ht hmove

/-- What was merged are distinct ones of the submitted samples. -/
theorem History.merged_subperm (h : History first c s) (hfirst : first.Fresh) :
    (c.merges.map Prod.snd).Subperm c.submitted.flatten :=
  (List.sublist_append_left _ _).subperm.trans (h.merged_append_pending hfirst.idle).subperm

/-- The profile of a cell is gathered from the submitted samples. -/
theorem History.gathered (h : History first c s) (hfirst : first.Fresh) {p : Profile} (hp : p ∈ s.pool.cells) :
    p.GatheredFrom c.submitted.flatten := by
  obtain ⟨cell, hcell⟩ := List.getElem?_of_mem hp
  have hfilled := h.filled hfirst
  refine ⟨c.into cell, ?_, fun sample hsample => hfilled.name_of_mem_into hcell hsample,
    hfilled.contents cell p hcell⟩
  exact (c.into_sublist cell).subperm.trans (h.merged_subperm hfirst)

/-- Whatever a reader saw was gathered from the samples submitted so far. -/
theorem History.seen (h : History first c s) (hfirst : first.Fresh) :
    ∀ t ∈ s.threads, ∀ p ∈ t.seen, p.GatheredFrom c.submitted.flatten := by
  induction h with
  | refl =>
      intro t ht p hp
      rw [hfirst.unseen t ht] at hp
      exact absurd hp List.not_mem_nil
  | @step c s i t t' o p' hbefore ht hmove ih =>
      intro u hu p hp
      have hgathered : p.GatheredFrom c.submitted.flatten := by
        rcases List.mem_or_eq_of_mem_set hu with hu | rfl
        · exact ih u hu p hp
        · -- a snapshot is taken of a cell as it is before the step
          rcases hmove.seen p hp with hp | hp
          · exact ih t (List.mem_of_getElem? ht) p hp
          · exact hbefore.gathered hfirst hp
      refine hgathered.mono ?_
      rw [Chronicle.submitted_concat, List.flatten_append]
      exact (List.sublist_append_left _ _).subperm

/-! ## Safety -/

/-- What holds of a state that the given requests lead to, and of the chronicle of how they did, if the pool was
    empty first. -/
structure Safe (bound : Nat) (requests : List (List Request)) (c : Chronicle) (s : Shared) : Prop where
  fits : s.pool.tracked.size ≤ max bound 1
  /-- No name has two entries, and the cell of an entry has its name. -/
  names : s.pool.tracked.names.Nodup
  mapped : ∀ e ∈ s.pool.tracked.entries, s.pool.nameOf e.content = some e.name
  /-- Stamps are unique and behind the clock, which counts all that were drawn. -/
  stamps : (s.pool.tracked.entries.map Entry.stamp).Nodup
  drawn : ∀ e ∈ s.pool.tracked.entries, e.stamp < s.pool.tracked.clock
  clock : s.pool.tracked.clock = c.drawn.length
  /-- Since the last clear, what was inserted was evicted or is still there. -/
  insertions : s.pool.evictions + s.pool.tracked.size = c.insertions
  /-- A thread holds a cell of the name that it wants, in the map or not. -/
  held : ∀ t ∈ s.threads, ∀ m ∈ t.phase.targets, s.pool.nameOf m.1 = some m.2
  /-- A cell, in the map or not, is the fold of the samples that were merged into it, all of its own name. -/
  contents : ∀ cell p, s.pool.cells[cell]? = some p →
    (∀ sample ∈ c.into cell, sample.name = p.name) ∧ p = Profile.ofSamples p.name (c.into cell)
  /-- No submitted sample was merged twice. -/
  merged : (c.merges.map Prod.snd).Subperm c.submitted.flatten
  submitted : c.submitted.Subperm (sentBy requests)
  /-- A snapshot is the fold of submitted samples of one name, so its numbers fit together. -/
  seen : ∀ t ∈ s.threads, ∀ p ∈ t.seen, p.GatheredFrom c.submitted.flatten ∧ p.errors ≤ p.calls ∧
    (p = .empty p.name ∨ (1 ≤ p.calls ∧ p.least ≤ p.greatest))

variable {bound : Nat} {requests : List (List Request)}

theorem History.safe (h : History (start bound requests) c s) : Safe bound requests c s := by
  have hfirst := fresh_start bound requests
  have hstamped := h.stamped hfirst
  have hfilled := h.filled hfirst
  have hbound : s.pool.tracked.bound = max bound 1 := hstamped.bound
  have hclock := hstamped.clock
  refine ⟨?_, hstamped.ordered.names, hfilled.mapped, hstamped.ordered.stamps, hstamped.ordered.drawn, ?_,
    hstamped.insertions, hfilled.held, ?_, h.merged_subperm hfirst, ?_, ?_⟩
  · rw [← hbound]
    exact hstamped.ordered.fits
  · have hzero : (start bound requests).pool.tracked.clock = 0 := rfl
    omega
  · intro cell p hp
    exact ⟨fun sample hsample => hfilled.name_of_mem_into hp hsample, hfilled.contents cell p hp⟩
  · rw [← ahead_start bound]
    exact (List.sublist_append_left _ _).subperm.trans h.submitted_append_ahead.subperm
  · intro t ht p hp
    have hgathered := h.seen hfirst t ht p hp
    exact ⟨hgathered, hgathered.errors_le_calls, hgathered.empty_or_called⟩

/-- **Safety in every interleaving.** Whatever threads ask of a registry that tracks nothing first, with
    evictions and clears in between, and in whatever order they take their steps: every state that they can
    reach is safe, together with a chronicle of a run that leads there. -/
theorem safe_of_reachable (h : Reachable (start bound requests) s) :
    ∃ c, History (start bound requests) c s ∧ Safe bound requests c s := by
  obtain ⟨c, hc⟩ := reachable_iff_exists_history.mp h
  exact ⟨c, hc, hc.safe⟩

/-- One name at a time: the first thread holds the cell of `a` while the second evicts it for `b`, merges into
    it behind the back of the map, and gets a second cell for `a` after the clear. The third thread reads `a`
    while it is held. -/
theorem safe_of_reachable_evicted :
    let requests := [[Request.batch [⟨"a", .zero, true, .reading 0⟩, ⟨"a", .greatest, false, .reading 1⟩]],
      [.batch [⟨"b", .zero, true, .reading 2⟩], .clear], [.read "a"]]
    let schedule := [0, 0, 0, 0, 2, 1, 1, 1, 1, 0, 2, 1, 1, 1, 0, 0]
    ∃ s c, (start 0 requests).run schedule = some s ∧ History (start 0 requests) c s ∧ Safe 0 requests c s ∧
      s.pool.cells.map Profile.calls = [1, 1, 0] ∧ s.pool.tracked.contents = [2] ∧
      (s.threads.flatMap Thread.seen).map Profile.calls = [1] := by
  intro requests schedule
  have hrun : ((start 0 requests).run schedule).isSome = true := by decide
  have hcells : ((start 0 requests).run schedule).map (fun s => s.pool.cells.map Profile.calls)
      = some [1, 1, 0] := by
    decide
  have hmapped : ((start 0 requests).run schedule).map (fun s => s.pool.tracked.contents) = some [2] := by decide
  have hseen : ((start 0 requests).run schedule).map (fun s => (s.threads.flatMap Thread.seen).map Profile.calls)
      = some [1] := by
    decide
  obtain ⟨s, hs⟩ := Option.isSome_iff_exists.mp hrun
  obtain ⟨c, hc, hsafe⟩ := safe_of_reachable (Reachable.of_run .refl hs)
  rw [hs] at hcells hmapped hseen
  exact ⟨s, c, hs, hc, hsafe, Option.some.inj hcells, Option.some.inj hmapped, Option.some.inj hseen⟩

end Shared

end SampleProfiler
