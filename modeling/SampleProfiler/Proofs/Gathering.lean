import Mathlib.Data.List.Dedup
import Mathlib.Data.List.Perm.Subperm
import SampleProfiler.Proofs.Cells
import SampleProfiler.Registry

/-!
# `SampleProfiler.Proofs.Gathering` — no lost update under many threads

Threads that never clear gather everything: when all of them are finished, every batch and every sample is
counted and was merged. As long as no name was evicted, each name has one cell, so its profile is the fold of
all its samples, whatever order the threads took their steps in. Names are evicted only if there are more of
them than the bound allows.

## Contents
- **Readings.** `Pool.registry`, the pool as a registry.
- **One step.** What a step other than a clear does to the counters and to the names.
- **All runs.** `Shared.Gathered`, kept by every step.
- **Finished runs.** `Registry.Outcome`, the end of every run, and `registry_of_finished`.
-/

namespace SampleProfiler

/-! ## Readings -/

namespace Pool

/-- The profile in a cell. -/
def profileAt (p : Pool) (cell : Nat) : Profile :=
  (p.cells[cell]?).getD default

/-- The pool as a registry: what its reads find while no thread is at work. -/
def registry (p : Pool) : Registry :=
  { tracked := p.tracked.map p.profileAt, samples := p.samples, batches := p.batches, evictions := p.evictions }

theorem profile_registry {p : Pool} {name : String} {cell : Nat} {profile : Profile}
    (hfound : p.tracked.find? name = some cell) (hcell : p.cells[cell]? = some profile) :
    p.registry.profile name = .ok profile := by
  unfold Registry.profile registry
  dsimp only
  rw [Lru.find?_map, hfound, Option.map_some, profileAt, hcell]
  rfl

end Pool

/-- The samples of a batch that is counted while its samples are not. -/
def Phase.uncounted : Phase → List Sample
  | counted batch => batch
  | _ => []

/-- The names of samples, each once. -/
def distinctNames (samples : List Sample) : List String :=
  (samples.map Sample.name).dedup

theorem mem_distinctNames {samples : List Sample} {name : String} :
    name ∈ distinctNames samples ↔ ∃ x ∈ samples, x.name = name := by
  rw [distinctNames, List.mem_dedup, List.mem_map]

theorem nodup_distinctNames (samples : List Sample) : (distinctNames samples).Nodup :=
  List.nodup_dedup _

theorem distinctNames_perm {samples other : List Sample} (h : samples.Perm other) :
    (distinctNames samples).Perm (distinctNames other) :=
  (h.map Sample.name).dedup

/-- More samples do not have fewer names. -/
theorem distinctNames_mono {samples more : List Sample} (h : samples ⊆ more) :
    distinctNames samples ⊆ distinctNames more := by
  intro name hname
  obtain ⟨x, hx, rfl⟩ := mem_distinctNames.mp hname
  exact mem_distinctNames.mpr ⟨x, h hx, rfl⟩

/-- A name that occurs has samples. -/
theorem ne_nil_of_mem_distinctNames {samples order : List Sample} {name : String}
    (hname : name ∈ distinctNames samples) (horder : order.Perm (samples.filter fun x => x.name = name)) :
    order ≠ [] := by
  obtain ⟨x, hx, hxname⟩ := mem_distinctNames.mp hname
  have hmem := horder.symm.subset (List.mem_filter.mpr ⟨hx, decide_eq_true hxname⟩)
  exact List.ne_nil_of_mem hmem

/-- The names of the submitted samples. -/
def Chronicle.names (c : Chronicle) : List String :=
  distinctNames c.submitted.flatten

/-! ## One step -/

namespace Thread

variable {quiet : Bool} {p p' : Pool} {t t' : Thread} {o : Occurrence}

/-- A step begins the first request or leaves them all. -/
theorem Moves.requests (h : Moves quiet p t o t' p') : ∀ r ∈ t'.requests, r ∈ t.requests := by
  intro r hr
  cases h with
  | skip => exact List.mem_cons_of_mem _ hr
  | submit => exact List.mem_cons_of_mem _ hr
  | clear => exact List.mem_cons_of_mem _ hr
  | read => exact List.mem_cons_of_mem _ hr
  | readAll => exact List.mem_cons_of_mem _ hr
  | _ => exact hr

theorem Moves.clear_mem (h : Moves quiet p t .cleared t' p') : Request.clear ∈ t.requests := by
  cases h with
  | clear => exact List.mem_cons_self

theorem Moves.batches (h : Moves quiet p t o t' p') (ho : o ≠ .cleared) :
    p'.batches = p.batches + o.batches.length := by
  cases h with
  | clear => exact absurd rfl ho
  | insert s rest requests seen hquiet hname =>
      rw [Pool.acquire_of_none hname]
      rfl
  | _ => rfl

theorem Moves.samples (h : Moves quiet p t o t' p') (ho : o ≠ .cleared) :
    p'.samples + t'.phase.uncounted.length
      = p.samples + t.phase.uncounted.length + o.batches.flatten.length := by
  cases h with
  | clear => exact absurd rfl ho
  | submit batch =>
      show p.samples + batch.length = p.samples + 0 + [batch].flatten.length
      rw [List.flatten_singleton, Nat.add_zero]
  | insert s rest requests seen hquiet hname =>
      rw [Pool.acquire_of_none hname]
      rfl
  | _ => rfl

/-- Every cell that was made was counted. -/
theorem Moves.made (h : Moves quiet p t o t' p') (ho : o ≠ .cleared) :
    p'.cells.length = o.recount p.cells.length := by
  cases h with
  | clear => exact absurd rfl ho
  | insert s rest requests seen hquiet hname =>
      rw [Pool.acquire_of_none hname, List.length_append, List.length_singleton]
      rfl
  | merge => exact List.length_modify _ _ _
  | _ => rfl

/-- A name that a cell gets is the name of a pending sample. -/
theorem Moves.named (h : Moves quiet p t o t' p') {cell : Nat} {name : String}
    (hname : p'.nameOf cell = some name) :
    p.nameOf cell = some name ∨ name ∈ t.phase.pending.map Sample.name := by
  cases h with
  | merge target s =>
      rw [Pool.nameOf_merge] at hname
      exact Or.inl hname
  | insert s rest requests seen hquiet hfound =>
      rw [Pool.nameOf_acquire hfound] at hname
      by_cases hcell : cell = p.cells.length
      · rw [if_pos hcell] at hname
        rw [← Option.some.inj hname]
        exact Or.inr List.mem_cons_self
      · rw [if_neg hcell] at hname
        exact Or.inl hname
  | _ => exact Or.inl hname

/-- As long as nothing is evicted, every cell stays in the map. -/
theorem Moves.retained (h : Moves quiet p t o t' p') (ho : o ≠ .cleared) (hordered : p.tracked.Ordered)
    (hretained : p.evictions = 0 → ∀ cell name, p.nameOf cell = some name → p.tracked.find? name = some cell) :
    p'.evictions = 0 → ∀ cell name, p'.nameOf cell = some name → p'.tracked.find? name = some cell := by
  intro hevictions cell name hname
  cases h with
  | clear => exact absurd rfl ho
  | store _ stamp s =>
      rw [Lru.find?_mark]
      exact hretained hevictions cell name hname
  | refind _ s =>
      rw [Lru.find?_touch]
      exact hretained hevictions cell name hname
  | merge target s =>
      rw [Pool.nameOf_merge] at hname
      exact hretained hevictions cell name hname
  | insert s rest requests seen hquiet hfound =>
      rw [Pool.nameOf_acquire hfound] at hname
      rw [Pool.tracked_acquire]
      have hnotin := Lru.find?_eq_none_iff.mp hfound
      rw [Pool.acquire_of_none hfound] at hevictions
      -- an eviction would be counted, so there was room for the new cell
      rcases Lru.visit_cases hordered s.name p.cells.length with
        ⟨hcontains, _⟩ | ⟨_, _, hvisit⟩ | ⟨_, _, v, _, hvisit⟩
      · exact absurd (Lru.contains_iff_mem_names.mp hcontains) hnotin
      · rw [hvisit] at hevictions ⊢
        rw [Lru.find?_insert]
        by_cases hcell : cell = p.cells.length
        · rw [if_pos hcell] at hname
          rw [if_pos (Option.some.inj hname), hcell]
        · rw [if_neg hcell] at hname
          have hold := hretained hevictions cell name hname
          have hne : s.name ≠ name := by
            rintro rfl
            rw [hfound] at hold
            exact absurd hold.symm (Option.some_ne_none cell)
          rw [if_neg hne]
          exact hold
      · rw [hvisit] at hevictions
        exact absurd hevictions (Nat.succ_ne_zero _)
  | _ => exact hretained hevictions cell name hname

/-- Something is evicted only for a name that finds a full map, and the map stays full then. -/
theorem Moves.evicted (h : Moves quiet p t o t' p') (ho : o ≠ .cleared) (hordered : p.tracked.Ordered)
    {names : List String} (htracked : ∀ x ∈ p.tracked.names, x ∈ names)
    (hpending : ∀ s ∈ t.phase.pending, s.name ∈ names)
    (hevicted : p.evictions ≠ 0 → p.tracked.size = p.tracked.bound ∧ p.tracked.bound < names.length) :
    p'.evictions ≠ 0 → p'.tracked.size = p'.tracked.bound ∧ p'.tracked.bound < names.length := by
  intro hevictions
  cases h with
  | clear => exact absurd rfl ho
  | store _ stamp s =>
      rw [show (p.tracked.mark s.name stamp).size = p.tracked.size from List.length_map _]
      exact hevicted hevictions
  | refind _ s =>
      rw [show (p.tracked.touch s.name).size = p.tracked.size from List.length_map _]
      exact hevicted hevictions
  | insert s rest requests seen hquiet hfound =>
      have hnotin := Lru.find?_eq_none_iff.mp hfound
      rw [Pool.tracked_acquire, Lru.bound_visit]
      rw [Pool.acquire_of_none hfound] at hevictions
      rcases Lru.visit_cases hordered s.name p.cells.length with
        ⟨hcontains, _⟩ | ⟨_, hroom, hvisit⟩ | ⟨_, hfull, v, hv, hvisit⟩
      · exact absurd (Lru.contains_iff_mem_names.mp hcontains) hnotin
      · rw [hvisit] at hevictions
        have hsize := (hevicted hevictions).1
        omega
      · -- the names of the full map and the new one are distinct names
        have hdistinct : (s.name :: p.tracked.names).Nodup := List.nodup_cons.mpr ⟨hnotin, hordered.names⟩
        have hsubset : s.name :: p.tracked.names ⊆ names := by
          intro x hx
          rcases List.mem_cons.mp hx with rfl | hx
          · exact hpending s List.mem_cons_self
          · exact htracked x hx
        have hmany := (List.Nodup.subperm hdistinct hsubset).length_le
        have hsize : p.tracked.names.length = p.tracked.size := List.length_map _
        have hless := hordered.size_without (stalest?_spec hv).1
        rw [List.length_cons, hsize] at hmany
        rw [hvisit]
        have hnext : ((p.tracked.without v.name).insert s.name p.cells.length).size
            = (p.tracked.without v.name).size + 1 := rfl
        show ((p.tracked.without v.name).insert s.name p.cells.length).size = p.tracked.bound ∧ _
        omega
  | _ => exact hevicted hevictions

end Thread

/-! ## All runs -/

namespace Shared

/-- What every state keeps that threads reach without a clear. -/
structure Gathered (c : Chronicle) (s : Shared) : Prop where
  batches : s.pool.batches = c.submitted.length
  samples : s.pool.samples + (s.threads.flatMap fun t => t.phase.uncounted).length = c.submitted.flatten.length
  made : s.pool.cells.length = c.insertions
  named : ∀ cell name, s.pool.nameOf cell = some name → name ∈ c.names
  retained : s.pool.evictions = 0 → ∀ cell name, s.pool.nameOf cell = some name →
    s.pool.tracked.find? name = some cell
  evicted : s.pool.evictions ≠ 0 → s.pool.tracked.size = s.pool.tracked.bound ∧
    s.pool.tracked.bound < c.names.length

variable {first s : Shared} {c : Chronicle}

theorem Fresh.gathered (h : first.Fresh) : Gathered [] first where
  batches := h.batches
  samples := by
    have huncounted : (first.threads.flatMap fun t => t.phase.uncounted) = [] := flatMap_phase_of_idle h.idle rfl
    rw [huncounted, h.samples]
    rfl
  made := by
    rw [h.cells]
    rfl
  named := by
    intro cell name hname
    rw [Pool.nameOf, h.cells, List.getElem?_nil] at hname
    exact absurd hname.symm (Option.some_ne_none name)
  retained := by
    intro _ cell name hname
    rw [Pool.nameOf, h.cells, List.getElem?_nil] at hname
    exact absurd hname.symm (Option.some_ne_none name)
  evicted := fun hevictions => absurd h.evictions hevictions

/-- Threads that make no clear never clear. -/
theorem History.calm (h : History first c s) (hcalm : ∀ t ∈ first.threads, Request.clear ∉ t.requests) :
    Occurrence.cleared ∉ c ∧ ∀ t ∈ s.threads, Request.clear ∉ t.requests := by
  induction h with
  | refl => exact ⟨List.not_mem_nil, hcalm⟩
  | @step c s i t t' o p' _ ht hmove ih =>
      have hmine := ih.2 t (List.mem_of_getElem? ht)
      constructor
      · intro hmem
        rcases List.mem_append.mp hmem with hmem | hmem
        · exact ih.1 hmem
        · rw [← List.mem_singleton.mp hmem] at hmove
          exact hmine hmove.clear_mem
      · intro u hu
        rcases List.mem_or_eq_of_mem_set hu with hu | rfl
        · exact ih.2 u hu
        · exact fun hmem => hmine (hmove.requests _ hmem)

variable {i : Nat} {t t' : Thread} {o : Occurrence} {p' : Pool}

/-- Whatever is pending was submitted. -/
theorem History.mem_names_of_pending (h : History first c s) (hfirst : first.Fresh) (ht : t ∈ s.threads)
    {sample : Sample} (hsample : sample ∈ t.phase.pending) : sample.name ∈ c.names := by
  refine mem_distinctNames.mpr ⟨sample, (h.merged_append_pending hfirst.idle).subset ?_, rfl⟩
  exact List.mem_append_right _ (List.mem_flatMap.mpr ⟨t, ht, hsample⟩)

theorem Gathered.step (h : Gathered c s) (hbefore : History first c s) (hfirst : first.Fresh)
    (ht : s.threads[i]? = some t) (hmove : t.Moves s.isQuiet s.pool o t' p') (ho : o ≠ .cleared) :
    Gathered (c ++ [o]) { pool := p', threads := s.threads.set i t' } := by
  have hordered := (hbefore.stamped hfirst).ordered
  have hmapped := (hbefore.filled hfirst).mapped
  have hpending : ∀ sample ∈ t.phase.pending, sample.name ∈ c.names := fun sample hsample =>
    hbefore.mem_names_of_pending hfirst (List.mem_of_getElem? ht) hsample
  have hmore : c.names ⊆ Chronicle.names (c ++ [o]) := by
    apply distinctNames_mono
    rw [Chronicle.submitted_concat, List.flatten_append]
    exact List.subset_append_left _ _
  refine ⟨?_, ?_, ?_, ?_, hmove.retained ho hordered h.retained, ?_⟩
  · rw [Chronicle.submitted_concat, List.length_append, ← h.batches]
    exact hmove.batches ho
  · -- the other threads have the same share of the uncounted samples before and after
    obtain ⟨rest, hold, hnew⟩ := flatMap_set_perm ht t' fun t => t.phase.uncounted
    have hsamples := h.samples
    have hstep := hmove.samples ho
    rw [hold.length_eq, List.length_append] at hsamples
    rw [Chronicle.submitted_concat, List.flatten_append, List.length_append]
    show p'.samples + ((s.threads.set i t').flatMap fun t => t.phase.uncounted).length = _
    rw [hnew.length_eq, List.length_append]
    omega
  · rw [Chronicle.insertions_concat, ← h.made]
    exact hmove.made ho
  · intro cell name hname
    rcases hmove.named hname with hname | hname
    · exact hmore (h.named cell name hname)
    · obtain ⟨sample, hsample, rfl⟩ := List.mem_map.mp hname
      exact hmore (hpending sample hsample)
  · intro hevictions
    have htracked : ∀ x ∈ s.pool.tracked.names, x ∈ c.names := by
      intro x hx
      obtain ⟨e, he, rfl⟩ := List.mem_map.mp hx
      exact h.named _ _ (hmapped e he)
    have hall := hmove.evicted ho hordered htracked hpending h.evicted hevictions
    have hlength := (List.Nodup.subperm (nodup_distinctNames _) hmore).length_le
    exact ⟨hall.1, Nat.lt_of_lt_of_le hall.2 hlength⟩

/-- **Nothing is lost** in a run without a clear. -/
theorem History.gathered_of_calm (h : History first c s) (hfirst : first.Fresh) (hcalm : Occurrence.cleared ∉ c) :
    Gathered c s := by
  induction h with
  | refl => exact hfirst.gathered
  | step hbefore ht hmove ih =>
      rw [List.mem_append, not_or, List.mem_singleton] at hcalm
      exact (ih hcalm.1).step hbefore hfirst ht hmove (Ne.symm hcalm.2)

end Shared

/-! ## Finished runs -/

/-- What a registry holds in the end that received the given batches and was never cleared, whoever sent the
    batches and in whatever order they arrived. -/
structure Registry.Outcome (bound : Nat) (sent : List (List Sample)) (r : Registry) : Prop where
  batches : r.batches = sent.length
  samples : r.samples = sent.flatten.length
  size : r.tracked.size = min bound (distinctNames sent.flatten).length
  insertions : (distinctNames sent.flatten).length ≤ r.evictions + r.tracked.size
  kept : (distinctNames sent.flatten).length ≤ bound → r.evictions = 0
  names : (distinctNames sent.flatten).length ≤ bound → r.tracked.names.Perm (distinctNames sent.flatten)
  profiles : (distinctNames sent.flatten).length ≤ bound → ∀ name ∈ distinctNames sent.flatten,
    ∃ samples, samples.Perm (sent.flatten.filter fun x => x.name = name) ∧
      r.profile name = .ok (Profile.ofSamples name samples)

namespace Registry

variable {r : Registry}

theorem mem_profiles_of_profile {name : String} {p : Profile} (h : r.profile name = .ok p) : p ∈ r.profiles := by
  unfold profile at h
  cases hfound : r.tracked.find? name with
  | none =>
      rw [hfound] at h
      exact absurd h (by simp)
  | some q =>
      rw [hfound] at h
      obtain ⟨e, he, _, hcontent⟩ := Lru.exists_entry_of_find? hfound
      rw [← Except.ok.inj h, ← hcontent]
      exact List.mem_map_of_mem he

/-- The profiles in the end go by the names under which they are tracked. -/
theorem Outcome.names_profiles {bound : Nat} {sent : List (List Sample)} (h : r.Outcome bound sent)
    (hfew : (distinctNames sent.flatten).length ≤ bound) : r.profiles.map Profile.name = r.tracked.names := by
  have hnames := h.names hfew
  have hnodup : r.tracked.names.Nodup := hnames.nodup_iff.mpr (nodup_distinctNames _)
  unfold Registry.profiles Lru.contents Lru.names
  rw [List.map_map]
  apply List.map_congr_left
  intro e he
  obtain ⟨samples, _, hprofile⟩ := h.profiles hfew e.name (hnames.subset (List.mem_map_of_mem he))
  rw [profile, Lru.find?_of_mem hnodup he] at hprofile
  rw [Function.comp_apply, Except.ok.inj hprofile, Profile.name_ofSamples]

end Registry

namespace Shared

variable {first s : Shared} {c : Chronicle}

theorem isFinished_iff : s.isFinished = true ↔ ∀ t ∈ s.threads, t.phase = .idle ∧ t.requests = [] := by
  unfold isFinished
  rw [List.all_eq_true]
  refine forall_congr' fun t => forall_congr' fun _ => ?_
  obtain ⟨requests, phase, seen⟩ := t
  cases phase <;> simp [Thread.isFinished]

/-- In the end, every batch was submitted. -/
theorem History.submitted_of_finished (h : History first c s) (hfinished : s.isFinished = true) :
    c.submitted.Perm (first.threads.flatMap Thread.ahead) := by
  have hahead : s.threads.flatMap Thread.ahead = [] := by
    rw [List.flatMap_eq_nil_iff]
    intro t ht
    rw [Thread.ahead, (isFinished_iff.mp hfinished t ht).2]
    rfl
  have haccount := h.submitted_append_ahead
  rwa [hahead, List.append_nil] at haccount

/-- In the end, every sample was merged. -/
theorem History.merged_of_finished (h : History first c s) (hfirst : first.Fresh)
    (hfinished : s.isFinished = true) : (c.merges.map Prod.snd).Perm c.submitted.flatten := by
  have hpending : (s.threads.flatMap fun t => t.phase.pending) = [] :=
    flatMap_phase_of_idle (fun t ht => (isFinished_iff.mp hfinished t ht).1) rfl
  have haccount := h.merged_append_pending hfirst.idle
  rwa [hpending, List.append_nil] at haccount

/-- In the end, every name that was submitted has a cell. -/
theorem History.exists_cell (h : History first c s) (hfirst : first.Fresh) (hfinished : s.isFinished = true)
    {name : String} (hname : name ∈ c.names) : ∃ cell, s.pool.nameOf cell = some name := by
  obtain ⟨sample, hsample, rfl⟩ := mem_distinctNames.mp hname
  obtain ⟨m, hm, rfl⟩ := List.mem_map.mp ((h.merged_of_finished hfirst hfinished).symm.subset hsample)
  exact ⟨m.1, (h.filled hfirst).merged m hm⟩

theorem History.length_names_le (h : History first c s) (hfirst : first.Fresh) (hfinished : s.isFinished = true) :
    c.names.length ≤ s.pool.cells.length := by
  have hsubset : c.names ⊆ s.pool.cells.map Profile.name := by
    intro name hname
    obtain ⟨cell, hcell⟩ := h.exists_cell hfirst hfinished hname
    obtain ⟨p, hp, rfl⟩ := Pool.nameOf_eq_some_iff.mp hcell
    exact List.mem_map_of_mem (List.mem_of_getElem? hp)
  have hlength := (List.Nodup.subperm (nodup_distinctNames _) hsubset).length_le
  rwa [List.length_map] at hlength

/-- If nothing was evicted, the map ends up with the names that were submitted. -/
theorem History.names_perm (h : History first c s) (hfirst : first.Fresh) (hgathered : Gathered c s)
    (hfinished : s.isFinished = true) (hevictions : s.pool.evictions = 0) :
    s.pool.tracked.names.Perm c.names := by
  have hordered := (h.stamped hfirst).ordered
  refine (List.perm_ext_iff_of_nodup hordered.names (nodup_distinctNames _)).mpr ?_
  intro name
  constructor
  · intro hname
    obtain ⟨e, he, rfl⟩ := List.mem_map.mp hname
    exact hgathered.named _ _ ((h.filled hfirst).mapped e he)
  · intro hname
    obtain ⟨cell, hcell⟩ := h.exists_cell hfirst hfinished hname
    rw [← Lru.contains_iff_mem_names, Lru.contains, hgathered.retained hevictions cell name hcell]
    rfl

/-- The size of the map at the end. -/
theorem History.size_eq (h : History first c s) (hfirst : first.Fresh) (hgathered : Gathered c s)
    (hfinished : s.isFinished = true) : s.pool.tracked.size = min first.pool.tracked.bound c.names.length := by
  have hfits := (h.stamped hfirst).ordered.fits
  have hbound := (h.stamped hfirst).bound
  by_cases hevictions : s.pool.evictions = 0
  · have hall := (h.names_perm hfirst hgathered hfinished hevictions).length_eq
    have hnames : s.pool.tracked.names.length = s.pool.tracked.size := List.length_map _
    omega
  · -- the map was full at the first eviction and stayed so
    obtain ⟨hfull, hmany⟩ := hgathered.evicted hevictions
    omega

/-- If a name has one cell only, all its samples were merged into that. -/
theorem Filled.into_eq_filter (h : Filled c s) {cell : Nat} {name : String}
    (hname : s.pool.nameOf cell = some name) (honly : ∀ other, s.pool.nameOf other = some name → other = cell) :
    c.into cell = (c.merges.map Prod.snd).filter fun x => x.name = name := by
  rw [Chronicle.into, List.filter_map]
  congr 1
  apply List.filter_congr
  intro m hm
  have hmerged := h.merged m hm
  rw [Function.comp_apply, decide_eq_decide]
  constructor
  · intro hcell
    rw [hcell, hname] at hmerged
    exact (Option.some.inj hmerged).symm
  · intro hsame
    rw [hsame] at hmerged
    exact honly m.1 hmerged

/-- If nothing was evicted, every name ends up with the fold of all its samples. -/
theorem History.profile_eq (h : History first c s) (hfirst : first.Fresh) (hgathered : Gathered c s)
    (hfinished : s.isFinished = true) (hevictions : s.pool.evictions = 0) {name : String}
    (hname : name ∈ c.names) :
    ∃ samples, samples.Perm (c.submitted.flatten.filter fun x => x.name = name) ∧
      s.pool.registry.profile name = .ok (Profile.ofSamples name samples) := by
  have hfilled := h.filled hfirst
  have hretained := hgathered.retained hevictions
  obtain ⟨cell, hcell⟩ := h.exists_cell hfirst hfinished hname
  obtain ⟨p, hp, rfl⟩ := Pool.nameOf_eq_some_iff.mp hcell
  -- every cell is in the map still, and the map has one entry for a name
  have honly : ∀ other, s.pool.nameOf other = some p.name → other = cell := by
    intro other hother
    have hsame := (hretained other p.name hother).symm.trans (hretained cell p.name hcell)
    exact Option.some.inj hsame
  refine ⟨c.into cell, ?_, ?_⟩
  · rw [hfilled.into_eq_filter hcell honly]
    exact (h.merged_of_finished hfirst hfinished).filter _
  · rw [Pool.profile_registry (hretained cell p.name hcell) hp]
    exact congrArg Except.ok (hfilled.contents cell p hp)

/-- **The end of every run.** Threads that make no clear leave a registry with all batches and samples, and with
    as many of the names as fit. -/
theorem History.outcome (h : History first c s) (hfirst : first.Fresh)
    (hcalm : ∀ t ∈ first.threads, Request.clear ∉ t.requests) (hfinished : s.isFinished = true) :
    s.pool.registry.Outcome first.pool.tracked.bound (first.threads.flatMap Thread.ahead) := by
  have hgathered := h.gathered_of_calm hfirst (h.calm hcalm).1
  have hsubmitted := h.submitted_of_finished hfinished
  have hnames := distinctNames_perm hsubmitted.flatten
  have hdistinct : (distinctNames (first.threads.flatMap Thread.ahead).flatten).length = c.names.length :=
    hnames.length_eq.symm
  have hinsertions : s.pool.evictions + s.pool.tracked.size = s.pool.cells.length :=
    (h.stamped hfirst).insertions.trans hgathered.made.symm
  have hnone : c.names.length ≤ first.pool.tracked.bound → s.pool.evictions = 0 := by
    intro hfew
    have hbound := (h.stamped hfirst).bound
    apply Classical.byContradiction
    intro hevictions
    have hmany := (hgathered.evicted hevictions).2
    omega
  have huncounted : (s.threads.flatMap fun t => t.phase.uncounted) = [] :=
    flatMap_phase_of_idle (fun t ht => (isFinished_iff.mp hfinished t ht).1) rfl
  have hsize : s.pool.registry.tracked.size = s.pool.tracked.size := Lru.size_map _ _
  refine ⟨hgathered.batches.trans hsubmitted.length_eq, ?_, ?_, ?_, ?_, ?_, ?_⟩
  · have hsamples := hgathered.samples
    rw [huncounted, List.length_nil, Nat.add_zero, hsubmitted.flatten.length_eq] at hsamples
    exact hsamples
  · rw [hsize, hdistinct]
    exact h.size_eq hfirst hgathered hfinished
  · rw [hsize, hdistinct]
    show _ ≤ s.pool.evictions + s.pool.tracked.size
    rw [hinsertions]
    exact h.length_names_le hfirst hfinished
  · rw [hdistinct]
    exact hnone
  · rw [hdistinct]
    intro hfew
    show (s.pool.tracked.map _).names.Perm _
    rw [Lru.names_map]
    exact (h.names_perm hfirst hgathered hfinished (hnone hfew)).trans hnames
  · rw [hdistinct]
    intro hfew name hname
    have hmem : name ∈ c.names := hnames.symm.subset hname
    obtain ⟨samples, hperm, hprofile⟩ := h.profile_eq hfirst hgathered hfinished (hnone hfew) hmem
    exact ⟨samples, hperm.trans (hsubmitted.flatten.filter _), hprofile⟩

/-- **No lost and no doubled update.** Threads send batches to a registry that tracks nothing first, and none of
    them clears. If there are no more names than the bound allows and no duration is negative, then in whatever
    order the threads took their steps, when all are finished the registry tracks every name once, without an
    eviction, counts every sample and every batch that is not empty, and has for each name the profile of all
    its samples, in whatever order these are recorded. -/
theorem registry_of_finished {bound : Nat} {requests : List (List Request)}
    (hreach : Reachable (start bound requests) s) (hfinished : s.isFinished = true)
    (hcalm : Request.clear ∉ requests.flatten)
    (hfits : (distinctNames (sentBy requests).flatten).length ≤ max bound 1)
    (hdurations : ∀ x ∈ (sentBy requests).flatten, 0 ≤ x.duration.toInt) :
    let given := (sentBy requests).flatten
    let r := s.pool.registry
    r.tracked.names.Perm (distinctNames given) ∧
    r.totals = ⟨(distinctNames given).length, given.length, (sentBy requests).length, 0⟩ ∧
    ∀ name ∈ distinctNames given, ∀ order, order.Perm (given.filter fun x => x.name = name) →
      r.profile name = .ok (Profile.ofSamples name order) ∧
      (Profile.ofSamples name order).Summarizes order := by
  intro given r
  obtain ⟨c, hc⟩ := reachable_iff_exists_history.mp hreach
  have hquiet : ∀ t ∈ (start bound requests).threads, Request.clear ∉ t.requests := by
    intro t ht hclear
    obtain ⟨own, hown, rfl⟩ := List.mem_map.mp ht
    exact hcalm (List.mem_flatten.mpr ⟨own, hown, hclear⟩)
  have houtcome := hc.outcome (fresh_start bound requests) hquiet hfinished
  rw [ahead_start] at houtcome
  refine ⟨houtcome.names hfits, ?_, ?_⟩
  · have hsize : r.tracked.size = (distinctNames given).length := houtcome.size.trans (Nat.min_eq_right hfits)
    rw [Registry.totals, hsize, houtcome.samples, houtcome.batches, houtcome.kept hfits]
  · intro name hname order horder
    obtain ⟨samples, hperm, hprofile⟩ := houtcome.profiles hfits name hname
    have hnonneg : ∀ x ∈ order, 0 ≤ x.duration.toInt := fun x hx =>
      hdurations x (List.mem_filter.mp (horder.subset hx)).1
    have hne : order ≠ [] := ne_nil_of_mem_distinctNames hname horder
    rw [hprofile, Profile.ofSamples_perm name (horder.trans hperm.symm) hnonneg]
    refine ⟨rfl, ?_⟩
    rw [← Profile.ofSamples_perm name (horder.trans hperm.symm) hnonneg]
    exact Profile.summarizes_ofSamples name hne hnonneg

/-- Two threads miss `a` at the same time, and the second one finds in its exclusive section what the first one
    inserted. The total of `a` stops at the top of the range. -/
theorem registry_of_finished_race :
    let requests := [[Request.batch [⟨"a", .greatest, true, .reading 0⟩, ⟨"b", .zero, true, .reading 1⟩]],
      [.batch [], .batch [⟨"a", .greatest, false, .reading 2⟩]]]
    let schedule := [0, 0, 0, 1, 1, 1, 1, 0, 1, 1, 0, 0, 0, 0, 0, 1]
    ∃ s, (start 2 requests).run schedule = some s ∧ s.isFinished = true ∧
      s.pool.registry.totals = ⟨2, 3, 2, 0⟩ ∧
      s.pool.registry.profile "a" = .ok (Profile.ofSamples "a"
        [⟨"a", .greatest, false, .reading 2⟩, ⟨"a", .greatest, true, .reading 0⟩]) := by
  intro requests schedule
  have hrun : ((start 2 requests).run schedule).isSome = true := by decide
  have hend : ((start 2 requests).run schedule).map isFinished = some true := by decide
  obtain ⟨s, hs⟩ := Option.isSome_iff_exists.mp hrun
  rw [hs] at hend
  have hfinished : s.isFinished = true := Option.some.inj hend
  have hcalm : Request.clear ∉ requests.flatten := by simp [requests]
  obtain ⟨_, htotals, hprofiles⟩ :=
    registry_of_finished (Reachable.of_run .refl hs) hfinished hcalm (by decide) (by decide)
  refine ⟨s, hs, hfinished, htotals, ?_⟩
  exact (hprofiles "a" (by decide) _ (by decide)).1

end Shared

end SampleProfiler
