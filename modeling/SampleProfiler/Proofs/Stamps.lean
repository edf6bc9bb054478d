import SampleProfiler.Proofs.Interleaving

/-!
# `SampleProfiler.Proofs.Stamps` — stamps under many threads

A thread that finds a name draws a stamp first and stores it later, and other threads may draw, store, evict
and clear in between. So the stamps to look at are those of the entries together with those that threads are
about to store: no two of them are the same and all of them were drawn, in every reachable state. The map then
keeps the invariant `Lru.Ordered` as if its uses were atomic, and every insertion since the last clear is still
in the map or was paid for by an eviction.

## Contents
- **Before the first step.** `Shared.Fresh`.
- **One step.** What a step does to the stamps, to the clock and to the sizes.
- **All runs.** `Shared.Stamped`, kept by every step.
-/

namespace SampleProfiler

/-! ## Before the first step -/

/-- The threads have not begun, and the pool has no entries, no cells and no counts. Its clock may have run. -/
structure Shared.Fresh (first : Shared) : Prop where
  entries : first.pool.tracked.entries = []
  positive : 0 < first.pool.tracked.bound
  cells : first.pool.cells = []
  samples : first.pool.samples = 0
  batches : first.pool.batches = 0
  evictions : first.pool.evictions = 0
  idle : ∀ t ∈ first.threads, t.phase = .idle
  unseen : ∀ t ∈ first.threads, t.seen = []

theorem Shared.fresh_start (bound : Nat) (requests : List (List Request)) : (start bound requests).Fresh where
  entries := rfl
  positive := (Lru.ordered_empty bound : (Lru.empty bound : Lru Nat).Ordered).positive
  cells := rfl
  samples := rfl
  batches := rfl
  evictions := rfl
  idle := by
    intro t ht
    obtain ⟨r, _, rfl⟩ := List.mem_map.mp ht
    rfl
  unseen := by
    intro t ht
    obtain ⟨r, _, rfl⟩ := List.mem_map.mp ht
    rfl

/-- The stamps that a thread is about to store. -/
def Phase.stamps : Phase → List Nat
  | stamping _ stamp _ _ => [stamp]
  | _ => []

namespace Pool

theorem tracked_acquire (p : Pool) (name : String) :
    (p.acquire name).2.tracked = (p.tracked.visit name p.cells.length).2 := by
  unfold acquire
  dsimp only
  split <;> rfl

theorem size_acquire {p : Pool} (h : p.tracked.Ordered) {name : String} (hname : p.tracked.find? name = none) :
    (p.acquire name).2.evictions + (p.acquire name).2.tracked.size = p.evictions + p.tracked.size + 1 := by
  have hsize := Lru.size_visit h name p.cells.length
  rw [if_neg (mt Lru.mem_ranking.mp (Lru.find?_eq_none_iff.mp hname))] at hsize
  rw [acquire_of_none hname]
  dsimp only
  by_cases hevicted : (p.tracked.visit name p.cells.length).1.isSome = true
  · rw [if_pos hevicted] at hsize ⊢
    omega
  · rw [if_neg hevicted] at hsize ⊢
    omega

end Pool

/-! ## One step -/

namespace Thread

variable {quiet : Bool} {p p' : Pool} {t t' : Thread} {o : Occurrence}

/-- A step draws at most one stamp, and that is the reading of the clock. -/
theorem Moves.clock (h : Moves quiet p t o t' p') :
    (o.stamps = [] ∧ p'.tracked.clock = p.tracked.clock) ∨
    (o.stamps = [p.tracked.clock] ∧ p'.tracked.clock = p.tracked.clock + 1) := by
  cases h with
  | hit => exact Or.inr ⟨rfl, rfl⟩
  | refind => exact Or.inr ⟨rfl, rfl⟩
  | insert s =>
      rw [Pool.tracked_acquire, Lru.clock_visit]
      exact Or.inr ⟨rfl, rfl⟩
  | _ => exact Or.inl ⟨rfl, rfl⟩

theorem Moves.bound (h : Moves quiet p t o t' p') : p'.tracked.bound = p.tracked.bound := by
  cases h with
  | insert s => rw [Pool.tracked_acquire, Lru.bound_visit]
  | _ => rfl

/-- A step keeps no stamps but old ones and the one it draws. -/
theorem Moves.stamps_subperm (h : Moves quiet p t o t' p') (hordered : p.tracked.Ordered) :
    (p'.tracked.entries.map Entry.stamp ++ t'.phase.stamps).Subperm
      (o.stamps ++ (p.tracked.entries.map Entry.stamp ++ t.phase.stamps)) := by
  cases h with
  | clear => exact List.nil_subperm
  | hit =>
      show (p.tracked.entries.map Entry.stamp ++ [p.tracked.clock]).Subperm
        (p.tracked.clock :: (p.tracked.entries.map Entry.stamp ++ []))
      rw [List.append_nil]
      exact (List.perm_append_singleton _ _).subperm
  | store cell stamp s =>
      show ((p.tracked.mark s.name stamp).entries.map Entry.stamp ++ []).Subperm
        (p.tracked.entries.map Entry.stamp ++ [stamp])
      rw [List.append_nil]
      exact (hordered.stamps_mark_subperm s.name stamp).trans (List.perm_append_singleton _ _).symm.subperm
  | refind cell s =>
      show ((p.tracked.touch s.name).entries.map Entry.stamp ++ []).Subperm
        (p.tracked.clock :: (p.tracked.entries.map Entry.stamp ++ []))
      rw [List.append_nil, List.append_nil]
      exact hordered.draw.stamps_mark_subperm s.name p.tracked.clock
  | insert s =>
      show ((p.acquire s.name).2.tracked.entries.map Entry.stamp ++ []).Subperm
        (p.tracked.clock :: (p.tracked.entries.map Entry.stamp ++ []))
      rw [List.append_nil, List.append_nil, Pool.tracked_acquire]
      exact hordered.stamps_visit_subperm s.name p.cells.length
  | _ => exact List.Subperm.refl _

/-- A step keeps the map in order if the stamp that it may store was drawn and is in no entry. -/
theorem Moves.ordered (h : Moves quiet p t o t' p') (hordered : p.tracked.Ordered)
    (hdrawn : ∀ n ∈ t.phase.stamps, n < p.tracked.clock)
    (hfresh : ∀ n ∈ t.phase.stamps, n ∉ p.tracked.entries.map Entry.stamp) : p'.tracked.Ordered := by
  cases h with
  | clear => exact hordered.clear
  | hit => exact hordered.draw
  | store cell stamp s =>
      have hmem : stamp ∈ [stamp] := List.mem_singleton_self stamp
      exact hordered.mark s.name (hdrawn stamp hmem) (hfresh stamp hmem)
  | refind cell s => exact hordered.touch s.name
  | insert s =>
      rw [Pool.tracked_acquire]
      exact hordered.visit s.name p.cells.length
  | _ => exact hordered

/-- Evictions and entries together count the insertions. -/
theorem Moves.insertions (h : Moves quiet p t o t' p') (hordered : p.tracked.Ordered) :
    p'.evictions + p'.tracked.size = o.recount (p.evictions + p.tracked.size) := by
  cases h with
  | store => exact congrArg (p.evictions + ·) (List.length_map _)
  | refind => exact congrArg (p.evictions + ·) (List.length_map _)
  | insert s rest requests seen hquiet hname => exact Pool.size_acquire hordered hname
  | _ => rfl

end Thread

/-! ## All runs -/

namespace Shared

/-- The stamps of the entries, and those that threads are about to store. -/
def stamps (s : Shared) : List Nat :=
  s.pool.tracked.entries.map Entry.stamp ++ s.threads.flatMap fun t => t.phase.stamps

/-- What every reachable state keeps about its map. -/
structure Stamped (first : Shared) (c : Chronicle) (s : Shared) : Prop where
  ordered : s.pool.tracked.Ordered
  unique : s.stamps.Nodup
  drawn : ∀ n ∈ s.stamps, n < s.pool.tracked.clock
  bound : s.pool.tracked.bound = first.pool.tracked.bound
  clock : s.pool.tracked.clock = first.pool.tracked.clock + c.drawn.length
  insertions : s.pool.evictions + s.pool.tracked.size = c.insertions

variable {first s : Shared} {c : Chronicle}

theorem Fresh.stamped (h : first.Fresh) : Stamped first [] first := by
  have hstamps : first.stamps = [] := by
    rw [stamps, h.entries, List.map_nil, List.nil_append]
    exact flatMap_phase_of_idle h.idle rfl
  refine ⟨⟨?_, ?_, ?_, ?_, h.positive⟩, ?_, ?_, rfl, rfl, ?_⟩
  · rw [Lru.names, h.entries]
    exact List.nodup_nil
  · rw [h.entries]
    exact List.nodup_nil
  · rw [h.entries]
    intro e he
    exact absurd he List.not_mem_nil
  · rw [Lru.size, h.entries]
    exact Nat.zero_le _
  · rw [hstamps]
    exact List.nodup_nil
  · rw [hstamps]
    intro n hn
    exact absurd hn List.not_mem_nil
  · rw [h.evictions, Lru.size, h.entries]
    rfl

variable {i : Nat} {t t' : Thread} {o : Occurrence} {p' : Pool}

/-- What a step does to the stamps of its thread and of the entries is all that it does to the stamps. -/
theorem stamps_advance_subperm (ht : s.threads[i]? = some t)
    (hstep : (p'.tracked.entries.map Entry.stamp ++ t'.phase.stamps).Subperm
      (o.stamps ++ (s.pool.tracked.entries.map Entry.stamp ++ t.phase.stamps))) :
    ({ pool := p', threads := s.threads.set i t' } : Shared).stamps.Subperm (o.stamps ++ s.stamps) := by
  obtain ⟨rest, hbefore, hafter⟩ := flatMap_set_perm ht t' fun t => t.phase.stamps
  have hother := (List.subperm_append_right rest).mpr hstep
  simp only [List.append_assoc] at hother
  refine (hafter.append_left _).subperm.trans (hother.trans ?_)
  exact ((hbefore.symm.append_left _).append_left _).subperm

/-- A step of a thread keeps the stamps apart. -/
theorem Stamped.step (h : Stamped first c s) (ht : s.threads[i]? = some t)
    (hmove : t.Moves s.isQuiet s.pool o t' p') :
    Stamped first (c ++ [o]) { pool := p', threads := s.threads.set i t' } := by
  have hsub := stamps_advance_subperm ht (hmove.stamps_subperm h.ordered)
  have hmine : ∀ n ∈ t.phase.stamps, n ∈ s.threads.flatMap fun t => t.phase.stamps := fun n hn =>
    List.mem_flatMap.mpr ⟨t, List.mem_of_getElem? ht, hn⟩
  -- the stamp that is drawn is not among the others, which were drawn before
  have hnew : (o.stamps ++ s.stamps).Nodup ∧ ∀ n ∈ o.stamps ++ s.stamps, n < p'.tracked.clock := by
    rcases hmove.clock with ⟨hstamps, hclock⟩ | ⟨hstamps, hclock⟩
    · rw [hstamps, hclock]
      exact ⟨h.unique, h.drawn⟩
    · rw [hstamps, hclock]
      refine ⟨List.nodup_cons.mpr ⟨fun hmem => Nat.lt_irrefl _ (h.drawn _ hmem), h.unique⟩, ?_⟩
      intro n hn
      rcases List.mem_cons.mp hn with rfl | hn
      · exact Nat.lt_succ_self _
      · exact Nat.lt_succ_of_lt (h.drawn n hn)
  refine ⟨?_, Lru.nodup_of_subperm hsub hnew.1, fun n hn => hnew.2 n (hsub.subset hn), ?_, ?_, ?_⟩
  · refine hmove.ordered h.ordered ?_ ?_
    · intro n hn
      exact h.drawn n (List.mem_append_right _ (hmine n hn))
    · intro n hn hentry
      exact (List.nodup_append.mp h.unique).2.2 n hentry n (hmine n hn) rfl
  · exact hmove.bound.trans h.bound
  · have hclock := h.clock
    rw [Chronicle.drawn_concat, List.length_append]
    show p'.tracked.clock = _
    rcases hmove.clock with ⟨hstamps, hnext⟩ | ⟨hstamps, hnext⟩
    · rw [hstamps, hnext, List.length_nil]
      omega
    · rw [hstamps, hnext, List.length_singleton]
      omega
  · rw [Chronicle.insertions_concat, ← h.insertions]
    exact hmove.insertions h.ordered

/-- **Stamps stay apart** in every run. -/
theorem History.stamped (h : History first c s) (hfirst : first.Fresh) : Stamped first c s := by
  induction h with
  | refl => exact hfirst.stamped
  | step _ ht hmove ih => exact ih.step ht hmove

end Shared

end SampleProfiler
