import SampleProfiler.Proofs.Cells

/-!
# `SampleProfiler.Proofs.Overtaking` — stamps that are stored out of order

A thread that finds a name draws a stamp and stores it in a second step, and the shared section in which it does both
keeps no other thread out that finds the same name. That one may draw a later stamp and store it first, and then
the earlier stamp overwrites the later one: the entry looks less recent than it is, for as long as nobody
accesses it again, and an eviction may take it instead of an entry that was not used for longer
(`not_latest_eq_stamp`).

Nothing else can go wrong. An entry whose stamp is not the latest one that was drawn for it has a stamp that was
not stored yet when the later one was drawn, so the two sections overlapped (`ranks_of_quiet`). The invariant that
carries this is `Ranked`: with every stamp that is in the map or about to be stored, the overlaps account for all later
ones.

## Contents
- **Accesses.** `Access`, those of a chronicle, and those that are not stored yet.
- **Overlaps.** `Shared.overlaps` of a step, and `Shared.overlapsAlong` a schedule.
- **One step.** `Ranked`, kept by every step.
- **All runs.** `ranks_of_quiet`, and a run in which an eviction takes the wrong entry.
-/

namespace SampleProfiler

/-! ## Accesses -/

/-- An access of the entry that a cell belongs to, with the stamp that was drawn for it. -/
structure Access where
  cell : Nat
  stamp : Nat
deriving DecidableEq

/-- The access that a stamp is drawn for. -/
def Occurrence.accesses : Occurrence → List Access
  | drew cell stamp => [⟨cell, stamp⟩]
  | inserted _ cell stamp => [⟨cell, stamp⟩]
  | _ => []

/-- The access whose stamp a thread is about to store. -/
def Phase.accesses : Phase → List Access
  | stamping cell stamp _ _ => [⟨cell, stamp⟩]
  | _ => []

/-- The access that left its stamp in an entry. -/
def Entry.access (e : Entry Nat) : Access :=
  ⟨e.content, e.stamp⟩

namespace Chronicle

/-- All accesses, in the order of their stamps. -/
def accesses (c : Chronicle) : List Access :=
  c.flatMap Occurrence.accesses

/-- The stamps that were drawn for a cell. An entry has one cell from its insertion on, and no other entry has it. -/
def drawnFor (c : Chronicle) (cell : Nat) : List Nat :=
  (c.accesses.filter fun a => a.cell = cell).map Access.stamp

/-- The latest stamp that was drawn for a cell. -/
def latest? (c : Chronicle) (cell : Nat) : Option Nat :=
  (c.drawnFor cell).max?

variable {c : Chronicle} {cell n : Nat}

theorem accesses_concat (c : Chronicle) (o : Occurrence) : accesses (c ++ [o]) = c.accesses ++ o.accesses := by
  rw [accesses, List.flatMap_append, List.flatMap_singleton, accesses]

theorem mem_drawnFor : n ∈ c.drawnFor cell ↔ ⟨cell, n⟩ ∈ c.accesses := by
  rw [drawnFor, List.mem_map]
  constructor
  · rintro ⟨a, ha, rfl⟩
    obtain ⟨hmem, hcell⟩ := List.mem_filter.mp ha
    rw [← decide_eq_true_iff.mp hcell]
    exact hmem
  · intro h
    exact ⟨⟨cell, n⟩, List.mem_filter.mpr ⟨h, decide_eq_true rfl⟩, rfl⟩

theorem latest?_eq_some_iff : c.latest? cell = some n ↔ n ∈ c.drawnFor cell ∧ ∀ m ∈ c.drawnFor cell, m ≤ n :=
  List.max?_eq_some_iff

/-- A cell that stamps were drawn for has a latest one. -/
theorem exists_latest (h : n ∈ c.drawnFor cell) : ∃ m, c.latest? cell = some m ∧ n ≤ m := by
  cases hlatest : c.latest? cell with
  | none =>
      rw [latest?, List.max?_eq_none_iff] at hlatest
      rw [hlatest] at h
      exact absurd h List.not_mem_nil
  | some m => exact ⟨m, rfl, (latest?_eq_some_iff.mp hlatest).2 n h⟩

end Chronicle

/-! ## Overlaps -/

namespace Shared

/-- The accesses whose stamps are drawn and not stored yet. -/
def unstored (s : Shared) : List Access :=
  s.threads.flatMap fun t => t.phase.accesses

/-- Pairs of accesses of one cell, the first of which is not stored yet when the stamp of the second is drawn. -/
def overlaps (s : Shared) (o : Occurrence) : List (Access × Access) :=
  o.accesses.flatMap fun b => (s.unstored.filter fun a => a.cell = b.cell).map fun a => (a, b)

/-- The overlaps of a schedule, as far as its steps can be taken. -/
def overlapsAlong (s : Shared) : List Nat → List (Access × Access)
  | [] => []
  | i :: rest =>
    match s.threads[i]?, s.advance i with
    | some t, some next => s.overlaps (t.occurrence s.pool) ++ next.overlapsAlong rest
    | _, _ => []

variable {s : Shared} {o : Occurrence} {a b : Access}

theorem overlapsAlong_cons {next : Shared} {i : Nat} {t : Thread} (ht : s.threads[i]? = some t)
    (hadvance : s.advance i = some next) (rest : List Nat) :
    s.overlapsAlong (i :: rest) = s.overlaps (t.occurrence s.pool) ++ next.overlapsAlong rest := by
  rw [overlapsAlong, ht, hadvance]

theorem mem_overlaps (ha : a ∈ s.unstored) (hb : b ∈ o.accesses) (hcell : a.cell = b.cell) :
    (a, b) ∈ s.overlaps o :=
  List.mem_flatMap.mpr ⟨b, hb, List.mem_map.mpr ⟨a, List.mem_filter.mpr ⟨ha, decide_eq_true hcell⟩, rfl⟩⟩

/-- Without an open shared section every stamp is stored. -/
theorem accesses_of_quiet (h : s.isQuiet = true) {t : Thread} (ht : t ∈ s.threads) : t.phase.accesses = [] := by
  have hshut := List.all_eq_true.mp h t ht
  obtain ⟨requests, phase, seen⟩ := t
  cases phase with
  | stamping => exact absurd hshut Bool.false_ne_true
  | _ => rfl

theorem unstored_of_quiet (h : s.isQuiet = true) : s.unstored = [] :=
  List.flatMap_eq_nil_iff.mpr fun _ ht => accesses_of_quiet h ht

end Shared

/-! ## One step -/

namespace Shared

/-- The stamps of the accesses that were made, in the map or about to be stored, together with the overlaps so far. -/
structure Ranked (made : List Access) (overlapping : List (Access × Access)) (s : Shared) : Prop where
  /-- An entry is not dropped while a thread is about to stamp it. -/
  pinned : ∀ t ∈ s.threads, ∀ cell stamp x rest, t.phase = .stamping cell stamp x rest →
    s.pool.tracked.find? x.name = some cell
  cells : ∀ a ∈ made, a.cell < s.pool.cells.length
  drawn : ∀ a ∈ made, a.stamp < s.pool.tracked.clock
  stored : ∀ e ∈ s.pool.tracked.entries, e.access ∈ made
  pending : ∀ a ∈ s.unstored, a ∈ made
  /-- A stamp that is later than one that is not stored yet was drawn in the meantime. -/
  behind : ∀ a ∈ s.unstored, ∀ b ∈ made, a.cell = b.cell → a.stamp < b.stamp → (a, b) ∈ overlapping
  /-- A stamp that is later than that of its entry is not stored yet, or the entry was stamped across it. -/
  ahead : ∀ e ∈ s.pool.tracked.entries, ∀ b ∈ made, e.content = b.cell → e.stamp < b.stamp →
    b ∈ s.unstored ∨ (e.access, b) ∈ overlapping

variable {first s : Shared} {c : Chronicle} {made : List Access} {overlapping : List (Access × Access)} {i : Nat}
  {t t' : Thread} {o : Occurrence} {p' : Pool} {requests : List Request} {seen : List Profile} {x : Sample}
  {rest : List Sample} {cell stamp : Nat}

/-- A step takes the unstored access of its thread away and may bring another one. -/
theorem mem_unstored_set (ht : s.threads[i]? = some t) (p' : Pool) (t' : Thread) (a : Access) :
    a ∈ unstored { pool := p', threads := s.threads.set i t' } ∨ a ∈ t.phase.accesses ↔
      a ∈ t'.phase.accesses ∨ a ∈ s.unstored := by
  obtain ⟨others, hbefore, hafter⟩ := flatMap_set_perm ht t' fun t => t.phase.accesses
  rw [unstored, unstored, hbefore.mem_iff, hafter.mem_iff, List.mem_append, List.mem_append, or_assoc,
    or_comm (a := a ∈ others)]

/-- A step that changes no contents drops no entry. -/
theorem Ranked.pinned_set (h : Ranked made overlapping s)
    (hfind : ∀ name, p'.tracked.find? name = s.pool.tracked.find? name)
    (hmine : ∀ cell stamp x rest, t'.phase = .stamping cell stamp x rest →
      s.pool.tracked.find? x.name = some cell) :
    ∀ u ∈ s.threads.set i t', ∀ cell stamp x rest, u.phase = .stamping cell stamp x rest →
      p'.tracked.find? x.name = some cell := by
  intro u hu cell stamp x rest hphase
  rw [hfind]
  rcases List.mem_or_eq_of_mem_set hu with hu | rfl
  · exact h.pinned u hu cell stamp x rest hphase
  · exact hmine cell stamp x rest hphase

/-- A step that touches neither stamps nor the map changes nothing. -/
theorem Ranked.still (h : Ranked made overlapping s) (ht : s.threads[i]? = some t)
    (htracked : p'.tracked = s.pool.tracked) (hcells : p'.cells.length = s.pool.cells.length)
    (hbefore : t.phase.accesses = []) (hafter : t'.phase.accesses = []) :
    Ranked made overlapping { pool := p', threads := s.threads.set i t' } := by
  have hunstored : ∀ a, a ∈ unstored { pool := p', threads := s.threads.set i t' } ↔ a ∈ s.unstored := by
    intro a
    have hmem := mem_unstored_set ht p' t' a
    simpa only [hbefore, hafter, List.not_mem_nil, or_false, false_or] using hmem
  have hidle : ∀ cell stamp x rest, t'.phase ≠ .stamping cell stamp x rest := by
    intro cell stamp x rest hphase
    rw [hphase] at hafter
    exact absurd hafter (List.cons_ne_nil _ _)
  refine ⟨h.pinned_set (fun name => by rw [htracked]) fun cell stamp x rest hphase =>
    absurd hphase (hidle cell stamp x rest), ?_, ?_, ?_, ?_, ?_, ?_⟩
  · intro a ha
    show a.cell < p'.cells.length
    rw [hcells]
    exact h.cells a ha
  · show ∀ a ∈ made, a.stamp < p'.tracked.clock
    rw [htracked]
    exact h.drawn
  · show ∀ e ∈ p'.tracked.entries, e.access ∈ made
    rw [htracked]
    exact h.stored
  · exact fun a ha => h.pending a ((hunstored a).mp ha)
  · exact fun a ha => h.behind a ((hunstored a).mp ha)
  · show ∀ e ∈ p'.tracked.entries, _
    rw [htracked]
    exact fun e he b hb hcell hlt => (h.ahead e he b hb hcell hlt).imp (hunstored b).mpr id

/-- A stamp is drawn in a shared section. It is the latest of all, and the sections of those that are not stored
    overlap with it. -/
theorem Ranked.hit (h : Ranked made overlapping s)
    (ht : s.threads[i]? = some ⟨requests, .seeking (x :: rest), seen⟩)
    (hfound : s.pool.tracked.find? x.name = some cell) (hcell : cell < s.pool.cells.length) :
    Ranked (made ++ [⟨cell, s.pool.tracked.clock⟩])
      (overlapping ++ s.overlaps (.drew cell s.pool.tracked.clock))
      { pool := { s.pool with tracked := s.pool.tracked.draw.2 }
        threads := s.threads.set i ⟨requests, .stamping cell s.pool.tracked.clock x rest, seen⟩ } := by
  let p' : Pool := { s.pool with tracked := s.pool.tracked.draw.2 }
  let t' : Thread := ⟨requests, .stamping cell s.pool.tracked.clock x rest, seen⟩
  let newest : Access := ⟨cell, s.pool.tracked.clock⟩
  have hunstored : ∀ a, a ∈ unstored { pool := p', threads := s.threads.set i t' } ↔
      a = newest ∨ a ∈ s.unstored := by
    intro a
    have hmem : a ∈ unstored { pool := p', threads := s.threads.set i t' } ∨ a ∈ [] ↔ a ∈ [newest] ∨ a ∈ s.unstored :=
      mem_unstored_set ht p' t' a
    simpa only [List.not_mem_nil, or_false, List.mem_singleton] using hmem
  have hmade : ∀ a, a ∈ made ++ [newest] ↔ a ∈ made ∨ a = newest := by
    intro a
    rw [List.mem_append, List.mem_singleton]
  refine ⟨h.pinned_set (fun _ => rfl) ?_, ?_, ?_, ?_, ?_, ?_, ?_⟩
  · rintro cell' stamp y others hphase
    cases hphase
    exact hfound
  · intro a ha
    rcases (hmade a).mp ha with ha | rfl
    · exact h.cells a ha
    · exact hcell
  · intro a ha
    show a.stamp < s.pool.tracked.clock + 1
    rcases (hmade a).mp ha with ha | rfl
    · exact Nat.lt_succ_of_lt (h.drawn a ha)
    · exact Nat.lt_succ_self _
  · exact fun e he => List.mem_append_left _ (h.stored e he)
  · intro a ha
    rcases (hunstored a).mp ha with rfl | ha
    · exact (hmade _).mpr (Or.inr rfl)
    · exact List.mem_append_left _ (h.pending a ha)
  · intro a ha b hb hsame hlt
    rcases (hunstored a).mp ha with rfl | ha
    · -- nothing is later than the newest stamp
      rcases (hmade b).mp hb with hb | rfl
      · have hdrawn := h.drawn b hb
        exact absurd (Nat.lt_trans hlt hdrawn) (Nat.lt_irrefl _)
      · exact absurd hlt (Nat.lt_irrefl _)
    · rcases (hmade b).mp hb with hb | rfl
      · exact List.mem_append_left _ (h.behind a ha b hb hsame hlt)
      · exact List.mem_append_right _ (mem_overlaps ha (List.mem_singleton_self _) hsame)
  · intro e he b hb hsame hlt
    rcases (hmade b).mp hb with hb | rfl
    · rcases h.ahead e he b hb hsame hlt with hunstored' | hover
      · exact Or.inl ((hunstored b).mpr (Or.inr hunstored'))
      · exact Or.inr (List.mem_append_left _ hover)
    · exact Or.inl ((hunstored _).mpr (Or.inl rfl))

/-- A stamp is stored at the end of a shared section. Those that were drawn for its entry in the meantime overlap with
    it, whether they are stored already or not. -/
theorem Ranked.store (h : Ranked made overlapping s) (hnames : s.pool.tracked.names.Nodup)
    (hmapped : ∀ e ∈ s.pool.tracked.entries, s.pool.nameOf e.content = some e.name)
    (ht : s.threads[i]? = some ⟨requests, .stamping cell stamp x rest, seen⟩) :
    Ranked made overlapping
      { pool := { s.pool with tracked := s.pool.tracked.mark x.name stamp }
        threads := s.threads.set i ⟨requests, .merging cell x rest, seen⟩ } := by
  let p' : Pool := { s.pool with tracked := s.pool.tracked.mark x.name stamp }
  let t' : Thread := ⟨requests, .merging cell x rest, seen⟩
  let mine : Access := ⟨cell, stamp⟩
  have hunstored : ∀ a, a ∈ unstored { pool := p', threads := s.threads.set i t' } ∨ a = mine ↔ a ∈ s.unstored := by
    intro a
    have hmem : a ∈ unstored { pool := p', threads := s.threads.set i t' } ∨ a ∈ [mine] ↔ a ∈ [] ∨ a ∈ s.unstored :=
      mem_unstored_set ht p' t' a
    simpa only [List.not_mem_nil, false_or, List.mem_singleton] using hmem
  have hmine : mine ∈ s.unstored := (hunstored mine).mp (Or.inr rfl)
  have hfound : s.pool.tracked.find? x.name = some cell :=
    h.pinned _ (List.mem_of_getElem? ht) cell stamp x rest rfl
  have hcell : s.pool.nameOf cell = some x.name := Pool.nameOf_of_find? hmapped hfound
  have hentries : ∀ e ∈ p'.tracked.entries,
      e = ⟨x.name, stamp, cell⟩ ∨ (e ∈ s.pool.tracked.entries ∧ e.name ≠ x.name) :=
    fun e he => Lru.mem_entries_mark_of_find? hnames hfound he
  refine ⟨h.pinned_set (fun name => Lru.find?_mark _ _ name _) ?_, h.cells, h.drawn, ?_, ?_, ?_, ?_⟩
  · rintro cell' stamp' y others hphase
    cases hphase
  · intro e he
    rcases hentries e he with rfl | ⟨he, _⟩
    · exact h.pending mine hmine
    · exact h.stored e he
  · exact fun a ha => h.pending a ((hunstored a).mp (Or.inl ha))
  · exact fun a ha => h.behind a ((hunstored a).mp (Or.inl ha))
  · intro e he b hb hsame hlt
    rcases hentries e he with rfl | ⟨he, hother⟩
    · exact Or.inr (h.behind mine hmine b hb hsame hlt)
    · rcases h.ahead e he b hb hsame hlt with hpending | hover
      · rcases (hunstored b).mpr hpending with hpending | rfl
        · exact Or.inl hpending
        · -- the stamp that is stored belongs to another entry
          have hname := hmapped e he
          rw [hsame, hcell] at hname
          exact absurd (Option.some.inj hname).symm hother
      · exact Or.inr hover

/-- Between shared sections only the stamps of the entries matter. -/
theorem ranked_of_unstored_eq_nil (hnone : s.unstored = [])
    (hcells : ∀ a ∈ made, a.cell < s.pool.cells.length) (hdrawn : ∀ a ∈ made, a.stamp < s.pool.tracked.clock)
    (hstored : ∀ e ∈ s.pool.tracked.entries, e.access ∈ made)
    (hahead : ∀ e ∈ s.pool.tracked.entries, ∀ b ∈ made, e.content = b.cell → e.stamp < b.stamp →
      (e.access, b) ∈ overlapping) : Ranked made overlapping s := by
  refine ⟨?_, hcells, hdrawn, hstored, ?_, ?_, fun e he b hb hsame hlt => Or.inr (hahead e he b hb hsame hlt)⟩
  · intro t ht cell stamp x rest hphase
    have hmem : (⟨cell, stamp⟩ : Access) ∈ s.unstored := by
      refine List.mem_flatMap.mpr ⟨t, ht, ?_⟩
      rw [hphase]
      exact List.mem_singleton_self _
    rw [hnone] at hmem
    exact absurd hmem List.not_mem_nil
  · intro a ha
    rw [hnone] at ha
    exact absurd ha List.not_mem_nil
  · intro a ha
    rw [hnone] at ha
    exact absurd ha List.not_mem_nil

/-- An exclusive section runs between shared sections. -/
theorem unstored_set_of_quiet (hquiet : s.isQuiet = true) (ht : s.threads[i]? = some t)
    (hafter : t'.phase.accesses = []) : unstored { pool := p', threads := s.threads.set i t' } = [] := by
  rw [List.eq_nil_iff_forall_not_mem]
  intro a ha
  rcases (mem_unstored_set ht p' t' a).mp (Or.inl ha) with hmine | hother
  · rw [hafter] at hmine
    exact List.not_mem_nil hmine
  · rw [unstored_of_quiet hquiet] at hother
    exact List.not_mem_nil hother

/-- Between shared sections, a stamp that is later than that of its entry overlapped with it. -/
theorem Ranked.ahead_of_quiet (h : Ranked made overlapping s) (hquiet : s.isQuiet = true) :
    ∀ e ∈ s.pool.tracked.entries, ∀ b ∈ made, e.content = b.cell → e.stamp < b.stamp →
      (e.access, b) ∈ overlapping := by
  intro e he b hb hsame hlt
  rcases h.ahead e he b hb hsame hlt with hpending | hover
  · rw [unstored_of_quiet hquiet] at hpending
    exact absurd hpending List.not_mem_nil
  · exact hover

/-- In an exclusive section a stamp is drawn and stored at once, for an entry that is there or for a new one. -/
theorem Ranked.exclusive (h : Ranked made overlapping s) (hquiet : s.isQuiet = true)
    (ht : s.threads[i]? = some t) (hafter : t'.phase.accesses = [])
    (hclock : s.pool.tracked.clock < p'.tracked.clock) (hcells : s.pool.cells.length ≤ p'.cells.length)
    (hcell : cell < p'.cells.length)
    (hentries : ∀ e ∈ p'.tracked.entries, e.access = ⟨cell, s.pool.tracked.clock⟩ ∨
      (e ∈ s.pool.tracked.entries ∧ e.content ≠ cell)) :
    Ranked (made ++ [⟨cell, s.pool.tracked.clock⟩]) overlapping
      { pool := p', threads := s.threads.set i t' } := by
  have hmade : ∀ a, a ∈ made ++ [⟨cell, s.pool.tracked.clock⟩] ↔ a ∈ made ∨ a = ⟨cell, s.pool.tracked.clock⟩ := by
    intro a
    rw [List.mem_append, List.mem_singleton]
  apply ranked_of_unstored_eq_nil (unstored_set_of_quiet hquiet ht hafter)
  · intro a ha
    rcases (hmade a).mp ha with ha | rfl
    · exact Nat.lt_of_lt_of_le (h.cells a ha) hcells
    · exact hcell
  · intro a ha
    rcases (hmade a).mp ha with ha | rfl
    · exact Nat.lt_trans (h.drawn a ha) hclock
    · exact hclock
  · intro e he
    rcases hentries e he with hnew | ⟨he, _⟩
    · exact (hmade _).mpr (Or.inr hnew)
    · exact List.mem_append_left _ (h.stored e he)
  · intro e he b hb hsame hlt
    rcases hentries e he with hnew | ⟨he, hother⟩
    · -- nothing is later than the newest stamp
      have hstamp : e.stamp = s.pool.tracked.clock := congrArg Access.stamp hnew
      rcases (hmade b).mp hb with hb | rfl
      · have hdrawn := h.drawn b hb
        omega
      · exact absurd hlt (hstamp ▸ Nat.lt_irrefl _)
    · rcases (hmade b).mp hb with hb | rfl
      · exact h.ahead_of_quiet hquiet e he b hb hsame hlt
      · exact absurd hsame hother

theorem Ranked.mono (h : Ranked made overlapping s) {more : List (Access × Access)} (hmore : overlapping ⊆ more) :
    Ranked made more s where
  pinned := h.pinned
  cells := h.cells
  drawn := h.drawn
  stored := h.stored
  pending := h.pending
  behind := fun a ha b hb hsame hlt => hmore (h.behind a ha b hb hsame hlt)
  ahead := fun e he b hb hsame hlt => (h.ahead e he b hb hsame hlt).imp id (hmore ·)

/-- **A step of a thread keeps the ranks.** -/
theorem Ranked.step (h : Ranked made overlapping s) (hordered : s.pool.tracked.Ordered)
    (hmapped : ∀ e ∈ s.pool.tracked.entries, s.pool.nameOf e.content = some e.name)
    (ht : s.threads[i]? = some t) (hmove : t.Moves s.isQuiet s.pool o t' p') :
    Ranked (made ++ o.accesses) (overlapping ++ s.overlaps o) { pool := p', threads := s.threads.set i t' } := by
  have hmore : overlapping ⊆ overlapping ++ s.overlaps o := List.subset_append_left _ _
  cases hmove with
  | hit cell x rest requests seen hfound =>
      exact h.hit ht hfound (Pool.lt_of_nameOf (Pool.nameOf_of_find? hmapped hfound))
  | store cell stamp x rest requests seen =>
      show Ranked (made ++ []) _ _
      rw [List.append_nil]
      exact Ranked.mono (h.store hordered.names hmapped ht) hmore
  | refind cell x rest requests seen hquiet hfound =>
      have hname : s.pool.nameOf cell = some x.name := Pool.nameOf_of_find? hmapped hfound
      refine Ranked.mono (h.exclusive hquiet ht ?_ ?_ ?_ ?_ ?_) hmore
      · rfl
      · exact Nat.lt_succ_self _
      · exact Nat.le_refl _
      · exact Pool.lt_of_nameOf hname
      · intro e he
        rcases Lru.mem_entries_mark_of_find? hordered.names hfound he with rfl | ⟨he, hother⟩
        · exact Or.inl rfl
        · refine Or.inr ⟨he, fun hsame => hother ?_⟩
          have hown := hmapped e he
          rw [hsame, hname] at hown
          exact (Option.some.inj hown).symm
  | insert x rest requests seen hquiet hnone =>
      have hcells : (s.pool.acquire x.name).2.cells.length = s.pool.cells.length + 1 := by
        rw [Pool.acquire_of_none hnone, List.length_append, List.length_singleton]
      refine Ranked.mono (h.exclusive hquiet ht ?_ ?_ ?_ ?_ ?_) hmore
      · rfl
      · rw [Pool.tracked_acquire, Lru.clock_visit]
        exact Nat.lt_succ_self _
      · rw [hcells]
        exact Nat.le_succ _
      · rw [hcells]
        exact Nat.lt_succ_self _
      · intro e he
        rw [Pool.tracked_acquire] at he
        rcases hordered.mem_entries_visit_of_new hnone he with rfl | he
        · exact Or.inl rfl
        · exact Or.inr ⟨he, Nat.ne_of_lt (Pool.lt_of_nameOf (hmapped e he))⟩
  | clear requests seen hquiet =>
      show Ranked (made ++ []) _ _
      rw [List.append_nil]
      exact ranked_of_unstored_eq_nil (unstored_set_of_quiet hquiet ht rfl) h.cells h.drawn
        (fun e he => absurd he List.not_mem_nil) (fun e he => absurd he List.not_mem_nil)
  | merge cell x rest requests seen =>
      show Ranked (made ++ []) _ _
      rw [List.append_nil]
      refine Ranked.mono (h.still ht ?_ ?_ ?_ ?_) hmore
      · rfl
      · exact List.length_modify _ _ _
      · rfl
      · rfl
  | _ =>
      show Ranked (made ++ []) _ _
      rw [List.append_nil]
      refine Ranked.mono (h.still ht ?_ ?_ ?_ ?_) hmore
      all_goals rfl

/-! ## All runs -/

/-- **A schedule keeps the ranks**, with its overlaps. -/
theorem Ranked.run (h : Ranked c.accesses overlapping s) (hbefore : History first c s) (hfirst : first.Fresh)
    {schedule : List Nat} {last : Shared} (hrun : s.run schedule = some last) :
    Ranked (Chronicle.accesses (c ++ s.chronicle schedule)) (overlapping ++ s.overlapsAlong schedule) last := by
  induction schedule generalizing s c overlapping with
  | nil =>
      rw [chronicle, overlapsAlong, List.append_nil, List.append_nil]
      exact Option.some.inj hrun ▸ h
  | cons i rest ih =>
      rw [Shared.run, List.foldlM_cons] at hrun
      obtain ⟨next, hadvance, hrest⟩ := Option.bind_eq_some_iff.mp hrun
      obtain ⟨t, o, t', p', ht, hmove, rfl⟩ := moves_of_advance hadvance
      have hstep := h.step (hbefore.stamped hfirst).ordered (hbefore.filled hfirst).mapped ht hmove
      rw [← Chronicle.accesses_concat] at hstep
      have hlast := ih hstep (hbefore.step ht hmove) hrest
      rw [List.append_assoc, List.append_assoc] at hlast
      rw [chronicle_cons ht hadvance, overlapsAlong_cons ht hadvance, ← hmove.occurrence]
      exact hlast

/-- What the stamps of a map tell of the accesses in a chronicle while no shared section is open. -/
structure Ranks (c : Chronicle) (overlapping : List (Access × Access)) (m : Lru Nat) : Prop where
  drawn : ∀ e ∈ m.entries, e.stamp ∈ c.drawnFor e.content
  /-- The stamp of an entry is the latest one, or it was not stored yet when a later one was drawn. -/
  latest : ∀ e ∈ m.entries, c.latest? e.content = some e.stamp ∨
    ∃ later ∈ c.drawnFor e.content, e.stamp < later ∧ (e.access, ⟨e.content, later⟩) ∈ overlapping
  /-- What is evicted for a new name was not accessed for longest, unless a later access overlapped with the one that
      left its stamp. -/
  victim : ∀ name fresh gone, (m.visit name fresh).1 = some gone → ∃ v ∈ m.entries, v.name = gone ∧
    ((∀ b, (v.access, b) ∉ overlapping) → c.latest? v.content = some v.stamp ∧
      ∀ e ∈ m.entries, ∃ n, c.latest? e.content = some n ∧ v.stamp ≤ n)

/-- Between shared sections the stamps of the entries rank them, up to overlaps. -/
theorem Ranked.ranks (h : Ranked c.accesses overlapping s) (hordered : s.pool.tracked.Ordered)
    (hquiet : s.isQuiet = true) : Ranks c overlapping s.pool.tracked := by
  have hdrawn : ∀ e ∈ s.pool.tracked.entries, e.stamp ∈ c.drawnFor e.content := fun e he =>
    Chronicle.mem_drawnFor.mpr (h.stored e he)
  have hlatest : ∀ e ∈ s.pool.tracked.entries, c.latest? e.content = some e.stamp ∨
      ∃ later ∈ c.drawnFor e.content, e.stamp < later ∧ (e.access, ⟨e.content, later⟩) ∈ overlapping := by
    intro e he
    obtain ⟨n, hn, hle⟩ := Chronicle.exists_latest (hdrawn e he)
    have hmem := (Chronicle.latest?_eq_some_iff.mp hn).1
    rcases Nat.eq_or_lt_of_le hle with heq | hlt
    · exact Or.inl (heq ▸ hn)
    · exact Or.inr ⟨n, hmem, hlt, h.ahead_of_quiet hquiet e he _ (Chronicle.mem_drawnFor.mp hmem) rfl hlt⟩
  refine ⟨hdrawn, hlatest, ?_⟩
  intro name fresh gone hgone
  rcases Lru.visit_cases hordered name fresh with ⟨_, hvisit⟩ | ⟨_, _, hvisit⟩ | ⟨_, _, v, hv, hvisit⟩
  · rw [hvisit] at hgone
    exact absurd hgone.symm (Option.some_ne_none gone)
  · rw [hvisit] at hgone
    exact absurd hgone.symm (Option.some_ne_none gone)
  · rw [hvisit] at hgone
    obtain ⟨hmem, hleast⟩ := stalest?_spec hv
    refine ⟨v, hmem, Option.some.inj hgone, fun halone => ⟨?_, ?_⟩⟩
    · rcases hlatest v hmem with hlast | ⟨later, _, _, hover⟩
      · exact hlast
      · exact absurd hover (halone _)
    · intro e he
      obtain ⟨n, hn, hle⟩ := Chronicle.exists_latest (hdrawn e he)
      exact ⟨n, hn, Nat.le_trans (hleast e he) hle⟩

/-- **Stamps rank accesses up to overlaps.** Whatever threads ask of a registry that tracks nothing first, and in
    whatever order they take their steps: while no shared section is open, every entry has the latest stamp that was
    drawn for it since its insertion, or one that was not stored yet when a later one was drawn. So an eviction drops
    the entry whose latest access is the oldest of all, unless the access that left its stamp overlapped with a
    later one. -/
theorem ranks_of_quiet {bound : Nat} {requests : List (List Request)} {schedule : List Nat} {s : Shared}
    (hrun : (start bound requests).run schedule = some s) (hquiet : s.isQuiet = true) :
    Ranks ((start bound requests).chronicle schedule) ((start bound requests).overlapsAlong schedule)
      s.pool.tracked := by
  have hfirst := fresh_start bound requests
  have hnone : (start bound requests).unstored = [] := flatMap_phase_of_idle hfirst.idle rfl
  have hstart : Ranked (Chronicle.accesses []) [] (start bound requests) :=
    ranked_of_unstored_eq_nil hnone (fun _ ha => absurd ha List.not_mem_nil)
      (fun _ ha => absurd ha List.not_mem_nil) (fun _ he => absurd he List.not_mem_nil)
      (fun _ he => absurd he List.not_mem_nil)
  have hlast := hstart.run .refl hfirst hrun
  rw [List.nil_append, List.nil_append] at hlast
  obtain ⟨c, hc⟩ := reachable_iff_exists_history.mp (Reachable.of_run .refl hrun)
  exact hlast.ranks (hc.stamped hfirst).ordered hquiet

/-- The first thread makes entries for `x` and `y`. The second one draws 2 for `x` and pauses, the third one draws and
    stores 3 for `y` and 4 for `x`, and then the second one stores what it drew. -/
theorem ranks_of_quiet_paused :
    let x : Sample := ⟨"x", .zero, true, .reading 0⟩
    let y : Sample := ⟨"y", .zero, true, .reading 1⟩
    let requests := [[Request.batch [x, y]], [.batch [x]], [.batch [y, x]]]
    let schedule := [0, 0, 0, 0, 0, 0, 0, 0, 0, 1, 1, 1, 2, 2, 2, 2, 2, 2, 2, 1]
    ∃ s, (start 2 requests).run schedule = some s ∧ s.isQuiet = true ∧
      (start 2 requests).overlapsAlong schedule = [(⟨0, 2⟩, ⟨0, 4⟩)] ∧
      Ranks ((start 2 requests).chronicle schedule) [(⟨0, 2⟩, ⟨0, 4⟩)] s.pool.tracked := by
  intro x y requests schedule
  have hrun : ((start 2 requests).run schedule).isSome = true := by decide
  have hend : ((start 2 requests).run schedule).map isQuiet = some true := by decide
  have hoverlaps : (start 2 requests).overlapsAlong schedule = [(⟨0, 2⟩, ⟨0, 4⟩)] := by decide
  obtain ⟨s, hs⟩ := Option.isSome_iff_exists.mp hrun
  rw [hs] at hend
  have hquiet : s.isQuiet = true := Option.some.inj hend
  have hranks := ranks_of_quiet hs hquiet
  rw [hoverlaps] at hranks
  exact ⟨s, hs, hquiet, hoverlaps, hranks⟩

/-- **The stamp of an entry can fall behind for good**: in that run the stamp of `x` is 2 when all sections are shut,
    although 4 was drawn for it. -/
theorem not_latest_eq_stamp :
    ¬ ∀ (batches : List (List (List Sample))) (schedule : List Nat) (s : Shared),
      (start 2 (batches.map (List.map .batch))).run schedule = some s → s.isQuiet = true →
      ∀ e ∈ s.pool.tracked.entries,
        ((start 2 (batches.map (List.map .batch))).chronicle schedule).latest? e.content = some e.stamp := by
  intro hclaim
  let x : Sample := ⟨"x", .zero, true, .reading 0⟩
  let y : Sample := ⟨"y", .zero, true, .reading 1⟩
  let batches := [[[x, y]], [[x]], [[y, x]]]
  let schedule := [0, 0, 0, 0, 0, 0, 0, 0, 0, 1, 1, 1, 2, 2, 2, 2, 2, 2, 2, 1]
  have hrun : ((start 2 (batches.map (List.map .batch))).run schedule).map
      (fun s => (s.isQuiet, s.pool.tracked.entries)) = some (true, [⟨"y", 3, 1⟩, ⟨"x", 2, 0⟩]) := by
    decide
  have hlatest : ((start 2 (batches.map (List.map .batch))).chronicle schedule).latest? 0 = some 4 := by decide
  obtain ⟨s, hs, hpair⟩ := Option.map_eq_some_iff.mp hrun
  obtain ⟨hquiet, hentries⟩ := Prod.mk.inj hpair
  have hmem : (⟨"x", 2, 0⟩ : Entry Nat) ∈ s.pool.tracked.entries := by
    rw [hentries]
    exact List.mem_cons_of_mem _ List.mem_cons_self
  have hstamp := hclaim batches schedule s hs hquiet _ hmem
  rw [hlatest] at hstamp
  exact absurd hstamp (by decide)

/-- A sample of a new name evicts `x` after that run, and keeps `y`, which was used before `x` the last time. -/
example :
    let x : Sample := ⟨"x", .zero, true, .reading 0⟩
    let y : Sample := ⟨"y", .zero, true, .reading 1⟩
    let z : Sample := ⟨"z", .zero, true, .reading 2⟩
    let first := start 2 [[.batch [x, y]], [.batch [x]], [.batch [y, x]], [.batch [z]]]
    let schedule := [0, 0, 0, 0, 0, 0, 0, 0, 0, 1, 1, 1, 2, 2, 2, 2, 2, 2, 2, 1, 3, 3, 3, 3]
    (first.run schedule).map (fun s => s.pool.tracked.names) = some ["z", "y"] ∧
      (first.chronicle schedule).latest? 1 = some 3 ∧ (first.chronicle schedule).latest? 0 = some 4 := by
  decide

end Shared

end SampleProfiler
