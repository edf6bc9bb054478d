import SampleProfiler.Proofs.Reordering
import SampleProfiler.Proofs.Shift

/-!
# `SampleProfiler.Proofs.Traversal` — the order in which a map is met

A map meets all its entries in two places: the scan for the least stamp, and the collection of all contents. Nothing
promises the order, and another run may meet them in another one. Here a `Traversal` rearranges the entries before
every sample, before every step of a thread and before every read. The rearranged runs keep to the run itself, entry
for entry, because stamps are unique: in whatever order the entries come, a scan finds the same one.

## Contents
- **Maps.** `Lru.Alike`, maps with the same entries in whatever order, and the operations that keep it.
- **Registries.** `Traversal`, `Registry.performAllBy`, and `Registry.Alike.performAll`.
- **Many threads.** `Shared.runBy`, and `Shared.Alike.run`.
-/

namespace SampleProfiler

/-! ## Maps -/

/-- The scan finds the one entry with the least stamp, wherever it stands. -/
theorem stalest?_eq_of_perm {α : Type} {entries other : List (Entry α)} (h : entries.Perm other)
    (hstamps : (entries.map Entry.stamp).Nodup) : stalest? entries = stalest? other := by
  cases hv : stalest? entries with
  | none =>
      rw [stalest?_eq_none_iff] at hv
      rw [hv] at h
      rw [h.symm.eq_nil]
      rfl
  | some v =>
      cases hw : stalest? other with
      | none =>
          rw [stalest?_eq_none_iff] at hw
          rw [hw] at h
          rw [h.eq_nil] at hv
          exact absurd hv.symm (Option.some_ne_none v)
      | some w =>
          obtain ⟨hmem, hleast⟩ := stalest?_spec hv
          obtain ⟨hother, hless⟩ := stalest?_spec hw
          have hmet : w ∈ entries := h.mem_iff.mpr hother
          have hstamp : v.stamp = w.stamp := Nat.le_antisymm (hleast w hmet) (hless v (h.subset hmem))
          rw [List.inj_on_of_nodup_map hstamps hmem hmet hstamp]

namespace Lru

variable {α : Type} {m n : Lru α}

/-- Maps with the same entries, in whatever order. -/
structure Alike (m n : Lru α) : Prop where
  bound : m.bound = n.bound
  clock : m.clock = n.clock
  entries : m.entries.Perm n.entries

theorem Alike.refl (m : Lru α) : Alike m m :=
  ⟨rfl, rfl, List.Perm.refl _⟩

theorem Alike.symm (h : Alike m n) : Alike n m :=
  ⟨h.bound.symm, h.clock.symm, h.entries.symm⟩

theorem Alike.trans {k : Lru α} (h : Alike m n) (hnext : Alike n k) : Alike m k :=
  ⟨h.bound.trans hnext.bound, h.clock.trans hnext.clock, h.entries.trans hnext.entries⟩

theorem Alike.size (h : Alike m n) : m.size = n.size :=
  h.entries.length_eq

theorem Alike.ordered (h : Alike m n) (hordered : m.Ordered) : n.Ordered where
  names := (h.entries.map Entry.name).nodup_iff.mp hordered.names
  stamps := (h.entries.map Entry.stamp).nodup_iff.mp hordered.stamps
  drawn := fun e he => h.clock ▸ hordered.drawn e (h.entries.mem_iff.mpr he)
  fits := h.size ▸ h.bound ▸ hordered.fits
  positive := h.bound ▸ hordered.positive

/-- As long as no name has two entries, looking a name up does not depend on the order. -/
theorem Alike.find? (h : Alike m n) (hnames : m.names.Nodup) (name : String) : m.find? name = n.find? name := by
  have hother : n.names.Nodup := (h.entries.map Entry.name).nodup_iff.mp hnames
  cases hfound : m.find? name with
  | none =>
      rw [find?_eq_none_iff] at hfound
      symm
      rw [find?_eq_none_iff]
      exact fun hmem => hfound ((h.entries.map Entry.name).mem_iff.mpr hmem)
  | some c =>
      obtain ⟨e, he, rfl, rfl⟩ := exists_entry_of_find? hfound
      rw [find?_of_mem hother (h.entries.subset he)]

theorem Alike.draw (h : Alike m n) : Alike m.draw.2 n.draw.2 :=
  ⟨h.bound, congrArg (· + 1) h.clock, h.entries⟩

theorem Alike.mark (h : Alike m n) (name : String) (stamp : Nat) : Alike (m.mark name stamp) (n.mark name stamp) :=
  ⟨h.bound, h.clock, h.entries.map _⟩

theorem Alike.touch (h : Alike m n) (name : String) : Alike (m.touch name) (n.touch name) := by
  show Alike (m.draw.2.mark name m.clock) (n.draw.2.mark name n.clock)
  rw [h.clock]
  exact h.draw.mark name n.clock

theorem Alike.insert (h : Alike m n) (name : String) (content : α) :
    Alike (m.insert name content) (n.insert name content) where
  bound := h.bound
  clock := congrArg (· + 1) h.clock
  entries := by
    show (⟨name, m.clock, content⟩ :: m.entries).Perm (⟨name, n.clock, content⟩ :: n.entries)
    rw [h.clock]
    exact h.entries.cons _

theorem Alike.update (h : Alike m n) (name : String) (change : α → α) :
    Alike (m.update name change) (n.update name change) :=
  ⟨h.bound, h.clock, h.entries.map _⟩

theorem Alike.clear (h : Alike m n) : Alike m.clear n.clear :=
  ⟨h.bound, h.clock, List.Perm.refl _⟩

theorem Alike.map {β : Type} (h : Alike m n) (f : α → β) : Alike (m.map f) (n.map f) :=
  ⟨h.bound, h.clock, h.entries.map _⟩

theorem Ordered.map {β : Type} (h : m.Ordered) (f : α → β) : (m.map f).Ordered where
  names := by
    rw [names_map]
    exact h.names
  stamps := by
    unfold Lru.map
    rw [List.map_map]
    exact h.stamps
  drawn := by
    intro d hd
    obtain ⟨e, he, rfl⟩ := List.mem_map.mp hd
    exact h.drawn e he
  fits := by
    rw [size_map]
    exact h.fits
  positive := h.positive

/-- The same entry is dropped, because its stamp is the only least one. -/
theorem Alike.evict (h : Alike m n) (hordered : m.Ordered) :
    m.evict.1 = n.evict.1 ∧ Alike m.evict.2 n.evict.2 := by
  unfold Lru.evict
  rw [← stalest?_eq_of_perm h.entries hordered.stamps]
  cases stalest? m.entries with
  | none => exact ⟨rfl, h⟩
  | some v => exact ⟨rfl, h.bound, h.clock, h.entries.filter _⟩

/-- **A use does not depend on the order of the entries**: it drops the same name, and leaves maps that are alike. -/
theorem Alike.visit (h : Alike m n) (hordered : m.Ordered) (name : String) (fresh : α) :
    (m.visit name fresh).1 = (n.visit name fresh).1 ∧ Alike (m.visit name fresh).2 (n.visit name fresh).2 := by
  unfold Lru.visit contains
  rw [← h.find? hordered.names name, ← h.bound, ← h.size]
  by_cases hname : (m.find? name).isSome = true
  · rw [if_pos hname, if_pos hname]
    exact ⟨rfl, h.touch name⟩
  · rw [if_neg hname, if_neg hname]
    by_cases hfull : m.bound ≤ m.size
    · rw [if_pos hfull, if_pos hfull]
      obtain ⟨hvictim, hleft⟩ := h.evict hordered
      exact ⟨hvictim, hleft.insert name fresh⟩
    · rw [if_neg hfull, if_neg hfull]
      exact ⟨rfl, h.insert name fresh⟩

end Lru

/-! ## Registries -/

/-- An order in which maps meet their entries. It may be another one at every reading of the clock, so at every scan. -/
structure Traversal where
  order : {α : Type} → Nat → List (Entry α) → List (Entry α)
  perm : ∀ {α : Type} (reading : Nat) (entries : List (Entry α)), (order reading entries).Perm entries

namespace Traversal

/-- The order in which the entries are stored. -/
def stored : Traversal where
  order := fun _ entries => entries
  perm := fun _ entries => List.Perm.refl entries

/-- The opposite of that order. -/
def backwards : Traversal where
  order := fun _ entries => entries.reverse
  perm := fun _ entries => entries.reverse_perm

end Traversal

/-- The map with its entries in the order in which they are met. -/
def Lru.met {α : Type} (w : Traversal) (m : Lru α) : Lru α :=
  { m with entries := w.order m.clock m.entries }

theorem Lru.alike_met {α : Type} (w : Traversal) (m : Lru α) : Alike m (m.met w) :=
  ⟨rfl, rfl, (w.perm m.clock m.entries).symm⟩

namespace Registry

/-- The registry with its entries in the order in which they are met. -/
def met (w : Traversal) (r : Registry) : Registry :=
  { r with tracked := r.tracked.met w }

/-- Takes samples in order, and meets the entries anew before each of them. -/
def takeAllBy (w : Traversal) (r : Registry) (log : Log) : List Sample → Registry × Log
  | [] => (r, log)
  | s :: rest =>
    let (r, more) := (r.met w).take s
    takeAllBy w r (log ++ more) rest

/-- Receives a batch, and meets the entries anew before each sample. -/
def receiveBy (w : Traversal) (r : Registry) (batch : List Sample) : Registry × Log :=
  if batch.isEmpty then (r, #[])
  else (r.countBatch batch.length).takeAllBy w #[.received batch.length] batch

/-- Carries out a call, and meets the entries anew before each sample and before each read. -/
def performBy (w : Traversal) (r : Registry) : Call → Answer × Registry × Log
  | .receive batch => (.done, r.receiveBy w batch)
  | call => (r.met w).perform call

/-- Carries out calls in order. Each is replied to with its answer and with what was logged meanwhile. -/
def performAllBy (w : Traversal) (r : Registry) : List Call → List (Answer × Log) × Registry
  | [] => ([], r)
  | call :: rest =>
    let (answer, r, log) := r.performBy w call
    let (replies, last) := r.performAllBy w rest
    ((answer, log) :: replies, last)

/-- Registries that track the same entries, in whatever order. -/
structure Alike (r r' : Registry) : Prop where
  tracked : r.tracked.Alike r'.tracked
  samples : r.samples = r'.samples
  batches : r.batches = r'.batches
  evictions : r.evictions = r'.evictions

variable {r r' : Registry}

theorem alike_met (w : Traversal) (r : Registry) : Alike r (r.met w) :=
  ⟨Lru.alike_met w r.tracked, rfl, rfl, rfl⟩

theorem Alike.refl (r : Registry) : Alike r r :=
  ⟨.refl _, rfl, rfl, rfl⟩

theorem Alike.symm (h : Alike r r') : Alike r' r :=
  ⟨h.tracked.symm, h.samples.symm, h.batches.symm, h.evictions.symm⟩

theorem Alike.trans {s : Registry} (h : Alike r r') (hnext : Alike r' s) : Alike r s :=
  ⟨h.tracked.trans hnext.tracked, h.samples.trans hnext.samples, h.batches.trans hnext.batches,
    h.evictions.trans hnext.evictions⟩

/-- One sample leaves the same log, and registries that are alike. -/
theorem Alike.take (h : Alike r r') (hordered : r.tracked.Ordered) (s : Sample) :
    Alike (r.take s).1 (r'.take s).1 ∧ (r.take s).2 = (r'.take s).2 := by
  obtain ⟨hvictim, hleft⟩ := h.tracked.visit hordered s.name (.empty s.name)
  unfold Registry.take
  generalize r.tracked.visit s.name (.empty s.name) = kept at hvictim hleft ⊢
  generalize r'.tracked.visit s.name (.empty s.name) = other at hvictim hleft ⊢
  obtain ⟨victim, tracked⟩ := kept
  obtain ⟨_, tracked'⟩ := other
  cases hvictim
  have hmerged := hleft.update s.name fun p => p.merge s
  cases victim with
  | none => exact ⟨⟨hmerged, h.samples, h.batches, h.evictions⟩, rfl⟩
  | some name => exact ⟨⟨hmerged, h.samples, h.batches, congrArg (· + 1) h.evictions⟩, rfl⟩

theorem ordered_take (h : r.tracked.Ordered) (s : Sample) : (r.take s).1.tracked.Ordered := by
  rw [tracked_take]
  exact (h.visit s.name _).update s.name _

/-- The entries may be met in any order before each sample. -/
theorem Alike.takeAll (h : Alike r r') (hordered : r.tracked.Ordered) (w : Traversal) (log : Log)
    (samples : List Sample) :
    Alike (r.takeAll log samples).1 (r'.takeAllBy w log samples).1 ∧
      (r.takeAll log samples).2 = (r'.takeAllBy w log samples).2 ∧ (r.takeAll log samples).1.tracked.Ordered := by
  induction samples generalizing r r' log with
  | nil => exact ⟨h, rfl, hordered⟩
  | cons s rest ih =>
      obtain ⟨hafter, hlog⟩ := (h.trans (alike_met w r')).take hordered s
      have hrest : r'.takeAllBy w log (s :: rest)
          = ((r'.met w).take s).1.takeAllBy w (log ++ ((r'.met w).take s).2) rest := rfl
      rw [hrest, ← hlog]
      exact ih hafter (ordered_take hordered s) (log ++ (r.take s).2)

theorem Alike.receive (h : Alike r r') (hordered : r.tracked.Ordered) (w : Traversal) (batch : List Sample) :
    Alike (r.receive batch).1 (r'.receiveBy w batch).1 ∧ (r.receive batch).2 = (r'.receiveBy w batch).2 ∧
      (r.receive batch).1.tracked.Ordered := by
  unfold Registry.receive receiveBy
  by_cases hempty : batch.isEmpty = true
  · rw [if_pos hempty, if_pos hempty]
    exact ⟨h, rfl, hordered⟩
  · rw [if_neg hempty, if_neg hempty]
    have hcounted : Alike (r.countBatch batch.length) (r'.countBatch batch.length) :=
      ⟨h.tracked, congrArg (· + batch.length) h.samples, congrArg (· + 1) h.batches, h.evictions⟩
    exact hcounted.takeAll hordered w _ batch

theorem Alike.profile (h : Alike r r') (hordered : r.tracked.Ordered) (name : String) :
    r.profile name = r'.profile name := by
  unfold Registry.profile
  rw [h.tracked.find? hordered.names name]

theorem Alike.contains (h : Alike r r') (hordered : r.tracked.Ordered) (name : String) :
    r.contains name = r'.contains name := by
  unfold Registry.contains Lru.contains
  rw [h.tracked.find? hordered.names name]

theorem Alike.totals (h : Alike r r') : r.totals = r'.totals := by
  unfold Registry.totals
  rw [h.tracked.size, h.samples, h.batches, h.evictions]

theorem Alike.names (h : Alike r r') : r.names = r'.names :=
  increasing_eq_of_perm (h.tracked.entries.map Entry.name)

/-- A listing is by name, and each name has one profile. -/
theorem Alike.listing (h : Alike r r') (hordered : r.tracked.Ordered) : r.listing = r'.listing := by
  let found : String → Profile := fun name => (r.tracked.find? name).getD default
  have hcontent : ∀ e ∈ r.tracked.entries, e.content = found e.name := by
    intro e he
    show e.content = (r.tracked.find? e.name).getD default
    rw [Lru.find?_of_mem hordered.names he, Option.getD_some]
  rw [listing_eq_map hcontent, listing_eq_map fun e he => hcontent e (h.tracked.entries.mem_iff.mpr he)]
  exact congrArg (List.map fun name => (name, found name)) h.names

theorem ordered_perform (h : r.tracked.Ordered) (call : Call) : (r.perform call).2.1.tracked.Ordered := by
  cases call with
  | receive batch => exact ((Alike.refl r).receive h .stored batch).2.2
  | clear => exact h.clear
  | contains name => exact h
  | profile name => exact h
  | listing => exact h
  | totals => exact h

/-- **One call** is answered and logged the same, whatever the orders in which the entries are met. -/
theorem Alike.perform (h : Alike r r') (hordered : r.tracked.Ordered) (w : Traversal) (call : Call) :
    (r.perform call).1 = (r'.performBy w call).1 ∧ Alike (r.perform call).2.1 (r'.performBy w call).2.1 ∧
      (r.perform call).2.2 = (r'.performBy w call).2.2 := by
  have hmet : Alike r (r'.met w) := h.trans (alike_met w r')
  cases call with
  | receive batch =>
      obtain ⟨hafter, hlog, _⟩ := h.receive hordered w batch
      exact ⟨rfl, hafter, hlog⟩
  | clear => exact ⟨rfl, ⟨hmet.tracked.clear, rfl, rfl, rfl⟩, rfl⟩
  | contains name => exact ⟨congrArg Answer.truth (hmet.contains hordered name), hmet, rfl⟩
  | profile name => exact ⟨congrArg Answer.profile (hmet.profile hordered name), hmet, rfl⟩
  | listing => exact ⟨congrArg Answer.listing (hmet.listing hordered), hmet, rfl⟩
  | totals => exact ⟨congrArg Answer.totals hmet.totals, hmet, rfl⟩

/-- **A run of calls** is replied to the same, and leaves registries that are alike. -/
theorem Alike.performAll (h : Alike r r') (hordered : r.tracked.Ordered) (w : Traversal) (calls : List Call) :
    (r.performAll calls).1 = (r'.performAllBy w calls).1 ∧
      Alike (r.performAll calls).2 (r'.performAllBy w calls).2 := by
  induction calls generalizing r r' with
  | nil => exact ⟨rfl, h⟩
  | cons call rest ih =>
      obtain ⟨hanswer, hafter, hlog⟩ := h.perform hordered w call
      obtain ⟨hreplies, hlast⟩ := ih hafter (ordered_perform hordered call)
      exact ⟨congrArg₂ List.cons (Prod.ext hanswer hlog) hreplies, hlast⟩

end Registry

/-! ## Many threads -/

namespace Pool

/-- The pool with its entries in the order in which they are met. -/
def met (w : Traversal) (p : Pool) : Pool :=
  { p with tracked := p.tracked.met w }

/-- Pools that track the same entries, in whatever order. -/
structure Alike (p p' : Pool) : Prop where
  tracked : p.tracked.Alike p'.tracked
  cells : p.cells = p'.cells
  samples : p.samples = p'.samples
  batches : p.batches = p'.batches
  evictions : p.evictions = p'.evictions

variable {p p' : Pool}

theorem Alike.met (h : Alike p p') (w : Traversal) : Alike p (p'.met w) :=
  ⟨h.tracked.trans (Lru.alike_met w p'.tracked), h.cells, h.samples, h.batches, h.evictions⟩

theorem Alike.acquire (h : Alike p p') (hordered : p.tracked.Ordered) {name : String}
    (hname : p.tracked.find? name = none) : Alike (p.acquire name).2 (p'.acquire name).2 := by
  have hother := hname
  rw [h.tracked.find? hordered.names name] at hother
  obtain ⟨hvictim, hleft⟩ := h.tracked.visit hordered name p.cells.length
  rw [acquire_of_none hname, acquire_of_none hother, ← h.cells, ← h.evictions, ← hvictim]
  exact ⟨hleft, rfl, h.samples, h.batches, rfl⟩

theorem Alike.registry (h : Alike p p') : p.registry.Alike p'.registry := by
  have hcells : p.profileAt = p'.profileAt := by
    funext cell
    rw [profileAt, h.cells, profileAt]
  unfold Pool.registry
  rw [hcells]
  exact ⟨h.tracked.map _, h.samples, h.batches, h.evictions⟩

end Pool

/-- **One step** of a thread that does not read all profiles does the same to pools that are alike. -/
theorem Thread.Moves.alike {quiet : Bool} {p p' q : Pool} {t t' : Thread} {o : Occurrence}
    (hmove : t.Moves quiet p o t' q) (h : p.Alike p') (hordered : p.tracked.Ordered)
    (hreads : Request.readAll ∉ t.requests) : ∃ q', t.Moves quiet p' o t' q' ∧ q.Alike q' := by
  have hfind := h.tracked.find? hordered.names
  cases hmove with
  | skip requests seen => exact ⟨_, .skip requests seen, h⟩
  | submit batch requests seen hbatch =>
      exact ⟨_, .submit batch requests seen hbatch,
        ⟨h.tracked, h.cells, h.samples, congrArg (· + 1) h.batches, h.evictions⟩⟩
  | clear requests seen hquiet =>
      exact ⟨_, .clear requests seen hquiet, ⟨h.tracked.clear, h.cells, rfl, rfl, rfl⟩⟩
  | read name requests seen =>
      rw [hfind name]
      exact ⟨_, .read name requests seen, h⟩
  | readAll requests seen => exact absurd List.mem_cons_self hreads
  | count batch requests seen =>
      exact ⟨_, .count batch requests seen,
        ⟨h.tracked, h.cells, congrArg (· + batch.length) h.samples, h.batches, h.evictions⟩⟩
  | settle requests seen => exact ⟨_, .settle requests seen, h⟩
  | hit cell s rest requests seen hfound =>
      rw [hfind s.name] at hfound
      rw [h.tracked.clock]
      exact ⟨_, .hit cell s rest requests seen hfound,
        ⟨h.tracked.draw, h.cells, h.samples, h.batches, h.evictions⟩⟩
  | miss s rest requests seen hfound =>
      rw [hfind s.name] at hfound
      exact ⟨_, .miss s rest requests seen hfound, h⟩
  | store cell stamp s rest requests seen =>
      exact ⟨_, .store cell stamp s rest requests seen,
        ⟨h.tracked.mark s.name stamp, h.cells, h.samples, h.batches, h.evictions⟩⟩
  | refind cell s rest requests seen hquiet hfound =>
      rw [hfind s.name] at hfound
      rw [h.tracked.clock]
      exact ⟨_, .refind cell s rest requests seen hquiet hfound,
        ⟨h.tracked.touch s.name, h.cells, h.samples, h.batches, h.evictions⟩⟩
  | insert s rest requests seen hquiet hfound =>
      have hleft := h.acquire hordered hfound
      rw [hfind s.name] at hfound
      rw [h.tracked.clock, h.cells]
      exact ⟨_, .insert s rest requests seen hquiet hfound, hleft⟩
  | merge cell s rest requests seen =>
      refine ⟨_, .merge cell s rest requests seen, ⟨h.tracked, ?_, h.samples, h.batches, h.evictions⟩⟩
      show p.cells.modify cell _ = p'.cells.modify cell _
      rw [h.cells]
  | see cell rest requests seen =>
      rw [h.cells]
      exact ⟨_, .see cell rest requests seen, h⟩
  | leave requests seen => exact ⟨_, .leave requests seen, h⟩

namespace Shared

/-- The `i`-th thread takes its next step, if it can, on entries that are met anew. -/
def advanceBy (w : Traversal) (s : Shared) (i : Nat) : Option Shared :=
  advance { s with pool := s.pool.met w } i

/-- The threads take steps in the order of a schedule, and the entries are met anew at every step. -/
def runBy (w : Traversal) (s : Shared) (schedule : List Nat) : Option Shared :=
  schedule.foldlM (advanceBy w) s

/-- In the order in which the entries are stored, these are the runs of a schedule. -/
theorem runBy_stored (s : Shared) (schedule : List Nat) : s.runBy .stored schedule = s.run schedule :=
  rfl

/-- The same threads on pools that are alike. -/
structure Alike (s s' : Shared) : Prop where
  pool : s.pool.Alike s'.pool
  threads : s.threads = s'.threads

variable {first s s' : Shared} {c : Chronicle}

theorem Alike.refl (s : Shared) : Alike s s :=
  ⟨⟨.refl _, rfl, rfl, rfl, rfl⟩, rfl⟩

theorem Alike.symm (h : Alike s s') : Alike s' s where
  pool := ⟨h.pool.tracked.symm, h.pool.cells.symm, h.pool.samples.symm, h.pool.batches.symm, h.pool.evictions.symm⟩
  threads := h.threads.symm

/-- Threads that do not read all profiles take the same steps. -/
theorem Alike.exists_advance (h : Alike s s') (hordered : s.pool.tracked.Ordered)
    (hreads : ∀ t ∈ s.threads, Request.readAll ∉ t.requests) {i : Nat} {next : Shared}
    (hadvance : s.advance i = some next) : ∃ next', s'.advance i = some next' ∧ Alike next next' := by
  obtain ⟨t, o, t', q, ht, hmove, rfl⟩ := moves_of_advance hadvance
  obtain ⟨q', hmove', hleft⟩ := hmove.alike h.pool hordered (hreads t (List.mem_of_getElem? ht))
  have hquiet : s.isQuiet = s'.isQuiet := by
    unfold isQuiet
    rw [h.threads]
  rw [hquiet] at hmove'
  rw [h.threads] at ht
  exact ⟨_, advance_of_moves ht hmove', hleft, congrArg (·.set i t') h.threads⟩

/-- A step can be taken on both pools or on neither. -/
theorem Alike.advance (h : Alike s s') (hordered : s.pool.tracked.Ordered)
    (hreads : ∀ t ∈ s.threads, Request.readAll ∉ t.requests) (w : Traversal) (i : Nat) :
    Option.Rel Alike (s.advance i) (s'.advanceBy w i) := by
  have hmet : Alike s { s' with pool := s'.pool.met w } := ⟨h.pool.met w, h.threads⟩
  unfold advanceBy
  cases hadvance : s.advance i with
  | some next =>
      obtain ⟨next', hadvance', hleft⟩ := hmet.exists_advance hordered hreads hadvance
      rw [hadvance']
      exact .some hleft
  | none =>
      cases hother : Shared.advance { s' with pool := s'.pool.met w } i with
      | none => exact .none
      | some next =>
          -- a step that the other pool allows is one that this pool allows
          have hreads' : ∀ t ∈ s'.threads, Request.readAll ∉ t.requests := h.threads ▸ hreads
          obtain ⟨next', hadvance', _⟩ :=
            hmet.symm.exists_advance (hmet.pool.tracked.ordered hordered) hreads' hother
          rw [hadvance] at hadvance'
          exact absurd hadvance'.symm (Option.some_ne_none next')

/-- **A run of many threads** goes on as far, whatever the orders in which the entries are met, and leaves the same
    threads on pools that are alike. -/
theorem Alike.run (h : Alike s s') (hhistory : History first c s) (hfirst : first.Fresh)
    (hreads : ∀ t ∈ s.threads, Request.readAll ∉ t.requests) (w : Traversal) (schedule : List Nat) :
    Option.Rel Alike (s.run schedule) (s'.runBy w schedule) := by
  induction schedule generalizing s s' c with
  | nil => exact .some h
  | cons i rest ih =>
      have hordered := (hhistory.stamped hfirst).ordered
      have hstep := h.advance hordered hreads w i
      unfold Shared.run runBy
      rw [List.foldlM_cons, List.foldlM_cons]
      generalize hadvance : s.advance i = stepped at hstep ⊢
      generalize s'.advanceBy w i = other at hstep ⊢
      cases hstep with
      | none => exact .none
      | some hnext =>
          obtain ⟨t, o, t', q, ht, hmove, rfl⟩ := moves_of_advance hadvance
          refine ih hnext (hhistory.step ht hmove) ?_
          intro u hu
          rcases List.mem_or_eq_of_mem_set hu with hold | rfl
          · exact hreads u hold
          · exact fun hread => hreads t (List.mem_of_getElem? ht) (hmove.requests _ hread)

end Shared

end SampleProfiler
