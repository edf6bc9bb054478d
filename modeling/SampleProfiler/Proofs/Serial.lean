import Mathlib.Logic.Relation
import SampleProfiler.Proofs.Cells
import SampleProfiler.Proofs.Gathering
import SampleProfiler.Proofs.History

/-!
# `SampleProfiler.Proofs.Serial` — threads one after the other

A registry that takes its batches one by one is the special case of a shared one whose threads take turns: each
thread runs until it is finished, then the next one begins. So whatever the sequential registry does, some
schedule of the threads does too.

## Contents
- **Cells and contents.** `Pool.take` and `Pool.receive`, which do to a pool what `Registry.take` and
  `Registry.receive` do to the registry it stands for; `Pool.ofRegistry`.
- **One thread alone.** `Thread.Alone`, the steps of a thread while no other one takes any.
- **Threads in turn.** `exists_finished_after`.
-/

namespace SampleProfiler

/-! ## Cells and contents -/

namespace Pool

/-- The map is in order, and its entries stand under the names of their cells. -/
structure Tidy (p : Pool) : Prop where
  ordered : p.tracked.Ordered
  mapped : ∀ e ∈ p.tracked.entries, p.nameOf e.content = some e.name

/-- Takes one sample in one go. -/
def take (p : Pool) (s : Sample) : Pool :=
  (p.acquire s.name).2.merge (p.acquire s.name).1 s

/-- Receives a batch in one go. -/
def receive (p : Pool) (batch : List Sample) : Pool :=
  if batch.isEmpty then p
  else batch.foldl take { p with batches := p.batches + 1, samples := p.samples + batch.length }

variable {p : Pool} {name : String} {cell : Nat}

theorem find?_acquire (p : Pool) (name : String) :
    (p.acquire name).2.tracked.find? name = some (p.acquire name).1 := by
  cases hfound : p.tracked.find? name with
  | some cell =>
      rw [acquire_of_some hfound, Lru.find?_touch]
      exact hfound
  | none =>
      rw [tracked_acquire, Lru.find?_visit_self, hfound, acquire_of_none hfound]
      rfl

theorem Tidy.acquire (h : p.Tidy) (name : String) : (p.acquire name).2.Tidy where
  ordered := by
    rw [tracked_acquire]
    exact h.ordered.visit name p.cells.length
  mapped := mapped_acquire h.ordered h.mapped name

theorem Tidy.merge (h : p.Tidy) (cell : Nat) (s : Sample) : (p.merge cell s).Tidy where
  ordered := h.ordered
  mapped := by
    intro e he
    rw [nameOf_merge]
    exact h.mapped e he

theorem Tidy.take (h : p.Tidy) (s : Sample) : (p.take s).Tidy :=
  (h.acquire s.name).merge _ s

theorem Tidy.foldl_take (h : p.Tidy) (samples : List Sample) : (samples.foldl Pool.take p).Tidy := by
  induction samples generalizing p with
  | nil => exact h
  | cons s rest ih => exact ih (h.take s)

theorem Tidy.countBatch (h : p.Tidy) (batch : List Sample) :
    Tidy { p with batches := p.batches + 1, samples := p.samples + batch.length } where
  ordered := h.ordered
  mapped := h.mapped

theorem Tidy.receive (h : p.Tidy) (batch : List Sample) : (p.receive batch).Tidy := by
  unfold Pool.receive
  split
  · exact h
  · exact (h.countBatch batch).foldl_take batch

/-- Only the entry of a name holds the cell of the name. -/
theorem Tidy.content_eq_iff (h : p.Tidy) (hfound : p.tracked.find? name = some cell) {e : Entry Nat}
    (he : e ∈ p.tracked.entries) : e.content = cell ↔ e.name = name := by
  obtain ⟨d, hd, rfl, rfl⟩ := Lru.exists_entry_of_find? hfound
  constructor
  · intro hcontent
    have hname := h.mapped e he
    rw [hcontent, h.mapped d hd] at hname
    exact (Option.some.inj hname).symm
  · intro hname
    rw [List.inj_on_of_nodup_map h.ordered.names he hd hname]

/-- Merging into the cell of a name changes the contents under that name. -/
theorem tracked_registry_merge (h : p.Tidy) {s : Sample} (hfound : p.tracked.find? s.name = some cell) :
    (p.merge cell s).registry.tracked = p.registry.tracked.update s.name fun q => q.merge s := by
  unfold registry Lru.update Lru.map
  dsimp only
  rw [List.map_map]
  congr 1
  apply List.map_congr_left
  intro e he
  obtain ⟨profile, hprofile, _⟩ := nameOf_eq_some_iff.mp (h.mapped e he)
  have hcell : cell = e.content ↔ e.name = s.name := eq_comm.trans (h.content_eq_iff hfound he)
  have hafter : (p.merge cell s).profileAt e.content
      = if cell = e.content then (p.profileAt e.content).merge s else p.profileAt e.content := by
    rw [profileAt, Pool.merge, List.getElem?_modify, profileAt, hprofile]
    rfl
  rw [Function.comp_apply, hafter]
  by_cases hname : e.name = s.name
  · rw [if_pos hname, if_pos (hcell.mpr hname)]
  · rw [if_neg hname, if_neg (mt hcell.mp hname)]

/-- Finding or making the cell of a name is a use of the name. -/
theorem visit_registry (h : p.Tidy) (name : String) :
    p.registry.tracked.visit name (.empty name)
      = ((p.tracked.visit name p.cells.length).1, (p.acquire name).2.registry.tracked) := by
  have hcells : ∀ e ∈ p.tracked.entries, p.profileAt e.content = (p.acquire name).2.profileAt e.content := by
    intro e he
    have hlt := lt_of_nameOf (h.mapped e he)
    cases hfound : p.tracked.find? name with
    | some cell => rw [acquire_of_some hfound, profileAt, profileAt]
    | none => rw [acquire_of_none hfound, profileAt, profileAt, List.getElem?_append_left hlt]
  -- the old cells hold what they held, so the pool can be read after the use already
  have hread : p.registry.tracked = p.tracked.map (p.acquire name).2.profileAt := Lru.map_congr hcells
  have hafter : (p.acquire name).2.registry.tracked
      = (p.tracked.visit name p.cells.length).2.map (p.acquire name).2.profileAt := by
    rw [registry, tracked_acquire]
  rw [hread, hafter]
  cases hfound : p.tracked.find? name with
  | some cell =>
      -- the fresh contents are not used then
      have hthere : (p.tracked.map (p.acquire name).2.profileAt).find? name
          = some ((p.acquire name).2.profileAt cell) := by
        rw [Lru.find?_map, hfound, Option.map_some]
      rw [← Lru.visit_map, Lru.visit_of_find? hthere, Lru.visit_of_find? hthere]
  | none =>
      have hfresh : (p.acquire name).2.profileAt p.cells.length = .empty name := by
        rw [acquire_of_none hfound, profileAt, List.getElem?_concat_length]
        rfl
      rw [← hfresh, Lru.visit_map]

theorem evictions_acquire (p : Pool) (name : String) :
    (p.acquire name).2.evictions
      = p.evictions + if (p.tracked.visit name p.cells.length).1.isSome then 1 else 0 := by
  cases hfound : p.tracked.find? name with
  | some cell =>
      rw [acquire_of_some hfound, Lru.visit_of_find? hfound]
      rfl
  | none =>
      rw [acquire_of_none hfound]
      dsimp only
      split <;> rfl

/-- **Taking a sample** does to the pool what it does to the registry. -/
theorem registry_take (h : p.Tidy) (s : Sample) : (p.take s).registry = (p.registry.take s).1 := by
  have htracked := tracked_registry_merge (h.acquire s.name) (find?_acquire p s.name)
  have hvisit := visit_registry h s.name
  have hcounts : (p.acquire s.name).2.samples = p.samples ∧ (p.acquire s.name).2.batches = p.batches := by
    unfold acquire
    dsimp only
    split <;> exact ⟨rfl, rfl⟩
  have hregistry : (p.take s).registry =
      { tracked := (p.take s).registry.tracked, samples := p.samples, batches := p.batches,
        evictions := (p.acquire s.name).2.evictions } := by
    rw [← hcounts.1, ← hcounts.2]
    rfl
  rw [hregistry, evictions_acquire, Registry.take, hvisit]
  dsimp only
  rw [show (p.take s).registry.tracked = _ from htracked]
  cases (p.tracked.visit s.name p.cells.length).1 <;> rfl

theorem registry_foldl_take (h : p.Tidy) (samples : List Sample) :
    (samples.foldl take p).registry = p.registry.absorb samples := by
  induction samples generalizing p with
  | nil => rfl
  | cons s rest ih =>
      rw [List.foldl_cons, ih (h.take s), registry_take h]
      rfl

theorem registry_receive (h : p.Tidy) (batch : List Sample) :
    (p.receive batch).registry = (p.registry.receive batch).1 := by
  by_cases hbatch : batch = []
  · rw [hbatch]
    rfl
  · rw [receive, if_neg (by simpa using hbatch), Registry.receive_fst hbatch]
    exact registry_foldl_take (h.countBatch batch) batch

theorem registry_foldl_receive (h : p.Tidy) (batches : List (List Sample)) :
    (batches.foldl receive p).registry = p.registry.after (batches.map .receive) := by
  induction batches generalizing p with
  | nil => rfl
  | cons batch rest ih =>
      rw [List.foldl_cons, ih (h.receive batch), registry_receive h]
      rfl

/-- A pool that stands for a registry, with a cell for every profile. -/
def ofRegistry (r : Registry) : Pool :=
  { tracked :=
      { bound := r.tracked.bound
        entries := r.tracked.entries.mapIdx fun i e => ⟨e.name, e.stamp, i⟩
        clock := r.tracked.clock }
    cells := r.tracked.contents
    samples := r.samples
    batches := r.batches
    evictions := r.evictions }

theorem registry_ofRegistry (r : Registry) : (ofRegistry r).registry = r := by
  have hentries : (r.tracked.entries.mapIdx fun i e => (⟨e.name, e.stamp, i⟩ : Entry Nat)).map
      (fun e => ⟨e.name, e.stamp, (ofRegistry r).profileAt e.content⟩) = r.tracked.entries := by
    apply List.ext_getElem?
    intro i
    rw [List.getElem?_map, List.getElem?_mapIdx]
    cases hi : r.tracked.entries[i]? with
    | none => rfl
    | some e =>
        have hcontent : (ofRegistry r).profileAt i = e.content := by
          rw [profileAt, ofRegistry, Lru.contents, List.getElem?_map, hi]
          rfl
        rw [Option.map_some, Option.map_some, hcontent]
  have htracked : (ofRegistry r).tracked.map (ofRegistry r).profileAt = r.tracked := by
    rw [Lru.map]
    exact congrArg (fun entries => ({ r.tracked with entries := entries } : Lru Profile)) hentries
  rw [registry, htracked]
  rfl

end Pool

/-! ## One thread alone -/

namespace Thread

variable {quiet : Bool} {p p' : Pool} {t t' : Thread} {o : Occurrence}

/-- Steps that a thread can take while no other thread is in a shared section. -/
def Alone : Thread × Pool → Thread × Pool → Prop :=
  Relation.ReflTransGen fun a b => ∃ o, Moves true a.2 a.1 o b.1 b.2

theorem Alone.of_moves (h : Moves true p t o t' p') : Alone (t, p) (t', p') :=
  .single ⟨o, h⟩

/-- What a thread does in a shared section of its own does not wait for the others. -/
theorem Moves.of_sharing (h : Moves quiet p t o t' p') (hsharing : t.isSharing = true) (other : Bool) :
    Moves other p t o t' p' := by
  cases h with
  | store cell stamp s rest requests seen => exact .store cell stamp s rest requests seen
  | _ => exact absurd hsharing Bool.false_ne_true

variable {requests : List Request} {seen : List Profile}

theorem alone_sample (p : Pool) (s : Sample) (rest : List Sample) :
    Alone (⟨requests, .seeking (s :: rest), seen⟩, p) (⟨requests, .seeking rest, seen⟩, p.take s) := by
  unfold Pool.take
  cases hfound : p.tracked.find? s.name with
  | some cell =>
      rw [Pool.acquire_of_some hfound]
      have hhit := Alone.of_moves (.hit cell s rest requests seen hfound)
      have hstore := Alone.of_moves
        (.store (p := { p with tracked := p.tracked.draw.2 }) cell p.tracked.clock s rest requests seen)
      exact (hhit.trans hstore).trans (Alone.of_moves (.merge cell s rest requests seen))
  | none =>
      have hmiss := Alone.of_moves (.miss s rest requests seen hfound)
      have hinsert := Alone.of_moves (.insert s rest requests seen rfl hfound)
      have hcell : (p.acquire s.name).1 = p.cells.length := by rw [Pool.acquire_of_none hfound]
      rw [hcell]
      exact (hmiss.trans hinsert).trans (Alone.of_moves (.merge p.cells.length s rest requests seen))

theorem alone_samples (p : Pool) (samples : List Sample) :
    Alone (⟨requests, .seeking samples, seen⟩, p) (⟨requests, .seeking [], seen⟩, samples.foldl Pool.take p) := by
  induction samples generalizing p with
  | nil => exact .refl
  | cons s rest ih => exact (alone_sample p s rest).trans (ih (p.take s))

theorem alone_batch (p : Pool) (batch : List Sample) :
    Alone (⟨.batch batch :: requests, .idle, seen⟩, p) (⟨requests, .idle, seen⟩, p.receive batch) := by
  by_cases hbatch : batch = []
  · rw [hbatch]
    exact Alone.of_moves (.skip requests seen)
  · rw [Pool.receive, if_neg (by simpa using hbatch)]
    have hsubmit := Alone.of_moves (.submit (p := p) batch requests seen hbatch)
    have hcount := Alone.of_moves (.count (p := { p with batches := p.batches + 1 }) batch requests seen)
    exact ((hsubmit.trans hcount).trans (alone_samples _ batch)).trans (Alone.of_moves (.settle requests seen))

/-- **A thread alone** sends its batches one after the other. -/
theorem alone_batches (p : Pool) (batches : List (List Sample)) :
    Alone (⟨batches.map .batch, .idle, seen⟩, p) (⟨[], .idle, seen⟩, batches.foldl Pool.receive p) := by
  induction batches generalizing p with
  | nil => exact .refl
  | cons batch rest ih => exact (alone_batch p batch).trans (ih (p.receive batch))

end Thread

/-! ## Threads in turn -/

namespace Shared

theorem Reachable.trans {first s t : Shared} (h : Reachable first s) (hmore : Reachable s t) :
    Reachable first t := by
  induction hmore with
  | refl => exact h
  | step _ hadvance ih => exact .step ih hadvance

/-- No shared section is open while none is open before and after the thread in the middle. -/
theorem isQuiet_middle {before after : List Thread} (hbefore : ∀ t ∈ before, t.isSharing = false)
    (hafter : ∀ t ∈ after, t.isSharing = false) (p : Pool) {t : Thread} (ht : t.isSharing = false) :
    isQuiet { pool := p, threads := before ++ t :: after } = true := by
  rw [isQuiet, List.all_eq_true]
  intro u hu
  have hnot : u.isSharing = false := by
    rcases List.mem_append.mp hu with hu | hu
    · exact hbefore u hu
    · rcases List.mem_cons.mp hu with rfl | hu
      · exact ht
      · exact hafter u hu
  rw [hnot]
  rfl

/-- What a thread can do alone it can do among threads that are not in a shared section. -/
theorem reachable_of_alone {before after : List Thread} (hbefore : ∀ t ∈ before, t.isSharing = false)
    (hafter : ∀ t ∈ after, t.isSharing = false) {a b : Thread × Pool} (h : Thread.Alone a b) :
    Reachable { pool := a.2, threads := before ++ a.1 :: after }
      { pool := b.2, threads := before ++ b.1 :: after } := by
  induction h with
  | refl => exact .refl
  | @tail b c _ hstep ih =>
      obtain ⟨o, hmove⟩ := hstep
      have hmove' : b.1.Moves (isQuiet { pool := b.2, threads := before ++ b.1 :: after }) b.2 o c.1 c.2 := by
        cases hsharing : b.1.isSharing with
        | true => exact hmove.of_sharing hsharing _
        | false =>
            rw [isQuiet_middle hbefore hafter b.2 hsharing]
            exact hmove
      have hthread : (before ++ b.1 :: after)[before.length]? = some b.1 := by
        rw [List.getElem?_append_right (Nat.le_refl _), Nat.sub_self, List.getElem?_cons_zero]
      have hadvance := advance_of_moves (s := { pool := b.2, threads := before ++ b.1 :: after }) hthread hmove'
      rw [List.set_append_right _ _ (Nat.le_refl _), Nat.sub_self, List.set_cons_zero] at hadvance
      exact .step ih hadvance

/-- **Threads in turn.** Threads that send batches can run one after the other, and then they are all finished
    and the pool has received the batches in that order. -/
theorem reachable_serial (p : Pool) (senders : List (List (List Sample))) :
    Reachable { pool := p, threads := senders.map fun batches => { requests := batches.map .batch } }
      { pool := senders.flatten.foldl Pool.receive p, threads := senders.map fun _ => { requests := [] } } := by
  -- the induction is on the threads that are still to run; those before them are finished
  have general : ∀ (senders finished : List (List (List Sample))) (p : Pool),
      Reachable
        { pool := p
          threads := (finished.map fun _ => { requests := [] }) ++
            senders.map fun batches => { requests := batches.map .batch } }
        { pool := senders.flatten.foldl Pool.receive p
          threads := (finished.map fun _ => { requests := [] }) ++ senders.map fun _ => { requests := [] } } := by
    intro senders
    induction senders with
    | nil => exact fun _ _ => .refl
    | cons batches rest ih =>
        intro finished p
        have hidle : ∀ {β : Type} (l : List β) (requests : β → List Request),
            ∀ t ∈ l.map (fun x => ({ requests := requests x } : Thread)), t.isSharing = false := by
          intro β l requests t ht
          obtain ⟨x, _, rfl⟩ := List.mem_map.mp ht
          rfl
        have halone : Thread.Alone (⟨batches.map .batch, .idle, []⟩, p) _ := Thread.alone_batches p batches
        have hfirst := reachable_of_alone (hidle finished fun _ => []) (hidle rest fun b => b.map .batch) halone
        have hrest := ih (finished ++ [batches]) (batches.foldl Pool.receive p)
        rw [List.map_append, List.append_assoc, List.append_assoc, ← List.foldl_append] at hrest
        exact hfirst.trans hrest
  exact general senders [] p

/-- **The sequential registry is a special case**: what it holds after batches that come one by one, threads
    leave behind that send these batches in turn. -/
theorem exists_finished_after {p : Pool} (h : p.Tidy) (senders : List (List (List Sample))) :
    ∃ s, Reachable { pool := p, threads := senders.map fun batches => { requests := batches.map .batch } } s ∧
      s.isFinished = true ∧ s.pool.registry = p.registry.after (senders.flatten.map .receive) := by
  refine ⟨_, reachable_serial p senders, ?_, Pool.registry_foldl_receive h senders.flatten⟩
  rw [isFinished_iff]
  intro t ht
  obtain ⟨batches, _, rfl⟩ := List.mem_map.mp ht
  exact ⟨rfl, rfl⟩

end Shared

end SampleProfiler
