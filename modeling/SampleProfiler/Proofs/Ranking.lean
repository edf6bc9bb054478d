import SampleProfiler.Proofs.Scheduling
import SampleProfiler.Proofs.Traversal

/-!
# `SampleProfiler.Proofs.Ranking` — the order of a report

A report lists profiles by falling total, and those of equal totals by name. No two tracked profiles have the same
name, so there is only one list to make, in whatever order the profiles were collected. Together with the runs of
`SampleProfiler.Proofs.Traversal` this says that the order in which a map meets its entries cannot be observed, not
by a read and not in a report.

## Contents
- **The order of a report.** `Load.Precedes` and `Load.Arranges`, which `Load.ranked` does and nothing else.
- **What is shown and reported.** `Registry.Agree`, `Registry.Reported`, and the registries that are `Named`.
- **Two orders.** `agree_of_traversals`.
-/

namespace SampleProfiler

/-! ## The order of a report -/

namespace Load

/-- A profile stands before another one if its total is greater, or if the totals are equal and its name is less. -/
def Precedes (a b : Profile) : Prop :=
  b.total < a.total ∨ (a.total = b.total ∧ a.name < b.name)

instance (a b : Profile) : Decidable (Precedes a b) :=
  inferInstanceAs (Decidable (_ ∨ _))

/-- All profiles, each once, by falling total and then by increasing name. -/
structure Arranges (listed profiles : List Profile) : Prop where
  perm : listed.Perm profiles
  sorted : listed.Pairwise Precedes

theorem before_iff {a b : Profile} :
    before a b = true ↔ b.total < a.total ∨ (a.total = b.total ∧ a.name ≤ b.name) := by
  unfold before
  by_cases htotal : a.total = b.total
  · rw [if_pos htotal, Bool.not_eq_true', decide_eq_false_iff_not, String.not_lt]
    constructor
    · exact fun hname => Or.inr ⟨htotal, hname⟩
    · rintro (hless | ⟨_, hname⟩)
      · exact absurd (htotal ▸ hless) (Int.lt_irrefl _)
      · exact hname
  · rw [if_neg htotal, decide_eq_true_iff]
    constructor
    · exact Or.inl
    · rintro (hless | ⟨hsame, _⟩)
      · exact hless
      · exact absurd hsame htotal

theorem before_trans {a b c : Profile} (hab : before a b = true) (hbc : before b c = true) :
    before a c = true := by
  rw [before_iff] at hab hbc ⊢
  rcases hab with hab | ⟨hab, hname⟩
  · left
    rcases hbc with hbc | ⟨hbc, _⟩
    · exact Int.lt_trans hbc hab
    · exact hbc ▸ hab
  · rcases hbc with hbc | ⟨hbc, hnext⟩
    · exact Or.inl (hab ▸ hbc)
    · exact Or.inr ⟨hab.trans hbc, String.le_trans hname hnext⟩

theorem before_total (a b : Profile) : (before a b || before b a) = true := by
  rw [Bool.or_eq_true, before_iff, before_iff]
  rcases Int.lt_trichotomy a.total.toInt b.total.toInt with hless | htotal | hless
  · exact Or.inr (Or.inl hless)
  · have hsame : a.total = b.total := Nanos.ext htotal
    rcases String.le_total a.name b.name with hname | hname
    · exact Or.inl (Or.inr ⟨hsame, hname⟩)
    · exact Or.inr (Or.inr ⟨hsame.symm, hname⟩)
  · exact Or.inl (Or.inl hless)

variable {profiles other listed : List Profile}

/-- A report arranges profiles of different names. -/
theorem arranges_ranked (hnames : (profiles.map Profile.name).Nodup) : Arranges (ranked profiles) profiles where
  perm := List.mergeSort_perm _ _
  sorted := by
    have hfalling : (ranked profiles).Pairwise fun a b => before a b = true := by
      apply List.pairwise_mergeSort
      · exact fun _ _ _ => before_trans
      · exact before_total
    have hunique : (ranked profiles).Pairwise fun a b => a.name ≠ b.name := by
      apply List.pairwise_map.mp
      exact ((List.mergeSort_perm _ _).map Profile.name).nodup_iff.mpr hnames
    refine (hfalling.and hunique).imp ?_
    rintro a b ⟨hbefore, hname⟩
    rw [before_iff] at hbefore
    rcases hbefore with htotal | ⟨htotal, hle⟩
    · exact Or.inl htotal
    · exact Or.inr ⟨htotal, String.not_le.mp fun hge => hname (String.le_antisymm hle hge)⟩

theorem Precedes.asymm {a b : Profile} (h : Precedes a b) : ¬ Precedes b a := by
  rintro (hback | ⟨hback, hname⟩)
  · rcases h with h | ⟨h, _⟩
    · exact Int.lt_asymm h hback
    · exact Int.lt_irrefl _ (h ▸ hback)
  · rcases h with h | ⟨_, h⟩
    · exact Int.lt_irrefl _ (hback ▸ h)
    · exact String.lt_asymm h hname

/-- The same profiles are arranged in one way. -/
theorem Arranges.eq_of_perm {relisted : List Profile} (h : Arranges listed profiles)
    (hagain : Arranges relisted other) (hperm : profiles.Perm other) : listed = relisted := by
  refine (h.perm.trans (hperm.trans hagain.perm.symm)).eq_of_pairwise ?_ h.sorted hagain.sorted
  intro a b _ _ hab hba
  exact absurd hba hab.asymm

/-- What does not fit into a report is no greater than what it shows. -/
theorem Arranges.total_le (h : Arranges listed profiles) {top : Nat} {a b : Profile} (ha : a ∈ listed.take top)
    (hb : b ∈ listed.drop top) : b.total ≤ a.total := by
  have hsorted := h.sorted
  rw [← List.take_append_drop top listed, List.pairwise_append] at hsorted
  rcases hsorted.2.2 a ha b hb with hless | ⟨hsame, _⟩
  · exact Int.le_of_lt hless
  · exact Int.le_of_eq (congrArg Nanos.toInt hsame.symm)

end Load

/-! ## What is shown and reported -/

namespace Registry

variable {r r' : Registry}

/-- What two registries show, if the entries of each are met in an order of its own. -/
structure Agree (w v : Traversal) (r r' : Registry) : Prop where
  contains : ∀ name, (r.met w).contains name = (r'.met v).contains name
  profile : ∀ name, (r.met w).profile name = (r'.met v).profile name
  names : (r.met w).names = (r'.met v).names
  listing : (r.met w).listing = (r'.met v).listing
  totals : (r.met w).totals = (r'.met v).totals
  settled : ∀ (p : Load.Plan) draws elapsed h,
    p.settle draws elapsed h (r.met w) = p.settle draws elapsed h (r'.met v)

/-- What a report on a registry lists, if its entries are met in the given order: the only arrangement of all tracked
    profiles, of which it shows as many as fit, and none that is left out has a greater total than one of those. -/
structure Reported (w : Traversal) (r : Registry) : Prop where
  arranged : ∀ listed, Load.Arranges listed r.profiles ↔ listed = Load.ranked (r.met w).profiles
  once : ((Load.ranked (r.met w).profiles).map Profile.name).Nodup
  tracked : ∀ name, name ∈ (Load.ranked (r.met w).profiles).map Profile.name ↔ r.contains name = true
  shown : ∀ (p : Load.Plan) draws elapsed h report, p.settle draws elapsed h (r.met w) = .ok report →
    report.profiles = Load.ranked (r.met w).profiles
  left : ∀ top, ∀ a ∈ (Load.ranked (r.met w).profiles).take top,
    ∀ b ∈ (Load.ranked (r.met w).profiles).drop top, b.total ≤ a.total

/-- Every profile is tracked under its own name, and no two of them are under one. -/
structure Named (r : Registry) : Prop where
  ordered : r.tracked.Ordered
  named : ∀ e ∈ r.tracked.entries, e.content.name = e.name

theorem Alike.named (h : Alike r r') (hnamed : Named r) : Named r' where
  ordered := h.tracked.ordered hnamed.ordered
  named := fun e he => hnamed.named e (h.tracked.entries.mem_iff.mpr he)

theorem Alike.profiles (h : Alike r r') : r.profiles.Perm r'.profiles :=
  h.tracked.entries.map Entry.content

theorem Named.names_profiles (h : Named r) : r.profiles.map Profile.name = r.tracked.names := by
  unfold Registry.profiles Lru.contents Lru.names
  rw [List.map_map]
  exact List.map_congr_left h.named

theorem Named.arranges_ranked (h : Named r) : Load.Arranges (Load.ranked r.profiles) r.profiles := by
  apply Load.arranges_ranked
  rw [h.names_profiles]
  exact h.ordered.names

/-- **The order of a report leaves no choice**, because no two profiles have the same name. -/
theorem Named.reported (h : Named r) (w : Traversal) : Reported w r := by
  have hmet := alike_met w r
  have harranged := (hmet.named h).arranges_ranked
  have hnames : ((Load.ranked (r.met w).profiles).map Profile.name).Perm r.tracked.names := by
    rw [← h.names_profiles]
    exact (harranged.perm.trans hmet.profiles.symm).map Profile.name
  constructor
  · intro listed
    constructor
    · intro hlisted
      exact hlisted.eq_of_perm harranged hmet.profiles
    · rintro rfl
      exact ⟨harranged.perm.trans hmet.profiles.symm, harranged.sorted⟩
  · exact hnames.nodup_iff.mpr h.ordered.names
  · intro name
    rw [hnames.mem_iff, ← Lru.contains_iff_mem_names]
    rfl
  · intro p draws elapsed handle report hsettled
    unfold Load.Plan.settle at hsettled
    dsimp only at hsettled
    split at hsettled
    · cases hsettled
    · cases hsettled
      rfl
  · intro top a ha b hb
    exact harranged.total_le ha hb

/-- Registries that are alike show the same, and are reported on in the same way. -/
theorem Alike.agree (h : Alike r r') (hnamed : Named r) (w v : Traversal) : Agree w v r r' := by
  have hmet : Alike (r.met w) (r'.met v) := ((alike_met w r).symm.trans h).trans (alike_met v r')
  have hboth : Named (r.met w) := (alike_met w r).named hnamed
  have hranked : Load.ranked (r.met w).profiles = Load.ranked (r'.met v).profiles :=
    hboth.arranges_ranked.eq_of_perm (hmet.named hboth).arranges_ranked hmet.profiles
  refine ⟨hmet.contains hboth.ordered, hmet.profile hboth.ordered, hmet.names, hmet.listing hboth.ordered,
    hmet.totals, ?_⟩
  intro p draws elapsed handle
  unfold Load.Plan.settle
  rw [hranked, hmet.totals]

theorem Keeps.named {bound : Nat} {past : List Sample} (h : Keeps bound r past) : Named r where
  ordered := h.reflects.ordered
  named := by
    intro e he
    rw [h.contents e.name e.content (Lru.find?_of_mem h.reflects.ordered.names he), Profile.name_ofSamples]

end Registry

/-- The registry that a pool stands for, in the midst of any run. -/
theorem Shared.History.named {first s : Shared} {c : Chronicle} (h : History first c s) (hfirst : first.Fresh) :
    s.pool.registry.Named where
  ordered := (h.stamped hfirst).ordered.map _
  named := by
    intro e he
    obtain ⟨d, hd, rfl⟩ := List.mem_map.mp he
    obtain ⟨profile, hcell, hname⟩ := Pool.nameOf_eq_some_iff.mp ((h.filled hfirst).mapped d hd)
    show (s.pool.profileAt d.content).name = d.name
    rw [Pool.profileAt, hcell]
    exact hname

/-! ## Two orders -/

namespace Registry

/-- **The order in which a map is met cannot be observed.** Take any two orders, which may be other ones at every scan.
    Then any run of calls is answered the same and logs the same events, so the same names are evicted in the same
    order, and any schedule of threads that send batches, clear and read single profiles takes them to the same state.
    Afterwards the two registries show the same, and a report lists all tracked profiles in the one order that there
    is. -/
theorem agree_of_traversals (w v : Traversal) (bound : Nat) :
    (∀ calls : List Call,
      let one := (empty bound).performAllBy w calls
      let other := (empty bound).performAllBy v calls
      one.1 = other.1 ∧ one.1 = ((empty bound).performAll calls).1 ∧
        Agree w v one.2 other.2 ∧ Reported w one.2) ∧
    ∀ (requests : List (List Request)) (schedule : List Nat), (∀ mine ∈ requests, Request.readAll ∉ mine) →
      Option.Rel
        (fun s t : Shared => s.threads = t.threads ∧ Agree w v s.pool.registry t.pool.registry ∧
          Reported w s.pool.registry)
        ((Shared.start bound requests).runBy w schedule) ((Shared.start bound requests).runBy v schedule) := by
  constructor
  · intro calls one other
    have hnamed : Named ((empty bound).performAll calls).2 := by
      rw [performAll_snd]
      exact (keeps_after bound calls).named
    obtain ⟨hone, hleft⟩ := (Alike.refl (empty bound)).performAll (Lru.ordered_empty bound) w calls
    obtain ⟨hother, hright⟩ := (Alike.refl (empty bound)).performAll (Lru.ordered_empty bound) v calls
    exact ⟨hone.symm.trans hother, hone.symm, (hleft.symm.trans hright).agree (hleft.named hnamed) w v,
      (hleft.named hnamed).reported w⟩
  · intro requests schedule hreads
    have hfresh := Shared.fresh_start bound requests
    have hthreads : ∀ t ∈ (Shared.start bound requests).threads, Request.readAll ∉ t.requests := by
      intro t ht
      obtain ⟨mine, hmine, rfl⟩ := List.mem_map.mp ht
      exact hreads mine hmine
    have hstart := Shared.Alike.refl (Shared.start bound requests)
    have hone := hstart.run .refl hfresh hthreads w schedule
    have hother := hstart.run .refl hfresh hthreads v schedule
    generalize hrun : (Shared.start bound requests).run schedule = ran at hone hother
    generalize (Shared.start bound requests).runBy w schedule = one at hone ⊢
    generalize (Shared.start bound requests).runBy v schedule = other at hother ⊢
    cases hone with
    | none =>
        cases hother
        exact .none
    | some hleft =>
        cases hother with
        | some hright =>
            obtain ⟨c, hhistory⟩ :=
              Shared.reachable_iff_exists_history.mp (Shared.Reachable.of_run .refl hrun)
            have hnamed := hleft.pool.registry.named (hhistory.named hfresh)
            exact .some ⟨hleft.threads.symm.trans hright.threads,
              (hleft.pool.registry.symm.trans hright.pool.registry).agree hnamed w v, hnamed.reported w⟩

/-- A map for two names evicts the first of three, and collects the others in two orders; their totals are equal, so
    the report goes by their names. Two threads that send the same in turns come to one state as well. -/
theorem agree_of_traversals_backwards :
    let a : Sample := ⟨"a", .clamp 5, true, .reading 0⟩
    let b : Sample := ⟨"b", .clamp 5, false, .reading 1⟩
    let c : Sample := ⟨"c", .clamp 5, true, .reading 2⟩
    let one := (empty 2).performAllBy .stored [.receive [a, c, b]]
    let other := (empty 2).performAllBy .backwards [.receive [a, c, b]]
    let start := Shared.start 2 [[.batch [a, c]], [.clear, .batch [b]]]
    let schedule := [0, 1, 0, 1, 0, 1, 0, 1, 0, 1, 0, 1, 0, 0]
    one.1 = [(.done, #[.received 3, .evicted "a" "b"])] ∧ one.1 = other.1 ∧
    (one.2.met .stored).profiles ≠ (other.2.met .backwards).profiles ∧
    Load.ranked (one.2.met .stored).profiles = [.ofSamples "b" [b], .ofSamples "c" [c]] ∧
    (one.2.met .stored).listing = (other.2.met .backwards).listing ∧
    (start.run schedule).isSome = true ∧
    ((start.runBy .stored schedule).map fun s => (s.pool.registry.met .stored).listing)
      = (start.runBy .backwards schedule).map fun t => (t.pool.registry.met .backwards).listing := by
  intro a b c one other start schedule
  obtain ⟨hcalls, hthreads⟩ := agree_of_traversals .stored .backwards 2
  obtain ⟨hreplies, _, hagree, hreported⟩ := hcalls [.receive [a, c, b]]
  have hrun := hthreads [[.batch [a, c]], [.clear, .batch [b]]] schedule (by simp)
  refine ⟨rfl, hreplies, by decide, ?_, hagree.listing, by decide, ?_⟩
  · exact ((hreported.arranged _).mp ⟨by decide, by decide⟩).symm
  · generalize start.runBy .stored schedule = s at hrun ⊢
    generalize start.runBy .backwards schedule = t at hrun ⊢
    cases hrun with
    | none => rfl
    | some hboth => exact congrArg some hboth.2.1.listing

end Registry

end SampleProfiler
