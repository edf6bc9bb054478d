import Mathlib.Algebra.BigOperators.Group.List.Basic
import Mathlib.Algebra.GroupWithZero.Nat
import Mathlib.Data.List.Nodup
import Mathlib.Data.List.Sort
import SampleProfiler.Lru
import SampleProfiler.Proofs.Recency

/-!
# `SampleProfiler.Proofs.Lru` — stamps stand for the order of use

An `Lru` stores stamps and scans for the least of them. This module shows that the stamps are a faithful
record of recency: `Lru.ranking`, the names by falling stamp, changes under a use exactly as a list that moves
the used name to the front and forgets what falls off its end (`ranking_visit`).

## Contents
- **The scan.** `stalest?_spec`: the scan finds an entry with the least stamp.
- **Contents by name.** What `find?` answers after each operation.
- **The invariant.** `Lru.Ordered` (unique names, unique stamps that were drawn already, no more entries than
  the bound allows), kept by every operation, and `visit_cases`, all that a use can do.
- **Sums over the contents.** What a use and a change do to the sum of any weights.
- **Changing all entries.** `Lru.recast`, and `visit_recast`: a use looks at names and at the order of stamps.
  `Lru.map` changes the contents alone.
- **The ranking.** `ranked` and `ranking`, and how each operation changes them.
-/

namespace SampleProfiler

variable {α : Type}

/-! ## The scan -/

/-- The scan keeps the least stamp it has met. -/
theorem foldl_stalest_spec (rest : List (Entry α)) (e : Entry α) :
    let v := rest.foldl (fun least e => if e.stamp < least.stamp then e else least) e
    v ∈ e :: rest ∧ ∀ d ∈ e :: rest, v.stamp ≤ d.stamp := by
  induction rest generalizing e with
  | nil => simp
  | cons a rest ih =>
      obtain ⟨hmem, hle⟩ := ih (if a.stamp < e.stamp then a else e)
      rw [List.foldl_cons]
      refine ⟨?_, ?_⟩
      · rcases List.mem_cons.mp hmem with h | h
        · rw [h]
          split <;> simp
        · exact List.mem_cons_of_mem _ (List.mem_cons_of_mem _ h)
      · have hstart := hle _ List.mem_cons_self
        intro d hd
        rcases List.mem_cons.mp hd with rfl | hd
        · refine Nat.le_trans hstart ?_
          split <;> omega
        · rcases List.mem_cons.mp hd with rfl | hd
          · refine Nat.le_trans hstart ?_
            split <;> omega
          · exact hle d (List.mem_cons_of_mem _ hd)

/-- **The scan finds an entry with the least stamp.** -/
theorem stalest?_spec {entries : List (Entry α)} {v : Entry α} (h : stalest? entries = some v) :
    v ∈ entries ∧ ∀ e ∈ entries, v.stamp ≤ e.stamp := by
  cases entries with
  | nil => simp [stalest?] at h
  | cons e rest =>
      have hv := Option.some.inj h
      rw [← hv]
      exact foldl_stalest_spec rest e

theorem stalest?_eq_none_iff {entries : List (Entry α)} : stalest? entries = none ↔ entries = [] := by
  cases entries <;> simp [stalest?]

namespace Lru

/-! ## Contents by name -/

theorem contains_iff_mem_names {m : Lru α} {name : String} :
    m.contains name = true ↔ name ∈ m.names := by
  unfold contains find? names
  rw [Option.isSome_map, List.find?_isSome, List.mem_map]
  simp only [beq_iff_eq]

theorem find?_eq_none_iff {m : Lru α} {name : String} : m.find? name = none ↔ name ∉ m.names := by
  rw [← contains_iff_mem_names, contains, Bool.not_eq_true, Option.isSome_eq_false_iff,
    Option.isNone_iff_eq_none]

/-- A change of entries that leaves their names alone does not change which entry is found. -/
theorem find?_map_of_name {change : Entry α → Entry α} (h : ∀ e, (change e).name = e.name)
    (entries : List (Entry α)) (x : String) :
    (entries.map change).find? (fun e => e.name == x) = (entries.find? fun e => e.name == x).map change := by
  have hname : (fun e : Entry α => e.name == x) ∘ change = fun e => e.name == x := by
    funext e
    show ((change e).name == x) = (e.name == x)
    rw [h]
  rw [List.find?_map, hname]

/-- Stamping changes no contents. -/
@[simp] theorem find?_mark (m : Lru α) (name x : String) (stamp : Nat) :
    (m.mark name stamp).find? x = m.find? x := by
  unfold find? mark
  rw [find?_map_of_name (fun e => by split <;> rfl), Option.map_map]
  congr 1
  funext e
  show (if e.name = name then { e with stamp := stamp } else e).content = e.content
  split <;> rfl

@[simp] theorem find?_touch (m : Lru α) (name x : String) : (m.touch name).find? x = m.find? x :=
  find?_mark { m with clock := m.clock + 1 } name x m.clock

theorem find?_insert (m : Lru α) (name x : String) (content : α) :
    (m.insert name content).find? x = if name = x then some content else m.find? x := by
  unfold find? insert draw
  rw [List.find?_cons]
  by_cases h : name = x
  · simp [h]
  · have hbeq : (name == x) = false := beq_eq_false_iff_ne.mpr h
    rw [hbeq, if_neg h]

theorem find?_update (m : Lru α) (name x : String) (change : α → α) :
    (m.update name change).find? x = if x = name then (m.find? x).map change else m.find? x := by
  unfold find? update
  rw [find?_map_of_name fun e => by split <;> rfl]
  cases hfound : m.entries.find? (fun e => e.name == x) with
  | none => simp
  | some e =>
      have hx : e.name = x := by simpa using List.find?_some hfound
      subst hx
      by_cases h : e.name = name
      · simp [h]
      · simp [h]

/-- The map without the entry of a name. -/
def without (m : Lru α) (name : String) : Lru α :=
  { m with entries := m.entries.filter fun e => e.name ≠ name }

theorem find?_without (m : Lru α) (name x : String) :
    (m.without name).find? x = if x = name then none else m.find? x := by
  unfold find? without
  rw [List.find?_filter]
  by_cases h : x = name
  · subst h
    simp
  · rw [if_neg h]
    congr 2
    funext e
    by_cases hx : e.name = x
    · simp [hx, h]
    · simp [hx]

@[simp] theorem names_without (m : Lru α) (name : String) :
    (m.without name).names = m.names.filter (· ≠ name) := by
  unfold names without
  rw [List.filter_map]
  rfl

theorem notMem_names_without {m : Lru α} {name : String} (h : name ∉ m.names) (x : String) :
    name ∉ (m.without x).names := by
  rw [names_without]
  intro hin
  exact h (List.mem_filter.mp hin).1

/-! ## The invariant -/

/-- What every map keeps that was filled by uses: no name and no stamp stands in it twice, every stamp was
    drawn from the clock, and there are no more entries than the bound allows. -/
structure Ordered (m : Lru α) : Prop where
  names : m.names.Nodup
  stamps : (m.entries.map Entry.stamp).Nodup
  drawn : ∀ e ∈ m.entries, e.stamp < m.clock
  fits : m.size ≤ m.bound
  positive : 0 < m.bound

theorem ordered_empty (bound : Nat) : (empty bound : Lru α).Ordered where
  names := List.nodup_nil
  stamps := List.nodup_nil
  drawn := fun _ he => absurd he List.not_mem_nil
  fits := Nat.zero_le _
  positive := Nat.lt_of_lt_of_le Nat.zero_lt_one (Nat.le_max_right bound 1)

theorem Ordered.clear {m : Lru α} (h : m.Ordered) : m.clear.Ordered where
  names := List.nodup_nil
  stamps := List.nodup_nil
  drawn := fun _ he => absurd he List.not_mem_nil
  fits := Nat.zero_le _
  positive := h.positive

/-- The entry of a name and the entries of the others. -/
theorem Ordered.perm_cons {m : Lru α} (h : m.Ordered) {e : Entry α} (he : e ∈ m.entries) :
    m.entries.Perm (e :: m.entries.filter fun d => d.name ≠ e.name) := by
  have hnodup := h.names
  unfold Lru.names at hnodup
  -- the induction is on the entries alone; bound and clock play no part
  generalize m.entries = entries at he hnodup
  induction entries with
  | nil => exact absurd he List.not_mem_nil
  | cons d rest ih =>
      obtain ⟨hd, hrest⟩ := List.nodup_cons.mp hnodup
      rcases List.mem_cons.mp he with rfl | he'
      · have hkeep : rest.filter (fun d => d.name ≠ e.name) = rest := by
          rw [List.filter_eq_self]
          intro a ha
          have hne : a.name ≠ e.name := fun heq => hd (heq ▸ List.mem_map_of_mem ha)
          simp [hne]
        rw [List.filter_cons_of_neg (by simp), hkeep]
      · have hne : d.name ≠ e.name := fun heq => hd (heq ▸ List.mem_map_of_mem he')
        rw [List.filter_cons_of_pos (by simp [hne])]
        exact ((ih he' hrest).cons d).trans (List.Perm.swap e d _)

/-- Changing the entries of a name leaves those of other names alone. -/
theorem map_change_of_notMem {entries : List (Entry α)} {name : String} (h : name ∉ entries.map Entry.name)
    (change : Entry α → Entry α) : (entries.map fun e => if e.name = name then change e else e) = entries := by
  conv_rhs => rw [← List.map_id entries]
  apply List.map_congr_left
  intro e he
  have hne : e.name ≠ name := fun heq => h (heq ▸ List.mem_map_of_mem he)
  rw [if_neg hne, id]

/-- Changing the entries of a name changes the one that it has. -/
theorem Ordered.entries_change_perm {m : Lru α} (h : m.Ordered) {e : Entry α} (he : e ∈ m.entries)
    (change : Entry α → Entry α) :
    (m.entries.map fun d => if d.name = e.name then change d else d).Perm
      (change e :: m.entries.filter fun d => d.name ≠ e.name) := by
  have hperm := (h.perm_cons he).map fun d => if d.name = e.name then change d else d
  refine hperm.trans ?_
  have hothers : e.name ∉ (m.entries.filter fun d => d.name ≠ e.name).map Entry.name := by
    intro hmem
    obtain ⟨d, hd, heq⟩ := List.mem_map.mp hmem
    simpa [heq] using (List.mem_filter.mp hd).2
  rw [List.map_cons, if_pos rfl, map_change_of_notMem hothers]

/-- Stamping replaces the entry of the name. -/
theorem Ordered.entries_mark_perm {m : Lru α} (h : m.Ordered) {e : Entry α} (he : e ∈ m.entries) (stamp : Nat) :
    (m.mark e.name stamp).entries.Perm
      ({ e with stamp := stamp } :: m.entries.filter fun d => d.name ≠ e.name) :=
  h.entries_change_perm he fun d => { d with stamp := stamp }

theorem exists_entry {m : Lru α} {name : String} (h : m.contains name = true) :
    ∃ e ∈ m.entries, e.name = name := by
  rw [contains_iff_mem_names] at h
  exact List.mem_map.mp h

theorem exists_entry_of_find? {m : Lru α} {name : String} {content : α} (h : m.find? name = some content) :
    ∃ e ∈ m.entries, e.name = name ∧ e.content = content := by
  obtain ⟨e, he, hcontent⟩ := Option.map_eq_some_iff.mp h
  exact ⟨e, List.mem_of_find?_eq_some he, by simpa using List.find?_some he, hcontent⟩

/-- As long as no name has two entries, the contents of an entry are found under its name. -/
theorem find?_of_mem {m : Lru α} (h : m.names.Nodup) {e : Entry α} (he : e ∈ m.entries) :
    m.find? e.name = some e.content := by
  have hthere : m.contains e.name = true := contains_iff_mem_names.mpr (List.mem_map_of_mem he)
  obtain ⟨content, hfound⟩ := Option.isSome_iff_exists.mp hthere
  obtain ⟨d, hd, hname, rfl⟩ := exists_entry_of_find? hfound
  rw [hfound, List.inj_on_of_nodup_map h hd he hname]

theorem nodup_of_subperm {β : Type} {l more : List β} (h : l.Subperm more) (hmore : more.Nodup) : l.Nodup := by
  obtain ⟨k, hperm, hsub⟩ := h
  exact hperm.nodup_iff.mp (hsub.nodup hmore)

theorem Ordered.draw {m : Lru α} (h : m.Ordered) : m.draw.2.Ordered :=
  ⟨h.names, h.stamps, fun e he => Nat.lt_succ_of_lt (h.drawn e he), h.fits, h.positive⟩

/-- The stamps after one was stored are that one and old ones. -/
theorem Ordered.stamps_mark_subperm {m : Lru α} (h : m.Ordered) (name : String) (stamp : Nat) :
    ((m.mark name stamp).entries.map Entry.stamp).Subperm (stamp :: m.entries.map Entry.stamp) := by
  by_cases hname : name ∈ m.names
  · obtain ⟨e, he, rfl⟩ := List.mem_map.mp hname
    have hperm := (h.entries_mark_perm he stamp).map Entry.stamp
    rw [List.map_cons] at hperm
    exact hperm.subperm.trans ((List.filter_sublist.map _).cons_cons _).subperm
  · have hsame : (m.mark name stamp).entries = m.entries := map_change_of_notMem hname _
    rw [hsame]
    exact (List.sublist_cons_self _ _).subperm

/-- Storing a stamp that was drawn before, and that no entry has, is what a touch does later. -/
theorem Ordered.mark {m : Lru α} (h : m.Ordered) (name : String) {stamp : Nat} (hdrawn : stamp < m.clock)
    (hfresh : stamp ∉ m.entries.map Entry.stamp) : (m.mark name stamp).Ordered := by
  have hstamps := h.stamps_mark_subperm name stamp
  refine ⟨?_, ?_, ?_, ?_, h.positive⟩
  · rw [names_mark]
    exact h.names
  · exact nodup_of_subperm hstamps (List.nodup_cons.mpr ⟨hfresh, h.stamps⟩)
  · intro e he
    rcases List.mem_cons.mp (hstamps.subset (List.mem_map_of_mem he)) with heq | hold
    · rw [heq]
      exact hdrawn
    · obtain ⟨d, hd, heq⟩ := List.mem_map.mp hold
      rw [← heq]
      exact h.drawn d hd
  · have hsize : (m.mark name stamp).size = m.size := List.length_map _
    rw [hsize]
    exact h.fits

theorem Ordered.touch {m : Lru α} (h : m.Ordered) (name : String) : (m.touch name).Ordered := by
  refine h.draw.mark name (Nat.lt_succ_self m.clock) ?_
  intro hmem
  obtain ⟨e, he, heq⟩ := List.mem_map.mp hmem
  exact absurd heq (Nat.ne_of_lt (h.drawn e he))

theorem Ordered.insert {m : Lru α} (h : m.Ordered) {name : String} (hname : name ∉ m.names)
    (hroom : m.size < m.bound) (content : α) : (m.insert name content).Ordered where
  names := List.nodup_cons.mpr ⟨hname, h.names⟩
  stamps := by
    refine List.nodup_cons.mpr ⟨?_, h.stamps⟩
    intro hmem
    obtain ⟨d, hd, hstamp⟩ := List.mem_map.mp hmem
    exact absurd hstamp (Nat.ne_of_lt (h.drawn d hd))
  drawn := by
    intro d hd
    rw [clock_insert]
    rcases List.mem_cons.mp hd with rfl | hd
    · exact Nat.lt_succ_self _
    · exact Nat.lt_succ_of_lt (h.drawn d hd)
  fits := hroom
  positive := h.positive

theorem Ordered.without {m : Lru α} (h : m.Ordered) (name : String) : (m.without name).Ordered where
  names := by
    rw [names_without]
    exact h.names.filter _
  stamps := h.stamps.sublist (List.filter_sublist.map _)
  drawn := fun d hd => h.drawn d (List.mem_filter.mp hd).1
  fits := Nat.le_trans (List.length_filter_le _ _) h.fits
  positive := h.positive

theorem Ordered.update {m : Lru α} (h : m.Ordered) (name : String) (change : α → α) :
    (m.update name change).Ordered := by
  have hstamp : ∀ e : Entry α,
      (if e.name = name then { e with content := change e.content } else e).stamp = e.stamp := by
    intro e
    split <;> rfl
  refine ⟨?_, ?_, ?_, ?_, h.positive⟩
  · rw [names_update]
    exact h.names
  · unfold Lru.update
    rw [List.map_map]
    have hstamps : Entry.stamp ∘ (fun e => if e.name = name then { e with content := change e.content } else e)
        = Entry.stamp := funext hstamp
    rw [hstamps]
    exact h.stamps
  · intro d hd
    obtain ⟨e, he, rfl⟩ := List.mem_map.mp hd
    rw [hstamp]
    exact h.drawn e he
  · unfold size Lru.update
    rw [List.length_map]
    exact h.fits

/-! ## All that a use can do -/

/-- A full map drops the entry with the least stamp. -/
theorem evict_of_full {m : Lru α} (h : m.Ordered) (hfull : m.bound ≤ m.size) :
    ∃ v, stalest? m.entries = some v ∧ m.evict = (some v.name, m.without v.name) := by
  cases hv : stalest? m.entries with
  | none =>
      rw [stalest?_eq_none_iff] at hv
      have hpos := h.positive
      have hsize : m.size = 0 := by rw [size, hv, List.length_nil]
      omega
  | some v =>
      refine ⟨v, rfl, ?_⟩
      rw [evict, hv]
      rfl

/-- A name that is there is stamped. -/
theorem visit_of_find? {m : Lru α} {name : String} {content : α} (h : m.find? name = some content) (fresh : α) :
    m.visit name fresh = (none, m.touch name) := by
  have hcontains : m.contains name = true := by
    rw [contains, h]
    rfl
  exact if_pos hcontains

/-- **All that a use can do**: it stamps the entry of the name, or it makes one, after the entry with the
    least stamp was dropped if the map was full. -/
theorem visit_cases {m : Lru α} (h : m.Ordered) (name : String) (fresh : α) :
    (m.contains name = true ∧ m.visit name fresh = (none, m.touch name)) ∨
    (name ∉ m.names ∧ m.size < m.bound ∧ m.visit name fresh = (none, m.insert name fresh)) ∨
    (name ∉ m.names ∧ m.size = m.bound ∧ ∃ v, stalest? m.entries = some v ∧
      m.visit name fresh = (some v.name, (m.without v.name).insert name fresh)) := by
  unfold visit
  by_cases hname : m.contains name = true
  · rw [if_pos hname]
    exact Or.inl ⟨hname, rfl⟩
  · rw [if_neg hname]
    rw [contains_iff_mem_names] at hname
    by_cases hfull : m.bound ≤ m.size
    · obtain ⟨v, hv, hevict⟩ := evict_of_full h hfull
      rw [if_pos hfull, hevict]
      exact Or.inr (Or.inr ⟨hname, Nat.le_antisymm h.fits hfull, v, hv, rfl⟩)
    · rw [if_neg hfull]
      exact Or.inr (Or.inl ⟨hname, Nat.lt_of_not_le hfull, rfl⟩)

/-- Dropping an entry that is there makes room for one. -/
theorem Ordered.size_without {m : Lru α} (h : m.Ordered) {v : Entry α} (hv : v ∈ m.entries) :
    (m.without v.name).size + 1 = m.size :=
  (h.perm_cons hv).length_eq.symm

theorem Ordered.room_without {m : Lru α} (h : m.Ordered) {v : Entry α} (hv : v ∈ m.entries) :
    (m.without v.name).size < (m.without v.name).bound := by
  have hless := h.size_without hv
  have hfits := h.fits
  show (m.without v.name).size < m.bound
  omega

theorem Ordered.visit {m : Lru α} (h : m.Ordered) (name : String) (fresh : α) :
    (m.visit name fresh).2.Ordered := by
  rcases visit_cases h name fresh with ⟨hname, hvisit⟩ | ⟨hname, hroom, hvisit⟩ | ⟨hname, hfull, v, hv, hvisit⟩
  · rw [hvisit]
    exact h.touch name
  · rw [hvisit]
    exact h.insert hname hroom fresh
  · rw [hvisit]
    have hroom := h.room_without (stalest?_spec hv).1
    exact (h.without v.name).insert (notMem_names_without hname v.name) hroom fresh

/-- The stamps after a use are the one that it drew and old ones. -/
theorem Ordered.stamps_visit_subperm {m : Lru α} (h : m.Ordered) (name : String) (fresh : α) :
    ((m.visit name fresh).2.entries.map Entry.stamp).Subperm (m.clock :: m.entries.map Entry.stamp) := by
  rcases visit_cases h name fresh with ⟨_, hvisit⟩ | ⟨_, _, hvisit⟩ | ⟨_, _, v, _, hvisit⟩
  · rw [hvisit]
    exact h.draw.stamps_mark_subperm name m.clock
  · rw [hvisit]
    exact List.Subperm.refl _
  · rw [hvisit]
    exact ((List.filter_sublist.map Entry.stamp).cons_cons m.clock).subperm

/-- Stamping leaves every name with its contents. -/
theorem exists_of_mem_entries_mark {m : Lru α} {name : String} {stamp : Nat} {e : Entry α}
    (he : e ∈ (m.mark name stamp).entries) : ∃ d ∈ m.entries, d.name = e.name ∧ d.content = e.content := by
  obtain ⟨d, hd, rfl⟩ := List.mem_map.mp he
  refine ⟨d, hd, ?_⟩
  split <;> exact ⟨rfl, rfl⟩

/-- Stamping a name that is there replaces its entry, and leaves those of other names as they are. -/
theorem mem_entries_mark_of_find? {m : Lru α} (h : m.names.Nodup) {name : String} {stamp : Nat} {c : α}
    (hfound : m.find? name = some c) {e : Entry α} (he : e ∈ (m.mark name stamp).entries) :
    e = ⟨name, stamp, c⟩ ∨ (e ∈ m.entries ∧ e.name ≠ name) := by
  obtain ⟨d, hd, rfl⟩ := List.mem_map.mp he
  by_cases hname : d.name = name
  · rw [if_pos hname]
    have hcontent := find?_of_mem h hd
    rw [hname, hfound] at hcontent
    rw [hname, Option.some.inj hcontent]
    exact Or.inl rfl
  · rw [if_neg hname]
    exact Or.inr ⟨hd, hname⟩

/-- The entry of a new name has the reading of the clock, and those of other names stay as they are. -/
theorem Ordered.mem_entries_visit_of_new {m : Lru α} (h : m.Ordered) {name : String} {fresh : α}
    (hname : m.find? name = none) {e : Entry α} (he : e ∈ (m.visit name fresh).2.entries) :
    e = ⟨name, m.clock, fresh⟩ ∨ e ∈ m.entries := by
  rcases visit_cases h name fresh with ⟨hthere, _⟩ | ⟨_, _, hvisit⟩ | ⟨_, _, v, _, hvisit⟩
  · rw [contains, hname] at hthere
    exact absurd hthere Bool.false_ne_true
  · rw [hvisit] at he
    exact List.mem_cons.mp he
  · rw [hvisit] at he
    rcases List.mem_cons.mp he with rfl | he
    · exact Or.inl rfl
    · exact Or.inr (List.mem_filter.mp he).1

/-- After a use every name has the contents it had before, or is the used one with fresh contents. -/
theorem Ordered.exists_of_mem_entries_visit {m : Lru α} (h : m.Ordered) {name : String} {fresh : α} {e : Entry α}
    (he : e ∈ (m.visit name fresh).2.entries) :
    (∃ d ∈ m.entries, d.name = e.name ∧ d.content = e.content) ∨ (e.name = name ∧ e.content = fresh) := by
  rcases visit_cases h name fresh with ⟨_, hvisit⟩ | ⟨_, _, hvisit⟩ | ⟨_, _, v, _, hvisit⟩
  · rw [hvisit] at he
    exact Or.inl (exists_of_mem_entries_mark he)
  · rw [hvisit] at he
    rcases List.mem_cons.mp he with rfl | he
    · exact Or.inr ⟨rfl, rfl⟩
    · exact Or.inl ⟨e, he, rfl, rfl⟩
  · rw [hvisit] at he
    rcases List.mem_cons.mp he with rfl | he
    · exact Or.inr ⟨rfl, rfl⟩
    · exact Or.inl ⟨e, (List.mem_filter.mp he).1, rfl, rfl⟩

/-- After a use there are contents under the name: those from before, or fresh ones. -/
theorem find?_visit_self (m : Lru α) (name : String) (fresh : α) :
    (m.visit name fresh).2.find? name = some ((m.find? name).getD fresh) := by
  unfold visit
  by_cases hname : m.contains name = true
  · rw [if_pos hname]
    rw [find?_touch]
    obtain ⟨c, hc⟩ := Option.isSome_iff_exists.mp hname
    rw [hc, Option.getD_some]
  · rw [if_neg hname]
    have hnone : m.find? name = none := by
      rw [find?_eq_none_iff, ← contains_iff_mem_names]
      exact hname
    rw [find?_insert, if_pos rfl, hnone, Option.getD_none]

/-- What is left under another name after a use was there before. -/
theorem find?_of_visit {m : Lru α} {name x : String} {fresh c : α} (hne : x ≠ name)
    (h : (m.visit name fresh).2.find? x = some c) : m.find? x = some c := by
  unfold visit evict at h
  split at h
  · rwa [find?_touch] at h
  · rw [find?_insert, if_neg hne.symm] at h
    split at h
    · split at h
      · exact h
      · rw [← without, find?_without] at h
        split at h
        · exact absurd h.symm (Option.some_ne_none c)
        · exact h
    · exact h

/-- Under another name there is the same after a use as before, unless it is what was dropped. -/
theorem Ordered.find?_visit_of_kept {m : Lru α} (h : m.Ordered) {name x : String} {fresh : α} (hne : x ≠ name)
    (hkept : (m.visit name fresh).1 ≠ some x) : (m.visit name fresh).2.find? x = m.find? x := by
  rcases visit_cases h name fresh with ⟨_, hvisit⟩ | ⟨_, _, hvisit⟩ | ⟨_, _, v, _, hvisit⟩
  · rw [hvisit, find?_touch]
  · rw [hvisit, find?_insert, if_neg hne.symm]
  · rw [hvisit] at hkept ⊢
    have hv : x ≠ v.name := fun heq => hkept (congrArg some heq.symm)
    rw [find?_insert, if_neg hne.symm, find?_without, if_neg hv]

@[simp] theorem bound_visit (m : Lru α) (name : String) (fresh : α) :
    (m.visit name fresh).2.bound = m.bound := by
  unfold visit evict
  split
  · rfl
  · dsimp only
    split
    · split <;> rfl
    · rfl

@[simp] theorem clock_visit (m : Lru α) (name : String) (fresh : α) :
    (m.visit name fresh).2.clock = m.clock + 1 := by
  unfold visit evict
  split
  · rfl
  · dsimp only
    split
    · split <;> rfl
    · rfl

/-! ## Sums over the contents -/

@[simp] theorem contents_mark (m : Lru α) (name : String) (stamp : Nat) :
    (m.mark name stamp).contents = m.contents := by
  simp only [contents, mark, List.map_map]
  apply List.map_congr_left
  intro e _
  simp only [Function.comp_apply]
  split <;> rfl

/-- The contents that a use drops, if it drops any. -/
def dropped? (m : Lru α) (name : String) (fresh : α) : Option α :=
  (m.visit name fresh).1.bind m.find?

/-- **All that a use does to the contents**: it keeps them, or fresh ones come in, and what is dropped for them
    goes out. -/
theorem Ordered.contents_visit {m : Lru α} (h : m.Ordered) (name : String) (fresh : α) :
    (m.dropped? name fresh).isSome = (m.visit name fresh).1.isSome ∧
    (((m.visit name fresh).2.contents = m.contents ∧ m.dropped? name fresh = none) ∨
      ((m.visit name fresh).2.contents ++ (m.dropped? name fresh).toList).Perm (fresh :: m.contents)) := by
  unfold dropped?
  rcases visit_cases h name fresh with ⟨_, hvisit⟩ | ⟨_, _, hvisit⟩ | ⟨_, _, v, hv, hvisit⟩
  · rw [hvisit]
    exact ⟨rfl, Or.inl ⟨contents_mark _ name m.clock, rfl⟩⟩
  · rw [hvisit]
    refine ⟨rfl, Or.inr ?_⟩
    rw [Option.bind_none, Option.toList_none, List.append_nil]
    exact List.Perm.refl _
  · have hmem := (stalest?_spec hv).1
    rw [hvisit, Option.bind_some, find?_of_mem h.names hmem]
    refine ⟨rfl, Or.inr ?_⟩
    have hperm : m.contents.Perm (v.content :: (m.without v.name).contents) := (h.perm_cons hmem).map Entry.content
    exact ((List.perm_append_singleton _ _).trans hperm.symm).cons fresh

/-- Fresh contents that weigh nothing leave the sum of all weights as it was, once what was dropped is added. -/
theorem Ordered.sum_contents_visit {m : Lru α} (h : m.Ordered) (name : String) {fresh : α} (weight : α → Nat)
    (hfresh : weight fresh = 0) :
    ((m.visit name fresh).2.contents.map weight).sum + ((m.dropped? name fresh).toList.map weight).sum
      = (m.contents.map weight).sum := by
  rcases (h.contents_visit name fresh).2 with ⟨hcontents, hdropped⟩ | hperm
  · rw [hcontents, hdropped]
    rfl
  · have hsum := (hperm.map weight).sum_eq
    rw [List.map_append, List.sum_append, List.map_cons, List.sum_cons, hfresh, Nat.zero_add] at hsum
    exact hsum

/-- A change that adds a weight to the contents of a name that is there adds it to the sum. -/
theorem Ordered.sum_contents_update {m : Lru α} (h : m.Ordered) {name : String} (hname : m.contains name = true)
    {change : α → α} (weight : α → Nat) {n : Nat}
    (hchange : ∀ content, weight (change content) = weight content + n) :
    ((m.update name change).contents.map weight).sum = (m.contents.map weight).sum + n := by
  obtain ⟨e, he, rfl⟩ := exists_entry hname
  have hbefore := ((h.perm_cons he).map fun d => weight d.content).sum_eq
  have hafter := ((h.entries_change_perm he fun d => { d with content := change d.content }).map
    fun d => weight d.content).sum_eq
  rw [List.map_cons, List.sum_cons] at hbefore hafter
  rw [hchange, Nat.add_right_comm, ← hbefore] at hafter
  rw [contents, contents, List.map_map, List.map_map]
  exact hafter

/-! ## Changing all entries -/

variable {β : Type}

/-- The map with other contents under the same names, and with its clock and all stamps `n` readings later. -/
def recast (f : α → β) (n : Nat) (m : Lru α) : Lru β :=
  { bound := m.bound, entries := m.entries.map fun e => ⟨e.name, e.stamp + n, f e.content⟩, clock := m.clock + n }

@[simp] theorem names_recast (f : α → β) (n : Nat) (m : Lru α) : (m.recast f n).names = m.names :=
  List.map_map

@[simp] theorem size_recast (f : α → β) (n : Nat) (m : Lru α) : (m.recast f n).size = m.size :=
  List.length_map _

theorem find?_recast (f : α → β) (n : Nat) (m : Lru α) (name : String) :
    (m.recast f n).find? name = (m.find? name).map f := by
  unfold find? recast
  rw [List.find?_map, Option.map_map, Option.map_map]
  rfl

/-- The least stamp stays where it is when all of them are moved alike. -/
theorem stalest?_recast (f : α → β) (n : Nat) (entries : List (Entry α)) :
    stalest? (entries.map fun e => ⟨e.name, e.stamp + n, f e.content⟩)
      = (stalest? entries).map fun e => ⟨e.name, e.stamp + n, f e.content⟩ := by
  cases entries with
  | nil => rfl
  | cons e rest =>
      rw [List.map_cons, stalest?, stalest?, Option.map_some]
      congr 1
      induction rest generalizing e with
      | nil => rfl
      | cons d rest ih =>
          rw [List.map_cons, List.foldl_cons, List.foldl_cons, ← ih]
          congr 1
          by_cases hless : d.stamp < e.stamp
          · rw [if_pos hless, if_pos (Nat.add_lt_add_right hless n)]
          · rw [if_neg hless, if_neg (mt Nat.lt_of_add_lt_add_right hless)]

theorem touch_recast (f : α → β) (n : Nat) (m : Lru α) (name : String) :
    (m.recast f n).touch name = (m.touch name).recast f n := by
  unfold touch mark draw recast
  simp only [List.map_map, Nat.add_right_comm m.clock n 1]
  congr 1
  apply List.map_congr_left
  intro e _
  simp only [Function.comp_apply]
  split <;> rfl

theorem evict_recast (f : α → β) (n : Nat) (m : Lru α) :
    (m.recast f n).evict = (m.evict.1, m.evict.2.recast f n) := by
  unfold evict
  rw [recast, stalest?_recast]
  cases stalest? m.entries with
  | none => rfl
  | some v =>
      simp only [Option.map_some, List.filter_map, recast]
      rfl

theorem insert_recast (f : α → β) (n : Nat) (m : Lru α) (name : String) (content : α) :
    (m.recast f n).insert name (f content) = (m.insert name content).recast f n := by
  unfold insert draw recast
  simp only [Nat.add_right_comm m.clock n 1, List.map_cons]

/-- **A use looks at names and at the order of stamps**, and at nothing else. -/
theorem visit_recast (f : α → β) (n : Nat) (m : Lru α) (name : String) (fresh : α) :
    (m.recast f n).visit name (f fresh) = ((m.visit name fresh).1, (m.visit name fresh).2.recast f n) := by
  have hcontains : (m.recast f n).contains name = m.contains name := by
    rw [contains, find?_recast, Option.isSome_map, contains]
  have hbound : (recast f n m).bound = m.bound := rfl
  unfold visit
  rw [hcontains, size_recast, evict_recast, touch_recast, hbound]
  by_cases hname : m.contains name = true
  · rw [if_pos hname, if_pos hname]
  · rw [if_neg hname, if_neg hname]
    by_cases hfull : m.bound ≤ m.size
    · rw [if_pos hfull, if_pos hfull]
      exact congrArg (Prod.mk m.evict.1) (insert_recast f n m.evict.2 name fresh)
    · rw [if_neg hfull, if_neg hfull]
      exact congrArg (Prod.mk none) (insert_recast f n m name fresh)

/-- The map with its contents changed, names and stamps kept. -/
def map (f : α → β) (m : Lru α) : Lru β :=
  { bound := m.bound, entries := m.entries.map fun e => ⟨e.name, e.stamp, f e.content⟩, clock := m.clock }

@[simp] theorem names_map (f : α → β) (m : Lru α) : (m.map f).names = m.names :=
  names_recast f 0 m

@[simp] theorem size_map (f : α → β) (m : Lru α) : (m.map f).size = m.size :=
  size_recast f 0 m

theorem find?_map (f : α → β) (m : Lru α) (name : String) : (m.map f).find? name = (m.find? name).map f :=
  find?_recast f 0 m name

theorem map_congr {f g : α → β} {m : Lru α} (h : ∀ e ∈ m.entries, f e.content = g e.content) :
    m.map f = m.map g := by
  unfold map
  congr 1
  apply List.map_congr_left
  intro e he
  rw [h e he]

/-- A use does not look at the contents. -/
theorem visit_map (f : α → β) (m : Lru α) (name : String) (fresh : α) :
    (m.map f).visit name (f fresh) = ((m.visit name fresh).1, (m.visit name fresh).2.map f) :=
  visit_recast f 0 m name fresh

/-! ## The ranking -/

/-- The entries by falling stamp. -/
def ranked (m : Lru α) : List (Entry α) :=
  m.entries.mergeSort fun a b => decide (b.stamp ≤ a.stamp)

/-- The names in the order of their last use, the most recently used one first. -/
def ranking (m : Lru α) : List String :=
  m.ranked.map Entry.name

theorem ranked_perm (m : Lru α) : m.ranked.Perm m.entries :=
  List.mergeSort_perm _ _

/-- The ranking lists the names of the map, each once. -/
theorem ranking_perm (m : Lru α) : m.ranking.Perm m.names :=
  m.ranked_perm.map Entry.name

theorem ranking_of_nil {m : Lru α} (h : m.entries = []) : m.ranking = [] := by
  rw [ranking, ranked, h, List.mergeSort_nil, List.map_nil]

theorem mem_ranking {m : Lru α} {name : String} : name ∈ m.ranking ↔ name ∈ m.names :=
  m.ranking_perm.mem_iff

theorem length_ranking (m : Lru α) : m.ranking.length = m.size := by
  rw [m.ranking_perm.length_eq, names, List.length_map, size]

/-- Unique stamps fall strictly along the ranking. -/
theorem Ordered.pairwise_ranked {m : Lru α} (h : m.Ordered) :
    m.ranked.Pairwise fun a b => b.stamp < a.stamp := by
  have hfalling : m.ranked.Pairwise fun a b => decide (b.stamp ≤ a.stamp) = true := by
    refine List.pairwise_mergeSort ?_ ?_ m.entries
    · intro a b c hab hbc
      simp only [decide_eq_true_eq] at hab hbc ⊢
      omega
    · intro a b
      simp only [Bool.or_eq_true, decide_eq_true_eq]
      omega
  have hunique : m.ranked.Pairwise fun a b => a.stamp ≠ b.stamp := by
    have hstamps := (m.ranked_perm.map Entry.stamp).nodup_iff.mpr h.stamps
    exact List.pairwise_map.mp hstamps
  refine (hfalling.and hunique).imp ?_
  intro a b hab
  simp only [decide_eq_true_eq] at hab
  omega

/-- Entries with strictly falling stamps are the ranking of any map that holds just them. -/
theorem ranked_eq_of_perm {m : Lru α} {entries : List (Entry α)} (hperm : entries.Perm m.entries)
    (hfalling : entries.Pairwise fun a b => b.stamp < a.stamp) (h : m.Ordered) : m.ranked = entries := by
  refine List.Perm.eq_of_pairwise ?_ h.pairwise_ranked hfalling (m.ranked_perm.trans hperm.symm)
  intro a b _ _ hab hba
  omega

theorem ranked_touch {m : Lru α} (h : m.Ordered) {e : Entry α} (he : e ∈ m.entries) :
    (m.touch e.name).ranked = { e with stamp := m.clock } :: m.ranked.filter fun d => d.name ≠ e.name := by
  refine ranked_eq_of_perm ?_ ?_ (h.touch e.name)
  · exact ((m.ranked_perm.filter _).cons _).trans (h.entries_mark_perm he m.clock).symm
  · refine List.pairwise_cons.mpr ⟨?_, h.pairwise_ranked.filter _⟩
    intro d hd
    exact h.drawn d (m.ranked_perm.mem_iff.mp (List.mem_filter.mp hd).1)

theorem ranked_insert {m : Lru α} (h : m.Ordered) {name : String} (hname : name ∉ m.names)
    (hroom : m.size < m.bound) (content : α) :
    (m.insert name content).ranked = ⟨name, m.clock, content⟩ :: m.ranked := by
  refine ranked_eq_of_perm (m.ranked_perm.cons _) ?_ (h.insert hname hroom content)
  refine List.pairwise_cons.mpr ⟨?_, h.pairwise_ranked⟩
  intro d hd
  exact h.drawn d (m.ranked_perm.mem_iff.mp hd)

theorem ranked_without {m : Lru α} (h : m.Ordered) (name : String) :
    (m.without name).ranked = m.ranked.filter fun d => d.name ≠ name :=
  ranked_eq_of_perm (m.ranked_perm.filter _) (h.pairwise_ranked.filter _) (h.without name)

/-- The entry with the least stamp ends the ranking. -/
theorem ranked_eq_concat {m : Lru α} (h : m.Ordered) {v : Entry α} (hv : stalest? m.entries = some v) :
    m.ranked = m.ranked.dropLast ++ [v] := by
  obtain ⟨hmem, hleast⟩ := stalest?_spec hv
  obtain ⟨before, after, hsplit⟩ := List.append_of_mem (m.ranked_perm.mem_iff.mpr hmem)
  have hfalling := h.pairwise_ranked
  rw [hsplit, List.pairwise_append] at hfalling
  cases after with
  | nil => rw [hsplit, List.dropLast_concat]
  | cons d rest =>
      -- whatever stood behind the victim would have a smaller stamp
      have hless := (List.pairwise_cons.mp hfalling.2.1).1 d List.mem_cons_self
      have hd : d ∈ m.ranked := by
        rw [hsplit]
        simp
      have hmost := hleast d (m.ranked_perm.mem_iff.mp hd)
      omega

/-- The names of a map that dropped its least stamp: the ranking without its last place. -/
theorem ranking_without_stalest {m : Lru α} (h : m.Ordered) {v : Entry α} (hv : stalest? m.entries = some v) :
    (m.without v.name).ranking = m.ranking.dropLast := by
  have hend : m.ranking = m.ranking.dropLast ++ [v.name] := by
    have hmap := congrArg (List.map Entry.name) (ranked_eq_concat h hv)
    rw [List.map_append, List.map_dropLast] at hmap
    exact hmap
  have hnodup : m.ranking.Nodup := m.ranking_perm.nodup_iff.mpr h.names
  have hfilter : (m.without v.name).ranking = m.ranking.filter (· ≠ v.name) := by
    rw [ranking, ranked_without h, ranking, List.filter_map]
    rfl
  rw [hend] at hnodup
  have hlast : v.name ∉ m.ranking.dropLast := fun hin =>
    (List.nodup_append.mp hnodup).2.2 v.name hin v.name (List.mem_singleton_self _) rfl
  rw [hfilter]
  conv_lhs => rw [hend]
  rw [List.filter_append, List.filter_eq_self.mpr, List.filter_cons_of_neg (by simp), List.filter_nil,
    List.append_nil]
  intro x hx
  have hne : x ≠ v.name := fun heq => hlast (heq ▸ hx)
  simp [hne]

/-- A use that evicts nothing moves the name to the front. -/
theorem ranking_touch {m : Lru α} (h : m.Ordered) {name : String} (hname : m.contains name = true) :
    (m.touch name).ranking = Recency.use m.ranking name := by
  obtain ⟨e, he, rfl⟩ := exists_entry hname
  rw [ranking, ranked_touch h he, List.map_cons, Recency.use, ranking, List.filter_map]
  rfl

theorem ranking_insert {m : Lru α} (h : m.Ordered) {name : String} (hname : name ∉ m.names)
    (hroom : m.size < m.bound) (content : α) :
    (m.insert name content).ranking = name :: m.ranking := by
  rw [ranking, ranked_insert h hname hroom, List.map_cons, ranking]

/-- **The ranking under a use**: the name moves to the front, and what falls behind the bound is forgotten. -/
theorem ranking_visit {m : Lru α} (h : m.Ordered) (name : String) (fresh : α) :
    (m.visit name fresh).2.ranking = (Recency.use m.ranking name).take m.bound := by
  -- without an eviction nothing falls off, because the map after the use still fits
  have hfits := (h.visit name fresh).fits
  rw [← length_ranking, bound_visit] at hfits
  rcases visit_cases h name fresh with ⟨hname, hvisit⟩ | ⟨hname, hroom, hvisit⟩ | ⟨hname, hfull, v, hv, hvisit⟩
  · rw [hvisit] at hfits ⊢
    rw [ranking_touch h hname] at hfits ⊢
    rw [List.take_of_length_le hfits]
  · rw [hvisit] at hfits ⊢
    rw [ranking_insert h hname hroom, ← Recency.use_eq_cons (mt mem_ranking.mp hname)] at hfits ⊢
    rw [List.take_of_length_le hfits]
  · rw [hvisit, Recency.use_eq_cons (mt mem_ranking.mp hname)]
    have hroom := h.room_without (stalest?_spec hv).1
    have hgone := notMem_names_without hname v.name
    -- dropping the last place and then putting the name in front is taking `bound` places
    rw [ranking_insert (h.without v.name) hgone hroom, ranking_without_stalest h hv, List.dropLast_eq_take,
      length_ranking, hfull]
    obtain ⟨k, hk⟩ := Nat.exists_eq_succ_of_ne_zero (Nat.ne_of_gt h.positive)
    rw [hk, Nat.succ_eq_add_one, List.take_succ_cons, Nat.add_sub_cancel]

/-- A use makes an entry exactly for a name that has none, and drops one for it exactly when it says so. -/
theorem size_visit {m : Lru α} (h : m.Ordered) (name : String) (fresh : α) :
    (m.visit name fresh).2.size + (if (m.visit name fresh).1.isSome then 1 else 0)
      = m.size + (if name ∈ m.ranking then 0 else 1) := by
  rcases visit_cases h name fresh with ⟨hname, hvisit⟩ | ⟨hname, hroom, hvisit⟩ | ⟨hname, hfull, v, hv, hvisit⟩
  · rw [hvisit, if_pos (mem_ranking.mpr (contains_iff_mem_names.mp hname))]
    simp [size, Lru.touch, mark, draw]
  · rw [hvisit, if_neg (mt mem_ranking.mp hname)]
    simp [size, Lru.insert, draw]
  · rw [hvisit, if_neg (mt mem_ranking.mp hname)]
    have hless := h.size_without (stalest?_spec hv).1
    simp only [size, Lru.insert, draw, List.length_cons, Option.isSome_some, if_true] at hless ⊢
    omega

/-- Changing contents changes no stamp, hence not the ranking. -/
theorem ranking_update {m : Lru α} (h : m.Ordered) (name : String) (change : α → α) :
    (m.update name change).ranking = m.ranking := by
  have hranked : (m.update name change).ranked
      = m.ranked.map fun e => if e.name = name then { e with content := change e.content } else e := by
    refine ranked_eq_of_perm (m.ranked_perm.map _) ?_ (h.update name change)
    rw [List.pairwise_map]
    refine h.pairwise_ranked.imp ?_
    intro a b hab
    split <;> split <;> exact hab
  rw [ranking, hranked, List.map_map, ranking]
  apply List.map_congr_left
  intro e _
  simp only [Function.comp_apply]
  split <;> rfl

end Lru

end SampleProfiler
