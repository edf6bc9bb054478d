import Mathlib.Data.List.Nodup
import SampleProfiler.Toml.Document

/-!
# `SampleProfiler.Proofs.Tables` — no table holds a key twice

A table of a document is a list of entries, so a key could stand in it more than once, and what it holds would depend
on who is asking. The statements of a document rule that out, in two ways. A value is only assigned to a new key; and
the table of a header, which is filled apart from the others and put into its place when the next header comes, is
taken out of its parent or was never there.

## Contents
- **Looking up.** `find?` on entries, and `Table.Distinct`.
- **Walking.** Walking down a path touches one entry at most, and adds one only if the key is new.
- **Statements.** `Builder.Sound`, kept by every statement, and `distinct_of_parse?`.
-/

namespace SampleProfiler.Toml

namespace Table

/-! ## Looking up -/

variable {t : Table} {name key : String} {node : Node}

theorem find?_cons_self : find? ((name, node) :: t) name = some node :=
  List.lookup_cons_self

theorem find?_cons_of_ne (hne : key ≠ name) : find? ((name, node) :: t) key = t.find? key := by
  have hbeq : (key == name) = false := beq_false_of_ne hne
  simp [find?, List.lookup_cons, hbeq]

theorem find?_append_of_none (hnone : t.find? key = none) (others : Table) :
    find? (t ++ others) key = find? others key := by
  unfold find? at hnone ⊢
  rw [List.lookup_append, hnone]
  rfl

theorem find?_eq_none_iff : t.find? key = none ↔ key ∉ t.map Prod.fst := by
  rw [find?, List.lookup_eq_none_iff]
  constructor
  · intro hall hmem
    obtain ⟨entry, hentry, hkey⟩ := List.mem_map.mp hmem
    simpa [hkey] using hall entry hentry
  · intro hnot entry hentry
    exact bne_iff_ne.mpr fun heq => hnot (heq ▸ List.mem_map_of_mem hentry)

/-- No key stands in the table twice. -/
def Distinct (t : Table) : Prop :=
  (t.map Prod.fst).Nodup

theorem distinct_nil : Distinct [] :=
  List.nodup_nil

/-- A new key may be added. -/
theorem Distinct.concat (h : Distinct t) (hnew : t.find? key = none) (node : Node) : Distinct (t ++ [(key, node)]) := by
  unfold Distinct
  rw [List.map_append]
  refine List.Nodup.append h (List.nodup_singleton key) ?_
  rw [List.map_singleton, List.disjoint_singleton]
  exact find?_eq_none_iff.mp hnew

theorem Distinct.replace (h : Distinct t) (key : String) (node : Node) : Distinct (t.replace key node) := by
  have hkeys : (t.replace key node).map Prod.fst = t.map Prod.fst := by
    rw [Table.replace, List.map_map]
    refine List.map_congr_left fun entry _ => ?_
    simp only [Function.comp]
    split
    · next heq => exact heq.symm
    · rfl
  unfold Distinct
  rw [hkeys]
  exact h

theorem Distinct.erase (h : Distinct t) (key : String) : Distinct (t.erase key) :=
  h.sublist (List.filter_sublist.map Prod.fst)

theorem find?_erase (t : Table) (key : String) : (t.erase key).find? key = none := by
  rw [find?_eq_none_iff]
  intro hmem
  obtain ⟨entry, hentry, hkey⟩ := List.mem_map.mp hmem
  obtain ⟨_, hne⟩ := List.mem_filter.mp hentry
  exact absurd hkey (by simpa using hne)

/-! ## Walking -/

/-- Walking down a path keeps the keys of the table distinct, if what is done at its end does. It is only done to the
    table itself if there is no way to go. -/
theorem Distinct.visit {α : Type} {forKey : Bool} {act : Origin → Table → Option (α × Table)} {path : List String}
    {origin : Origin} {made : α × Table} (h : Distinct t) (hvisit : t.visit forKey act path origin = some made)
    (hact : path = [] → act origin t = some made → Distinct made.2) : Distinct made.2 := by
  cases path with
  | nil => exact hact rfl hvisit
  | cons key path =>
      unfold Table.visit at hvisit
      split at hvisit
      · -- the key is new, and a table is made under it
        next hnew =>
          obtain ⟨⟨found, child⟩, _, rfl⟩ := Option.map_eq_some_iff.mp hvisit
          exact h.concat hnew _
      · -- there is a table under the key, which is walked through or not
        split at hvisit
        · exact absurd hvisit (by simp)
        · obtain ⟨⟨found, child⟩, _, rfl⟩ := Option.map_eq_some_iff.mp hvisit
          exact h.replace key _
      · -- the last element of a repeated table stands for all of them
        split at hvisit
        · exact absurd hvisit (by simp)
        · obtain ⟨⟨found, child⟩, _, rfl⟩ := Option.map_eq_some_iff.mp hvisit
          exact h.replace key _
      · exact absurd hvisit (by simp)

theorem Distinct.update {forKey : Bool} {act : Origin → Table → Option Table} {path : List String} {made : Table}
    (h : Distinct t) (hupdate : t.update forKey act path = some made)
    (hact : path = [] → act .stated t = some made → Distinct made) : Distinct made := by
  obtain ⟨⟨_, child⟩, hvisit, rfl⟩ := Option.map_eq_some_iff.mp hupdate
  refine h.visit hvisit fun hpath hdone => hact hpath ?_
  obtain ⟨_, hchild, heq⟩ := Option.map_eq_some_iff.mp hdone
  cases heq
  exact hchild

/-- A value is only put under a new key. -/
theorem Distinct.assign {path : List String} {made : Table} (h : Distinct t)
    (hassign : t.assign path key node = some made) : Distinct made := by
  refine h.update hassign fun _ hdone => ?_
  split at hdone
  · exact absurd hdone (by simp)
  · next hnot =>
      have hnew : t.find? key = none := by
        rw [not_or] at hnot
        simpa using hnot.2
      rw [← Option.some.inj hdone]
      exact h.concat hnew node

end Table

/-! ## Statements -/

namespace Builder

open Table

variable {b after : Builder} {root : Table} {path : List String} {key : String}

/-- The keys of the root table are distinct, as are those of the table that is being filled if that is the root table;
    and if it will become an entry of the root table, its key is free. -/
structure Sound (b : Builder) : Prop where
  root : Distinct b.root
  current : b.target = .root → Distinct b.current
  free : ∀ key, b.target = .table [] key → b.root.find? key = none

theorem sound_start : Sound start :=
  ⟨distinct_nil, fun _ => distinct_nil, fun _ _ => rfl⟩

theorem Sound.settle (h : Sound b) (hsettle : b.settle? = some root) : Distinct root := by
  unfold settle? at hsettle
  split at hsettle
  · next htarget =>
      rw [← Option.some.inj hsettle]
      exact h.current htarget
  · next path key htarget =>
      -- the table goes to its place without a look at what is there, so its key had better be free
      refine h.root.update hsettle fun hpath hdone => ?_
      rw [hpath] at htarget
      rw [← Option.some.inj hdone]
      exact h.root.concat (h.free key htarget) _
  · -- an element joins the others under their key
    refine h.root.update hsettle fun _ hdone => ?_
    split at hdone
    · rw [← Option.some.inj hdone]
      exact h.root.replace _ _
    · exact absurd hdone (by simp)

/-- A header takes the entries that were implied for its table away from its parent. -/
theorem distinct_of_openTable?_nil (h : Distinct root) {made : Table × Table}
    (hopen : openTable? root [] key = some made) : Distinct made.2 ∧ made.2.find? key = none := by
  unfold openTable? Table.visit at hopen
  split at hopen
  · next hnone =>
      rw [← Option.some.inj hopen]
      exact ⟨h, hnone⟩
  · rw [← Option.some.inj hopen]
    exact ⟨h.erase key, find?_erase root key⟩
  · exact absurd hopen (by simp)

theorem distinct_of_openTable? (h : Distinct root) {made : Table × Table}
    (hopen : openTable? root path key = some made) :
    Distinct made.2 ∧ (path = [] → made.2.find? key = none) := by
  refine ⟨h.visit hopen fun _ hdone => (distinct_of_openTable?_nil h hdone).1, ?_⟩
  rintro rfl
  exact (distinct_of_openTable?_nil h hopen).2

theorem distinct_of_openElement? (h : Distinct root) {made : Table} (hopen : openElement? root path key = some made) :
    Distinct made := by
  refine h.update hopen fun _ hdone => ?_
  split at hdone
  · next hnone =>
      rw [← Option.some.inj hdone]
      exact h.concat hnone _
  · rw [← Option.some.inj hdone]
    exact h
  · exact absurd hdone (by simp)

/-- **Every statement keeps the keys distinct.** -/
theorem Sound.add (h : Sound b) {statement : Statement} (hadd : b.add? statement = some after) : Sound after := by
  cases statement with
  | assign path key node =>
      -- only the table that is being filled changes
      obtain ⟨current, hassign, rfl⟩ := Option.map_eq_some_iff.mp hadd
      exact ⟨h.root, fun htarget => (h.current htarget).assign hassign, h.free⟩
  | table path key =>
      obtain ⟨settled, hsettle, hopened⟩ := Option.bind_eq_some_iff.mp hadd
      obtain ⟨⟨entries, left⟩, hopen, rfl⟩ := Option.map_eq_some_iff.mp hopened
      obtain ⟨hleft, hfree⟩ := distinct_of_openTable? (h.settle hsettle) hopen
      constructor
      · exact hleft
      · intro htarget
        cases htarget
      · intro key htarget
        cases htarget
        exact hfree rfl
  | element path key =>
      obtain ⟨settled, hsettle, hopened⟩ := Option.bind_eq_some_iff.mp hadd
      obtain ⟨left, hopen, rfl⟩ := Option.map_eq_some_iff.mp hopened
      constructor
      · exact distinct_of_openElement? (h.settle hsettle) hopen
      · intro htarget
        cases htarget
      · intro key htarget
        cases htarget

theorem Sound.addAll (h : Sound b) {statements : List Statement} (hadd : statements.foldlM add? b = some after) :
    Sound after := by
  induction statements generalizing b with
  | nil =>
      rw [← Option.some.inj hadd]
      exact h
  | cons statement rest ih =>
      rw [List.foldlM_cons] at hadd
      obtain ⟨next, hnext, hrest⟩ := Option.bind_eq_some_iff.mp hadd
      exact ih (h.add hnext) hrest

end Builder

/-- **The table of a document** holds no key twice. -/
theorem distinct_of_parse? {text : String} {t : Table} (h : parse? text = some t) : t.Distinct := by
  obtain ⟨statements, _, htable⟩ := Option.bind_eq_some_iff.mp h
  obtain ⟨b, hadd, hsettle⟩ := Option.bind_eq_some_iff.mp htable
  exact (Builder.sound_start.addAll hadd).settle hsettle

end SampleProfiler.Toml
