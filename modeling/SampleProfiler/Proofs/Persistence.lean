import Mathlib.Data.List.Nodup
import SampleProfiler.Proofs.Documents
import SampleProfiler.Settings

/-!
# `SampleProfiler.Proofs.Persistence` — settings through documents

A document may hold any of the settings, among other keys; what it holds is taken, and the rest keeps its default. The
check comes after that, so a zero in the document is found as well as one that is not there. Since integers of TOML
have a sign, not every size can be written, but all that can are read back as they were.

## Contents
- **Settings in tables.** `Setting`; `Found`, what an entry does to a setting, and `Held`, what a table holds in all.
- **Reading tables.** `fill_entryData_iff`, `ofEntries_eq_ok_iff` and `ofDocument_eq_ok_iff`.
- **Given settings.** `givenOf`, a list of settings, and `held_integers`, what the document of such a list holds.
- **Round trips.** `ofDocument_of_document`.
-/

namespace SampleProfiler

/-! ## Settings in tables -/

/-- A setting. -/
inductive Setting where
  | capacity
  | bound
deriving DecidableEq

/-- The key of a setting in a document. -/
def Setting.key : Setting → String
  | capacity => "buffer_capacity"
  | bound => "max_profiles"

namespace Overrides

/-- What is given for a setting. -/
def value? (o : Overrides) : Setting → Option Nat
  | .capacity => o.capacity
  | .bound => o.bound

/-- Gives a setting. -/
def give (o : Overrides) (n : Nat) : Setting → Overrides
  | .capacity => { o with capacity := some n }
  | .bound => { o with bound := some n }

theorem value?_give (o : Overrides) (n : Nat) (setting other : Setting) :
    (o.give n setting).value? other = if other = setting then some n else o.value? other := by
  cases setting <;> cases other <;> rfl

theorem ext_value? {o o' : Overrides} (h : ∀ setting, o.value? setting = o'.value? setting) : o = o' := by
  have hcapacity : o.capacity = o'.capacity := h .capacity
  have hbound : o.bound = o'.bound := h .bound
  cases o
  cases o'
  simp_all [value?]

end Overrides

namespace Settings

open Toml

/-- What stands under a key of a table, after `old` stood there: the same if the table lacks the key, and else a size
    that it holds. -/
inductive Found (t : Table) (key : String) (old : Option Nat) : Option Nat → Prop where
  | kept : t.find? key = none → Found t key old old
  | read {n : Nat} : t.find? key = some (.integer n) → n < Kind.countLimit → Found t key old (some n)

/-- The overrides are just what a table holds. -/
def Held (t : Table) (o : Overrides) : Prop :=
  ∀ setting : Setting, Found t setting.key none (o.value? setting)

theorem readCount_eq_ok_iff {expected : String} {d : Datum} {n : Nat} :
    Kind.readCount expected d = .ok n ↔ d = .integer n ∧ n < Kind.countLimit := by
  cases d with
  | integer m =>
      show (if 0 ≤ m ∧ m < Kind.countLimit then Except.ok m.toNat else Except.error _) = _ ↔ _
      split
      · simp
        omega
      · simp
        omega
  | _ => simp [Kind.readCount]

/-- The only nodes that are integers as data are integers. -/
theorem datum_eq_integer_iff {node : Node} {n : Int} : node.datum = .integer n ↔ node = .integer n := by
  cases node <;> simp [Node.datum]

variable {t : Table} {name : String} {node : Node}

/-- The settings found so far, as the reader of records keeps them. -/
def draftOf (o : Overrides) : Draft fields :=
  (o.capacity, o.bound, ())

/-- An entry under the key of a setting is read into that setting. -/
theorem put_key (o : Overrides) (setting : Setting) (d : Datum) :
    Draft.put setting.key d fields (draftOf o)
      = (Kind.readCount "usize" d).map fun n => draftOf (o.give n setting) := by
  cases setting with
  | capacity => rfl
  | bound =>
      show Except.map _ (Except.map _ (Kind.readCount "usize" d)) = _
      cases Kind.readCount "usize" d <;> rfl

/-- An entry under another key is ignored. -/
theorem put_of_ne (hname : ∀ setting : Setting, setting.key ≠ name) (d : Datum) (draft : Draft fields) :
    Draft.put name d fields draft = .ok draft := by
  have hcapacity : "buffer_capacity" ≠ name := hname .capacity
  have hbound : "max_profiles" ≠ name := hname .bound
  show (if "buffer_capacity" = name then _ else Except.map _ (if "max_profiles" = name then _ else _)) = _
  rw [if_neg hcapacity, if_neg hbound]
  rfl

/-- An entry replaces what stood under its key, if it is a size. -/
theorem found_cons_self {key : String} {old new : Option Nat} (hnew : t.find? key = none) :
    Found ((key, node) :: t) key old new ↔
      ∃ n, Kind.readCount "usize" node.datum = .ok n ∧ Found t key (some n) new := by
  constructor
  · intro hfound
    cases hfound with
    | kept hnone =>
        rw [Table.find?_cons_self] at hnone
        exact absurd hnone (Option.some_ne_none _)
    | @read n hread hlt =>
        rw [Table.find?_cons_self] at hread
        exact ⟨n, readCount_eq_ok_iff.mpr ⟨datum_eq_integer_iff.mpr (Option.some.inj hread), hlt⟩, .kept hnew⟩
  · rintro ⟨n, hread, hfound⟩
    obtain ⟨hdatum, hlt⟩ := readCount_eq_ok_iff.mp hread
    cases hfound with
    | kept _ =>
        refine .read ?_ hlt
        rw [Table.find?_cons_self, datum_eq_integer_iff.mp hdatum]
    | read hread' _ =>
        rw [hnew] at hread'
        exact absurd hread'.symm (Option.some_ne_none _)

theorem found_cons_of_ne {key : String} {old new : Option Nat} (hne : key ≠ name) :
    Found ((name, node) :: t) key old new ↔ Found t key old new := by
  have hsame : Table.find? ((name, node) :: t) key = t.find? key := Table.find?_cons_of_ne hne
  constructor <;> intro hfound
  · cases hfound with
    | kept hnone => exact .kept (hsame ▸ hnone)
    | read hread hlt => exact .read (hsame ▸ hread) hlt
  · cases hfound with
    | kept hnone => exact .kept (hsame.trans hnone)
    | read hread hlt => exact .read (hsame.trans hread) hlt

theorem found_nil_iff {key : String} {old new : Option Nat} : Found [] key old new ↔ new = old := by
  constructor
  · intro hfound
    cases hfound with
    | kept _ => rfl
    | read hread _ => exact absurd hread.symm (Option.some_ne_none _)
  · rintro rfl
    exact .kept rfl

theorem key_inj {setting other : Setting} (h : setting.key = other.key) : setting = other := by
  cases setting <;> cases other <;> first | rfl | exact absurd h (by decide)

/-- What is under the key of a setting stands for that setting, and the others are found in the rest or not at all. -/
theorem found_cons_key {setting : Setting} {n : Nat} (hnew : t.find? setting.key = none)
    (hread : Kind.readCount "usize" node.datum = .ok n) (o : Overrides) (other : Setting) (new : Option Nat) :
    Found ((setting.key, node) :: t) other.key (o.value? other) new ↔
      Found t other.key ((o.give n setting).value? other) new := by
  rw [Overrides.value?_give]
  split
  · next heq =>
      rw [heq, found_cons_self hnew]
      simp [hread]
  · next hne => exact found_cons_of_ne fun heq => hne (key_inj heq)

/-! ## Reading tables -/

/-- **Reading a table** succeeds if whatever it holds under the key of a setting is a size, and finds these. -/
theorem fill_entryData_iff (hkeys : t.Distinct) (o : Overrides) (draft : Draft fields) :
    Draft.fill fields (entryData t) (draftOf o) = .ok draft ↔
      ∃ o' : Overrides, draft = draftOf o' ∧
        ∀ setting : Setting, Found t setting.key (o.value? setting) (o'.value? setting) := by
  induction t generalizing o with
  | nil =>
      constructor
      · intro hdraft
        exact ⟨o, (Except.ok.inj hdraft).symm, fun _ => .kept rfl⟩
      · rintro ⟨o', rfl, hfound⟩
        have heq : o' = o := Overrides.ext_value? fun setting => found_nil_iff.mp (hfound setting)
        rw [heq]
        rfl
  | cons entry t ih =>
      obtain ⟨name, node⟩ := entry
      rw [Table.Distinct, List.map_cons, List.nodup_cons] at hkeys
      have hnew : Table.find? t name = none := Table.find?_eq_none_iff.mpr hkeys.1
      show (Draft.put name node.datum fields (draftOf o)).bind (Draft.fill fields (entryData t)) = _ ↔ _
      by_cases hname : ∃ setting : Setting, setting.key = name
      · -- an entry of a setting is read, and the rest goes on from what was found
        obtain ⟨setting, rfl⟩ := hname
        rw [put_key]
        cases hread : Kind.readCount "usize" node.datum with
        | error mismatch =>
            constructor
            · intro herror
              exact absurd herror (by simp [Except.map, Except.bind])
            · rintro ⟨o', _, hfound⟩
              obtain ⟨n, hok, _⟩ := (found_cons_self hnew).mp (hfound setting)
              rw [hread] at hok
              exact absurd hok (by simp)
        | ok n =>
            show Draft.fill fields (entryData t) (draftOf (o.give n setting)) = _ ↔ _
            rw [ih hkeys.2]
            simp only [found_cons_key hnew hread o]
      · -- the reader passes over an entry that is no setting
        have hne : ∀ setting : Setting, setting.key ≠ name := fun setting heq => hname ⟨setting, heq⟩
        rw [put_of_ne hne]
        show Draft.fill fields (entryData t) (draftOf o) = _ ↔ _
        rw [ih hkeys.2]
        simp only [found_cons_of_ne (hne _)]

/-- **The settings of a table** are those that it holds, over the defaults. -/
theorem ofEntries_eq_ok_iff (hkeys : t.Distinct) (s : Settings) :
    ofEntries (entryData t) = .ok s ↔ ∃ o : Overrides, Held t o ∧ s = o.over {} := by
  have hnone : ∀ setting, Overrides.value? {} setting = none := by
    intro setting
    cases setting <;> rfl
  have hfill := fill_entryData_iff hkeys {}
  simp only [hnone] at hfill
  -- nothing was found before the first entry
  show (Draft.fill fields (entryData t) (draftOf {})).map (fun draft => Overrides.over ⟨draft.1, draft.2.1⟩ {}) = _ ↔ _
  cases hdraft : Draft.fill fields (entryData t) (draftOf {}) with
  | error mismatch =>
      constructor
      · intro herror
        exact absurd herror (by simp [Except.map])
      · rintro ⟨o, hheld, _⟩
        rw [(hfill (draftOf o)).mpr ⟨o, rfl, hheld⟩] at hdraft
        exact absurd hdraft (by simp)
  | ok draft =>
      obtain ⟨o, rfl, hheld⟩ := (hfill draft).mp hdraft
      constructor
      · intro hok
        exact ⟨o, hheld, (Except.ok.inj hok).symm⟩
      · rintro ⟨o', hheld', rfl⟩
        have hsame := (hfill (draftOf o')).mpr ⟨o', rfl, hheld'⟩
        rw [hdraft] at hsame
        have heq : draftOf o = draftOf o' := Except.ok.inj hsame
        show Except.ok (Overrides.over ⟨(draftOf o).1, (draftOf o).2.1⟩ {}) = _
        rw [heq]
        rfl

theorem defect?_eq_none_iff {s : Settings} : s.defect? = none ↔ 0 < s.capacity ∧ 0 < s.bound := by
  unfold defect?
  split
  · next hcapacity => simp [hcapacity]
  · next hcapacity =>
      split
      · next hbound => simp [hbound]
      · next hbound => simp [Nat.pos_of_ne_zero, hcapacity, hbound]

theorem checked_eq_ok_iff {s made : Settings} : s.checked = .ok made ↔ made = s ∧ made.defect? = none := by
  constructor
  · intro hok
    unfold checked at hok
    split at hok
    · exact absurd hok (by simp)
    · next hnone =>
        rw [← Except.ok.inj hok]
        exact ⟨rfl, hnone⟩
  · rintro ⟨rfl, hgood⟩
    rw [checked, hgood]

/-- A document whose table holds certain settings is read as these over the defaults, which are checked then. -/
theorem ofDocument_of_held {text : String} (hparse : parse? text = some t) {o : Overrides} (hheld : Held t o) :
    ofDocument text = (o.over {}).checked := by
  rw [ofDocument, hparse]
  dsimp only
  rw [(ofEntries_eq_ok_iff (distinct_of_parse? hparse) _).mpr ⟨o, hheld, rfl⟩]

/-- **A document is read** if its table holds settings that are good over the defaults. -/
theorem ofDocument_eq_ok_iff {text : String} {s : Settings} :
    ofDocument text = .ok s ↔
      ∃ (t : Table) (o : Overrides), parse? text = some t ∧ Held t o ∧ s = o.over {} ∧ s.defect? = none := by
  constructor
  · intro hok
    unfold ofDocument at hok
    split at hok
    · exact absurd hok (by simp)
    · next t hparse =>
        split at hok
        · exact absurd hok (by simp)
        · next hentries =>
            obtain ⟨rfl, hgood⟩ := checked_eq_ok_iff.mp hok
            obtain ⟨o, hheld, rfl⟩ := (ofEntries_eq_ok_iff (distinct_of_parse? hparse) _).mp hentries
            exact ⟨t, o, hparse, hheld, rfl, hgood⟩
  · rintro ⟨t, o, hparse, hheld, rfl, hgood⟩
    rw [ofDocument_of_held hparse hheld]
    exact checked_eq_ok_iff.mpr ⟨rfl, hgood⟩

/-! ## Given settings -/

/-- The settings of a list of them. -/
def givenOf (given : List (Setting × Nat)) : Overrides :=
  ⟨given.lookup .capacity, given.lookup .bound⟩

theorem value?_givenOf (given : List (Setting × Nat)) (setting : Setting) :
    (givenOf given).value? setting = given.lookup setting := by
  cases setting <;> rfl

/-- The entries of a document that gives these settings. -/
def keyed (given : List (Setting × Nat)) : List (String × Nat) :=
  given.map fun entry => (entry.1.key, entry.2)

theorem nodup_keyed {given : List (Setting × Nat)} (hnodup : (given.map Prod.fst).Nodup) :
    ((keyed given).map Prod.fst).Nodup := by
  have hkeys : (keyed given).map Prod.fst = (given.map Prod.fst).map Setting.key := by
    rw [keyed, List.map_map, List.map_map]
    rfl
  rw [hkeys]
  exact hnodup.map fun _ _ => key_inj

theorem isBare_of_mem_key (setting : Setting) :
    setting.key.toList ≠ [] ∧ ∀ c ∈ setting.key.toList, isBare c = true := by
  have hall : setting.key.toList.all isBare = true := by
    cases setting <;> rfl
  refine ⟨?_, List.all_eq_true.mp hall⟩
  cases setting <;> exact List.cons_ne_nil _ _

theorem writable_keyed {given : List (Setting × Nat)} (hfits : ∀ entry ∈ given, entry.2 ≤ 9223372036854775807) :
    ∀ entry ∈ keyed given, Writable entry := by
  intro entry hentry
  obtain ⟨⟨setting, n⟩, hmem, rfl⟩ := List.mem_map.mp hentry
  obtain ⟨hnonempty, hbare⟩ := isBare_of_mem_key setting
  exact ⟨hnonempty, hbare, hfits _ hmem⟩

/-- A document of settings holds just these. -/
theorem held_integers {given : List (Setting × Nat)} (hfits : ∀ entry ∈ given, entry.2 ≤ 9223372036854775807) :
    Held (integers (keyed given)) (givenOf given) := by
  intro setting
  rw [value?_givenOf]
  induction given with
  | nil => exact .kept rfl
  | cons entry given ih =>
      obtain ⟨other, n⟩ := entry
      have hn : n ≤ 9223372036854775807 := hfits _ List.mem_cons_self
      have hrest := ih fun e he => hfits e (List.mem_cons_of_mem _ he)
      by_cases heq : setting = other
      · rw [heq, List.lookup_cons_self]
        exact .read Table.find?_cons_self (by unfold Kind.countLimit; omega)
      · have hbeq : (setting == other) = false := beq_false_of_ne heq
        rw [List.lookup_cons, hbeq]
        exact (found_cons_of_ne fun hkey => heq (key_inj hkey)).mpr hrest

/-- **A document that gives some settings**, each of them once and in any order, is read as these over the defaults,
    which are checked then. -/
theorem ofDocument_of_spells {given : List (Setting × Nat)} {text : String} (hnodup : (given.map Prod.fst).Nodup)
    (hfits : ∀ entry ∈ given, entry.2 ≤ 9223372036854775807) (hspells : Spells (keyed given) text.toList) :
    ofDocument text = ((givenOf given).over {}).checked := by
  have hparse := parse?_of_spells hspells (writable_keyed hfits) (nodup_keyed hnodup)
  exact ofDocument_of_held hparse (held_integers hfits)

/-! ## Round trips -/

/-- All settings as a list. -/
def listed (s : Settings) : List (Setting × Nat) :=
  [(.capacity, s.capacity), (.bound, s.bound)]

theorem document_eq_plain (s : Settings) : s.document = Toml.document (plain (keyed s.listed)) := rfl

theorem checked_of_pos {s : Settings} (hcapacity : 0 < s.capacity) (hbound : 0 < s.bound) : s.checked = .ok s :=
  checked_eq_ok_iff.mpr ⟨rfl, defect?_eq_none_iff.mpr ⟨hcapacity, hbound⟩⟩

/-- The room of a buffer is looked at first. -/
theorem checked_of_zeroCapacity {s : Settings} (hcapacity : s.capacity = 0) :
    s.checked = .error (.invalid .zeroCapacity) := by
  rw [checked, defect?, if_pos hcapacity]

theorem checked_of_zeroBound {s : Settings} (hcapacity : 0 < s.capacity) (hbound : s.bound = 0) :
    s.checked = .error (.invalid .zeroBound) := by
  rw [checked, defect?, if_neg (Nat.ne_of_gt hcapacity), if_pos hbound]

/-- **Settings survive a document.** If they can be written at all, they are read back as they were, or refused for the
    first of them that is zero; and they can be written if TOML has integers as large. A document that gives only some
    of the settings is read as these and the defaults of the others. -/
theorem ofDocument_of_document (s : Settings) :
    (s.capacity ≤ 9223372036854775807 ∧ s.bound ≤ 9223372036854775807 →
      ∃ text, s.document = .ok text ∧
        (0 < s.capacity → 0 < s.bound → ofDocument text = .ok s) ∧
        (s.capacity = 0 → ofDocument text = .error (.invalid .zeroCapacity)) ∧
        (0 < s.capacity → s.bound = 0 → ofDocument text = .error (.invalid .zeroBound))) ∧
    (9223372036854775807 < s.capacity ∨ 9223372036854775807 < s.bound → s.document = .error .outOfRange) ∧
    ∀ (given : List (Setting × Nat)) (text : String), (given.map Prod.fst).Nodup →
      (∀ entry ∈ given, entry.2 ≤ 9223372036854775807) → Spells (keyed given) text.toList →
      let defaults : Settings := {}
      ofDocument text = Settings.checked
        { capacity := (given.lookup .capacity).getD defaults.capacity
          bound := (given.lookup .bound).getD defaults.bound } := by
  refine ⟨?_, ?_, fun given text hnodup hfits hspells => ofDocument_of_spells hnodup hfits hspells⟩
  · rintro ⟨hcapacity, hbound⟩
    have hfits : ∀ entry ∈ s.listed, entry.2 ≤ 9223372036854775807 := by
      simp [listed, hcapacity, hbound]
    have hwritable := writable_keyed hfits
    obtain ⟨text, htext, hspells⟩ := document_plain fun entry hentry => (hwritable entry hentry).fits
    have hread : ofDocument text = s.checked := ofDocument_of_spells (by simp [listed]) hfits hspells
    refine ⟨text, htext, ?_, ?_, ?_⟩ <;> rw [hread]
    · exact checked_of_pos
    · exact checked_of_zeroCapacity
    · exact checked_of_zeroBound
  · intro hover
    rw [document_eq_plain]
    apply document_plain_outOfRange
    simpa [keyed, listed] using hover

/-- Settings that are written and read back, and a document that gives one of the settings only. -/
theorem ofDocument_of_document_partial :
    (∃ text, Settings.document ⟨512, 20⟩ = .ok text ∧ ofDocument text = .ok ⟨512, 20⟩) ∧
      Settings.document ⟨512, 9223372036854775808⟩ = .error .outOfRange ∧
      ofDocument "max_profiles = 3\n" = .ok ⟨256, 3⟩ := by
  obtain ⟨hround, _, hgiven⟩ := ofDocument_of_document ⟨512, 20⟩
  obtain ⟨_, hover, _⟩ := ofDocument_of_document ⟨512, 9223372036854775808⟩
  obtain ⟨text, htext, hread, _⟩ := hround (by decide)
  have hspells : Spells (keyed [(.bound, 3)]) "max_profiles = 3\n".toList := .next ("max_profiles", 3) .nothing
  have hpart := hgiven [(.bound, 3)] "max_profiles = 3\n" (by decide) (by decide) hspells
  exact ⟨⟨text, htext, hread (by decide) (by decide)⟩, hover (by decide), hpart⟩

end Settings

end SampleProfiler
