import Mathlib.Data.List.Induction
import Mathlib.Order.Bounds.Defs
import SampleProfiler.Proofs.Recency

/-!
# `SampleProfiler.Proofs.Stretch` — the samples of a name since it was last out of reach

`Recency.stretch` collects the samples of one name while it walks along a sequence, and starts anew where
`bound` or more other names came in between. This module says what it has collected in the end, without a
walk: the samples of the name from the earliest position on at which an *unbroken* tail of the sequence
starts (`stretch_eq_filter_drop`).

## Contents
- **The last use.** `Since name samples gap`: `gap` is what came after the last sample of the name.
- **Unbroken tails.** `Unbroken`, and how it changes with one more sample.
- **The walk.** What `stretch` keeps after one more sample, in terms of the recent names.
- **The closed form.**
-/

namespace SampleProfiler.Recency

variable {bound : Nat} {name : String} {samples gap : List Sample}

/-! ## The last use -/

/-- `gap` is what came after the last sample of the name. -/
def Since (name : String) (samples gap : List Sample) : Prop :=
  ∃ before last, samples = before ++ last :: gap ∧ last.name = name ∧ name ∉ gap.map Sample.name

theorem exists_since (h : name ∈ samples.map Sample.name) : ∃ gap, Since name samples gap := by
  induction samples with
  | nil => exact absurd h List.not_mem_nil
  | cons s rest ih =>
      by_cases hrest : name ∈ rest.map Sample.name
      · obtain ⟨gap, before, last, hsplit, hlast, hgap⟩ := ih hrest
        refine ⟨gap, s :: before, last, ?_, hlast, hgap⟩
        rw [hsplit, List.cons_append]
      · rw [List.map_cons, List.mem_cons] at h
        exact ⟨rest, [], s, rfl, (h.resolve_right hrest).symm, hrest⟩

theorem Since.mem (h : Since name samples gap) : name ∈ samples.map Sample.name := by
  obtain ⟨before, last, rfl, hlast, _⟩ := h
  rw [List.map_append, List.map_cons, hlast]
  exact List.mem_append_right _ List.mem_cons_self

theorem not_since_nil : ¬ Since name [] gap := fun h => absurd h.mem List.not_mem_nil

/-- What came before does not matter. -/
theorem Since.of_drop {p : Nat} (h : Since name (samples.drop p) gap) : Since name samples gap := by
  obtain ⟨before, last, hsplit, hlast, hgap⟩ := h
  refine ⟨samples.take p ++ before, last, ?_, hlast, hgap⟩
  rw [List.append_assoc, ← hsplit, List.take_append_drop]

/-- A name is recent as long as the samples since its last one have fewer than `bound` distinct names. -/
theorem Since.mem_recent (h : Since name samples gap) :
    name ∈ recent bound (samples.map Sample.name) ↔ (gap.map Sample.name).dedup.length < bound := by
  obtain ⟨before, last, rfl, rfl, hgap⟩ := h
  rw [List.map_append, List.map_cons]
  exact mem_recent_of_split _ hgap

/-! ## Unbroken tails -/

/-- A part of a sequence that starts with a sample of the name, and in which fewer than `bound` distinct other
    names lie between any two consecutive samples of the name. -/
structure Unbroken (bound : Nat) (name : String) (tail : List Sample) : Prop where
  starts : ∃ s rest, tail = s :: rest ∧ s.name = name
  close : ∀ earlier s later gap, tail = earlier ++ s :: later → s.name = name → Since name earlier gap →
    (gap.map Sample.name).dedup.length < bound

theorem Unbroken.ne_nil {tail : List Sample} (h : Unbroken bound name tail) : tail ≠ [] := by
  obtain ⟨s, rest, rfl, _⟩ := h.starts
  exact List.cons_ne_nil _ _

theorem unbroken_singleton {s : Sample} (hs : s.name = name) : Unbroken bound name [s] where
  starts := ⟨s, [], rfl, hs⟩
  close := by
    intro earlier t later gap hsplit _ hsince
    cases earlier with
    | nil => exact absurd hsince not_since_nil
    | cons a rest => simp at hsplit

/-- Taking the last sample off leaves an unbroken part unbroken. -/
theorem Unbroken.of_concat {tail : List Sample} {s : Sample} (h : Unbroken bound name (tail ++ [s]))
    (hne : tail ≠ []) : Unbroken bound name tail := by
  refine ⟨?_, ?_⟩
  · obtain ⟨a, rest, hsplit, ha⟩ := h.starts
    cases tail with
    | nil => exact absurd rfl hne
    | cons b rest' =>
        rw [List.cons_append, List.cons_eq_cons] at hsplit
        exact ⟨b, rest', rfl, hsplit.1 ▸ ha⟩
  · intro earlier t later gap hsplit ht hsince
    refine h.close earlier t (later ++ [s]) gap ?_ ht hsince
    rw [hsplit, List.append_assoc, List.cons_append]

/-- One more sample of the name keeps a part unbroken if the last one is close enough. -/
theorem Unbroken.concat {tail : List Sample} {s : Sample} (h : Unbroken bound name tail)
    (hclose : s.name = name → ∀ gap, Since name tail gap → (gap.map Sample.name).dedup.length < bound) :
    Unbroken bound name (tail ++ [s]) := by
  refine ⟨?_, ?_⟩
  · obtain ⟨a, rest, rfl, ha⟩ := h.starts
    exact ⟨a, rest ++ [s], rfl, ha⟩
  · intro earlier t later gap hsplit ht hsince
    -- only the new sample can end a new gap
    rcases List.eq_nil_or_concat later with rfl | ⟨later', z, rfl⟩
    · obtain ⟨rfl, hst⟩ := List.append_inj' hsplit rfl
      rw [List.cons_eq_cons] at hst
      exact hclose (hst.1 ▸ ht) gap hsince
    · rw [List.concat_eq_append, ← List.cons_append, ← List.append_assoc] at hsplit
      exact h.close earlier t later' gap (List.append_inj' hsplit rfl).1 ht hsince

/-! ## The walk -/

/-- The walk along a sequence. -/
def walk (bound : Nat) (name : String) (samples : List Sample) : Stretch :=
  samples.foldl (Stretch.step bound name) {}

theorem walk_concat (bound : Nat) (name : String) (samples : List Sample) (s : Sample) :
    walk bound name (samples ++ [s]) = (walk bound name samples).step bound name s :=
  List.foldl_append

theorem stretch_concat_of_ne {s : Sample} (hs : s.name ≠ name) :
    stretch bound name (samples ++ [s]) = stretch bound name samples := by
  rw [stretch, ← walk, walk_concat, Stretch.step, if_neg hs]
  split <;> rfl

/-- Nothing is kept before the first sample of the name. -/
theorem stretch_of_notMem (h : name ∉ samples.map Sample.name) : stretch bound name samples = [] := by
  induction samples using List.reverseRecOn with
  | nil => rfl
  | append_singleton samples s ih =>
      rw [List.map_append, List.mem_append, not_or] at h
      have hs : s.name ≠ name := fun heq => h.2 (heq ▸ List.mem_cons_self)
      rw [stretch_concat_of_ne hs]
      exact ih h.1

/-- Along samples of other names the walk collects their names, each once. -/
theorem foldl_step_others (bound : Nat) (t : Stretch) (gap : List Sample) (hgap : name ∉ gap.map Sample.name)
    (hnodup : t.others.Nodup) :
    (gap.foldl (Stretch.step bound name) t).others.Nodup ∧
      ∀ y, y ∈ (gap.foldl (Stretch.step bound name) t).others ↔ y ∈ t.others ∨ y ∈ gap.map Sample.name := by
  induction gap generalizing t with
  | nil => exact ⟨hnodup, by simp⟩
  | cons s rest ih =>
      rw [List.map_cons, List.mem_cons, not_or] at hgap
      have hs : s.name ≠ name := fun heq => hgap.1 heq.symm
      rw [List.foldl_cons, Stretch.step, if_neg hs]
      by_cases hold : s.name ∈ t.others
      · rw [if_pos hold]
        obtain ⟨hrest, hmem⟩ := ih t hgap.2 hnodup
        refine ⟨hrest, fun y => ?_⟩
        rw [hmem, List.map_cons, List.mem_cons]
        constructor
        · exact fun h => h.imp id Or.inr
        · rintro (h | rfl | h)
          · exact Or.inl h
          · exact Or.inl hold
          · exact Or.inr h
      · rw [if_neg hold]
        obtain ⟨hrest, hmem⟩ :=
          ih { t with others := s.name :: t.others } hgap.2 (List.nodup_cons.mpr ⟨hold, hnodup⟩)
        refine ⟨hrest, fun y => ?_⟩
        rw [hmem, List.map_cons, List.mem_cons, List.mem_cons, or_assoc, or_left_comm]

/-- The names that the walk remembers are those since the last sample of the name. -/
theorem Since.length_others (h : Since name samples gap) :
    (walk bound name samples).others.length = (gap.map Sample.name).dedup.length := by
  obtain ⟨before, last, rfl, hlast, hgap⟩ := h
  have hwalk : walk bound name (before ++ last :: gap)
      = gap.foldl (Stretch.step bound name) ((walk bound name before).step bound name last) := by
    rw [walk, List.foldl_append, List.foldl_cons, ← walk]
  have hfresh : ((walk bound name before).step bound name last).others = [] := by
    rw [Stretch.step, if_pos hlast]
  obtain ⟨hnodup, hmem⟩ := foldl_step_others bound ((walk bound name before).step bound name last) gap hgap
    (by rw [hfresh]; exact List.nodup_nil)
  rw [hwalk]
  refine ((List.perm_ext_iff_of_nodup hnodup (List.nodup_dedup _)).mpr fun y => ?_).length_eq
  rw [hmem, hfresh, List.mem_dedup]
  simp

/-- A sample of the name goes on the stretch if the name is recent, and starts it anew otherwise. -/
theorem stretch_concat_self (bound : Nat) (samples : List Sample) (s : Sample) :
    stretch bound s.name (samples ++ [s])
      = (if s.name ∈ recent bound (samples.map Sample.name) then stretch bound s.name samples else []) ++ [s] := by
  have hstep : stretch bound s.name (samples ++ [s])
      = if (walk bound s.name samples).others.length < bound then stretch bound s.name samples ++ [s] else [s] := by
    rw [stretch, ← walk, walk_concat, Stretch.step, if_pos rfl]
    rfl
  rw [hstep]
  by_cases hmem : s.name ∈ samples.map Sample.name
  · obtain ⟨gap, hgap⟩ := exists_since hmem
    by_cases hrecent : s.name ∈ recent bound (samples.map Sample.name)
    · rw [if_pos hrecent, if_pos (hgap.length_others ▸ hgap.mem_recent.mp hrecent)]
    · have hfar : ¬ (walk bound s.name samples).others.length < bound := by
        rw [hgap.length_others]
        exact mt hgap.mem_recent.mpr hrecent
      rw [if_neg hrecent, if_neg hfar, List.nil_append]
  · -- the first sample of the name: both sides keep it alone
    rw [if_neg (mt mem_of_mem_recent hmem), stretch_of_notMem hmem, List.nil_append]
    split <;> rfl

/-! ## The closed form -/

/-- A position from which the sequence is unbroken up to its end. -/
def UnbrokenFrom (bound : Nat) (name : String) (samples : List Sample) : Set Nat :=
  {p | Unbroken bound name (samples.drop p)}

theorem lt_of_mem_unbrokenFrom {p : Nat} (h : p ∈ UnbrokenFrom bound name samples) : p < samples.length := by
  by_contra hge
  exact Unbroken.ne_nil h (List.drop_eq_nil_of_le (Nat.le_of_not_lt hge))

/-- The name of a position from which the sequence is unbroken is the name itself. -/
theorem mem_of_mem_unbrokenFrom {p : Nat} (h : p ∈ UnbrokenFrom bound name samples) :
    name ∈ (samples.drop p).map Sample.name := by
  obtain ⟨s, rest, hsplit, rfl⟩ := Unbroken.starts h
  rw [hsplit]
  exact List.mem_cons_self

theorem drop_concat {p : Nat} (hp : p ≤ samples.length) (s : Sample) :
    (samples ++ [s]).drop p = samples.drop p ++ [s] :=
  List.drop_append_of_le_length hp

/-- A sample of another name moves no start. -/
theorem unbrokenFrom_concat_of_ne {s : Sample} (hs : s.name ≠ name) :
    UnbrokenFrom bound name (samples ++ [s]) = UnbrokenFrom bound name samples := by
  ext p
  constructor
  · intro h
    have hlt := lt_of_mem_unbrokenFrom h
    rw [List.length_append, List.length_singleton] at hlt
    have hconcat : Unbroken bound name (samples.drop p ++ [s]) := by
      rw [← drop_concat (Nat.le_of_lt_succ hlt)]
      exact h
    refine hconcat.of_concat ?_
    intro hnil
    obtain ⟨a, rest, hsplit, ha⟩ := hconcat.starts
    rw [hnil, List.nil_append, List.cons_eq_cons] at hsplit
    exact hs (hsplit.1 ▸ ha)
  · intro h
    have hlt := lt_of_mem_unbrokenFrom h
    show Unbroken bound name ((samples ++ [s]).drop p)
    rw [drop_concat (Nat.le_of_lt hlt)]
    exact Unbroken.concat h fun heq => absurd heq hs

/-- A sample of the name starts an unbroken tail, and goes on every one before it if the name is recent;
    otherwise it breaks them. -/
theorem mem_unbrokenFrom_concat_self {p : Nat} {s : Sample} :
    p ∈ UnbrokenFrom bound s.name (samples ++ [s]) ↔
      p = samples.length ∨
        (p ∈ UnbrokenFrom bound s.name samples ∧ s.name ∈ recent bound (samples.map Sample.name)) := by
  constructor
  · intro h
    have hlt := lt_of_mem_unbrokenFrom h
    rw [List.length_append, List.length_singleton] at hlt
    by_cases hp : p = samples.length
    · exact Or.inl hp
    · have hlt' : p < samples.length := by omega
      have hconcat : Unbroken bound s.name (samples.drop p ++ [s]) := by
        rw [← drop_concat (Nat.le_of_lt hlt')]
        exact h
      have hne : samples.drop p ≠ [] := by
        rw [ne_eq, List.drop_eq_nil_iff]
        omega
      have hbefore : p ∈ UnbrokenFrom bound s.name samples := hconcat.of_concat hne
      obtain ⟨gap, hgap⟩ := exists_since (mem_of_mem_unbrokenFrom hbefore)
      have hshort := hconcat.close (samples.drop p) s [] gap rfl rfl hgap
      exact Or.inr ⟨hbefore, hgap.of_drop.mem_recent.mpr hshort⟩
  · rintro (rfl | ⟨h, hrecent⟩)
    · show Unbroken bound s.name ((samples ++ [s]).drop samples.length)
      rw [drop_concat (Nat.le_refl _), List.drop_length, List.nil_append]
      exact unbroken_singleton rfl
    · have hlt := lt_of_mem_unbrokenFrom h
      show Unbroken bound s.name ((samples ++ [s]).drop p)
      rw [drop_concat (Nat.le_of_lt hlt)]
      exact Unbroken.concat h fun _ gap hgap => hgap.of_drop.mem_recent.mp hrecent

/-- **The closed form of a stretch**: the samples of the name from the earliest position on from which the
    sequence is unbroken. -/
theorem stretch_eq_filter_drop (bound : Nat) (h : name ∈ samples.map Sample.name) :
    ∃ p, IsLeast (UnbrokenFrom bound name samples) p ∧
      stretch bound name samples = (samples.drop p).filter fun s => s.name = name := by
  induction samples using List.reverseRecOn with
  | nil => exact absurd h List.not_mem_nil
  | append_singleton samples s ih =>
      by_cases hs : s.name = name
      · subst hs
        rw [stretch_concat_self]
        by_cases hrecent : s.name ∈ recent bound (samples.map Sample.name)
        · obtain ⟨p, ⟨hp, hleast⟩, hstretch⟩ := ih (mem_of_mem_recent hrecent)
          have hlt := lt_of_mem_unbrokenFrom hp
          refine ⟨p, ⟨mem_unbrokenFrom_concat_self.mpr (Or.inr ⟨hp, hrecent⟩), ?_⟩, ?_⟩
          · intro q hq
            rcases mem_unbrokenFrom_concat_self.mp hq with rfl | ⟨hq, _⟩
            · exact Nat.le_of_lt hlt
            · exact hleast hq
          · rw [if_pos hrecent, hstretch, drop_concat (Nat.le_of_lt hlt), List.filter_append]
            simp
        · -- the name was out of reach, so its stretch starts anew at this sample
          refine ⟨samples.length, ⟨mem_unbrokenFrom_concat_self.mpr (Or.inl rfl), ?_⟩, ?_⟩
          · intro q hq
            rcases mem_unbrokenFrom_concat_self.mp hq with rfl | ⟨_, hq⟩
            · exact Nat.le_refl _
            · exact absurd hq hrecent
          · rw [if_neg hrecent, drop_concat (Nat.le_refl _), List.drop_length]
            simp
      · rw [List.map_append, List.mem_append] at h
        have hbefore : name ∈ samples.map Sample.name :=
          h.resolve_right fun hlast => hs (List.mem_singleton.mp hlast).symm
        obtain ⟨p, ⟨hp, hleast⟩, hstretch⟩ := ih hbefore
        refine ⟨p, ?_, ?_⟩
        · rw [unbrokenFrom_concat_of_ne hs]
          exact ⟨hp, hleast⟩
        · rw [stretch_concat_of_ne hs, hstretch, drop_concat (Nat.le_of_lt (lt_of_mem_unbrokenFrom hp)),
            List.filter_append, List.filter_cons_of_neg (by simpa using hs), List.filter_nil, List.append_nil]

end SampleProfiler.Recency
