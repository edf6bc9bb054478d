import Mathlib.Data.List.Basic
import Mathlib.Data.List.Dedup
import SampleProfiler.Recency

/-!
# `SampleProfiler.Proofs.Recency` — the order of use, one use at a time

`Recency.order` moves each used name to the front. This module reads that order off the finished sequence
(`order_eq_reverse_dedup`: drop every occurrence that is not the last one, and read backwards), and says how
the `bound` most recent names and the count of misses change with one more use. The point of
`recent_concat` is that the most recent names of a longer sequence depend on the *most recent* names of the
shorter one only, so a map that forgot the others can still compute them.
-/

namespace SampleProfiler.Recency

/-! ## The order of use in closed form -/

/-- Uses on top of a given order: the new names come first, and those of the old order that were not used
    again keep their places behind them. -/
theorem foldl_use (names start : List String) :
    names.foldl use start = names.dedup.reverse ++ start.filter (· ∉ names) := by
  induction names generalizing start with
  | nil => simp
  | cons n rest ih =>
      rw [List.foldl_cons, ih (use start n)]
      have hstart : (start.filter (· ≠ n)).filter (· ∉ rest) = start.filter (· ∉ n :: rest) := by
        rw [List.filter_filter]
        apply List.filter_congr
        intro y _
        simp [not_or, Bool.and_comm]
      by_cases hn : n ∈ rest
      · rw [List.dedup_cons_of_mem hn, ← hstart]
        simp [use, hn]
      · rw [List.dedup_cons_of_notMem hn, ← hstart]
        simp [use, hn]

/-- **The order of use in closed form**: of each name the last occurrence counts, the latest one first. -/
theorem order_eq_reverse_dedup (names : List String) : order names = names.dedup.reverse := by
  rw [order, foldl_use]
  simp

/-- Only used names are recent. -/
theorem mem_of_mem_recent {bound : Nat} {names : List String} {x : String} (h : x ∈ recent bound names) :
    x ∈ names :=
  mem_order.mp (List.mem_of_mem_take h)

theorem recent_nil (bound : Nat) : recent bound [] = [] :=
  List.take_nil

/-- **A name is recent as long as fewer than `bound` distinct names were used since its last use.** -/
theorem mem_recent_of_split {bound : Nat} {x : String} (before : List String) {gap : List String}
    (hgap : x ∉ gap) : x ∈ recent bound (before ++ x :: gap) ↔ gap.dedup.length < bound := by
  have horder : order (before ++ x :: gap)
      = gap.dedup.reverse ++ x :: ((order before).filter (· ≠ x)).filter (· ∉ gap) := by
    rw [List.append_cons, order, List.foldl_append, foldl_use, ← order, order_concat, use,
      List.filter_cons_of_pos (by simpa using hgap)]
  have hfront : x ∉ gap.dedup.reverse := by
    rw [List.mem_reverse, List.mem_dedup]
    exact hgap
  -- the names used since the last use of `x` stand in front of it, and `x` stands right behind them
  rw [recent, horder, List.take_append, List.mem_append, List.length_reverse]
  constructor
  · rintro (h | h)
    · exact absurd (List.mem_of_mem_take h) hfront
    · have hpos : bound - gap.dedup.length ≠ 0 := by
        intro hzero
        rw [hzero, List.take_zero] at h
        exact absurd h List.not_mem_nil
      omega
  · intro h
    obtain ⟨k, hk⟩ := Nat.exists_eq_succ_of_ne_zero (Nat.sub_ne_zero_of_lt h)
    rw [hk, Nat.succ_eq_add_one, List.take_succ_cons]
    exact Or.inr List.mem_cons_self

/-! ## One more use -/

/-- A name that the order does not hold yet goes in front of it. -/
theorem use_eq_cons {names : List String} {x : String} (h : x ∉ names) : use names x = x :: names := by
  rw [use, List.filter_eq_self.mpr]
  intro y hy
  have hne : y ≠ x := fun heq => h (heq ▸ hy)
  simp [hne]

/-- Beyond the first `bound + 1` names of an order nothing can move into the first `bound` places when one
    name is taken out. -/
theorem take_filter_ne {names : List String} (h : names.Nodup) (x : String) (bound : Nat) :
    (names.filter (· ≠ x)).take bound = ((names.take (bound + 1)).filter (· ≠ x)).take bound := by
  induction names generalizing bound with
  | nil => simp
  | cons a rest ih =>
      obtain ⟨ha, hrest⟩ := List.nodup_cons.mp h
      by_cases hax : a = x
      · subst hax
        -- the name that is taken out does not come again
        have keep : ∀ l : List String, l.Sublist rest → l.filter (· ≠ a) = l := by
          intro l hl
          rw [List.filter_eq_self]
          intro y hy
          have hya : y ≠ a := fun e => ha (e ▸ hl.subset hy)
          simp [hya]
        simp only [List.take_succ_cons, List.filter_cons, ne_eq, not_true_eq_false, decide_false,
          Bool.false_eq_true, if_false]
        rw [keep rest (List.Sublist.refl _), keep (rest.take bound) (List.take_sublist _ _),
          List.take_take, Nat.min_self]
      · cases bound with
        | zero => simp
        | succ k =>
            have hrec := ih hrest k
            simp only [List.take_succ_cons, List.filter_cons, ne_eq, hax, not_false_eq_true, decide_true,
              if_true]
            simp only [ne_eq] at hrec
            rw [hrec]

/-- The most recent names after one more use depend on the most recent ones before it only. -/
theorem take_use {names : List String} (h : names.Nodup) (x : String) (bound : Nat) :
    (use names x).take bound = (use (names.take bound) x).take bound := by
  cases bound with
  | zero => simp
  | succ k =>
      rw [use, use, List.take_succ_cons, List.take_succ_cons, take_filter_ne h x k]

theorem recent_concat (bound : Nat) (names : List String) (x : String) :
    recent bound (names ++ [x]) = (use (recent bound names) x).take bound := by
  rw [recent, order_concat, take_use (nodup_order names), recent]

/-! ## Misses -/

theorem misses_append (bound : Nat) (past names more : List String) :
    misses bound past (names ++ more) = misses bound past names + misses bound (past ++ names) more := by
  induction names generalizing past with
  | nil => simp [misses]
  | cons n rest ih =>
      rw [List.cons_append, misses, misses, ih (past ++ [n]), List.append_assoc, List.singleton_append]
      omega

theorem misses_concat (bound : Nat) (names : List String) (x : String) :
    misses bound [] (names ++ [x])
      = misses bound [] names + (if x ∈ recent bound names then 0 else 1) := by
  rw [misses_append]
  simp [misses]

end SampleProfiler.Recency
