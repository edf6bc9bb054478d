import SampleProfiler.Sample

/-!
# `SampleProfiler.Recency` — the most recent names of a sequence

What a map of bounded size should hold under least-recently-used eviction, read off the sequence of uses
alone: there are no stamps, no clock and no map here.

## Contents
- **Order of use.** `order`, the distinct names with the most recent one first, and `recent`, the first
  `bound` of them. `mem_order` and `nodup_order` say that every used name stands in it exactly once.
- **Misses.** `misses`, the number of uses whose name was not recent.
- **Stretches.** `stretch`, the samples of a name since it was last out of reach.
-/

namespace SampleProfiler.Recency

/-! ## Order of use -/

/-- Moves a used name to the front. -/
def use (order : List String) (name : String) : List String :=
  name :: order.filter (· ≠ name)

/-- The distinct names of a sequence, the most recently used one first. -/
def order (names : List String) : List String :=
  names.foldl use []

/-- The `bound` most recently used names. -/
def recent (bound : Nat) (names : List String) : List String :=
  (order names).take bound

theorem mem_use {order : List String} {name x : String} : x ∈ use order name ↔ x = name ∨ x ∈ order := by
  simp only [use, List.mem_cons, List.mem_filter, decide_eq_true_eq]
  constructor
  · rintro (h | ⟨h, _⟩)
    · exact Or.inl h
    · exact Or.inr h
  · rintro (h | h)
    · exact Or.inl h
    · by_cases hx : x = name
      · exact Or.inl hx
      · exact Or.inr ⟨h, hx⟩

theorem nodup_use {order : List String} {name : String} (h : order.Nodup) : (use order name).Nodup := by
  refine List.nodup_cons.mpr ⟨?_, h.filter _⟩
  simp [List.mem_filter]

/-- One more use is one more step. -/
theorem order_concat (names : List String) (name : String) :
    order (names ++ [name]) = use (order names) name := by
  simp [order]

/-- The order of use lists the names of the sequence and no others. -/
theorem mem_order {names : List String} {x : String} : x ∈ order names ↔ x ∈ names := by
  have general : ∀ start : List String, x ∈ names.foldl use start ↔ x ∈ names ∨ x ∈ start := by
    induction names with
    | nil =>
      intro start
      simp
    | cons n rest ih =>
      intro start
      rw [List.foldl_cons, ih (use start n), mem_use, List.mem_cons]
      constructor
      · rintro (h | h | h)
        · exact Or.inl (Or.inr h)
        · exact Or.inl (Or.inl h)
        · exact Or.inr h
      · rintro ((h | h) | h)
        · exact Or.inr (Or.inl h)
        · exact Or.inl h
        · exact Or.inr (Or.inr h)
  rw [order, general []]
  simp

/-- No name stands in the order of use twice. -/
theorem nodup_order (names : List String) : (order names).Nodup := by
  have general : ∀ start : List String, start.Nodup → (names.foldl use start).Nodup := by
    induction names with
    | nil =>
      intro start h
      exact h
    | cons n rest ih =>
      intro start h
      exact ih (use start n) (nodup_use h)
  exact general [] List.nodup_nil

/-! ## Misses -/

/-- The number of uses in a sequence whose name is not among the `bound` most recent ones of all the uses
    before it, `past` included. -/
def misses (bound : Nat) (past : List String) : List String → Nat
  | [] => 0
  | n :: rest => (if n ∈ recent bound past then 0 else 1) + misses bound (past ++ [n]) rest

/-! ## Stretches -/

/-- The samples of a name that were kept so far, and the distinct other names since the last of them. -/
structure Stretch where
  kept : List Sample := []
  others : List String := []

/-- Goes on by one sample. A name that comes back after `bound` or more others starts anew. -/
def Stretch.step (bound : Nat) (name : String) (t : Stretch) (s : Sample) : Stretch :=
  if s.name = name then
    { kept := if t.others.length < bound then t.kept ++ [s] else [s], others := [] }
  else if s.name ∈ t.others then t
  else { t with others := s.name :: t.others }

/-- The samples of a name from the earliest one on after which fewer than `bound` distinct other names lie
    between any two consecutive ones. -/
def stretch (bound : Nat) (name : String) (samples : List Sample) : List Sample :=
  (samples.foldl (Stretch.step bound name) {}).kept

end SampleProfiler.Recency
