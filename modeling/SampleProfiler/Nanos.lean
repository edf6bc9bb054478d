/-!
# `SampleProfiler.Nanos` — durations

Two views of a duration. `Nanos` is the signed 64-bit count of nanoseconds that statistics are kept in;
its addition saturates at both ends instead of wrapping. `Span` is an unsigned length of time as a clock
reports it, in whole seconds and the nanoseconds left over.

## Contents
- **Signed nanoseconds.** `Nanos`, `Nanos.clamp` (the nearest representable count), saturating `+`,
  the order with `min` and `max`, and `Nanos.share` (a total divided over a number of calls).
- **Spans.** `Span`, its length `Span.nanoseconds`, and the two conversions `Nanos.ofSpan` and
  `Nanos.toSpan`, which are exact wherever the other view can hold the value.
-/

namespace SampleProfiler

/-! ## Signed nanoseconds -/

/-- A signed count of nanoseconds that fits in 64 bits. A negative one comes from a clock that ran
    backwards at the call site. -/
structure Nanos where
  toInt : Int
  least_le : -9223372036854775808 ≤ toInt
  le_greatest : toInt ≤ 9223372036854775807
deriving DecidableEq

namespace Nanos

/-- The least count, `-2^63`. -/
def least : Nanos := ⟨-9223372036854775808, by decide, by decide⟩

/-- The greatest count, `2^63 - 1`, about 292 years. -/
def greatest : Nanos := ⟨9223372036854775807, by decide, by decide⟩

/-- No time at all. -/
def zero : Nanos := ⟨0, by decide, by decide⟩

instance : Inhabited Nanos := ⟨zero⟩

/-- The representable count nearest to `n`. -/
def clamp (n : Int) : Nanos :=
  ⟨max (-9223372036854775808) (min n 9223372036854775807), by omega, by omega⟩

/-- Two counts with the same value are the same count. -/
@[ext] theorem ext {a b : Nanos} (h : a.toInt = b.toInt) : a = b := by
  cases a
  cases b
  simp only at h
  subst h
  rfl

/-- Clamping keeps a value that is representable already. -/
theorem toInt_clamp {n : Int} (lo : -9223372036854775808 ≤ n) (hi : n ≤ 9223372036854775807) :
    (clamp n).toInt = n := by
  simp only [clamp]
  omega

/-- Sums stop at the ends of the range. -/
instance : Add Nanos := ⟨fun a b => clamp (a.toInt + b.toInt)⟩

instance : LE Nanos := ⟨fun a b => a.toInt ≤ b.toInt⟩

instance : LT Nanos := ⟨fun a b => a.toInt < b.toInt⟩

instance (a b : Nanos) : Decidable (a ≤ b) := inferInstanceAs (Decidable (a.toInt ≤ b.toInt))

instance (a b : Nanos) : Decidable (a < b) := inferInstanceAs (Decidable (a.toInt < b.toInt))

instance : Min Nanos := ⟨fun a b => if a ≤ b then a else b⟩

instance : Max Nanos := ⟨fun a b => if a ≤ b then b else a⟩

theorem le_def {a b : Nanos} : a ≤ b ↔ a.toInt ≤ b.toInt := Iff.rfl

theorem add_def (a b : Nanos) : a + b = clamp (a.toInt + b.toInt) := rfl

/-- The share of `total` that falls on one of `count` calls, rounded toward zero; zero when there are no
    calls. -/
def share (total : Nanos) (count : Nat) : Nanos :=
  clamp (total.toInt.tdiv count)

end Nanos

/-! ## Spans -/

/-- A length of time as a clock reports it. -/
structure Span where
  seconds : Nat
  nanos : Nat
deriving DecidableEq, Inhabited

namespace Span

/-- Nanoseconds in a second. -/
def perSecond : Nat := 1000000000

/-- The whole length in nanoseconds. -/
def nanoseconds (s : Span) : Nat :=
  s.seconds * perSecond + s.nanos

/-- The span of `n` nanoseconds, with fewer than a second of them left over. -/
def ofNanoseconds (n : Nat) : Span :=
  ⟨n / perSecond, n % perSecond⟩

theorem nanoseconds_ofNanoseconds (n : Nat) : (ofNanoseconds n).nanoseconds = n := by
  simp only [nanoseconds, ofNanoseconds, perSecond]
  omega

end Span

/-- A span in signed nanoseconds; spans beyond 292 years count as the greatest. -/
def Nanos.ofSpan (s : Span) : Nanos :=
  clamp s.nanoseconds

/-- A count as a span; a negative count is an empty span. -/
def Nanos.toSpan (n : Nanos) : Span :=
  Span.ofNanoseconds n.toInt.toNat

end SampleProfiler
