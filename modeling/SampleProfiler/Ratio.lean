/-!
# `SampleProfiler.Ratio` — quotients of counts

Rates are quotients of counts, computed in binary64. Every count is rounded to binary64 first, then the
operations round once each, in the order in which they are written here.
-/

namespace SampleProfiler.Ratio

/-- The quotient of `part` and `whole`. Nothing out of nothing is not a number. -/
def quotient (part whole : Nat) : Float :=
  Float.ofNat part / Float.ofNat whole

/-- The share of `part` in `whole`, in percent. -/
def percent (part whole : Nat) : Float :=
  100.0 * Float.ofNat part / Float.ofNat whole

end SampleProfiler.Ratio
