import SampleProfiler.Decimal.Binary

/-!
# `SampleProfiler.Decimal.Fixed` — a set number of decimal places

The exact binary value is rounded once, to the nearest multiple of the last place; a value half way
between two of them goes to the even one. Infinities and NaN have no places and are named.

## Contents
- **`roundEven`** — the quotient of two natural numbers, rounded to nearest with ties to even.
- **`placed`** — the digits of a whole number with a point set before the last `places` of them.
- **`fixed`** — a floating-point number with a set number of places.
-/

namespace SampleProfiler.Decimal

/-- The quotient `num / den` rounded to the nearest natural number; a tie goes to the even neighbour. -/
def roundEven (num den : Nat) : Nat :=
  let below := num / den
  let rest := num % den
  if 2 * rest < den then below
  else if den < 2 * rest then below + 1
  else below + below % 2

/-- On an exact tie the result is even. -/
theorem roundEven_tie {num den : Nat} (h : 2 * (num % den) = den) : roundEven num den % 2 = 0 := by
  simp only [roundEven, h, Nat.lt_irrefl, if_false]
  omega

/-- Away from a tie the result is the closer neighbour. -/
theorem roundEven_of_lt {num den : Nat} (h : 2 * (num % den) < den) : roundEven num den = num / den := by
  simp [roundEven, h]

/-- The digits of `n`, with at least one of them before a point that leaves `places` behind it. -/
def placed (n places : Nat) : String :=
  let ds := digits n
  let ds := List.replicate (places + 1 - ds.length) '0' ++ ds
  let whole := String.ofList (ds.take (ds.length - places))
  if places = 0 then whole else whole ++ "." ++ String.ofList (ds.drop (ds.length - places))

/-- The text of `x` with exactly `places` decimal places. -/
def fixed (places : Nat) (x : Float) : String :=
  match exact x with
  | .nan => "NaN"
  | .infinite negative => if negative then "-inf" else "inf"
  | .finite negative mantissa exponent =>
    let (num, den) := scaled mantissa exponent
    (if negative then "-" else "") ++ placed (roundEven (num * tenTo places) den) places

end SampleProfiler.Decimal
