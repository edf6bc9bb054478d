import SampleProfiler.Decimal.Shortest

/-!
# `SampleProfiler.Decimal.Pointed` — numbers that cannot be taken for integers

Diagnostics write a floating-point number with a point in it or with an exponent, so that it differs from
an integer of the same value. There are two formats, and both take the fewest digits that read back.

## Contents
- **`Format`** — positional at any size, or scientific for the very large and the very small.
- **`scientific`** — writes `digits · 10^exponent` with one digit before the point and an exponent.
- **`pointed`** — the text of a floating-point number in a format.
-/

namespace SampleProfiler.Decimal

/-- A way to write a floating-point number. -/
inductive Format where
  /-- No exponent is ever written. Of two equally near decimals it takes the upper one. -/
  | positional
  /-- An exponent is written from `10^16` on and below `10^-5`. Of two equally near decimals it takes the
      even one. -/
  | scientific
deriving DecidableEq

/-- Which of two equally near decimals a format takes. -/
def Format.tie : Format → Tie
  | positional => .up
  | scientific => .even

/-- True if a format writes no exponent after a leading digit that counts `10^lead`. -/
def Format.isPositional (format : Format) (lead : Int) : Bool :=
  match format with
  | positional => true
  | scientific => -5 ≤ lead && lead ≤ 15

/-- The exponent of the leading digit of `n · 10^exponent`. -/
def leadOf (n : Nat) (exponent : Int) : Int :=
  exponent + (digits n).length - 1

/-- The number `n · 10^exponent` with one digit before the point and a signed exponent. -/
def scientific (n : Nat) (exponent : Int) : String :=
  let (ds, _) := stripZeros (digits n)
  let lead := leadOf n exponent
  let places := if ds.length ≤ 1 then [] else '.' :: ds.drop 1
  String.ofList (ds.take 1 ++ places) ++ (if lead < 0 then "e-" else "e+") ++ toString lead.natAbs

/-- A positional text with at least one decimal place. -/
def withPlace (text : String) : String :=
  if text.contains '.' then text else text ++ ".0"

/-- The shortest text of `x` in a format, with a point or an exponent. Zero keeps its sign. -/
def pointed (format : Format) (x : Float) : String :=
  match exact x with
  | .finite negative mantissa exponent =>
    let magnitude :=
      if mantissa = 0 then "0.0"
      else
        let (n, e) := shortestDigits format.tie mantissa exponent
        if format.isPositional (leadOf n e) then withPlace (positional n e) else scientific n e
    (if negative then "-" else "") ++ magnitude
  | _ => shortest x

end SampleProfiler.Decimal
