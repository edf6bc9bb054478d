/-!
# `SampleProfiler.Decimal.Binary` — the exact value of a binary64 number

Texts of floating-point numbers are decided in exact arithmetic. This module takes a `Float` apart into
its sign, mantissa and exponent, so that the other modules of this folder work on natural numbers only.

## Contents
- **`twoTo`** and **`tenTo`** — the powers that binary and decimal places stand for.
- **`Exact`** — not a number, an infinity, or the rational `±mantissa · 2^exponent`.
- **`exact`** — reads it off the 64 bits; every subnormal and normal number is covered.
- **`scaled`** — a nonnegative finite value as a quotient of two natural numbers.
-/

namespace SampleProfiler.Decimal

/-- The `n`-th power of two. -/
def twoTo (n : Nat) : Nat :=
  Nat.pow 2 n

/-- The `n`-th power of ten. -/
def tenTo (n : Nat) : Nat :=
  Nat.pow 10 n

/-- A binary64 number, taken apart. -/
inductive Exact where
  | nan
  | infinite (negative : Bool)
  | finite (negative : Bool) (mantissa : Nat) (exponent : Int)
deriving DecidableEq

/-- The exact value that 64 bits stand for: one sign bit, eleven bits of exponent, 52 of fraction. An
    exponent field of zero has no implicit leading bit. -/
def exactOfBits (bits : Nat) : Exact :=
  let negative := bits / twoTo 63 == 1
  let field : Nat := bits / twoTo 52 % twoTo 11
  let fraction : Nat := bits % twoTo 52
  if field = 2047 then
    if fraction = 0 then .infinite negative else .nan
  else if field = 0 then
    .finite negative fraction (-1074)
  else
    .finite negative (twoTo 52 + fraction) (field - 1075)

/-- The exact value of a floating-point number. -/
def exact (x : Float) : Exact :=
  exactOfBits x.toBits.toNat

/-- The quotient `(numerator, denominator)` that equals `mantissa · 2^exponent`. -/
def scaled (mantissa : Nat) (exponent : Int) : Nat × Nat :=
  (mantissa * twoTo exponent.toNat, twoTo (-exponent).toNat)

/-- The decimal digits of `n`, most significant first. -/
def digits (n : Nat) : List Char :=
  Nat.toDigits 10 n

end SampleProfiler.Decimal
