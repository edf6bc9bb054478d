import SampleProfiler.Decimal.Binary

/-!
# `SampleProfiler.Decimal.Shortest` — the fewest digits that read back

A binary64 number stands for every real that rounds to it. Its shortest text is the decimal with the
fewest digits among those reals, and of two such decimals the one nearer to the exact value; a format says
which of two equally near ones is taken. The text of this module is always positional: it takes the upper
one and never writes an exponent.

## Contents
- **`Interval`** — the reals that round to a number, as exact quotients over one denominator.
- **`Tie`** — which of two equally near decimals is taken.
- **`select`** — tries one digit, two digits, … on the grid of that length and takes the first hit.
- **`positional`** — writes `digits · 10^exponent` without an exponent.
- **`shortest`** — the text of a floating-point number.
-/

namespace SampleProfiler.Decimal

/-- The reals `low … high` that round to `value`, all three over the denominator `den`. The two ends
    belong to the interval when `closed`. -/
structure Interval where
  low : Nat
  value : Nat
  high : Nat
  den : Nat
  closed : Bool

/-- The reals that round to `mantissa · 2^exponent`: half the gap to either neighbour. The gap below a
    power of two is half as wide, except at the bottom of the range, and a tie goes to the even mantissa. -/
def Interval.of (mantissa : Nat) (exponent : Int) : Interval :=
  let (unit, den) := scaled 1 (exponent - 2)
  let below := if mantissa = twoTo 52 ∧ -1074 < exponent then 1 else 2
  { low := (4 * mantissa - below) * unit
    value := 4 * mantissa * unit
    high := (4 * mantissa + 2) * unit
    den := den
    closed := mantissa % 2 = 0 }

/-- The interval measured in units of `10^exponent`. -/
def Interval.inUnits (i : Interval) (exponent : Int) : Interval :=
  let up := tenTo (-exponent).toNat
  { i with
    low := i.low * up
    value := i.value * up
    high := i.high * up
    den := i.den * tenTo exponent.toNat }

/-- True if the whole number `n` of units lies in the interval. -/
def Interval.contains (i : Interval) (n : Nat) : Bool :=
  if i.closed then i.low ≤ n * i.den && n * i.den ≤ i.high
  else i.low < n * i.den && n * i.den < i.high

/-- Which of two equally near neighbours is taken: the upper one, or the even one. -/
inductive Tie where
  | up
  | even
deriving DecidableEq

/-- True if of the neighbours `below` and `below + 1` the tie is decided for the lower one. -/
def Tie.takesLower (tie : Tie) (below : Nat) : Bool :=
  match tie with
  | up => false
  | even => below % 2 = 0

/-- The whole number of units in the interval that is nearest to its value, if one of the value's two
    neighbours lies in it. -/
def Interval.nearest? (i : Interval) (tie : Tie) : Option Nat :=
  let below := i.value / i.den
  match i.contains below, i.contains (below + 1) with
  | false, false => none
  | true, false => some below
  | false, true => some (below + 1)
  | true, true =>
    let past := 2 * (i.value % i.den)
    if past < i.den || (past == i.den && tie.takesLower below) then some below else some (below + 1)

/-- The exponent of the leading decimal digit of a positive quotient. -/
def leading (num den : Nat) : Int :=
  if den ≤ num then
    (digits (num / den)).length - 1
  else
    -((digits ((den + num - 1) / num - 1)).length : Int)

/-- The first hit on the grids `10^exponent`, `10^(exponent - 1)`, … -/
def select (i : Interval) (tie : Tie) : Nat → Int → Nat × Int
  | 0, exponent => ((i.inUnits exponent).value / (i.inUnits exponent).den, exponent)
  | fuel + 1, exponent =>
    match (i.inUnits exponent).nearest? tie with
    | some n => (n, exponent)
    | none => select i tie fuel (exponent - 1)

/-- The shortest decimal `digits · 10^exponent` that rounds to a positive number. Seventeen digits are
    always enough. -/
def shortestDigits (tie : Tie) (mantissa : Nat) (exponent : Int) : Nat × Int :=
  let i := Interval.of mantissa exponent
  select i tie 17 (leading i.value i.den)

/-- Drops the trailing zeros of a list of digits, and counts them. -/
def stripZeros (ds : List Char) : List Char × Nat :=
  let kept := (ds.reverse.dropWhile (· == '0')).reverse
  (kept, ds.length - kept.length)

/-- The number `n · 10^exponent` in positional notation, with no more digits than it needs. -/
def positional (n : Nat) (exponent : Int) : String :=
  let (ds, dropped) := stripZeros (digits n)
  let exponent := exponent + dropped
  if 0 ≤ exponent then
    String.ofList (ds ++ List.replicate exponent.toNat '0')
  else
    let places := (-exponent).toNat
    if places < ds.length then
      String.ofList (ds.take (ds.length - places)) ++ "." ++ String.ofList (ds.drop (ds.length - places))
    else
      "0." ++ String.ofList (List.replicate (places - ds.length) '0' ++ ds)

/-- The shortest text that reads back as `x`. Zero keeps its sign. -/
def shortest (x : Float) : String :=
  match exact x with
  | .nan => "NaN"
  | .infinite negative => if negative then "-inf" else "inf"
  | .finite negative mantissa exponent =>
    let magnitude :=
      if mantissa = 0 then "0"
      else
        let (n, e) := shortestDigits .up mantissa exponent
        positional n e
    (if negative then "-" else "") ++ magnitude

end SampleProfiler.Decimal
