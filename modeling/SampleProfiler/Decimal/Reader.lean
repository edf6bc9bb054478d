/-!
# `SampleProfiler.Decimal.Reader` — numbers from decimal text

Readers for the two kinds of decimal text that settings and command lines hold. A whole number is a run of
digits with an optional plus sign and has to fit in 64 bits. A floating-point number has the usual
grammar and is the binary64 number nearest to the decimal that is written.

## Contents
- **Whole numbers.** `WholeFault` and `whole?`.
- **Floating-point numbers.** `nearest` (a decimal rounded once) and `real?`.
-/

namespace SampleProfiler.Decimal

/-- The value of a decimal digit. -/
def digitValue (c : Char) : Nat :=
  c.toNat - '0'.toNat

/-- The number that a run of decimal digits stands for. -/
def ofDigits (ds : List Char) : Nat :=
  ds.foldl (fun n c => 10 * n + digitValue c) 0

/-! ## Whole numbers -/

/-- Why a text is no whole number. -/
inductive WholeFault where
  | empty
  | invalidDigit
  | tooLarge
deriving DecidableEq

/-- The text that the fault is reported with. -/
def WholeFault.message : WholeFault → String
  | empty => "cannot parse integer from empty string"
  | invalidDigit => "invalid digit found in string"
  | tooLarge => "number too large to fit in target type"

/-- One past the greatest whole number that fits in 64 bits. -/
def wholeLimit : Nat := 18446744073709551616

/-- Reads digits from left to right on top of `n`. The first character that is no digit, or the first
    digit that takes the number past 64 bits, decides the fault. -/
def wholeFrom (n : Nat) : List Char → Except WholeFault Nat
  | [] => .ok n
  | c :: rest =>
    if !c.isDigit then .error .invalidDigit
    else
      let next := 10 * n + digitValue c
      if wholeLimit ≤ next then .error .tooLarge else wholeFrom next rest

/-- Reads a whole number of 64 bits. -/
def whole? (text : String) : Except WholeFault Nat :=
  match text.toList with
  | [] => .error .empty
  | ['+'] => .error .invalidDigit
  | '+' :: rest => wholeFrom 0 rest
  | cs => wholeFrom 0 cs

/-! ## Floating-point numbers -/

/-- The binary64 number nearest to `n · 10^exponent`. Decimals beyond the range are infinite, and those
    below half the least positive number are zero. -/
def nearest (n : Nat) (exponent : Int) : Float :=
  let top := (Nat.toDigits 10 n).length + exponent
  if n = 0 || top < -330 then 0.0
  else if 310 < top then 1.0 / 0.0
  else Float.ofScientific n (exponent < 0) exponent.natAbs

/-- Why a text is no floating-point number. -/
inductive RealFault where
  | empty
  | invalid
deriving DecidableEq

/-- The text that the fault is reported with. -/
def RealFault.message : RealFault → String
  | empty => "cannot parse float from empty string"
  | invalid => "invalid float literal"

/-- Reads an exponent part: nothing, or a mark, an optional sign, and at least one digit. -/
def exponentPart? : List Char → Option Int
  | [] => some 0
  | mark :: rest =>
    if mark == 'e' || mark == 'E' then
      let (negative, ds) :=
        match rest with
        | '-' :: ds => (true, ds)
        | '+' :: ds => (false, ds)
        | ds => (false, ds)
      if ds.isEmpty || !ds.all Char.isDigit then none
      else some (if negative then -(ofDigits ds : Int) else ofDigits ds)
    else none

/-- Reads an unsigned decimal: digits with an optional point among or around them, at least one digit in
    all, and an optional exponent. -/
def decimal? (cs : List Char) : Option Float :=
  let whole := cs.takeWhile Char.isDigit
  let (places, rest) :=
    match cs.dropWhile Char.isDigit with
    | '.' :: rest => (rest.takeWhile Char.isDigit, rest.dropWhile Char.isDigit)
    | rest => ([], rest)
  if whole.isEmpty && places.isEmpty then none
  else (exponentPart? rest).map fun e => nearest (ofDigits (whole ++ places)) (e - places.length)

/-- Reads an unsigned floating-point number: a decimal, or the name of an infinity or of NaN in any case. -/
def unsignedReal? (cs : List Char) : Option Float :=
  let name := String.ofList (cs.map Char.toLower)
  if name == "inf" || name == "infinity" then some (1.0 / 0.0)
  else if name == "nan" then some (0.0 / 0.0)
  else decimal? cs

/-- Reads a floating-point number with an optional sign. -/
def real? (text : String) : Except RealFault Float :=
  let value :=
    match text.toList with
    | '-' :: rest => (unsignedReal? rest).map fun x => -x
    | '+' :: rest => unsignedReal? rest
    | cs => unsignedReal? cs
  if text.isEmpty then .error .empty
  else match value with
    | some x => .ok x
    | none => .error .invalid

end SampleProfiler.Decimal
