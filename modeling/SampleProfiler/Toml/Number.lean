import SampleProfiler.Decimal.Reader
import SampleProfiler.Toml.Lexical
import SampleProfiler.Toml.Node

/-!
# `SampleProfiler.Toml.Number` — numbers, dates and times

Integers are written in decimal with an optional sign, or without one in base sixteen, eight or two, and
have to fit in 64 bits with a sign. Underscores may stand between two digits. A real number has a fraction
or an exponent and must not be too large to be finite when it is positive. Dates and times are checked
against the calendar and the clock; a leap second is allowed.

## Contents
- **Digits.** `digitRun?`, digits of any base with underscores between them.
- **Numbers.** `integerOf?`, `based?`, `realTail?` and `number?`.
- **Dates and times.** `date?`, `time?`, `offset?` and `moment?`.
-/

namespace SampleProfiler.Toml

/-! ## Digits -/

/-- The rest of a run of digits, in reverse on top of `read`. An underscore has to stand between digits. -/
def digitTail? (isDigit : Char → Bool) (read : List Char) : Reader (List Char)
  | [] => some (read.reverse, [])
  | '_' :: c :: rest => if isDigit c then digitTail? isDigit (c :: read) rest else none
  | c :: rest =>
    if isDigit c then digitTail? isDigit (c :: read) rest
    else if c == '_' then none
    else some (read.reverse, c :: rest)

/-- A run of at least one digit, without its underscores. -/
def digitRun? (isDigit : Char → Bool) : Reader (List Char)
  | [] => none
  | c :: rest => if isDigit c then digitTail? isDigit [c] rest else none

/-- The digits of a decimal integer: a lone zero, or a run that does not start with one. -/
def decimalRun? : Reader (List Char)
  | '0' :: rest => some (['0'], rest)
  | cs => digitRun? Char.isDigit cs

/-! ## Numbers -/

/-- An integer, if it fits in 64 bits with a sign. -/
def integerOf? (negative : Bool) (n : Nat) : Option Node :=
  if negative then
    if n ≤ 9223372036854775808 then some (.integer (-(n : Int))) else none
  else if n < 9223372036854775808 then some (.integer n) else none

/-- An integer in another base, after its mark. -/
def based? (base : Nat) (isDigit : Char → Bool) : Reader Node := fun cs =>
  match digitRun? isDigit cs with
  | none => none
  | some (ds, rest) =>
    (integerOf? false (ds.foldl (fun n c => base * n + hexValue c) 0)).map fun node => (node, rest)

/-- A real number, if it is not a positive one beyond the finite range. -/
def realOf? (negative : Bool) (ds : List Char) (exponent : Int) : Option Node :=
  let x := Decimal.nearest (Decimal.ofDigits ds) exponent
  if negative then some (.real (-x)) else if x == 1.0 / 0.0 then none else some (.real x)

/-- The exponent of a real number, after its mark. -/
def exponent? : Reader Int := fun cs =>
  let (negative, cs) :=
    match cs with
    | '-' :: rest => (true, rest)
    | '+' :: rest => (false, rest)
    | cs => (false, cs)
  (digitRun? Char.isDigit cs).map fun (ds, rest) =>
    (if negative then -(Decimal.ofDigits ds : Int) else Decimal.ofDigits ds, rest)

/-- What follows the leading digits `ds` of a decimal number: a fraction, an exponent, both, or neither. -/
def numberTail? (negative : Bool) (ds : List Char) : Reader Node
  | '.' :: rest =>
    match digitRun? Char.isDigit rest with
    | none => none
    | some (places, rest) =>
      match rest with
      | mark :: tail =>
        if mark == 'e' || mark == 'E' then
          match exponent? tail with
          | none => none
          | some (e, rest) =>
            (realOf? negative (ds ++ places) (e - places.length)).map fun node => (node, rest)
        else (realOf? negative (ds ++ places) (-(places.length : Int))).map fun node => (node, rest)
      | [] => (realOf? negative (ds ++ places) (-(places.length : Int))).map fun node => (node, rest)
  | mark :: rest =>
    if mark == 'e' || mark == 'E' then
      match exponent? rest with
      | none => none
      | some (e, rest) => (realOf? negative ds e).map fun node => (node, rest)
    else (integerOf? negative (Decimal.ofDigits ds)).map fun node => (node, mark :: rest)
  | [] => (integerOf? negative (Decimal.ofDigits ds)).map fun node => (node, [])

/-- A decimal number, an infinity or NaN, after its sign. -/
def unsignedNumber? (negative : Bool) : Reader Node
  | 'i' :: 'n' :: 'f' :: rest => some (.real (if negative then -1.0 / 0.0 else 1.0 / 0.0), rest)
  | 'n' :: 'a' :: 'n' :: rest => some (.real (0.0 / 0.0), rest)
  | cs =>
    match decimalRun? cs with
    | none => none
    | some (ds, rest) => numberTail? negative ds rest

/-- A number in any notation. -/
def number? : Reader Node
  | '0' :: 'x' :: rest => based? 16 isHexDigit rest
  | '0' :: 'o' :: rest => based? 8 (fun c => '0' ≤ c && c ≤ '7') rest
  | '0' :: 'b' :: rest => based? 2 (fun c => c == '0' || c == '1') rest
  | '-' :: rest => unsignedNumber? true rest
  | '+' :: rest => unsignedNumber? false rest
  | cs => unsignedNumber? false cs

/-! ## Dates and times -/

/-- Two digits whose value lies between `low` and `high`. -/
def twoDigits? (low high : Nat) : Reader Nat
  | a :: b :: rest =>
    let n := Decimal.ofDigits [a, b]
    if a.isDigit && b.isDigit && low ≤ n && n ≤ high then some (n, rest) else none
  | _ => none

/-- True for the years that have a 29th of February. -/
def isLeapYear (year : Nat) : Bool :=
  year % 4 == 0 && (year % 100 != 0 || year % 400 == 0)

/-- The number of days in a month. -/
def daysIn (year month : Nat) : Nat :=
  if month = 2 then (if isLeapYear year then 29 else 28)
  else if month = 4 ∨ month = 6 ∨ month = 9 ∨ month = 11 then 30
  else 31

/-- What follows a date. -/
def date? : List Char → Option (List Char)
  | a :: b :: c :: d :: '-' :: rest =>
    if [a, b, c, d].all Char.isDigit then
      match twoDigits? 1 12 rest with
      | some (month, '-' :: rest) =>
        (twoDigits? 1 (daysIn (Decimal.ofDigits [a, b, c, d]) month) rest).map Prod.snd
      | _ => none
    else none
  | _ => none

/-- What follows a time of day, with its fraction of a second. -/
def time? (cs : List Char) : Option (List Char) :=
  match twoDigits? 0 23 cs with
  | some (_, ':' :: rest) =>
    match twoDigits? 0 59 rest with
    | some (_, ':' :: rest) =>
      match twoDigits? 0 60 rest with
      | some (_, '.' :: places) =>
        if (places.takeWhile Char.isDigit).isEmpty then some ('.' :: places)
        else some (places.dropWhile Char.isDigit)
      | some (_, rest) => some rest
      | none => none
    | _ => none
  | _ => none

/-- What follows an offset from universal time. -/
def offset? : List Char → Option (List Char)
  | 'Z' :: rest => some rest
  | 'z' :: rest => some rest
  | c :: rest =>
    if c == '+' || c == '-' then
      match twoDigits? 0 23 rest with
      | some (_, ':' :: rest) => (twoDigits? 0 59 rest).map Prod.snd
      | _ => none
    else none
  | [] => none

/-- What follows the time of day after a date, with its offset, or the date alone if none is there. -/
def afterDate (cs : List Char) : List Char :=
  match cs with
  | c :: rest =>
    if c == 'T' || c == 't' || c == ' ' then
      match time? rest with
      | some rest => (offset? rest).getD rest
      | none => cs
    else cs
  | [] => []

/-- A date, a time of day, or a date with a time. -/
def moment? : Reader Node := fun cs =>
  let rest? :=
    match date? cs with
    | some rest => some (afterDate rest)
    | none => time? cs
  rest?.map fun rest => (.moment (String.ofList (cs.take (cs.length - rest.length))), rest)

end SampleProfiler.Toml
