import SampleProfiler.Decimal.Pointed
import SampleProfiler.Text.Quoted

/-!
# `SampleProfiler.Datum` — values whose shape is not known yet

Settings files and stored statistics arrive as untyped data. `Datum` is such a value, and `Mismatch` says
why one does not fit where a typed value is expected.

## Contents
- **`Datum`** and `Datum.described`, its description in a message.
- **`Mismatch`** and `Mismatch.message`.
-/

namespace SampleProfiler

/-- An untyped value. The entries of a map are in the order in which they were written. -/
inductive Datum where
  | null
  | truth (value : Bool)
  | integer (value : Int)
  | real (value : Float)
  | text (value : String)
  | list (elements : List Datum)
  | map (entries : List (String × Datum))
deriving Inhabited

/-- How a message names the value that was found; `format` says how it writes floating-point numbers. -/
def Datum.described (format : Decimal.Format) : Datum → String
  | .null => "null"
  | .truth value => "boolean `" ++ (if value then "true" else "false") ++ "`"
  | .integer value => "integer `" ++ toString value ++ "`"
  | .real value => "floating point `" ++ Decimal.pointed format value ++ "`"
  | .text value => "string " ++ Text.quoted value
  | .list _ => "sequence"
  | .map _ => "map"

/-- Why a value does not fit. -/
inductive Mismatch where
  /-- A value of another type was found. -/
  | wrongType (found : Datum) (expected : String)
  /-- An integer was found that is out of range. -/
  | outOfRange (found : Int) (expected : String)
  /-- A record lacks a field. -/
  | missing (field : String)
  /-- A record written as a list has too few elements. -/
  | tooShort (given : Nat) (title : String) (fields : Nat)
  /-- A record written as a list has too many elements. -/
  | tooLong (given : Nat)

/-- The text that a mismatch is reported with; `format` says how it writes floating-point numbers. -/
def Mismatch.message (format : Decimal.Format) : Mismatch → String
  | wrongType found expected => "invalid type: " ++ found.described format ++ ", expected " ++ expected
  | outOfRange found expected => "invalid value: integer `" ++ toString found ++ "`, expected " ++ expected
  | missing field => "missing field `" ++ field ++ "`"
  | tooShort given title fields =>
    "invalid length " ++ toString given ++ ", expected struct " ++ title ++ " with "
      ++ toString fields ++ " elements"
  | tooLong given => "invalid length " ++ toString given ++ ", expected fewer elements in array"

end SampleProfiler
