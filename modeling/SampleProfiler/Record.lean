import SampleProfiler.Datum
import SampleProfiler.Nanos

/-!
# `SampleProfiler.Record` — typed records from untyped data

A record is described by its fields, each with a name and a kind. Reading one checks every field that is
present in the order in which the data hold it, ignores fields that the record does not have, and then
looks for the first field that is absent.

## Contents
- **Kinds.** `Kind`, the type `Kind.Value` of a field of that kind, and `Kind.read`.
- **Rows.** `Row`, the values of all fields, and `Draft`, the values that were found so far.
- **Reading.** `Draft.fill` (from a map), `Row.ofList` (from a list), and `Shape.read` (from either).
-/

namespace SampleProfiler

/-! ## Kinds -/

/-- What a field holds: text, an unsigned 64-bit count, the unsigned size of something in memory, or a
    signed duration. Counts and sizes have the same range and differ in name only. -/
inductive Kind where
  | text
  | count
  | size
  | duration
deriving DecidableEq

namespace Kind

/-- The type of a field's value. -/
def Value : Kind → Type
  | text => String
  | count => Nat
  | size => Nat
  | duration => Nanos

/-- How a message names the kind. -/
def expected : Kind → String
  | text => "a string"
  | count => "u64"
  | size => "usize"
  | duration => "i64"

/-- One past the greatest count. -/
def countLimit : Nat := 18446744073709551616

/-- Reads an unsigned number. -/
def readCount (expected : String) : Datum → Except Mismatch Nat
  | .integer n =>
    if 0 ≤ n ∧ n < countLimit then .ok n.toNat else .error (.outOfRange n expected)
  | found => .error (.wrongType found expected)

/-- Reads a signed duration in nanoseconds. -/
def readDuration : Datum → Except Mismatch Nanos
  | .integer n =>
    if h : -9223372036854775808 ≤ n ∧ n ≤ 9223372036854775807 then .ok ⟨n, h.1, h.2⟩
    else .error (.outOfRange n (expected duration))
  | found => .error (.wrongType found (expected duration))

/-- Reads text. -/
def readText : Datum → Except Mismatch String
  | .text s => .ok s
  | found => .error (.wrongType found (expected text))

/-- Reads a value of a given kind. -/
def read : (kind : Kind) → Datum → Except Mismatch kind.Value
  | text, d => readText d
  | count, d => readCount (expected count) d
  | size, d => readCount (expected size) d
  | duration, d => readDuration d

end Kind

/-! ## Rows -/

/-- A named field of a record. -/
structure Field where
  name : String
  kind : Kind

/-- The values of all fields, in order. -/
def Row : List Field → Type
  | [] => Unit
  | field :: rest => field.kind.Value × Row rest

/-- The values that were found so far, in the order of the fields. -/
def Draft : List Field → Type
  | [] => Unit
  | field :: rest => Option field.kind.Value × Draft rest

namespace Draft

/-- Nothing was found yet. -/
def none : (fields : List Field) → Draft fields
  | [] => ()
  | _ :: rest => (Option.none, none rest)

/-- Reads `d` into the field called `name`, if there is one. -/
def put (name : String) (d : Datum) : (fields : List Field) → Draft fields → Except Mismatch (Draft fields)
  | [], draft => .ok draft
  | field :: rest, (value, others) =>
    if field.name = name then
      (field.kind.read d).map fun v => (some v, others)
    else
      (put name d rest others).map fun others => (value, others)

/-- Reads the entries of a map in their order. -/
def fill (fields : List Field) : List (String × Datum) → Draft fields → Except Mismatch (Draft fields)
  | [], draft => .ok draft
  | (name, d) :: rest, draft => (put name d fields draft).bind (fill fields rest)

/-- The row of all values; the first field without one is missing. -/
def complete : (fields : List Field) → Draft fields → Except Mismatch (Row fields)
  | [], _ => .ok ()
  | field :: rest, (value, others) =>
    match value with
    | some v => (complete rest others).map fun others => (v, others)
    | Option.none => .error (.missing field.name)

end Draft

/-! ## Reading -/

/-- A record's title and fields. -/
structure Shape where
  title : String
  fields : List Field

/-- Reads the leading elements of a list as the fields, in order. -/
def Row.ofList (shape : Shape) : (fields : List Field) → List Datum → Except Mismatch (Row fields)
  | [], _ => .ok ()
  | rest, [] => .error (.tooShort (shape.fields.length - rest.length) shape.title shape.fields.length)
  | field :: rest, d :: ds =>
    (field.kind.read d).bind fun v => (ofList shape rest ds).map fun others => (v, others)

/-- Reads a record from a map, whose keys are taken in increasing order, or from a list of its fields. -/
def Shape.read (shape : Shape) : Datum → Except Mismatch (Row shape.fields)
  | .map entries =>
    let sorted := entries.mergeSort fun a b => !decide (b.1 < a.1)
    (Draft.fill shape.fields sorted (.none shape.fields)).bind (Draft.complete shape.fields)
  | .list elements =>
    (Row.ofList shape shape.fields elements).bind fun row =>
      if shape.fields.length < elements.length then .error (.tooLong elements.length) else .ok row
  | found => .error (.wrongType found ("struct " ++ shape.title))

end SampleProfiler
