import SampleProfiler.Buffer
import SampleProfiler.Record
import SampleProfiler.Text.Quoted
import SampleProfiler.Toml.Printer

/-!
# `SampleProfiler.Stored` — statistics as records

Profiles and counters leave the program as records with named fields and can be read back. This module
says which fields they have, and in which order.

## Contents
- **Mismatches.** `Mismatch.inRecord`, their text.
- **Profiles.** `Profile.shape`, `Profile.ofDatum`, `Profile.document` and `Profile.described`.
- **Counters.** `Totals.shape` and `Totals.ofDatum`; `Gauge.shape` and `Gauge.ofDatum`.
-/

namespace SampleProfiler

/-! ## Mismatches -/

/-- The text of a mismatch in a record, where an exponent stands for many zeros of a number. -/
def Mismatch.inRecord (m : Mismatch) : String :=
  m.message .scientific

/-! ## Profiles -/

namespace Profile

/-- The record of a profile. -/
def shape : Shape :=
  { title := "PerformanceProfile"
    fields :=
      [⟨"operation_name", .text⟩, ⟨"total_calls", .count⟩, ⟨"error_count", .count⟩,
        ⟨"total_duration_ns", .duration⟩, ⟨"min_duration_ns", .duration⟩,
        ⟨"max_duration_ns", .duration⟩, ⟨"avg_duration_ns", .duration⟩] }

/-- Reads a profile. What its fields claim is not checked against each other. -/
def ofDatum (d : Datum) : Except Mismatch Profile :=
  (shape.read d).map fun (name, calls, errors, total, least, greatest, mean, ()) =>
    { name := name, calls := calls, errors := errors, total := total, least := least,
      greatest := greatest, mean := mean }

/-- The profile as a TOML document. -/
def document (p : Profile) : Except Toml.WriteFault String :=
  Toml.document
    [("operation_name", .text p.name), ("total_calls", .integer p.calls), ("error_count", .integer p.errors),
      ("total_duration_ns", .integer p.total.toInt), ("min_duration_ns", .integer p.least.toInt),
      ("max_duration_ns", .integer p.greatest.toInt), ("avg_duration_ns", .integer p.mean.toInt)]

/-- The profile shown by its fields. -/
def described (p : Profile) : String :=
  Text.labelled shape.title
    [("operation_name", Text.quoted p.name), ("total_calls", toString p.calls),
      ("error_count", toString p.errors), ("total_duration_ns", toString p.total.toInt),
      ("min_duration_ns", toString p.least.toInt), ("max_duration_ns", toString p.greatest.toInt),
      ("avg_duration_ns", toString p.mean.toInt)]

end Profile

/-! ## Counters -/

namespace Totals

/-- The record of a registry's counters. -/
def shape : Shape :=
  { title := "AggregatorStats"
    fields :=
      [⟨"operation_count", .size⟩, ⟨"total_samples", .count⟩, ⟨"batches_received", .count⟩,
        ⟨"lru_evictions", .count⟩] }

/-- Reads the counters of a registry. -/
def ofDatum (d : Datum) : Except Mismatch Totals :=
  (shape.read d).map fun (operations, samples, batches, evictions, ()) =>
    { operations := operations, samples := samples, batches := batches, evictions := evictions }

end Totals

namespace Gauge

/-- The record of a buffer's numbers. -/
def shape : Shape :=
  { title := "BufferStats"
    fields :=
      [⟨"total_records", .count⟩, ⟨"total_flushes", .count⟩, ⟨"auto_flushes", .count⟩,
        ⟨"current_size", .size⟩, ⟨"capacity", .size⟩] }

/-- Reads the numbers of a buffer. -/
def ofDatum (d : Datum) : Except Mismatch Gauge :=
  (shape.read d).map fun (records, flushes, forced, size, capacity, ()) =>
    { records := records, flushes := flushes, forced := forced, size := size, capacity := capacity }

end Gauge

end SampleProfiler
