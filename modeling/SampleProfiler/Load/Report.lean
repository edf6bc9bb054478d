import SampleProfiler.Decimal.Fixed
import SampleProfiler.Registry
import SampleProfiler.Text.Columns

/-!
# `SampleProfiler.Load.Report` — the outcome of a load run as a table

A report has the counters of the registry, the time that the run took, and the tracked profiles by falling
total duration. It is shown as a block of labelled figures and a table of the first profiles.

## Contents
- **`Report`**, `rank` (the order of the profiles) and `throughput`.
- **`Report.head`** — the labelled figures and the headings, `Report.row` — the line of one profile.
- **`Report.render`** — the whole text.
-/

namespace SampleProfiler.Load

/-- The outcome of a load run. -/
structure Report where
  elapsed : Span
  totals : Totals
  forced : Nat
  profiles : List Profile

/-- True if a report lists `a` no later than `b`: by falling total duration, and by name where the totals
    are the same. -/
def before (a b : Profile) : Bool :=
  if a.total = b.total then !decide (b.name < a.name) else decide (b.total < a.total)

/-- The profiles in the order of a report. -/
def ranked (profiles : List Profile) : List Profile :=
  profiles.mergeSort before

namespace Report

/-- The time that a run took, in seconds. -/
def seconds (r : Report) : Float :=
  Float.ofNat r.elapsed.seconds + Float.ofNat r.elapsed.nanos / 1000000000.0

/-- The samples per second over all threads; zero if no time went by. -/
def throughput (r : Report) : Float :=
  if r.seconds == 0.0 then 0.0 else Float.ofNat r.totals.samples / r.seconds

/-- The number of columns of the table. -/
def width : Nat := 83

/-- A line of the table: a name at the left, then five cells at the right of their columns. -/
def line (name calls errors least mean greatest : String) : String :=
  " ".intercalate
    [Text.flushLeft 24 name, Text.flushRight 10 calls, Text.flushRight 8 errors, Text.flushRight 12 least,
      Text.flushRight 12 mean, Text.flushRight 12 greatest]

/-- The line of a profile. Before the first sample there is no least duration, and zero is shown. -/
def row (p : Profile) : String :=
  line p.name (toString p.calls) (Decimal.fixed 2 p.errorRate)
    (toString (if p.isEmpty then 0 else p.least.toInt)) (toString p.mean.toInt) (toString p.greatest.toInt)

/-- A figure after its label. -/
def figure (label value : String) : String :=
  Text.flushLeft 18 (label ++ ":") ++ value

/-- The lines above the rows. -/
def head (r : Report) : List String :=
  ["=== perfbatch aggregator ===",
    figure "samples" (toString r.totals.samples),
    figure "batches" (toString r.totals.batches),
    figure "avg batch size" (Decimal.fixed 1 r.totals.meanBatch),
    figure "auto flushes" (toString r.forced),
    figure "operations" (toString r.totals.operations),
    figure "lru evictions" (toString r.totals.evictions),
    figure "elapsed" (Decimal.fixed 3 r.seconds ++ "s"),
    figure "throughput" (Decimal.fixed 0 r.throughput ++ " samples/s"),
    "",
    line "operation" "calls" "errors%" "min(ns)" "avg(ns)" "max(ns)",
    String.ofList (List.replicate width '─')]

/-- The lines of a report with at most `top` rows. -/
def lines (r : Report) (top : Nat) : List String :=
  r.head ++ (r.profiles.take top).map row

/-- The text of a report with at most `top` rows; every line ends in a line break. -/
def render (r : Report) (top : Nat) : String :=
  String.join ((r.lines top).map (· ++ "\n"))

end Report

end SampleProfiler.Load
