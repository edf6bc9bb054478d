/-!
# `SampleProfiler.Abort` — what ends a call instead of a result

An abort is a broken precondition, not a failure that a caller handles: the call that raised it has no
result and leaves its receiver as it was. Failures that a caller handles are `Fault`s.
-/

namespace SampleProfiler

/-- Why a call ended without a result. -/
inductive Abort where
  /-- A buffer was asked for with no room for a single sample. -/
  | emptyCapacity
  /-- The storage that a buffer reserves up front would be larger than the address space. -/
  | storageOverflow
  /-- More failures were counted than calls. -/
  | countUnderflow
  /-- More was counted than the counter holds. -/
  | countOverflow
  /-- Measured code raised an abort of its own. -/
  | raised (text : String)
deriving DecidableEq

namespace Abort

/-- The text that an abort is reported with. -/
def message : Abort → String
  | emptyCapacity => "Sample buffer capacity must be > 0"
  | storageOverflow => "capacity overflow"
  | countUnderflow => "attempt to subtract with overflow"
  | countOverflow => "attempt to add with overflow"
  | raised text => text

end Abort

end SampleProfiler
