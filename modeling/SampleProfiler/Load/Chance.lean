import SampleProfiler.Load.Run

/-!
# `SampleProfiler.Load.Chance` — draws from a seed

A load run needs a duration and an outcome for every sample of every thread. Here they come from a seed by
a mixing function on 64-bit words, so that the same seed draws the same load. Durations lie between 100 and
99999 nanoseconds, and a call fails with the probability that the plan states.
-/

namespace SampleProfiler.Load

/-- Mixes the bits of a word, so that neighbouring words have unrelated results. -/
def mix (w : UInt64) : UInt64 :=
  let w := (w ^^^ (w >>> 30)) * 0xbf58476d1ce4e5b9
  let w := (w ^^^ (w >>> 27)) * 0x94d049bb133111eb
  w ^^^ (w >>> 31)

/-- The `k`-th word that a seed leads to. -/
def wordAt (seed : UInt64) (k : Nat) : UInt64 :=
  mix (seed + (k.toUInt64 + 1) * 0x9e3779b97f4a7c15)

/-- A number that is uniform between zero and one, on 53 bits of a word. -/
def fraction (w : UInt64) : Float :=
  (w >>> 11).toFloat / 9007199254740992.0

/-- The draws of a load with the given rate of failures. -/
def drawsFrom (seed : UInt64) (rate : Float) : Draws := fun thread i =>
  let stream := wordAt seed thread
  { duration := .clamp (100 + (wordAt stream (2 * i)).toNat % 99900 : Nat)
    failed := fraction (wordAt stream (2 * i + 1)) < rate }

end SampleProfiler.Load
