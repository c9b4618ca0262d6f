import TickFeed.Binary64.Arithmetic

/-! # Latency window

The latest samples, up to a fixed number, and their percentiles. A percentile is
one of the samples: the one at that part of the way from the smallest to the
largest. -/

namespace TickFeed

structure LatencyWindow where
  /-- The most samples that are kept. -/
  size : Nat
  /-- The samples, the latest first. -/
  samples : List UInt64
deriving DecidableEq

namespace LatencyWindow

/-- The size beyond which the samples, of eight bytes each, fill an address space
of 63 bits. -/
def sizeLimit : Nat := 2 ^ 60

/-- An empty window, with room for at least one sample; none beyond the limit. -/
def ofSize? (size : Nat) : Option LatencyWindow :=
  if size < sizeLimit then some ⟨max size 1, []⟩ else none

/-- A sample more. The oldest one goes when the window is full. -/
def record (w : LatencyWindow) (sample : UInt64) : LatencyWindow :=
  { w with samples := (sample :: w.samples).take w.size }

def rank (percent count : Nat) : Nat :=
  let place := (Binary64.ofNat percent / 100 * .ofNat (count - 1)).truncate (2 ^ 64 - 1)
  min place (count - 1)

/-- The sample at a percentile; `0` is the smallest, `100` the largest. -/
def percentile (w : LatencyWindow) (percent : Nat) : Option UInt64 :=
  (w.samples.mergeSort (· ≤ ·))[rank percent w.samples.length]?

/-- A percentile is the place of a sample. -/
theorem rank_le (percent count : Nat) : rank percent count ≤ count - 1 := Nat.min_le_right _ _

end LatencyWindow

end TickFeed
