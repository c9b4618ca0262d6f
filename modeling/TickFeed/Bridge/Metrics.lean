import TickFeed.Bridge.Latency
import TickFeed.Bridge.Pressure
import TickFeed.Tick.Normalize

/-! # Counters of a bridge

Whatever happens to a tick ends in one of these counters. They are read as
integers of 64 bits, so a reading wraps where a counter would. -/

namespace TickFeed

structure BridgeMetrics where
  /-- Ticks that entered the queue. -/
  accepted : Nat := 0
  /-- Ticks that were lost because the queue was full or the bridge stopped. -/
  dropped : Nat := 0
  /-- Ticks that went to all subscribers. -/
  broadcast : Nat := 0
  missingSymbol : Nat := 0
  unresolvedToken : Nat := 0
  subscriberFailures : Nat := 0
  subscriberTimeouts : Nat := 0
  /-- Ticks that were still queued when the bridge stopped. -/
  discarded : Nat := 0
  /-- Nanoseconds from the beginning to the end of a broadcast. -/
  latencies : LatencyWindow
deriving DecidableEq

structure BridgeStats where
  received : UInt64
  accepted : UInt64
  dropped : UInt64
  broadcast : UInt64
  invalid : UInt64
  subscriberFailures : UInt64
  subscriberTimeouts : UInt64
  discarded : UInt64
  queueDepth : UInt64
  queueCapacity : UInt64
  utilization : Binary64
  band : PressureBand
  /-- Half of the latencies are at most this. -/
  p50 : Option UInt64
  p99 : Option UInt64
deriving DecidableEq

namespace BridgeMetrics

/-- All counters at zero, and a window for this many latencies. -/
def ofWindow? (size : Nat) : Option BridgeMetrics :=
  (LatencyWindow.ofSize? size).map fun latencies => { latencies }

/-- Every tick that was submitted. -/
def received (m : BridgeMetrics) : Nat := m.accepted + m.dropped

/-- The ticks that are none. -/
def invalid (m : BridgeMetrics) : Nat := m.missingSymbol + m.unresolvedToken

def recordAccepted (m : BridgeMetrics) : BridgeMetrics := { m with accepted := m.accepted + 1 }

def recordDropped (m : BridgeMetrics) : BridgeMetrics := { m with dropped := m.dropped + 1 }

def recordInvalid (m : BridgeMetrics) : TickRejection → BridgeMetrics
  | .missingSymbol => { m with missingSymbol := m.missingSymbol + 1 }
  | .unresolvedToken _ => { m with unresolvedToken := m.unresolvedToken + 1 }

def recordFailure (m : BridgeMetrics) : BridgeMetrics :=
  { m with subscriberFailures := m.subscriberFailures + 1 }

def recordTimeout (m : BridgeMetrics) : BridgeMetrics :=
  { m with subscriberTimeouts := m.subscriberTimeouts + 1 }

def recordBroadcast (m : BridgeMetrics) (latency : UInt64) : BridgeMetrics :=
  { m with broadcast := m.broadcast + 1, latencies := m.latencies.record latency }

def recordDiscarded (m : BridgeMetrics) (count : Nat) : BridgeMetrics :=
  { m with discarded := m.discarded + count }

def snapshot (m : BridgeMetrics) (depth capacity : Nat) (band : PressureBand) : BridgeStats where
  received := .ofNat m.received
  accepted := .ofNat m.accepted
  dropped := .ofNat m.dropped
  broadcast := .ofNat m.broadcast
  invalid := .ofNat m.invalid
  subscriberFailures := .ofNat m.subscriberFailures
  subscriberTimeouts := .ofNat m.subscriberTimeouts
  discarded := .ofNat m.discarded
  queueDepth := .ofNat depth
  queueCapacity := .ofNat capacity
  utilization := BandThresholds.utilization depth capacity
  band
  p50 := m.latencies.percentile 50
  p99 := m.latencies.percentile 99

def counters (m : BridgeMetrics) : List (String × UInt64) :=
  [("subscriber_failures", .ofNat m.subscriberFailures),
    ("subscriber_timeouts", .ofNat m.subscriberTimeouts),
    ("ticks_accepted", .ofNat m.accepted),
    ("ticks_broadcast", .ofNat m.broadcast),
    ("ticks_discarded_on_stop", .ofNat m.discarded),
    ("ticks_dropped", .ofNat m.dropped),
    ("ticks_invalid_missing_symbol", .ofNat m.missingSymbol),
    ("ticks_invalid_unresolved_token", .ofNat m.unresolvedToken),
    ("ticks_received", .ofNat m.received)]

end BridgeMetrics

end TickFeed
