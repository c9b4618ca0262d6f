import TickFeed.Binary64.Reader
import TickFeed.Bridge.Pressure
import TickFeed.Duration
import TickFeed.Environment
import TickFeed.Json.Writer

/-! # Settings of a bridge -/

namespace TickFeed

structure BridgeConfig where
  /-- The most ticks that wait for dispatch. -/
  queueCapacity : Nat := 10000
  /-- How long the dispatch loop waits for a tick before it looks around. -/
  pollInterval : Duration := .ofSeconds 1
  /-- How long a stop waits for subscribers that are busy. -/
  stopGrace : Duration := .ofSeconds 2
  /-- How long a subscriber may take for one tick, if there is a limit. -/
  subscriberTimeout : Option Duration := none
  /-- Where the warning band begins, in percent. -/
  warningPercent : Binary64 := 80
  /-- Above which part the queue is critical, in percent. -/
  criticalPercent : Binary64 := 95
  /-- How many latencies are kept for percentiles. -/
  latencyWindow : Nat := 1000
deriving DecidableEq

namespace BridgeConfig

def thresholds (c : BridgeConfig) : BandThresholds := ⟨c.warningPercent, c.criticalPercent⟩

def fieldNames : List String :=
  ["queue_capacity", "poll_interval", "stop_grace", "subscriber_timeout", "warning_pct",
    "critical_pct", "latency_window"]

/-- The settings in a document. Those that it leaves out have their defaults. -/
def ofDocument? (d : Json.Document) : Option BridgeConfig := do
  let default : BridgeConfig := {}
  let r ← d.record? fieldNames false
  let count := fun (d : Json.Document) => d.uint64?.map UInt64.toNat
  return {
    queueCapacity := ← r.defaulted "queue_capacity" default.queueCapacity count
    pollInterval := ← r.defaulted "poll_interval" default.pollInterval Duration.ofDocument?
    stopGrace := ← r.defaulted "stop_grace" default.stopGrace Duration.ofDocument?
    subscriberTimeout := ← r.defaulted "subscriber_timeout" default.subscriberTimeout
      (Json.Document.nullable? Duration.ofDocument?)
    warningPercent := ← r.defaulted "warning_pct" default.warningPercent Json.Document.binary64?
    criticalPercent := ← r.defaulted "critical_pct" default.criticalPercent
      Json.Document.binary64?
    latencyWindow := ← r.defaulted "latency_window" default.latencyWindow count
  }

def read? (s : String) : Option BridgeConfig := (Json.Document.read? s).bind ofDocument?

def toJson (c : BridgeConfig) : Json :=
  let count := fun (n : Nat) => Json.number (.ofUInt64 (.ofNat n))
  (Json.Fields.ofList
    [("queue_capacity", count c.queueCapacity),
      ("poll_interval", c.pollInterval.toJson),
      ("stop_grace", c.stopGrace.toJson),
      ("subscriber_timeout", (c.subscriberTimeout.map Duration.toJson).getD .null),
      ("warning_pct", .ofBinary64 c.warningPercent),
      ("critical_pct", .ofBinary64 c.criticalPercent),
      ("latency_window", count c.latencyWindow)]).toJson

/-- Equal by value: the sign of a zero does not count. -/
def same (a b : BridgeConfig) : Bool :=
  a.queueCapacity = b.queueCapacity && a.pollInterval = b.pollInterval &&
    a.stopGrace = b.stopGrace && a.subscriberTimeout = b.subscriberTimeout &&
    Binary64.same a.warningPercent b.warningPercent &&
    Binary64.same a.criticalPercent b.criticalPercent && a.latencyWindow = b.latencyWindow

def milliseconds? (s : String) : Option Duration :=
  (Text.unsigned? 64 s).map Duration.ofMilliseconds

/-- The limit for subscribers that a number of milliseconds sets; zero sets none. -/
def timeoutOf (limit : Duration) : Option Duration :=
  if limit.nanoseconds = 0 then none else some limit

def ofEnvironment (env : Environment) : BridgeConfig :=
  let default : BridgeConfig := {}
  { queueCapacity := env.overlay "FEED_QUEUE_CAPACITY" (Text.unsigned? 64) default.queueCapacity
    pollInterval := env.overlay "FEED_POLL_INTERVAL_MS" milliseconds? default.pollInterval
    stopGrace := env.overlay "FEED_STOP_GRACE_MS" milliseconds? default.stopGrace
    subscriberTimeout := env.overlay "FEED_SUBSCRIBER_TIMEOUT_MS"
      (fun s => (milliseconds? s).map timeoutOf) default.subscriberTimeout
    warningPercent := env.overlay "FEED_WARNING_PCT" Binary64.read? default.warningPercent
    criticalPercent := env.overlay "FEED_CRITICAL_PCT" Binary64.read? default.criticalPercent
    latencyWindow := default.latencyWindow }

end BridgeConfig

end TickFeed
