import TickFeed.Bridge.Config
import TickFeed.Catalog.Basic
import TickFeed.Node.CommandLine
import TickFeed.RateLimit.Limits

/-! # Settings of the node

The settings of every part come from its own variables, and an option of the
command line goes before them. -/

namespace TickFeed

structure NodeConfig where
  /-- The file of the catalog, or a folder with copies of it. -/
  catalogPath : Option String
  bridge : BridgeConfig
  catalog : CatalogConfig
  rateLimits : RateLimitConfig
  /-- How often the catalog is loaded again. -/
  refreshInterval : Duration
  /-- How often the statistics are written. -/
  statsInterval : Duration
  /-- How many ticks a listener may be behind. -/
  uiBuffer : Nat
deriving DecidableEq

/-- The value that `read` finds in an option, else `value`. -/
def NodeOptions.overlay {α : Type} (os : NodeOptions) (o : NodeOption) (read : String → Option α)
    (value : α) : α :=
  ((os.get? o).bind read).getD value

namespace NodeConfig

def bridgeOf (os : NodeOptions) (env : Environment) : BridgeConfig :=
  let c := BridgeConfig.ofEnvironment env
  { c with
    queueCapacity := os.overlay .queueCapacity NodeOption.count? c.queueCapacity
    pollInterval := os.overlay .pollIntervalMs BridgeConfig.milliseconds? c.pollInterval
    stopGrace := os.overlay .stopGraceMs BridgeConfig.milliseconds? c.stopGrace
    subscriberTimeout := os.overlay .subscriberTimeoutMs
      (fun s => (BridgeConfig.milliseconds? s).map BridgeConfig.timeoutOf) c.subscriberTimeout }

def catalogOf (os : NodeOptions) (env : Environment) : CatalogConfig :=
  let c := CatalogConfig.ofEnvironment env
  { c with
    preferredExchange := os.overlay .preferredExchange (some ∘ Exchange.ofCode)
      c.preferredExchange }

def rateOption : CallClass → NodeOption
  | .historical => .historicalRate
  | .orderPlacement => .orderRate
  | .quote => .quoteRate

def burstOption : CallClass → NodeOption
  | .historical => .historicalBurst
  | .orderPlacement => .orderBurst
  | .quote => .quoteBurst

def rateLimitsOf (os : NodeOptions) (env : Environment) : RateLimitConfig :=
  (RateLimitConfig.ofEnvironment env).update fun c limit =>
    { rate := os.overlay (rateOption c) Binary64.read? limit.rate
      capacity := os.overlay (burstOption c) NodeOption.burst? limit.capacity }

/-- A number of seconds, at least one. -/
def interval (os : NodeOptions) (o : NodeOption) (seconds : Nat) : Duration :=
  .ofSeconds (max 1 (os.overlay o NodeOption.count? seconds))

def ofOptions (os : NodeOptions) (env : Environment) : NodeConfig where
  catalogPath := os.get? .catalogPath
  bridge := bridgeOf os env
  catalog := catalogOf os env
  rateLimits := rateLimitsOf os env
  refreshInterval := interval os .refreshSecs 86400
  statsInterval := interval os .statsSecs 10
  uiBuffer := os.overlay .uiBuffer NodeOption.count? 1024

def variableNames : List String :=
  ["FEED_QUEUE_CAPACITY", "FEED_POLL_INTERVAL_MS", "FEED_STOP_GRACE_MS",
    "FEED_SUBSCRIBER_TIMEOUT_MS", "FEED_WARNING_PCT", "FEED_CRITICAL_PCT",
    "CATALOG_PREFERRED_EXCHANGE", "CATALOG_CANCEL_CHECK_EVERY"] ++
    CallClass.all.flatMap (fun k =>
      [RateLimitConfig.variableStem k ++ "_RATE", RateLimitConfig.variableStem k ++ "_BURST"]) ++
    NodeOption.all.filterMap NodeOption.variableName

def read (words : List String) (env : Environment) : Except UsageError NodeConfig :=
  (NodeOptions.read words env).map (ofOptions · env)

end NodeConfig

end TickFeed
