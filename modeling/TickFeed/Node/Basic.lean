import TickFeed.Bridge.Simulation
import TickFeed.Node.Broadcast
import TickFeed.Node.Config
import TickFeed.Node.Input
import TickFeed.Node.SymbolCounts

/-! # The node

A node puts the parts together: the bridge resolves tokens in the catalog and
hands its ticks to two subscribers, the broadcast to listeners and the counts by
symbol. Both take no time and never fail. -/

namespace TickFeed

structure FeedSinks where
  ui : Broadcast
  counts : SymbolCounts

instance : Audience FeedSinks where
  respond _ _ _ := (0, .success)
  accept sinks subscriber tick :=
    match subscriber with
    | 0 => { sinks with ui := sinks.ui.send tick }
    | 1 => { sinks with counts := sinks.counts.count tick }
    | _ => sinks

inductive StartupError where
  | limits (reason : LimitError)
  | bridge (reason : BridgeError)
  /-- The ring for listeners is larger than memory can be. -/
  | uiTooLarge
deriving DecidableEq

namespace StartupError

def message : StartupError → String
  | .limits reason => "invalid rate limit configuration: " ++ reason.message
  | .bridge reason => "invalid bridge configuration: " ++ reason.message
  | .uiTooLarge => "listener buffer too large"

/-- Whether something is larger than memory can be. -/
def isTooLarge (e : StartupError) : Bool := e = .bridge .tooLarge || e = .uiTooLarge

def exitCode (e : StartupError) : Nat := if e.isTooLarge then 101 else 1

end StartupError

structure Node where
  catalog : Catalog
  limits : BrokerLimits
  feed : Simulation FeedSinks
  catalogPath : Option String

namespace Node

/-- The parts of a node, with an empty catalog. -/
def create (config : NodeConfig) : Except StartupError Node := do
  let catalog := Catalog.unloaded config.catalog
  let limits ← (BrokerLimits.ofConfig config.rateLimits).mapError .limits
  let bridge ← (Bridge.create config.bridge (some catalog.lookup)).mapError .bridge
  match Broadcast.ofBuffer? config.uiBuffer with
  | some ui =>
    return {
      catalog, limits
      feed := .ofBridge bridge.subscribe.subscribe ⟨ui, .empty⟩
      catalogPath := config.catalogPath
    }
  | none => throw .uiTooLarge

def bridge (n : Node) : Bridge := n.feed.bridge

/-- The dispatch loop catches up with what is queued. -/
def catchUp (n : Node) : Node := { n with feed := n.feed.runUntil n.feed.now }

/-- A catalog in the place of the present one. The bridge resolves tokens in it
from now on. -/
def replaceCatalog (n : Node) (catalog : Catalog) : Node :=
  { n with
    catalog
    feed := { n.feed with bridge := { n.feed.bridge with lookup := some catalog.lookup } } }

/-- Load the catalog, or load it again. What is queued is dispatched meanwhile. -/
def load (n : Node) (source : Except CatalogError CatalogSource) :
    Node × Except CatalogError LoadReport :=
  let n := n.catchUp
  match source with
  | .ok source =>
    let (catalog, report) := n.catalog.load source none
    (n.replaceCatalog catalog, report)
  | .error e => (n, .error e)

def submit (n : Node) (raw : RawTick) : Node × SubmitOutcome :=
  let (feed, outcome) := n.feed.submit raw
  ({ n with feed }, outcome)

def submitLive (n : Node) (raw : RawTick) : Node × SubmitOutcome :=
  let (n, outcome) := n.submit raw
  (n.catchUp, outcome)

def start (n : Node) : Except BridgeError Node :=
  (n.feed.start true).map fun feed => { n with feed }

def run (n : Node) (milliseconds : Nat) : Node := { n with feed := n.feed.run milliseconds }

def stop (n : Node) : Node := { n with feed := n.feed.stop }

/-- Take tokens of a class of calls, without waiting. -/
def acquire (n : Node) (c : CallClass) (count : UInt32) : Node × Attempt :=
  match (n.limits.get c).acquire count with
  | .granted rest => ({ n with limits := n.limits.set c rest }, .granted rest)
  | answer => (n, answer)

/-- Load the catalog if there is a path, and start. A catalog that fails to load
is left as it is. -/
def begin (n : Node) (source : Option (Except CatalogError CatalogSource)) : Node :=
  let n := match source with
    | some source => (n.load source).1
    | none => n
  match n.start with
  | .ok n => n
  | .error _ => n

/-- Feed all of `data` into a node that has begun, and stop. -/
def serve (n : Node) (data : List UInt8) : Node × ReaderSummary :=
  let r := pump submitLive n data
  (r.target.stop, r.summary)

end Node

end TickFeed
