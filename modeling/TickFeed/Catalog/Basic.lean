import TickFeed.Catalog.Snapshot
import TickFeed.Catalog.Source
import TickFeed.Environment

/-! # The catalog

A catalog serves one snapshot at a time. A load builds the next one aside and
puts it in place at once when it is complete; a load that fails or is cancelled
leaves everything as it was. There is one load at a time. -/

namespace TickFeed

structure CatalogConfig where
  /-- Where to look when a lookup names no exchange. -/
  preferredExchange : Exchange := .nse
  /-- The number of rows between two looks at the signal to cancel. -/
  cancelCheckEvery : Nat := 4096
deriving DecidableEq

namespace CatalogConfig

def ofDocument? (d : Json.Document) : Option CatalogConfig := do
  let default : CatalogConfig := {}
  let r ← d.record? ["preferred_exchange", "cancel_check_every"] false
  return {
    preferredExchange := ← r.defaulted "preferred_exchange" default.preferredExchange
      fun d => d.string?.map Exchange.ofCode
    cancelCheckEvery := ← r.defaulted "cancel_check_every" default.cancelCheckEvery
      fun d => d.uint64?.map UInt64.toNat
  }

def read? (s : String) : Option CatalogConfig := (Json.Document.read? s).bind ofDocument?

/-- The exchange that a variable names; blank text names none. -/
def exchangeNamed? (s : String) : Option Exchange :=
  if Text.trim s = "" then none else some (.ofCode s)

def ofEnvironment (env : Environment) : CatalogConfig :=
  let default : CatalogConfig := {}
  { preferredExchange :=
      env.overlay "CATALOG_PREFERRED_EXCHANGE" exchangeNamed? default.preferredExchange
    cancelCheckEvery :=
      env.overlay "CATALOG_CANCEL_CHECK_EVERY" (Text.unsigned? 64) default.cancelCheckEvery }

def text (c : CatalogConfig) : String :=
  "\x7b\"preferred_exchange\":" ++ Json.quote c.preferredExchange.code ++
    ",\"cancel_check_every\":" ++ toString c.cancelCheckEvery ++ "\x7d"

end CatalogConfig

inductive CatalogState where
  /-- Nothing has been loaded yet. -/
  | unloaded
  /-- The first load is under way. -/
  | loading
  | ready
  /-- A load is under way, and the snapshot of an earlier one is served. -/
  | refreshing
deriving DecidableEq

structure LoadReport where
  /-- The instruments that are served now. -/
  loaded : Nat
  /-- The rows without an instrument. -/
  skipped : Nat
  /-- The rows that repeat a symbol or a token. -/
  duplicates : Nat
  generation : Nat
deriving DecidableEq

/-- A signal to give up a load: the number of looks at it that still do not see
it, or none when it is never given. -/
abbrev CancelSignal := Option Nat

/-- Whether the look with this number sees the signal. -/
def CancelSignal.seenBy (signal : CancelSignal) (look : Nat) : Bool :=
  match signal with
  | some n => n ≤ look
  | none => false

structure LoadProgress where
  builder : SnapshotBuilder
  skipped : Nat
  duplicates : Nat
  /-- How many looks at the signal there have been. -/
  looks : Nat

namespace LoadProgress

def look (p : LoadProgress) (signal : CancelSignal) : Except CatalogError LoadProgress :=
  if signal.seenBy p.looks then .error .cancelled else .ok { p with looks := p.looks + 1 }

def addRow (p : LoadProgress) (row : SourceRow) : LoadProgress :=
  match row.bind Row.toInstrument with
  | .ok i =>
    if p.builder.isDuplicate i then { p with duplicates := p.duplicates + 1 }
    else { p with builder := p.builder.insert i }
  | .error _ => { p with skipped := p.skipped + 1 }

/-- The rows in turn, the first of which has number `index`; with a look before
every `every`-th one. -/
def addRows (p : LoadProgress) (every : Nat) (signal : CancelSignal) (index : Nat) :
    List SourceRow → Except CatalogError LoadProgress
  | [] => .ok p
  | row :: rows => do
    let p ← if index % every = 0 then p.look signal else .ok p
    (p.addRow row).addRows every signal (index + 1) rows

def report (p : LoadProgress) : LoadReport :=
  ⟨p.builder.size, p.skipped, p.duplicates, p.builder.draft.generation⟩

end LoadProgress

structure Catalog where
  config : CatalogConfig
  served : Snapshot
  state : CatalogState
  /-- The number of loads that succeeded. -/
  generation : Nat

namespace Catalog

def unloaded (config : CatalogConfig) : Catalog := ⟨config, .empty 0, .unloaded, 0⟩

def isReady (c : Catalog) : Bool := c.state = .ready

def beginLoad (c : Catalog) : Except CatalogError Catalog :=
  match c.state with
  | .unloaded => .ok { c with state := .loading }
  | .ready => .ok { c with state := .refreshing }
  | .loading | .refreshing => .error .refreshInProgress

/-- The snapshot of the rows and the report on it. There is a look at the signal
before the first row, at intervals, and after the last one. -/
def build (c : Catalog) (rows : Except CatalogError (List SourceRow)) (signal : CancelSignal) :
    Except CatalogError (Snapshot × LoadReport) := do
  let rows ← rows
  let start : LoadProgress := ⟨.start (c.generation + 1), 0, 0, 0⟩
  let p ← start.look signal
  let p ← p.addRows (max 1 c.config.cancelCheckEvery) signal 0 rows
  let p ← p.look signal
  return (p.builder.finish, p.report)

/-- The load that has begun ends, with the rows that were read. -/
def endLoad (c : Catalog) (rows : Except CatalogError (List SourceRow)) (signal : CancelSignal) :
    Catalog × Except CatalogError LoadReport :=
  match c.build rows signal with
  | .ok (snapshot, report) =>
    ({ c with served := snapshot, state := .ready, generation := c.generation + 1 }, .ok report)
  | .error e =>
    let state := match c.state with
      | .unloaded | .loading => .unloaded
      | .ready | .refreshing => .ready
    ({ c with state }, .error e)

def load (c : Catalog) (source : CatalogSource) (signal : CancelSignal) :
    Catalog × Except CatalogError LoadReport :=
  match c.beginLoad with
  | .ok begun => begun.endLoad source.rows signal
  | .error e => (c, .error e)

/-- The instrument under a symbol, on the preferred exchange if none is named. -/
def findSymbol? (c : Catalog) (symbol : String) (exchange : Option Exchange) :
    Option Instrument :=
  c.served.findSymbol? symbol (exchange.getD c.config.preferredExchange)

/-- The instrument with a token, on the preferred exchange if none is named. -/
def findToken? (c : Catalog) (token : String) (exchange : Option Exchange) :
    Option Instrument :=
  c.served.findToken? token (exchange.getD c.config.preferredExchange)

def lookup (c : Catalog) : InstrumentLookup := c.findToken?

end Catalog

end TickFeed
