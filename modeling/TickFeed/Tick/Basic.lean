import TickFeed.Exchange
import TickFeed.Tick.Raw
import TickFeed.Json.Record

/-! # Ticks

The one shape that every consumer sees. All fields are there; a number that the
feed did not give is zero. -/

namespace TickFeed

structure Tick where
  symbol : String
  exchange : Exchange
  /-- Exchange time in nanoseconds from the beginning of 1970. -/
  timestamp : Int64
  /-- Last traded price. -/
  ltp : Binary64
  bid : Binary64
  ask : Binary64
  bidQty : UInt64
  askQty : UInt64
  volume : UInt64
  /-- The place of the tick among those the bridge has seen. -/
  seq : UInt64
deriving DecidableEq

namespace Tick

/-- The middle of bid and ask, or the last price when one side is missing. -/
def mid (t : Tick) : Binary64 :=
  if Binary64.lt 0 t.bid ∧ Binary64.lt 0 t.ask then (t.bid + t.ask) / 2 else t.ltp

/-- Equal by value: two prices are equal when neither is less, so the sign of a
zero does not count. -/
def same (s t : Tick) : Bool :=
  s.symbol = t.symbol && s.exchange = t.exchange && s.timestamp = t.timestamp &&
    Binary64.same s.ltp t.ltp && Binary64.same s.bid t.bid && Binary64.same s.ask t.ask &&
    s.bidQty = t.bidQty && s.askQty = t.askQty && s.volume = t.volume && s.seq = t.seq

/-- The tick in the shape of a raw one. A price that is not finite is null. -/
def toRaw (t : Tick) : RawTick :=
  RawTick.empty
    |>.insert "symbol" (.string t.symbol)
    |>.insert "exchange" (.string t.exchange.code)
    |>.insert "timestamp_ns" (.number (.ofInt64 t.timestamp))
    |>.insert "ltp" (.ofBinary64 t.ltp)
    |>.insert "bid" (.ofBinary64 t.bid)
    |>.insert "ask" (.ofBinary64 t.ask)
    |>.insert "bid_qty" (.number (.ofUInt64 t.bidQty))
    |>.insert "ask_qty" (.number (.ofUInt64 t.askQty))
    |>.insert "volume" (.number (.ofUInt64 t.volume))
    |>.insert "seq" (.number (.ofUInt64 t.seq))

def fieldNames : List String :=
  ["symbol", "exchange", "timestamp", "ltp", "bid", "ask", "bid_qty", "ask_qty", "volume", "seq"]

def ofDocument? (d : Json.Document) : Option Tick := do
  let r ← d.record? fieldNames false
  return {
    symbol := ← r.required "symbol" Json.Document.string?
    exchange := Exchange.ofCode (← r.required "exchange" Json.Document.string?)
    timestamp := ← r.required "timestamp" Json.Document.int64?
    ltp := ← r.required "ltp" Json.Document.binary64?
    bid := ← r.required "bid" Json.Document.binary64?
    ask := ← r.required "ask" Json.Document.binary64?
    bidQty := ← r.required "bid_qty" Json.Document.uint64?
    askQty := ← r.required "ask_qty" Json.Document.uint64?
    volume := ← r.required "volume" Json.Document.uint64?
    seq := ← r.required "seq" Json.Document.uint64?
  }

def read? (s : String) : Option Tick := (Json.Document.read? s).bind ofDocument?

end Tick

end TickFeed
