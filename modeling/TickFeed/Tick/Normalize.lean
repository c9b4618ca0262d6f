import TickFeed.Instrument.Basic
import TickFeed.Tick.Basic
import TickFeed.Tick.Reading

/-! # Normalizing raw ticks

The feed has named its fields in several ways. Each field of a tick is read from
a list of names, and the first one with a usable value counts. Only the identity
has to be there: a symbol, or a token that a lookup resolves to one. -/

namespace TickFeed

inductive TickRejection where
  | missingSymbol
  | unresolvedToken (token : String)
deriving DecidableEq

namespace TickRejection

def code : TickRejection → String
  | .missingSymbol => "missing_symbol"
  | .unresolvedToken _ => "unresolved_token"

def message : TickRejection → String
  | .missingSymbol => "tick carries no symbol or token"
  | .unresolvedToken token => "tick carries token " ++ token ++ " but no symbol"

end TickRejection

namespace RawTick

def symbolNames : List String := ["symbol", "trading_symbol", "tradingsymbol", "tradingSymbol"]
def tokenNames : List String := ["token", "symbol_token", "symbolToken"]
def exchangeNames : List String := ["exchange", "exch_seg"]
def timestampNames : List String := ["exchange_timestamp", "last_traded_timestamp", "timestamp"]
def ltpNames : List String := ["ltp", "last_traded_price", "last_price", "close"]
def bidNames : List String := ["best_bid_price", "bid"]
def askNames : List String := ["best_ask_price", "ask"]
def bidQtyNames : List String := ["best_bid_qty", "bid_qty"]
def askQtyNames : List String := ["best_ask_qty", "ask_qty"]
def volumeNames : List String := ["volume", "vol", "volume_trade_for_the_day"]
def seqNames : List String := ["seq"]
def levelPriceNames : List String := ["price"]
def levelQtyNames : List String := ["quantity", "qty"]

def symbol? (raw : RawTick) : Option String := raw.fields.firstOf symbolNames Json.text?

def token? (raw : RawTick) : Option String := raw.fields.firstOf tokenNames Json.text?

/-- The exchange that the tick names, by code or by number. -/
def exchangeHint (raw : RawTick) : Option Exchange :=
  match raw.fields.firstOf exchangeNames Json.text? with
  | some code => some (Exchange.ofCode code)
  | none => ((raw.get? "exchange_type").bind Json.quantity?).bind Exchange.ofFeedCode?

/-- Exchange time, or zero. A time in nanoseconds is taken as it is; a time
under another name may count another unit or be text. -/
def timestamp (raw : RawTick) : Int64 :=
  match (raw.get? "timestamp_ns").bind Json.exactInt64? with
  | some ns => if ns < 0 then 0 else ns
  | none => (raw.fields.firstOf timestampNames Json.timestamp?).getD 0

/-- A snapshot of the streaming feed, whose prices are in paise. -/
def isStreaming (raw : RawTick) : Bool :=
  match raw.get? "subscription_mode" with
  | some v => !v.isNull
  | none => false

def topLevel? (raw : RawTick) (name : String) : Option Json.Fields :=
  match raw.get? name with
  | some (.array (.object members :: _)) => some (.ofList members)
  | _ => none

/-- A price under one of `names`, else that of the best level under `depth`. -/
def quotedPrice (raw : RawTick) (names : List String) (depth : String) : Binary64 :=
  ((raw.fields.firstOf names Json.price?).or
    ((raw.topLevel? depth).bind (·.firstOf levelPriceNames Json.price?))).getD 0

def quotedQty (raw : RawTick) (names : List String) (depth : String) : UInt64 :=
  ((raw.fields.firstOf names Json.quantity?).or
    ((raw.topLevel? depth).bind (·.firstOf levelQtyNames Json.quantity?))).getD 0

/-- A price of this tick in rupees. -/
def inRupees (raw : RawTick) (price : Binary64) : Binary64 :=
  if raw.isStreaming then price / 100 else price

def toTick (raw : RawTick) (symbol : String) : Tick where
  symbol
  exchange := raw.exchangeHint.getD .nse
  timestamp := raw.timestamp
  ltp := raw.inRupees ((raw.fields.firstOf ltpNames Json.price?).getD 0)
  bid := raw.inRupees (raw.quotedPrice bidNames "best_5_buy_data")
  ask := raw.inRupees (raw.quotedPrice askNames "best_5_sell_data")
  bidQty := raw.quotedQty bidQtyNames "best_5_buy_data"
  askQty := raw.quotedQty askQtyNames "best_5_sell_data"
  volume := (raw.fields.firstOf volumeNames Json.quantity?).getD 0
  seq := (raw.fields.firstOf seqNames Json.quantity?).getD 0

/-- The tick, or why it is none. A token alone is not enough. -/
def normalize (raw : RawTick) : Except TickRejection Tick :=
  match raw.symbol? with
  | some symbol => .ok (raw.toTick symbol)
  | none =>
    match raw.token? with
    | some token => .error (.unresolvedToken token)
    | none => .error .missingSymbol

/-- The raw tick with the identity of the instrument found for its token. An
exchange that the tick names itself stays. -/
def identify (raw : RawTick) (i : Instrument) : RawTick :=
  let named := raw.insert "symbol" (.string i.symbol)
  if raw.exchangeHint.isSome then named else named.insert "exchange" (.string i.exchange.code)

/-- The tick, with a token resolved by `lookup` when there is no symbol. A token
that is not found stays unresolved. -/
def normalizeWith (lookup : InstrumentLookup) (raw : RawTick) : Except TickRejection Tick :=
  match raw.normalize with
  | .error (.unresolvedToken token) =>
    match lookup token raw.exchangeHint with
    | some i => (raw.identify i).normalize
    | none => .error (.unresolvedToken token)
  | answer => answer

end RawTick

end TickFeed
