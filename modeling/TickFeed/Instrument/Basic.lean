import TickFeed.Instrument.Kind
import TickFeed.Instrument.Id
import TickFeed.Calendar.DateReader
import TickFeed.Decimal.Reader
import TickFeed.Json.Record

/-! # Instruments

One record of reference data: what can be traded where, and in which steps its
price moves. -/

namespace TickFeed

structure Instrument where
  id : InstrumentId
  /-- The trading symbol. -/
  symbol : String
  /-- The underlying, or a name for display. -/
  name : String
  token : Token
  exchange : Exchange
  kind : InstrumentKind
  expiry : Option Date
  strike : Option Decimal
  lotSize : UInt32
  /-- The smallest step of the price, in rupees. -/
  priceIncrement : Decimal
deriving DecidableEq

namespace Instrument

def isDerivative (i : Instrument) : Bool := i.kind.isDerivative

/-- The multiple of the price increment nearest to `price`. Without an increment
every price will do. There is no answer when the quotient or the product
overflows. -/
def roundToIncrement? (i : Instrument) (price : Decimal) : Option Decimal :=
  if i.priceIncrement.isZero then some price
  else do
    let steps ← (← price.div? i.priceIncrement).round?
    steps.mul? i.priceIncrement

def fieldNames : List String :=
  ["instrument_id", "symbol", "name", "token", "exchange", "instrument_type", "expiry",
    "strike", "lot_size", "price_increment"]

/-- A record of reference data in a document. Texts are taken as they are. -/
def ofDocument? (d : Json.Document) : Option Instrument := do
  let r ← d.record? fieldNames false
  let decimal := fun (d : Json.Document) => d.string?.bind Decimal.read?
  let date := fun (d : Json.Document) => d.string?.bind (Date.readAs? Date.looseIsoLayout)
  return {
    id := ⟨← r.required "instrument_id" Json.Document.string?⟩
    symbol := ← r.required "symbol" Json.Document.string?
    name := ← r.required "name" Json.Document.string?
    token := ⟨← r.required "token" Json.Document.string?⟩
    exchange := Exchange.ofCode (← r.required "exchange" Json.Document.string?)
    kind := InstrumentKind.ofCode (← r.required "instrument_type" Json.Document.string?)
    expiry := ← r.optional "expiry" date
    strike := ← r.optional "strike" decimal
    lotSize := ← r.required "lot_size" Json.Document.uint32?
    priceIncrement := ← r.required "price_increment" decimal
  }

def read? (s : String) : Option Instrument := (Json.Document.read? s).bind ofDocument?

end Instrument

/-- A way to find the instrument with a token, narrowed to an exchange when the
caller knows one. -/
abbrev InstrumentLookup := String → Option Exchange → Option Instrument

end TickFeed
