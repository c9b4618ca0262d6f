import TickFeed.Instrument.Basic
import TickFeed.Json.Writer
import TickFeed.Text.Quoted

/-! # Rows of reference data

A row gives values by column. The value of a column is text or a number; columns
that are missing, null or blank have none. Some columns go by two names, and the
first with a value counts. `Row.toInstrument` is the instrument of a row, or the
first thing that is wrong with it, the identity before the numbers. -/

namespace TickFeed

abbrev Row := Json.Fields

inductive RowError where
  /-- The row is some other value than an object. -/
  | notAnObject
  /-- The row could not be read; lines count from one. -/
  | unparsable (line : Nat)
  | missingColumn (name : String)
  | invalidLotSize (text : String)
  | invalidExpiry (text : String)
  | invalidStrike (text : String)
  | invalidTickSize (text : String)
deriving DecidableEq

def RowError.message : RowError → String
  | .notAnObject => "row is not a JSON object"
  | .unparsable line => "line " ++ toString line ++ " could not be parsed"
  | .missingColumn name => "missing required column " ++ name
  | .invalidLotSize text => "invalid lot size " ++ Text.quoted text
  | .invalidExpiry text => "invalid expiry " ++ Text.quoted text
  | .invalidStrike text => "invalid strike " ++ Text.quoted text
  | .invalidTickSize text => "invalid tick size " ++ Text.quoted text

namespace Row

/-- The text of a value, without padding; blank text and other values are none. -/
def valueText? : Json → Option String
  | .string s => some (Text.trim s) |>.filter (· ≠ "")
  | .number n => some n.text
  | _ => none

/-- The text in the first of `columns` that has one. -/
def column? (row : Row) (columns : List String) : Option String :=
  columns.findSome? fun name => (row.get? name).bind valueText?

/-- A positive whole number of 32 bits, which may be written as a decimal. -/
def lotSize? (text : String) : Option UInt32 :=
  let fromDecimal : Option UInt32 := do
    let n ← (← Decimal.read? text).toInt?
    if 0 ≤ n ∧ n < 2 ^ 32 then some (UInt32.ofNat n.toNat) else none
  ((Text.uint32? text).or fromDecimal).filter (0 < ·)

/-- The lot size, which is one when the column is blank. -/
def lotSize (text : Option String) : Except RowError UInt32 :=
  match text with
  | none => .ok 1
  | some t =>
    match lotSize? t with
    | some n => .ok n
    | none => .error (.invalidLotSize t)

/-- The expiry, in the compact layout or in the one of ISO 8601. -/
def expiry (text : Option String) : Except RowError (Option Date) :=
  match text with
  | none => .ok none
  | some t =>
    match (Date.readAs? Date.compactLayout t).or (Date.readAs? Date.isoLayout t) with
    | some d => .ok (some d)
    | none => .error (.invalidExpiry t)

/-- The strike. Rows of instruments without one carry zero or minus one. -/
def strike (text : Option String) : Except RowError (Option Decimal) :=
  match text with
  | none => .ok none
  | some t =>
    match Decimal.read? t with
    | some d => .ok (if d.isPositive then some d else none)
    | none => .error (.invalidStrike t)

/-- Five paise. -/
def defaultIncrement : Decimal := ⟨false, 5, 2, by decide, by decide⟩

/-- The price increment in rupees. A tick size of one and more is in paise, a
smaller one in rupees; without a positive tick size it is the default. -/
def priceIncrement (text : Option String) : Except RowError Decimal :=
  match text with
  | none => .ok defaultIncrement
  | some t =>
    match Decimal.read? t with
    | none => .error (.invalidTickSize t)
    | some d =>
      if ¬d.isPositive then .ok defaultIncrement
      else if d.atLeastOne then .ok ((d.div? Decimal.hundred).getD d).normalize
      else .ok d.normalize

def requiredColumn (row : Row) (columns : List String) (name : String) : Except RowError String :=
  match row.column? columns with
  | some text => .ok text
  | none => .error (.missingColumn name)

def toInstrument (row : Row) : Except RowError Instrument := do
  let token ← row.requiredColumn ["token"] "token"
  let symbol ← row.requiredColumn ["symbol"] "symbol"
  let exchange := Exchange.ofCode (← row.requiredColumn ["exch_seg", "exchange"] "exch_seg")
  let name := (row.column? ["name"]).getD symbol
  let kind := InstrumentKind.ofCode
    ((row.column? ["instrumenttype", "instrument_type"]).getD "")
  let lotSize ← lotSize (row.column? ["lotsize", "lot_size"])
  let expiry ← expiry (row.column? ["expiry"])
  let strike ← strike (row.column? ["strike"])
  let priceIncrement ← priceIncrement (row.column? ["tick_size", "price_increment"])
  return {
    id := InstrumentId.ofSymbol symbol exchange
    symbol, name, token := Token.ofText token, exchange, kind, expiry, strike, lotSize,
    priceIncrement
  }

end Row

end TickFeed
