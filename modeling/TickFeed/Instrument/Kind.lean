import TickFeed.Text.Blank

/-! # Kinds of instruments

The class under which the reference data files an instrument. Rows of the cash
market carry an empty code. -/

namespace TickFeed

inductive InstrumentKind where
  | equity
  | index
  | indexFuture
  | stockFuture
  | indexOption
  | stockOption
  | commodityFuture
  | commodityOption
  | currencyFuture
  | currencyOption
  | other (code : String)
deriving DecidableEq

namespace InstrumentKind

instance : Inhabited InstrumentKind := ⟨.equity⟩

def known : List InstrumentKind :=
  [.equity, .index, .indexFuture, .stockFuture, .indexOption, .stockOption,
    .commodityFuture, .commodityOption, .currencyFuture, .currencyOption]

def spellings : InstrumentKind → List String
  | .equity => ["EQ", "EQUITY", ""]
  | .index => ["AMXIDX", "INDEX"]
  | .indexFuture => ["FUTIDX"]
  | .stockFuture => ["FUTSTK"]
  | .indexOption => ["OPTIDX"]
  | .stockOption => ["OPTSTK"]
  | .commodityFuture => ["FUTCOM"]
  | .commodityOption => ["OPTFUT", "OPTCOM"]
  | .currencyFuture => ["FUTCUR"]
  | .currencyOption => ["OPTCUR"]
  | .other code => [code]

def code : InstrumentKind → String
  | .equity => "EQ"
  | .index => "AMXIDX"
  | .indexFuture => "FUTIDX"
  | .stockFuture => "FUTSTK"
  | .indexOption => "OPTIDX"
  | .stockOption => "OPTSTK"
  | .commodityFuture => "FUTCOM"
  | .commodityOption => "OPTFUT"
  | .currencyFuture => "FUTCUR"
  | .currencyOption => "OPTCUR"
  | .other code => code

/-- The kind with this spelling, apart from letter case and padding. -/
def ofCode (s : String) : InstrumentKind :=
  let s := Text.upper (Text.trim s)
  (known.find? (·.spellings.contains s)).getD (.other s)

/-- Futures and options, the kinds whose instruments expire. -/
def isDerivative : InstrumentKind → Bool
  | .equity | .index | .other _ => false
  | _ => true

def isOption : InstrumentKind → Bool
  | .indexOption | .stockOption | .commodityOption | .currencyOption => true
  | _ => false

def isOther : InstrumentKind → Bool
  | .other _ => true
  | _ => false

end InstrumentKind

end TickFeed
