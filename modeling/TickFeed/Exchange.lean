import TickFeed.Text.Blank

/-! # Exchange segments

A segment is one of the seven known ones, or is known by its code alone, for
the reference data gains segments without notice. `ofCode` takes the codes of
the reference data and the segment names of the streaming feed, in any case and
padded with blanks. -/

namespace TickFeed

inductive Exchange where
  /-- Equities of the National Stock Exchange. -/
  | nse
  /-- Equities of the Bombay Stock Exchange. -/
  | bse
  /-- Futures and options of the National Stock Exchange. -/
  | nfo
  /-- Futures and options of the Bombay Stock Exchange. -/
  | bfo
  /-- Commodities. -/
  | mcx
  /-- Currency derivatives. -/
  | cds
  /-- Agricultural commodities. -/
  | ncdex
  /-- A segment without a name of its own. -/
  | other (code : String)
deriving DecidableEq, Hashable

namespace Exchange

instance : Inhabited Exchange := ⟨.nse⟩

def known : List Exchange := [.nse, .bse, .nfo, .bfo, .mcx, .cds, .ncdex]

/-- The spellings of a segment that `ofCode` takes; the code is the first. -/
def spellings : Exchange → List String
  | .nse => ["NSE", "NSE_CM"]
  | .bse => ["BSE", "BSE_CM"]
  | .nfo => ["NFO", "NSE_FO"]
  | .bfo => ["BFO", "BSE_FO"]
  | .mcx => ["MCX", "MCX_FO"]
  | .cds => ["CDS", "CDE_FO"]
  | .ncdex => ["NCDEX", "NCX", "NCX_FO"]
  | .other code => [code]

def code : Exchange → String
  | .nse => "NSE"
  | .bse => "BSE"
  | .nfo => "NFO"
  | .bfo => "BFO"
  | .mcx => "MCX"
  | .cds => "CDS"
  | .ncdex => "NCDEX"
  | .other code => code

/-- The segment with this spelling, apart from letter case and padding. -/
def ofCode (s : String) : Exchange :=
  let s := Text.upper (Text.trim s)
  (known.find? (·.spellings.contains s)).getD (.other s)

/-- The segment behind a number of the streaming feed. -/
def ofFeedCode? (n : UInt64) : Option Exchange :=
  if n = 1 then some .nse
  else if n = 2 then some .nfo
  else if n = 3 then some .bse
  else if n = 4 then some .bfo
  else if n = 5 then some .mcx
  else if n = 7 then some .ncdex
  else if n = 13 then some .cds
  else none

def isOther : Exchange → Bool
  | .other _ => true
  | _ => false

/-- The known segments in their order, then the others by code. -/
def le (a b : Exchange) : Bool :=
  match a, b with
  | .other a, .other b => a ≤ b
  | .other _, _ => false
  | _, .other _ => true
  | a, b => known.idxOf a ≤ known.idxOf b

end Exchange

end TickFeed
