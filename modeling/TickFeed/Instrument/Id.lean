import TickFeed.Exchange

/-! # Identifiers

An instrument is known inside the feed by its symbol and the code of its
exchange, with a dot between them. The symbol may hold dots itself: the last
dot is the one that divides. On the wire it is known by a token, which the
broker assigns and which is unique on one exchange only. -/

namespace TickFeed

/-- The text before the last dot and the text after it. -/
def splitAtLastDot? : List Char → Option (List Char × List Char)
  | [] => none
  | c :: rest =>
    match splitAtLastDot? rest with
    | some (before, after) => some (c :: before, after)
    | none => if c = '.' then some ([], rest) else none

structure InstrumentId where
  text : String
deriving DecidableEq

namespace InstrumentId

def ofSymbol (symbol : String) (exchange : Exchange) : InstrumentId :=
  ⟨symbol ++ "." ++ exchange.code⟩

/-- The symbol and the exchange code. Without a dot all is symbol. -/
def split (id : InstrumentId) : String × String :=
  match splitAtLastDot? id.text.toList with
  | some (symbol, venue) => (String.ofList symbol, String.ofList venue)
  | none => (id.text, "")

/-- The identifier written as `s`, if it has both parts. -/
def read? (s : String) : Option InstrumentId :=
  match splitAtLastDot? s.toList with
  | some (symbol, venue) => if symbol ≠ [] ∧ venue ≠ [] then some ⟨s⟩ else none
  | none => none

end InstrumentId

/-- The broker's name for an instrument. -/
structure Token where
  text : String
deriving DecidableEq, Hashable

def Token.ofText (s : String) : Token := ⟨Text.trim s⟩

end TickFeed
