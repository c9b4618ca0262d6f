import Std.Data.HashMap
import Std.Data.TreeMap
import TickFeed.Instrument.Basic

/-! # Snapshots of reference data

A snapshot holds instruments in the order in which they were loaded and finds
them by symbol, by token, by expiry and by a part of the symbol. Every index
names an instrument by its slot, the place in that order. On one exchange a
symbol or a token belongs to one instrument; the first row to bring it wins.
A snapshot never changes once it is finished. -/

namespace TickFeed

structure Snapshot where
  instruments : Array Instrument
  bySymbol : Std.HashMap (Exchange × String) Nat
  byToken : Std.HashMap (Exchange × String) Nat
  /-- The slots of derivatives by expiry, each list in the order of symbols. -/
  byExpiry : Std.TreeMap Date (List Nat)
  /-- The symbols in upper case with their slots, in order. -/
  searchKeys : List (String × Nat)
  /-- How many loads there have been, this one included. -/
  generation : Nat

namespace Snapshot

/-- What is served before the first load. -/
def empty (generation : Nat) : Snapshot := ⟨#[], ∅, ∅, ∅, [], generation⟩

instance : Inhabited Snapshot := ⟨empty 0⟩

def size (s : Snapshot) : Nat := s.instruments.size

def toList (s : Snapshot) : List Instrument := s.instruments.toList

def atSlots (s : Snapshot) (slots : List Nat) : List Instrument :=
  slots.filterMap (s.instruments[·]?)

def findSymbol? (s : Snapshot) (symbol : String) (exchange : Exchange) : Option Instrument :=
  s.bySymbol[(exchange, symbol)]?.bind (s.instruments[·]?)

def findToken? (s : Snapshot) (token : String) (exchange : Exchange) : Option Instrument :=
  s.byToken[(exchange, token)]?.bind (s.instruments[·]?)

/-- The derivatives that expire on a date, by symbol. -/
def expiringOn (s : Snapshot) (date : Date) : List Instrument :=
  s.atSlots (s.byExpiry[date]?.getD [])

def expiries (s : Snapshot) : List Date := s.byExpiry.keys

def occursIn (part : List Char) : List Char → Bool
  | [] => part.isEmpty
  | c :: cs => part.isPrefixOf (c :: cs) || occursIn part cs

def beginsWith (query key : String) : Bool := query.toList.isPrefixOf key.toList

/-- Whether a symbol holds `query` elsewhere than at its beginning. -/
def holds (query key : String) : Bool :=
  !beginsWith query key && occursIn query.toList key.toList

/-- The slots of at most `limit` instruments whose symbol holds `query` in any
case: those that begin with it, then the others, each group in the order of the
symbols. The keys that begin with a text stand together, from the first key that
is not before it. -/
def searchSlots (s : Snapshot) (query : String) (limit : Nat) : List Nat :=
  let query := Text.upper (Text.trim query)
  if query = "" then []
  else
    let first := (s.searchKeys.dropWhile fun k => k.1 < query).takeWhile fun k =>
      beginsWith query k.1
    let first := first.take limit
    let others := (s.searchKeys.filter fun k => holds query k.1).take (limit - first.length)
    (first ++ others).map (·.2)

def search (s : Snapshot) (query : String) (limit : Nat) : List Instrument :=
  s.atSlots (s.searchSlots query limit)

end Snapshot

/-- A snapshot in the making, whose ordered indices are still in the order of
the rows. -/
structure SnapshotBuilder where
  draft : Snapshot

namespace SnapshotBuilder

def start (generation : Nat) : SnapshotBuilder := ⟨.empty generation⟩

/-- The number of rows for whose addresses, of eight bytes each, an address space
of 63 bits has no room. -/
def rowLimit : Nat := 2 ^ 60

/-- No rows yet, and room for `rows` of them, if there is so much. -/
def withRoom? (generation rows : Nat) : Option SnapshotBuilder :=
  if rows < rowLimit then some (start generation) else none

def size (b : SnapshotBuilder) : Nat := b.draft.size

/-- Whether an earlier row has the symbol or the token on that exchange. -/
def isDuplicate (b : SnapshotBuilder) (i : Instrument) : Bool :=
  b.draft.bySymbol.contains (i.exchange, i.symbol) ||
    b.draft.byToken.contains (i.exchange, i.token.text)

/-- The slots by expiry with one more instrument. -/
def addExpiry (byExpiry : Std.TreeMap Date (List Nat)) (i : Instrument) (slot : Nat) :
    Std.TreeMap Date (List Nat) :=
  match i.expiry with
  | some date =>
    if i.isDerivative then byExpiry.insert date (byExpiry[date]?.getD [] ++ [slot]) else byExpiry
  | none => byExpiry

/-- One more instrument, unless it is a duplicate. -/
def insert (b : SnapshotBuilder) (i : Instrument) : SnapshotBuilder :=
  if b.isDuplicate i then b
  else
    let s := b.draft
    let slot := s.size
    ⟨{ s with
      instruments := s.instruments.push i
      bySymbol := s.bySymbol.insert (i.exchange, i.symbol) slot
      byToken := s.byToken.insert (i.exchange, i.token.text) slot
      byExpiry := addExpiry s.byExpiry i slot
      searchKeys := (Text.upper i.symbol, slot) :: s.searchKeys }⟩

def symbolLe (instruments : Array Instrument) (a b : Nat) : Bool :=
  match instruments[a]?, instruments[b]? with
  | some i, some j => i.symbol ≤ j.symbol
  | _, _ => true

/-- The order of the search keys: by symbol, then by slot. -/
def keyLe (a b : String × Nat) : Bool := a.1 < b.1 || (a.1 = b.1 && a.2 ≤ b.2)

/-- The snapshot of the rows so far, with its indices in order. -/
def finish (b : SnapshotBuilder) : Snapshot :=
  let s := b.draft
  { s with
    byExpiry := s.byExpiry.map fun _ slots => slots.mergeSort (symbolLe s.instruments)
    searchKeys := s.searchKeys.mergeSort keyLe }

theorem keyLe_total (a b : String × Nat) : keyLe a b || keyLe b a := by
  simp only [keyLe, Bool.or_eq_true, decide_eq_true_eq, Bool.and_eq_true]
  by_cases h : a.1 < b.1
  · exact .inl (.inl h)
  · by_cases h' : b.1 < a.1
    · exact .inr (.inl h')
    · have he := String.le_antisymm (String.not_lt.1 h') (String.not_lt.1 h)
      rcases Nat.le_total a.2 b.2 with hn | hn
      · exact .inl (.inr ⟨he, hn⟩)
      · exact .inr (.inr ⟨he.symm, hn⟩)

theorem keyLe_trans (a b c : String × Nat) : keyLe a b → keyLe b c → keyLe a c := by
  simp only [keyLe, Bool.or_eq_true, decide_eq_true_eq, Bool.and_eq_true]
  rintro (h | ⟨h, hn⟩) (h' | ⟨h', hn'⟩)
  · exact .inl (String.lt_trans h h')
  · exact .inl (h' ▸ h)
  · exact .inl (h ▸ h')
  · exact .inr ⟨h.trans h', Nat.le_trans hn hn'⟩

end SnapshotBuilder

end TickFeed
