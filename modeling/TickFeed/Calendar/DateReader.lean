import TickFeed.Calendar.Date
import TickFeed.Text.Blank

/-! # Dates in text

A layout is a list of items: numbers, the English short name of a month, and
fixed characters. Blanks may stand in front of every number, and where the
layout says so. A year is a sign and any number of digits, or one to four
digits; the other numbers have one or two digits. -/

namespace TickFeed.Date

inductive Item where
  | year
  | month
  | monthName
  | day
  | char (c : Char)
  | blanks
deriving DecidableEq

structure Reading where
  year : Int
  month : Nat
  day : Nat

/-- The number at the front, of one to `limit` digits, and the rest. -/
def number? (limit : Nat) (cs : List Char) : Option (Nat × List Char) :=
  let ds := (cs.takeWhile Char.isDigit).take limit
  if ds = [] then none else some (Text.digitsValue ds, cs.drop ds.length)

def year? : List Char → Option (Int × List Char)
  | '-' :: cs => (number? cs.length cs).map fun (n, r) => (-n, r)
  | '+' :: cs => (number? cs.length cs).map fun (n, r) => (n, r)
  | cs => (number? 4 cs).map fun (n, r) => (n, r)

def monthNames : List String :=
  ["jan", "feb", "mar", "apr", "may", "jun", "jul", "aug", "sep", "oct", "nov", "dec"]

/-- The short name of a month at the front, in any case, and the rest. -/
def monthName? (cs : List Char) : Option (Nat × List Char) :=
  (monthNames.idxOf? (String.ofList ((cs.take 3).map Char.toLower))).map fun i =>
    (i + 1, cs.drop 3)

def readItem (r : Reading) (cs : List Char) : Item → Option (Reading × List Char)
  | .year => (year? (Text.dropBlanks cs)).map fun (n, cs) => ({ r with year := n }, cs)
  | .month => (number? 2 (Text.dropBlanks cs)).map fun (n, cs) => ({ r with month := n }, cs)
  | .monthName => (monthName? cs).map fun (n, cs) => ({ r with month := n }, cs)
  | .day => (number? 2 (Text.dropBlanks cs)).map fun (n, cs) => ({ r with day := n }, cs)
  | .char c =>
    match cs with
    | d :: rest => if c = d then some (r, rest) else none
    | [] => none
  | .blanks => some (r, Text.dropBlanks cs)

def readItems (r : Reading) (cs : List Char) : List Item → Option (Reading × List Char)
  | [] => some (r, cs)
  | item :: items => (readItem r cs item).bind fun (r, cs) => readItems r cs items

/-- The date that the whole of `s` spells in a layout. -/
def readAs? (layout : List Item) (s : String) : Option Date :=
  match readItems ⟨0, 0, 0⟩ s.toList layout with
  | some (r, []) => make? r.year r.month r.day
  | _ => none

/-- Day, name of the month, year: `26FEB2026`. -/
def compactLayout : List Item := [.day, .monthName, .year]

/-- Year, month, day: `2026-02-26`. -/
def isoLayout : List Item := [.year, .char '-', .month, .char '-', .day]

/-- The same with blanks around the dashes and at the end. -/
def looseIsoLayout : List Item :=
  [.year, .blanks, .char '-', .month, .blanks, .char '-', .day, .blanks]

end TickFeed.Date
