import TickFeed.Power

/-! # Integers in text

An integer is an optional sign and ASCII digits, and nothing else: no blanks,
no separators. `unsigned?` takes only a plus sign, so that even `-0` is no
unsigned integer. A value out of range is no integer of that width. -/

namespace TickFeed.Text

def digitsValue (cs : List Char) : Nat :=
  cs.foldl (fun n c => 10 * n + (c.toNat - '0'.toNat)) 0

/-- The value of a non-empty run of ASCII digits. -/
def digits? (cs : List Char) : Option Nat :=
  if cs ≠ [] ∧ cs.all Char.isDigit then some (digitsValue cs) else none

/-- Whether there is a minus sign in front, and what follows an optional sign. -/
def splitSign : List Char → Bool × List Char
  | '-' :: cs => (true, cs)
  | '+' :: cs => (false, cs)
  | cs => (false, cs)

/-- A natural number with an optional plus sign. -/
def nat? : List Char → Option Nat
  | '+' :: cs => digits? cs
  | cs => digits? cs

def int? : List Char → Option Int
  | '-' :: cs => (digits? cs).map fun n => -(n : Int)
  | cs => (nat? cs).map Int.ofNat

def unsigned? (width : Nat) (s : String) : Option Nat :=
  (nat? s.toList).filter (· < 2 ^ width)

def signed? (width : Nat) (s : String) : Option Int :=
  (int? s.toList).filter fun n => -(2 ^ (width - 1) : Int) ≤ n ∧ n < 2 ^ (width - 1)

def uint64? (s : String) : Option UInt64 := (unsigned? 64 s).map UInt64.ofNat

def uint32? (s : String) : Option UInt32 := (unsigned? 32 s).map UInt32.ofNat

def int64? (s : String) : Option Int64 := (signed? 64 s).map Int64.ofInt

/-- `n` in decimal, with zeros in front up to `width` digits. -/
def padded (width n : Nat) : String :=
  let ds := Nat.toDigits 10 n
  String.ofList (List.replicate (width - ds.length) '0' ++ ds)

end TickFeed.Text
