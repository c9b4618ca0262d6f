import TickFeed.Decimal.Arithmetic

/-! # Decimals in text

`plain?` reads an optional sign, digits with at most one point among them, and
underscores anywhere after the first digit. Places that do not fit are dropped,
and the first of them rounds the rest, a half away from zero; whole digits that
do not fit are an error. An underscore in the place of the first one dropped
rounds nothing, as long as the number is narrow. `read?` also takes an exponent
after such a text. -/

namespace TickFeed.Decimal

/-- The digits before the point, and the digits and underscores after it.
`started` tells that a digit has been seen, `point` that the point has. -/
def parts? (started point : Bool) : List Char → Option (List Char × List Char)
  | [] => if started then some ([], []) else none
  | c :: rest =>
    if c.isDigit then
      (parts? true point rest).map fun (w, f) => if point then (w, c :: f) else (c :: w, f)
    else if c = '.' ∧ ¬point then parts? started true rest
    else if c = '_' ∧ started then
      (parts? started point rest).map fun (w, f) => (w, if point then c :: f else f)
    else none

/-- Rounds `magnitude` by the first digit dropped. When that carries beyond 96
bits, one place less is kept. -/
def roundBy (magnitude scale digit : Nat) : Option (Nat × Nat) :=
  if digit < 5 then some (magnitude, scale)
  else if magnitude + 1 < 2 ^ 96 then some (magnitude + 1, scale)
  else if scale = 0 then none
  else some ((magnitude + 5) / 10, scale - 1)

/-- Whether all digits but the last were read in one word of 64 bits, some of
which is kept in reserve. -/
def isNarrow (magnitude : Nat) : Bool := magnitude / 10 < 2 ^ 64 / 10 - 255

/-- Appends places as long as they fit. -/
def appendPlaces (magnitude scale : Nat) : List Char → Option (Nat × Nat)
  | [] => some (magnitude, scale)
  | c :: rest =>
    if c = '_' then
      if scale = 28 ∧ isNarrow magnitude then some (magnitude, scale)
      else appendPlaces magnitude scale rest
    else
      let digit := c.toNat - '0'.toNat
      if scale = 28 ∨ 2 ^ 96 ≤ 10 * magnitude + digit then roundBy magnitude scale digit
      else appendPlaces (10 * magnitude + digit) (scale + 1) rest

/-- A decimal without exponent. -/
def plain? (cs : List Char) : Option Decimal := do
  let (neg, cs) := Text.splitSign cs
  let (whole, fraction) ← parts? false false cs
  let n := Text.digitsValue whole
  if 2 ^ 96 ≤ n then none
  else do
    let (m, s) ← appendPlaces n 0 fraction
    make? neg m s

/-- An exponent: an unsigned integer of 32 bits, which may have a plus sign, and
a minus sign before it when it is to count as negative. -/
def exponent? (cs : List Char) : Option (Bool × Nat) :=
  let unsigned := fun ds => (Text.nat? ds).filter (· < 2 ^ 32)
  match cs with
  | '-' :: ds => (unsigned ds).map (true, ·)
  | ds => (unsigned ds).map (false, ·)

/-- `x * 10 ^ -e`, as that many more places. Where there are not so many, places
of `x` are first rounded away, a half away from zero; the sign stays. -/
def shiftRight? (x : Decimal) (e : Nat) : Option Decimal :=
  if 28 < e then none
  else if x.scale + e ≤ 28 then ofParts? x.isNegative x.magnitude (x.scale + e)
  else ofParts? x.isNegative (Rounding.halfUp x.magnitude (10 ^ (x.scale + e - 28))) 28

/-- `x * 10 ^ e`: fewer places where there are enough of them, else a product
without trailing zeros. The product is taken in two steps, of at most nineteen
powers and of the rest. -/
def shiftLeft? (x : Decimal) (e : Nat) : Option Decimal :=
  if e ≤ x.scale then ofParts? x.isNegative x.magnitude (x.scale - e)
  else if 28 < e then none
  else do
    let first ← make? false (10 ^ Nat.min e 19) 0
    let second ← make? false (10 ^ (e - 19)) 0
    let y ← x.mul? first
    let z ← if 19 < e then y.mul? second else some y
    return z.normalize

def readChars? (cs : List Char) : Option Decimal :=
  match plain? cs with
  | some d => some d
  | none =>
    let isMark := fun c => c = 'e' ∨ c = 'E'
    match cs.dropWhile (fun c => ¬isMark c) with
    | [] => none
    | _ :: power => do
      let base ← plain? (cs.takeWhile fun c => ¬isMark c)
      let (neg, e) ← exponent? power
      if neg then shiftRight? base e else shiftLeft? base e

def read? (s : String) : Option Decimal := readChars? s.toList

end TickFeed.Decimal
