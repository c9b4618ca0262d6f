import TickFeed.Binary64.Basic
import TickFeed.Text.Numeral

/-! # Doubles in text

`ofDecimal` is the double nearest to a decimal numeral. `read?` reads an
optional sign and then either digits with an optional point and exponent, with
at least one digit beside the point, or one of the words `inf`, `infinity` and
`nan` in any case. Blanks and separators are refused. -/

namespace TickFeed.Binary64

/-- The double nearest to `digits * 10 ^ exponent`. Exponents for which the
answer is settled by the number of digits alone are answered without the
power. -/
def ofDecimal (neg : Bool) (digits : Nat) (exponent : Int) : Binary64 :=
  let size := (Nat.toDigits 10 digits).length + exponent
  if digits = 0 ∨ size < -330 then .finite neg 0 fits_zero
  else if 320 < size then .infinite neg
  else if 0 ≤ exponent then ofRatio neg (digits * 10 ^ exponent.toNat) 1
  else ofRatio neg digits (10 ^ (-exponent).toNat)

/-- A decimal numeral in parts: sign, digits before and after the point,
exponent. -/
structure Numeral where
  neg : Bool
  whole : List Char
  fraction : List Char
  exponent : Int
deriving DecidableEq

def Numeral.toBinary64 (n : Numeral) : Binary64 :=
  ofDecimal n.neg (Text.digitsValue (n.whole ++ n.fraction))
    (n.exponent - n.fraction.length)

/-- Nothing, or `e` and a signed run of digits up to the end. -/
def exponent? : List Char → Option Int
  | [] => some 0
  | c :: cs =>
    if c = 'e' ∨ c = 'E' then
      let (neg, ds) := Text.splitSign cs
      (Text.digits? ds).map fun n => if neg then -n else n
    else none

def numeral? (neg : Bool) (cs : List Char) : Option Numeral :=
  let whole := cs.takeWhile Char.isDigit
  let rest := cs.dropWhile Char.isDigit
  let (fraction, rest) := match rest with
    | '.' :: r => (r.takeWhile Char.isDigit, r.dropWhile Char.isDigit)
    | r => ([], r)
  if whole = [] ∧ fraction = [] then none
  else (exponent? rest).map fun e => ⟨neg, whole, fraction, e⟩

/-- The value of a word for an infinity or for what is not a number. -/
def word? (neg : Bool) (cs : List Char) : Option Binary64 :=
  let w := cs.map Char.toLower
  if w = "inf".toList ∨ w = "infinity".toList then some (.infinite neg)
  else if w = "nan".toList then some .nan
  else none

/-- The double that the whole of `s` spells. -/
def read? (s : String) : Option Binary64 :=
  let (neg, cs) := Text.splitSign s.toList
  match word? neg cs with
  | some x => some x
  | none => (numeral? neg cs).map Numeral.toBinary64

end TickFeed.Binary64
