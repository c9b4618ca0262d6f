import TickFeed.Json.Basic
import TickFeed.Text.Numeral

/-! # Numerals in JSON

`Numeral.toNumber?` is the number that a numeral names: an integer where one of
64 bits is written without point and exponent, and a double otherwise. The
double is found in a short way. The leading digits are taken as an integer of
64 bits, however many fit; that is rounded to a double and then multiplied or
divided by a power of ten, which rounds again. So a long numeral may name a
neighbour of the double nearest to it. -/

namespace TickFeed.Json

/-- A numeral as it is written. The fraction is empty when there is no point. -/
structure Numeral where
  neg : Bool
  whole : List Char
  fraction : List Char
  exponent : Option Int
deriving DecidableEq

/-- The integer of 64 bits that as many of the digits as fit append to `value`,
and how many digits are left over. -/
def leadingDigits (value : Nat) : List Char → Nat × Nat
  | [] => (value, 0)
  | c :: cs =>
    let next := 10 * value + (c.toNat - '0'.toNat)
    if next < 2 ^ 64 then leadingDigits next cs else (value, cs.length + 1)

def maxPowerOfTen : Nat := 308

def powerOfTen (e : Nat) : Binary64 := .ofNat (10 ^ e)

/-- `x * 10 ^ e` for an `x` below `2 ^ 64` that is not negative, by one product or
quotient, and by two quotients where one does not reach. -/
def scaleByTen (x : Binary64) (e : Int) : Binary64 :=
  if maxPowerOfTen < e then if x = .zero then .zero else .infinite false
  else if 0 ≤ e then x * powerOfTen e.toNat
  else if -maxPowerOfTen ≤ e then x / powerOfTen (-e).toNat
  else if -2 * maxPowerOfTen ≤ e then
    x / powerOfTen maxPowerOfTen / powerOfTen (-e - maxPowerOfTen).toNat
  else .zero

namespace Numeral

def significand (n : Numeral) : Nat × Int :=
  let (whole, dropped) := leadingDigits 0 n.whole
  let (digits, unread) := leadingDigits whole n.fraction
  (digits, n.exponent.getD 0 + dropped - (n.fraction.length - unread : Nat))

def toBinary64 (n : Numeral) : Binary64 :=
  let (digits, e) := n.significand
  let x := scaleByTen (.ofNat digits) e
  if n.neg then -x else x

/-- The number that the numeral names; none when that is an infinite double.
Minus zero is a double. -/
def toNumber? (n : Numeral) : Option Number :=
  let whole := Text.digitsValue n.whole
  let double := if h : n.toBinary64.isFinite then some (.double n.toBinary64 h) else none
  if n.fraction = [] ∧ n.exponent = none then
    if n.neg then
      if h : 0 < whole ∧ whole ≤ 2 ^ 63 then
        some (.integer (-whole) (by omega) (by omega))
      else double
    else if h : whole < 2 ^ 64 then some (.integer whole (by omega) (by omega))
    else double
  else double

end Numeral

end TickFeed.Json
