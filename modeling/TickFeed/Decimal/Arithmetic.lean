import TickFeed.Decimal.Basic

/-! # Arithmetic on decimals

A result that needs more than 28 places or 96 bits is rounded to as many places
as fit, a tie going to the even neighbour. A result that does not fit even
without places is an overflow, and the operation has no answer. -/

namespace TickFeed.Decimal

/-- `num / den` with the most places, `scale` at most, that fit. -/
def ofRatio? (neg : Bool) (num den : Nat) (scale : Nat) : Option Decimal :=
  ((List.range (scale + 1)).reverse).findSome? fun s =>
    make? neg (Rounding.halfEven (num * 10 ^ s) den) s

/-- The quotient, exact or rounded; the divisor is not zero. -/
def div? (x y : Decimal) : Option Decimal :=
  ofRatio? (x.isNegative != y.isNegative) (x.magnitude * 10 ^ y.scale)
    (y.magnitude * 10 ^ x.scale) 28

/-- The product, exact or rounded. The product with a zero has no places. -/
def mul? (x y : Decimal) : Option Decimal :=
  if x.isZero ∨ y.isZero then some zero
  else
    ofRatio? (x.isNegative != y.isNegative) (x.magnitude * y.magnitude)
      (10 ^ (x.scale + y.scale)) (Nat.min 28 (x.scale + y.scale))

/-- The nearest integer, a tie going to the even one. -/
def round? (x : Decimal) : Option Decimal :=
  make? x.isNegative (Rounding.halfEven x.magnitude (10 ^ x.scale)) 0

end TickFeed.Decimal
