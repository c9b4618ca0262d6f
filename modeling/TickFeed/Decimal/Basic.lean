import TickFeed.Rounding
import TickFeed.Text.Numeral

/-! # Decimals

A decimal is a sign and a whole number of units of `10 ^ -scale`, with at most
28 places and a magnitude below `2 ^ 96`. The scale is part of the value: `0.50`
and `0.5` are written differently. A zero has no sign, unless it is what is left
of a negative number after its places were rounded away. -/

namespace TickFeed

structure Decimal where
  isNegative : Bool
  /-- The absolute value in units of `10 ^ -scale`. -/
  magnitude : Nat
  scale : Nat
  magnitude_lt : magnitude < 2 ^ 96
  scale_le : scale ≤ 28
deriving DecidableEq

namespace Decimal

/-- The decimal with these parts, if there is one. -/
def ofParts? (neg : Bool) (magnitude scale : Nat) : Option Decimal :=
  if h : magnitude < 2 ^ 96 ∧ scale ≤ 28 then some ⟨neg, magnitude, scale, h.1, h.2⟩ else none

/-- The decimal with these parts, if there is one, a zero without a sign. -/
def make? (neg : Bool) (magnitude scale : Nat) : Option Decimal :=
  ofParts? (neg && magnitude != 0) magnitude scale

def zero : Decimal := ⟨false, 0, 0, by decide, by decide⟩

def hundred : Decimal := ⟨false, 100, 0, by decide, by decide⟩

instance : Inhabited Decimal := ⟨zero⟩

/-- The value in units of `10 ^ -scale`. -/
def mantissa (d : Decimal) : Int := if d.isNegative then -d.magnitude else d.magnitude

def isZero (d : Decimal) : Bool := d.magnitude = 0

def isPositive (d : Decimal) : Bool := 0 < d.mantissa

def atLeastOne (d : Decimal) : Bool := (10 ^ d.scale : Int) ≤ d.mantissa

/-- The integer that a decimal equals. -/
def toInt? (d : Decimal) : Option Int :=
  if d.mantissa % 10 ^ d.scale = 0 then some (d.mantissa / 10 ^ d.scale) else none

/-- `magnitude` and `scale` without trailing zeros after the point. -/
def stripZeros (magnitude : Nat) : Nat → Nat × Nat
  | 0 => (magnitude, 0)
  | scale + 1 =>
    if magnitude % 10 = 0 then stripZeros (magnitude / 10) scale else (magnitude, scale + 1)

theorem stripZeros_le (magnitude scale : Nat) :
    (stripZeros magnitude scale).1 ≤ magnitude ∧ (stripZeros magnitude scale).2 ≤ scale := by
  induction scale generalizing magnitude with
  | zero => simp [stripZeros]
  | succ scale ih =>
    simp only [stripZeros]
    split
    · have := ih (magnitude / 10)
      omega
    · simp

def normalize (d : Decimal) : Decimal :=
  let m := (stripZeros d.magnitude d.scale).1
  let s := (stripZeros d.magnitude d.scale).2
  have h : m ≤ d.magnitude ∧ s ≤ d.scale := stripZeros_le d.magnitude d.scale
  ⟨d.isNegative, m, s, Nat.lt_of_le_of_lt h.1 d.magnitude_lt, Nat.le_trans h.2 d.scale_le⟩

/-- Positional text with every place of the scale. -/
def text (d : Decimal) : String :=
  let ds := (Text.padded (d.scale + 1) d.magnitude).toList
  let whole := ds.take (ds.length - d.scale)
  let fraction := ds.drop (ds.length - d.scale)
  String.ofList ((if d.isNegative then ['-'] else []) ++ whole ++
    if fraction = [] then [] else '.' :: fraction)

end Decimal

end TickFeed
