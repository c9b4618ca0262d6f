import TickFeed.Power
import TickFeed.Rounding

/-! # Doubles

A finite double is a sign and a whole number of units of `2 ^ -1074`, the
smallest positive double. Not every number of units occurs: beyond 53 binary
digits only multiples of a power of two do, and `Fits` says which. So two
finite doubles are equal exactly when sign and units agree, an operation is an
exact quotient of natural numbers followed by one rounding, and the order of
finite doubles is the order of their units. -/

namespace TickFeed

namespace Binary64

/-- The distance between neighbouring doubles at `u` units. -/
def spacing (u : Nat) : Nat := 2 ^ (u.log2 - 52)

/-- `u` units make a double: at most 53 significant bits, below `2 ^ 1024`. -/
def Fits (u : Nat) : Prop := u.log2 < 2098 ∧ spacing u ∣ u

instance (u : Nat) : Decidable (Fits u) := inferInstanceAs (Decidable (_ ∧ _))

end Binary64

/-- A number of the binary64 format. The zero and the infinity have a sign;
there is one value that is not a number. -/
inductive Binary64 where
  | finite (neg : Bool) (units : Nat) (fits : Binary64.Fits units)
  | infinite (neg : Bool)
  | nan
deriving DecidableEq

namespace Binary64

theorem fits_zero : Fits 0 := by decide

def zero : Binary64 := .finite false 0 fits_zero

instance : Inhabited Binary64 := ⟨zero⟩

theorem spacing_pos (u : Nat) : 0 < spacing u := Nat.two_pow_pos _

theorem spacing_of_lt {u : Nat} (h : u < 2 ^ 53) : spacing u = 1 := by
  unfold spacing
  by_cases hu : u = 0
  · subst hu; rfl
  · have : u.log2 < 53 := (Nat.log2_lt hu).2 h
    have hz : u.log2 - 52 = 0 := by omega
    simp only [hz, Nat.pow_zero]

/-- At most `2 ^ 53` steps of a power of two are on the grid of doubles. -/
theorem spacing_dvd_mul_pow {m : Nat} (h : m ≤ 2 ^ 53) (e : Nat) :
    spacing (m * 2 ^ e) ∣ m * 2 ^ e := by
  rcases Nat.eq_or_lt_of_le h with rfl | hlt
  · unfold spacing
    rw [← Nat.pow_add, Nat.log2_two_pow]
    exact Nat.pow_dvd_pow 2 (by omega)
  · by_cases hm : m = 0
    · subst hm; simp
    · have hp : 0 < 2 ^ e := Nat.two_pow_pos e
      have hne : m * 2 ^ e ≠ 0 := Nat.mul_ne_zero hm (by omega)
      have hb : (m * 2 ^ e).log2 < 53 + e := by
        rw [Nat.log2_lt hne, Nat.pow_add]
        exact Nat.mul_lt_mul_of_pos_right hlt hp
      exact Nat.dvd_trans (Nat.pow_dvd_pow 2 (by omega)) (Nat.dvd_mul_left _ m)

/-- `num / den` units, rounded to the nearest multiple of the spacing there;
a tie goes to the even multiple. -/
def roundUnits (num den : Nat) : Nat :=
  let s := spacing (num / den)
  Rounding.halfEven num (den * s) * s

theorem spacing_dvd_roundUnits (num den : Nat) :
    spacing (roundUnits num den) ∣ roundUnits num den := by
  unfold roundUnits
  generalize hq : num / den = q
  have hle : Rounding.halfEven num (den * spacing q) ≤ 2 ^ 53 := by
    have h1 := Rounding.halfEven_le num (den * spacing q)
    rw [← Nat.div_div_eq_div_mul, hq] at h1
    have h2 : q / spacing q < 2 ^ 53 := by
      rw [Nat.div_lt_iff_lt_mul (spacing_pos q)]
      unfold spacing
      rw [← Nat.pow_add]
      exact Nat.lt_of_lt_of_le Nat.lt_log2_self (Nat.pow_le_pow_right (by decide) (by omega))
    omega
  exact spacing_dvd_mul_pow hle (q.log2 - 52)

/-- The double nearest to `num / den` units; infinity once that reaches
`2 ^ 1024`. -/
def ofUnits (neg : Bool) (num den : Nat) : Binary64 :=
  if h : (roundUnits num den).log2 < 2098 then
    .finite neg (roundUnits num den) ⟨h, spacing_dvd_roundUnits num den⟩
  else .infinite neg

/-- Units that already make a double are left alone. -/
theorem roundUnits_of_dvd {u den : Nat} (hd : 0 < den) (h : spacing u ∣ u) :
    roundUnits (u * den) den = u := by
  obtain ⟨k, hk⟩ := h
  unfold roundUnits
  simp only [Nat.mul_div_cancel u hd]
  have hs := spacing_pos u
  have h : u * den = k * (den * spacing u) := by
    calc u * den = spacing u * k * den := congrArg (· * den) hk
      _ = k * (den * spacing u) := by
        rw [Nat.mul_comm (spacing u) k, Nat.mul_assoc, Nat.mul_comm (spacing u) den]
  rw [h, Rounding.halfEven_mul_right _ _ (Nat.mul_pos hd hs), Nat.mul_comm]
  exact hk.symm

theorem ofUnits_of_fits {u den : Nat} (neg : Bool) (hd : 0 < den) (h : Fits u) :
    ofUnits neg (u * den) den = .finite neg u h := by
  unfold ofUnits
  simp only [roundUnits_of_dvd hd h.2]
  rw [dif_pos h.1]

/-- How many units one is. -/
def unitsPerOne : Nat := 2 ^ 1074

def ofRatio (neg : Bool) (num den : Nat) : Binary64 := ofUnits neg (num * unitsPerOne) den

def ofNat (n : Nat) : Binary64 := ofRatio false n 1

/-- The double nearest to an integer; zero is positive. -/
def ofInt (n : Int) : Binary64 := ofRatio (n < 0) n.natAbs 1

instance (n : Nat) : OfNat Binary64 n := ⟨ofNat n⟩

/-- The units of a finite double with their sign. -/
def signed (neg : Bool) (units : Nat) : Int := if neg then -units else units

def isFinite : Binary64 → Bool
  | .finite .. => true
  | _ => false

/-- The sign bit; clear for the value that is not a number. -/
def isNegative : Binary64 → Bool
  | .finite neg .. | .infinite neg => neg
  | .nan => false

/-- Strictly less, by value: the two zeros are equal, and nothing is less than
what is not a number. -/
def lt : Binary64 → Binary64 → Bool
  | .nan, _ | _, .nan => false
  | .finite a u _, .finite b v _ => signed a u < signed b v
  | .finite .., .infinite b => !b
  | .infinite a, .finite .. => a
  | .infinite a, .infinite b => a && !b

def le : Binary64 → Binary64 → Bool
  | .nan, _ | _, .nan => false
  | x, y => !lt y x

/-- Equal by value: the two zeros are equal, and what is not a number is equal to
nothing. -/
def same (x y : Binary64) : Bool := le x y && le y x

/-- The smaller of two values; what is not a number gives way to the other. -/
def min : Binary64 → Binary64 → Binary64
  | .nan, y => y
  | x, .nan => x
  | x, y => if lt y x then y else x

def toBits : Binary64 → UInt64
  | .finite neg u _ =>
    let e := u.log2 - 52
    let magnitude := if u < 2 ^ 52 then u else (e + 1) * 2 ^ 52 + (u / 2 ^ e - 2 ^ 52)
    UInt64.ofNat (signBit neg + magnitude)
  | .infinite neg => UInt64.ofNat (signBit neg + 2047 * 2 ^ 52)
  | .nan => UInt64.ofNat (2047 * 2 ^ 52 + 2 ^ 51)
where
  signBit (neg : Bool) : Nat := if neg then 2 ^ 63 else 0

end Binary64

end TickFeed
