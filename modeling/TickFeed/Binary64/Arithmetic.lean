import TickFeed.Binary64.Basic

/-! # Arithmetic on doubles

Each operation is the exact result on units, rounded once to the nearest
double. Zeros keep the sign rules of the format: a product or quotient is
negative when the signs differ, a sum that cancels is positive. -/

namespace TickFeed.Binary64

/-- The double nearest to `num / den` units of either sign; the zero among them
is positive. -/
def ofSignedUnits (num : Int) (den : Nat) : Binary64 := ofUnits (num < 0) num.natAbs den

def neg : Binary64 → Binary64
  | .finite a u h => .finite (!a) u h
  | .infinite a => .infinite (!a)
  | .nan => .nan

def add : Binary64 → Binary64 → Binary64
  | .nan, _ | _, .nan => .nan
  | .finite a u _, .finite b v _ =>
    if u = 0 ∧ v = 0 then .finite (a && b) 0 fits_zero
    else ofSignedUnits (signed a u + signed b v) 1
  | .infinite a, .infinite b => if a = b then .infinite a else .nan
  | .infinite a, .finite .. => .infinite a
  | .finite .., .infinite b => .infinite b

def sub (x y : Binary64) : Binary64 := add x (neg y)

def mul : Binary64 → Binary64 → Binary64
  | .nan, _ | _, .nan => .nan
  | .finite a u _, .finite b v _ => ofUnits (a != b) (u * v) unitsPerOne
  | .infinite a, .infinite b => .infinite (a != b)
  | .infinite a, .finite b v _ => if v = 0 then .nan else .infinite (a != b)
  | .finite a u _, .infinite b => if u = 0 then .nan else .infinite (a != b)

def div : Binary64 → Binary64 → Binary64
  | .nan, _ | _, .nan => .nan
  | .finite a u _, .finite b v _ =>
    if v = 0 then if u = 0 then .nan else .infinite (a != b)
    else ofUnits (a != b) (u * unitsPerOne) v
  | .infinite _, .infinite _ => .nan
  | .infinite a, .finite b _ _ => .infinite (a != b)
  | .finite a _ _, .infinite b => .finite (a != b) 0 fits_zero

instance : Add Binary64 := ⟨add⟩
instance : Sub Binary64 := ⟨sub⟩
instance : Mul Binary64 := ⟨mul⟩
instance : Div Binary64 := ⟨div⟩
instance : Neg Binary64 := ⟨neg⟩

/-- The whole part of a value that is not negative, at most `limit`; `0` for a
negative value and for what is not a number. -/
def truncate (limit : Nat) : Binary64 → Nat
  | .finite neg u _ => if neg then 0 else Nat.min limit (u / unitsPerOne)
  | .infinite neg => if neg then 0 else limit
  | .nan => 0

theorem truncate_le (limit : Nat) (x : Binary64) : truncate limit x ≤ limit := by
  cases x with
  | finite neg u h => cases neg <;> simp [truncate, Nat.min_def]; split <;> omega
  | infinite neg => cases neg <;> simp [truncate]
  | nan => simp [truncate]

end TickFeed.Binary64
