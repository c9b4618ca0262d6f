import TickFeed.Proofs.Binary64.Value

/-! # Arithmetic and the order

Doubles without a sign, the infinity among them, stay in their order when they are divided or
multiplied by one positive double, and so do their whole parts. So what a chain of such steps
makes of a number grows with the number, however often it is rounded on the way. -/

namespace TickFeed.Binary64

/-- A number of units or the infinity, without a sign. -/
inductive Unsigned : Binary64 → Prop where
  | finite (u : ℕ) (fits : Fits u) : Unsigned (.finite false u fits)
  | infinite : Unsigned (.infinite false)

variable {x y : Binary64} {v : ℕ}

theorem unsigned_ofUnits (num den : ℕ) : (ofUnits false num den).Unsigned := by
  unfold ofUnits
  split
  · exact .finite _ _
  · exact .infinite

theorem unsigned_ofNat (n : ℕ) : (ofNat n).Unsigned := unsigned_ofUnits _ _

theorem Unsigned.le_infinite (hx : x.Unsigned) : le x (.infinite false) = true := by
  cases hx <;> rfl

theorem ofNat_le_ofNat {m n : ℕ} (h : m ≤ n) : le (ofNat m) (ofNat n) = true :=
  ofUnits_le_ofUnits Nat.one_pos Nat.one_pos
    (Nat.mul_le_mul_right _ (Nat.mul_le_mul_right _ h))

/-! ## Quotients -/

theorem infinite_div (fits : Fits v) :
    (.infinite false / .finite false v fits : Binary64) = .infinite false := rfl

theorem Unsigned.div (hx : x.Unsigned) (fits : Fits v) (hv : 0 < v) :
    (x / .finite false v fits).Unsigned := by
  cases hx with
  | finite u hu =>
    rw [div_eq hu fits hv.ne']
    exact unsigned_ofUnits _ _
  | infinite =>
    rw [infinite_div]
    exact .infinite

theorem Unsigned.div_le_div (hx : x.Unsigned) (hy : y.Unsigned) (fits : Fits v) (hv : 0 < v)
    (h : le x y = true) : le (x / .finite false v fits) (y / .finite false v fits) = true := by
  cases hy with
  | infinite =>
    rw [infinite_div]
    exact (hx.div fits hv).le_infinite
  | finite w hw =>
    cases hx with
    | infinite => cases h
    | finite u hu =>
      rw [le_eq, decide_eq_true_iff] at h
      rw [div_eq hu fits hv.ne', div_eq hw fits hv.ne']
      exact ofUnits_le_ofUnits hv hv (Nat.mul_le_mul_right _ (Nat.mul_le_mul_right _ h))

/-! ## Products -/

theorem infinite_mul (fits : Fits v) (hv : 0 < v) :
    (.infinite false * .finite false v fits : Binary64) = .infinite false := by
  show Binary64.mul _ _ = _
  rw [Binary64.mul, if_neg hv.ne']
  rfl

theorem Unsigned.mul (hx : x.Unsigned) (fits : Fits v) (hv : 0 < v) :
    (x * .finite false v fits).Unsigned := by
  cases hx with
  | finite u hu =>
    rw [mul_eq]
    exact unsigned_ofUnits _ _
  | infinite =>
    rw [infinite_mul fits hv]
    exact .infinite

theorem Unsigned.mul_le_mul (hx : x.Unsigned) (hy : y.Unsigned) (fits : Fits v) (hv : 0 < v)
    (h : le x y = true) : le (x * .finite false v fits) (y * .finite false v fits) = true := by
  cases hy with
  | infinite =>
    rw [infinite_mul fits hv]
    exact (hx.mul fits hv).le_infinite
  | finite w hw =>
    cases hx with
    | infinite => cases h
    | finite u hu =>
      rw [le_eq, decide_eq_true_iff] at h
      rw [mul_eq, mul_eq]
      exact ofUnits_le_ofUnits unitsPerOne_pos unitsPerOne_pos
        (Nat.mul_le_mul_right _ (Nat.mul_le_mul_right _ h))

/-! ## Whole parts -/

theorem truncate_eq (limit : ℕ) (fits : Fits v) :
    truncate limit (.finite false v fits) = Nat.min limit (v / unitsPerOne) := rfl

theorem Unsigned.truncate_le_truncate (hx : x.Unsigned) (hy : y.Unsigned) (limit : ℕ)
    (h : le x y = true) : truncate limit x ≤ truncate limit y := by
  cases hy with
  | infinite => exact truncate_le limit x
  | finite w hw =>
    cases hx with
    | infinite => cases h
    | finite u hu =>
      rw [le_eq, decide_eq_true_iff] at h
      rw [truncate_eq, truncate_eq]
      exact min_le_min_left limit (Nat.div_le_div_right h)

end TickFeed.Binary64
