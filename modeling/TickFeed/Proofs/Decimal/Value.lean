import Mathlib.Algebra.Order.Field.Rat
import Mathlib.Data.Nat.Log
import Mathlib.Tactic.FieldSimp
import Mathlib.Tactic.Ring
import TickFeed.Proofs.Decimal.Arithmetic
import TickFeed.Proofs.Rounding

/-! # Values of decimals

A decimal stands for a fraction, and each operation answers a fraction near the exact one:
`round?` always, and the nearest integer; `mul?` the exact product when it fits. A quotient is
rounded, but as long as neither of its parts has more than 27 digits it keeps more places than
the divisor has (`exists_div?_of_lt`), and its nearest integer is that of the exact quotient
(`isNearest_of_div?`). -/

namespace TickFeed.Decimal

open Rounding

def value (d : Decimal) : ℚ := d.mantissa / (10 ^ d.scale : ℕ)

def signOf (neg : Bool) : ℤ := if neg then -1 else 1

theorem signOf_bne (a b : Bool) : signOf (a != b) = signOf a * signOf b := by
  cases a <;> cases b <;> rfl

theorem natAbs_signOf (neg : Bool) : (signOf neg).natAbs = 1 := by
  cases neg <;> rfl

theorem mantissa_eq (d : Decimal) : d.mantissa = signOf d.isNegative * d.magnitude := by
  unfold mantissa signOf
  cases d.isNegative <;> simp

theorem natAbs_mantissa (d : Decimal) : d.mantissa.natAbs = d.magnitude := by
  rw [mantissa_eq, Int.natAbs_mul, natAbs_signOf, one_mul, Int.natAbs_natCast]

theorem ten_pow_pos (scale : ℕ) : 0 < 10 ^ scale := Nat.pow_pos (by decide)

theorem value_pos_iff {d : Decimal} : 0 < d.value ↔ 0 < d.mantissa := by
  have hten : (0 : ℚ) < (10 ^ d.scale : ℕ) := by exact_mod_cast ten_pow_pos d.scale
  rw [value, div_pos_iff_of_pos_right hten, Int.cast_pos]

theorem isNearest_signed {x : ℚ} {k : ℤ} (h : IsNearest x k) (neg : Bool) :
    IsNearest (signOf neg * x) (signOf neg * k) := by
  cases neg with
  | false => simpa [signOf] using h
  | true => simpa [signOf] using h.neg

/-! ## Rounded quotients -/

section Quotient

variable {neg : Bool} {num den : ℕ} {q : Decimal} {k : ℤ}

theorem IsQuotient.mantissa_eq (h : q.IsQuotient neg num den) :
    q.mantissa = signOf neg * halfEven (num * 10 ^ q.scale) den := by
  rw [Decimal.mantissa_eq, h.isNegative, ← h.magnitude]
  by_cases hzero : q.magnitude = 0
  · simp [hzero]
  · rw [bne_iff_ne.mpr hzero, Bool.and_true]

/-- In units of its last place a quotient is the nearest integer. -/
theorem IsQuotient.isNearest (h : q.IsQuotient neg num den) (hden : 0 < den) :
    IsNearest ((signOf neg * num * (10 ^ q.scale : ℕ) : ℤ) / den) q.mantissa := by
  have hcast : ((signOf neg * num * (10 ^ q.scale : ℕ) : ℤ) : ℚ) / den =
      signOf neg * (((num * 10 ^ q.scale : ℕ) : ℚ) / den) := by
    push_cast
    ring
  rw [h.mantissa_eq, hcast]
  exact isNearest_signed (isNearest_halfEven _ hden) neg

/-- A quotient with more places than its divisor has and the exact one have one nearest
integer. -/
theorem IsQuotient.isNearest_exact (h : q.IsQuotient neg num den) (hden : 0 < den)
    (hplaces : den < 10 ^ q.scale) (hk : IsNearest q.value k) :
    IsNearest ((signOf neg * num : ℤ) / den) k := by
  have heven : 2 ∣ 10 ^ q.scale := by
    refine Dvd.dvd.pow (by decide) ?_
    intro hzero
    rw [hzero] at hplaces
    omega
  exact (h.isNearest hden).of_places hden heven hplaces hk

/-- A quotient that is an integer is exact. -/
theorem IsQuotient.value_of_multiple (h : q.IsQuotient neg num den) (hden : 0 < den)
    (hk : signOf neg * num = k * den) : q.value = k := by
  have hpos : (0 : ℚ) < den := by exact_mod_cast hden
  have hten : (0 : ℚ) < (10 ^ q.scale : ℕ) := by exact_mod_cast ten_pow_pos q.scale
  have hexact : ((signOf neg * num * (10 ^ q.scale : ℕ) : ℤ) : ℚ) / den =
      (k * (10 ^ q.scale : ℕ) : ℤ) := by
    rw [hk, div_eq_iff hpos.ne']
    push_cast
    ring
  have hmantissa : q.mantissa = k * (10 ^ q.scale : ℕ) :=
    (h.isNearest hden).unique (hexact ▸ isNearest_self _)
  rw [value, hmantissa, div_eq_iff hten.ne']
  push_cast
  rfl

end Quotient

/-! ## The nearest integer -/

/-- Every decimal has a nearest integer. -/
theorem exists_round? (x : Decimal) :
    ∃ n, x.round? = some n ∧ n.scale = 0 ∧ IsNearest x.value n.mantissa := by
  have hround : x.round? = ofRatio? x.isNegative x.magnitude (10 ^ x.scale) 0 := by
    simp [round?, ofRatio?]
  have hfits : FitsAt x.magnitude (10 ^ x.scale) 0 := by
    refine ⟨Nat.lt_of_le_of_lt ?_ x.magnitude_lt, by decide⟩
    calc halfEven (x.magnitude * 10 ^ 0) (10 ^ x.scale)
        ≤ halfEven (x.magnitude * 10 ^ x.scale) (10 ^ x.scale) :=
          halfEven_mono _ (Nat.mul_le_mul_left _ (ten_pow_pos x.scale))
      _ = x.magnitude := halfEven_mul_right _ _ (ten_pow_pos x.scale)
  obtain ⟨n, hn, -⟩ : ∃ n, ofRatio? x.isNegative x.magnitude (10 ^ x.scale) 0 = some n ∧
      0 ≤ n.scale := exists_ofRatio?_of_fitsAt (Nat.le_refl 0) hfits
  obtain ⟨hquotient, hscale, -⟩ := ofRatio?_eq_some_iff.mp hn
  have hzero : n.scale = 0 := Nat.le_zero.mp hscale
  refine ⟨n, hround.trans hn, hzero, ?_⟩
  have hnearest := hquotient.isNearest (ten_pow_pos x.scale)
  rwa [hzero, Nat.pow_zero, Nat.cast_one, mul_one, ← mantissa_eq] at hnearest

/-! ## Quotients -/

variable {x y q : Decimal} {k : ℤ}

/-- The exact quotient by a positive decimal, without places. -/
theorem value_div (x : Decimal) (hy : 0 < y.mantissa) :
    x.value / y.value = ((signOf (x.isNegative != y.isNegative) *
      (x.magnitude * 10 ^ y.scale : ℕ) : ℤ) : ℚ) / (y.magnitude * 10 ^ x.scale : ℕ) := by
  obtain ⟨hsign, hmagnitude⟩ := mantissa_pos_iff.mp hy
  have hx : (0 : ℚ) < (10 ^ x.scale : ℕ) := by exact_mod_cast ten_pow_pos x.scale
  have hy : (0 : ℚ) < (10 ^ y.scale : ℕ) := by exact_mod_cast ten_pow_pos y.scale
  have hpos : (0 : ℚ) < y.magnitude := by exact_mod_cast hmagnitude
  rw [value, value, mantissa_eq x, mantissa_eq y, hsign]
  simp only [Bool.bne_false, signOf, Bool.false_eq_true, if_false, one_mul]
  push_cast
  field_simp

/-- A quotient has as many places as its divisor and more, as long as neither of its two parts
has more than 27 digits. -/
theorem exists_div?_of_lt (hy : 0 < y.mantissa) (hnum : x.magnitude * 10 ^ y.scale < 10 ^ 27)
    (hden : y.magnitude * 10 ^ x.scale < 10 ^ 27) :
    ∃ q, x.div? y = some q ∧ y.magnitude * 10 ^ x.scale < 10 ^ q.scale := by
  obtain ⟨-, hmagnitude⟩ := mantissa_pos_iff.mp hy
  have hpos : 0 < y.magnitude * 10 ^ x.scale := Nat.mul_pos hmagnitude (ten_pow_pos _)
  generalize hd : y.magnitude * 10 ^ x.scale = den at *
  -- the least number of places above the divisor fits
  have hbelow : 10 ^ Nat.log 10 den ≤ den := Nat.pow_log_le_self 10 hpos.ne'
  have habove : den < 10 ^ (Nat.log 10 den + 1) := Nat.lt_pow_succ_log_self (by decide) den
  have hplaces : Nat.log 10 den + 1 ≤ 28 := by
    have hlog : Nat.log 10 den < 27 := Nat.log_lt_of_lt_pow hpos.ne' hden
    omega
  have hfits : FitsAt (x.magnitude * 10 ^ y.scale) den (Nat.log 10 den + 1) := by
    refine ⟨Nat.lt_of_le_of_lt ?_ (by decide : 10 ^ 28 < 2 ^ 96), hplaces⟩
    calc halfEven (x.magnitude * 10 ^ y.scale * 10 ^ (Nat.log 10 den + 1)) den
        ≤ halfEven (10 ^ 28 * den) den := by
          refine halfEven_mono den ?_
          calc x.magnitude * 10 ^ y.scale * 10 ^ (Nat.log 10 den + 1)
              ≤ 10 ^ 27 * (10 * den) := by
                refine Nat.mul_le_mul hnum.le ?_
                rw [Nat.pow_succ, Nat.mul_comm]
                exact Nat.mul_le_mul_left 10 hbelow
            _ = 10 ^ 28 * den := by rw [← Nat.mul_assoc]
      _ = 10 ^ 28 := halfEven_mul_right _ _ hpos
  obtain ⟨q, hq, hscale⟩ : ∃ q, x.div? y = some q ∧ Nat.log 10 den + 1 ≤ q.scale := by
    rw [div?, hd]
    exact exists_ofRatio?_of_fitsAt hplaces hfits
  exact ⟨q, hq, habove.trans_le (Nat.pow_le_pow_right (by decide) hscale)⟩

/-- A quotient with enough places and the exact one have one nearest integer. -/
theorem isNearest_of_div? (hy : 0 < y.mantissa) (hq : x.div? y = some q)
    (hplaces : y.magnitude * 10 ^ x.scale < 10 ^ q.scale) (hk : IsNearest q.value k) :
    IsNearest (x.value / y.value) k := by
  obtain ⟨-, hmagnitude⟩ := mantissa_pos_iff.mp hy
  obtain ⟨hquotient, -, -⟩ := ofRatio?_eq_some_iff.mp hq
  rw [value_div x hy]
  exact hquotient.isNearest_exact (Nat.mul_pos hmagnitude (ten_pow_pos _)) hplaces hk

/-- The quotient of a multiple is exact, whatever the places of the two. -/
theorem exists_div?_of_multiple (hy : 0 < y.mantissa) (hvalue : x.value = k * y.value)
    (hk : k.natAbs < 2 ^ 96) : ∃ q, x.div? y = some q ∧ q.value = k := by
  obtain ⟨-, hmagnitude⟩ := mantissa_pos_iff.mp hy
  have hden : 0 < y.magnitude * 10 ^ x.scale := Nat.mul_pos hmagnitude (ten_pow_pos _)
  have hpos : (0 : ℚ) < (y.magnitude * 10 ^ x.scale : ℕ) := by exact_mod_cast hden
  have hmultiple : signOf (x.isNegative != y.isNegative) * (x.magnitude * 10 ^ y.scale : ℕ) =
      k * (y.magnitude * 10 ^ x.scale : ℕ) := by
    have hdiv := value_div x hy
    rw [hvalue, mul_div_cancel_right₀ _ (value_pos_iff.mpr hy).ne', eq_div_iff hpos.ne'] at hdiv
    exact_mod_cast hdiv.symm
  have hnum : x.magnitude * 10 ^ y.scale = k.natAbs * (y.magnitude * 10 ^ x.scale) := by
    have habs := congrArg Int.natAbs hmultiple
    rwa [Int.natAbs_mul, Int.natAbs_mul, natAbs_signOf, one_mul, Int.natAbs_natCast,
      Int.natAbs_natCast] at habs
  have hfits : FitsAt (x.magnitude * 10 ^ y.scale) (y.magnitude * 10 ^ x.scale) 0 := by
    rw [FitsAt, Nat.pow_zero, Nat.mul_one, hnum, halfEven_mul_right _ _ hden]
    exact ⟨hk, by decide⟩
  obtain ⟨q, hq, -⟩ : ∃ q, x.div? y = some q ∧ 0 ≤ q.scale :=
    exists_ofRatio?_of_fitsAt (Nat.zero_le 28) hfits
  obtain ⟨hquotient, -, -⟩ := ofRatio?_eq_some_iff.mp hq
  exact ⟨q, hq, hquotient.value_of_multiple hden hmultiple⟩

/-! ## Products -/

/-- A product that fits is exact. -/
theorem exists_mul?_of_lt (hscale : x.scale + y.scale ≤ 28)
    (hfits : x.magnitude * y.magnitude < 2 ^ 96) :
    ∃ z, x.mul? y = some z ∧ z.value = x.value * y.value := by
  by_cases hzero : x.isZero = true ∨ y.isZero = true
  · refine ⟨zero, by rw [mul?, if_pos hzero], ?_⟩
    have hnone : x.value * y.value = 0 := by
      rcases hzero with h | h <;> simp [value, mantissa_eq, of_decide_eq_true h]
    rw [hnone]
    simp [value, zero, mantissa]
  · have hden := ten_pow_pos (x.scale + y.scale)
    have hmin : Nat.min 28 (x.scale + y.scale) = x.scale + y.scale := Nat.min_eq_right hscale
    have hall : FitsAt (x.magnitude * y.magnitude) (10 ^ (x.scale + y.scale))
        (x.scale + y.scale) := by
      rw [FitsAt, halfEven_mul_right _ _ hden]
      exact ⟨hfits, hscale⟩
    obtain ⟨z, hz, hle⟩ : ∃ z, x.mul? y = some z ∧ x.scale + y.scale ≤ z.scale := by
      rw [mul?, if_neg hzero, hmin]
      exact exists_ofRatio?_of_fitsAt (Nat.le_refl _) hall
    refine ⟨z, hz, ?_⟩
    rw [mul?, if_neg hzero, hmin] at hz
    obtain ⟨hquotient, hge, -⟩ := ofRatio?_eq_some_iff.mp hz
    have hplaces : z.scale = x.scale + y.scale := Nat.le_antisymm hge hle
    have hmantissa : z.mantissa = x.mantissa * y.mantissa := by
      rw [hquotient.mantissa_eq, hplaces, halfEven_mul_right _ _ hden, mantissa_eq x,
        mantissa_eq y, signOf_bne]
      push_cast
      ring
    rw [value, hmantissa, hplaces, value, value, div_mul_div_comm, Nat.pow_add]
    push_cast
    rfl

end TickFeed.Decimal
