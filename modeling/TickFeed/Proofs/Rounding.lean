import Mathlib.Algebra.Order.Field.Basic
import Mathlib.Algebra.Order.Field.Rat
import Mathlib.Tactic.FieldSimp
import Mathlib.Tactic.Linarith
import Mathlib.Tactic.Ring
import TickFeed.Power
import TickFeed.Rounding

/-! # The nearest integer

`IsNearest x k` says that `k` is the integer nearest to the fraction `x`, an even one where
two are equally near. There is one such integer at most, it grows with `x`, and `halfEven` is
it. To round to some places first and to an integer then is the same as to round at once, when
the places are more than those of the divisor (`IsNearest.of_places`). -/

namespace TickFeed.Rounding

/-- `k` is the integer nearest to `x`; of two equally near ones it is the even one. -/
structure IsNearest (x : ℚ) (k : ℤ) : Prop where
  near : |x - k| ≤ 1 / 2
  even_of_tie : |x - k| = 1 / 2 → 2 ∣ k

variable {x y : ℚ} {k l : ℤ}

theorem IsNearest.neg (h : IsNearest x k) : IsNearest (-x) (-k) := by
  have hdistance : |-x - (-k : ℤ)| = |x - k| := by
    rw [Int.cast_neg, ← neg_sub', abs_neg]
  constructor
  · rw [hdistance]
    exact h.near
  · intro htie
    rw [hdistance] at htie
    exact Int.dvd_neg.mpr (h.even_of_tie htie)

theorem IsNearest.mono (hx : IsNearest x k) (hy : IsNearest y l) (h : x ≤ y) : k ≤ l := by
  by_contra hlt
  have hstep : (l : ℚ) + 1 ≤ k := by exact_mod_cast Int.not_le.mp hlt
  obtain ⟨hlow, -⟩ := abs_le.mp hx.near
  obtain ⟨-, hhigh⟩ := abs_le.mp hy.near
  -- only a tie between the two is left, and they are not both even
  have hxk : x - k = -(1 / 2) := by linarith
  have hyl : y - l = 1 / 2 := by linarith
  have hnext : k = l + 1 := by
    have hcast : (k : ℚ) = l + 1 := by linarith
    exact_mod_cast hcast
  have hk : 2 ∣ k := hx.even_of_tie (by rw [hxk, abs_neg]; norm_num)
  have hl : 2 ∣ l := hy.even_of_tie (by rw [hyl]; norm_num)
  omega

theorem IsNearest.unique (hk : IsNearest x k) (hl : IsNearest x l) : k = l :=
  le_antisymm (hk.mono hl le_rfl) (hl.mono hk le_rfl)

theorem isNearest_self (k : ℤ) : IsNearest k k := by
  constructor <;> simp

/-! ## Quotients -/

variable {num m e : ℤ} {den half scale : ℕ}

/-- The nearest integer of a quotient, said without fractions. -/
theorem isNearest_div_iff (hden : 0 < den) :
    IsNearest ((num : ℚ) / den) k ↔
      |2 * (num - k * den)| ≤ den ∧ (|2 * (num - k * den)| = den → 2 ∣ k) := by
  have hpos : (0 : ℚ) < den := by exact_mod_cast hden
  have hdistance : |(num : ℚ) / den - k| * (2 * den) = (|2 * (num - k * den)| : ℤ) := by
    have hclear : (num : ℚ) / den - k = (num - k * den) / den := by field_simp
    rw [hclear, abs_div, abs_of_pos hpos, Int.cast_abs, Int.cast_mul, abs_mul]
    push_cast
    field_simp
    norm_num
  have hle : |(num : ℚ) / den - k| ≤ 1 / 2 ↔ |2 * (num - k * den)| ≤ den := by
    rw [← mul_le_mul_iff_left₀ (mul_pos two_pos hpos), hdistance, one_div,
      inv_mul_cancel_left₀ two_ne_zero]
    exact_mod_cast Iff.rfl
  have heq : |(num : ℚ) / den - k| = 1 / 2 ↔ |2 * (num - k * den)| = den := by
    rw [← mul_left_inj' (mul_pos two_pos hpos).ne', hdistance, one_div,
      inv_mul_cancel_left₀ two_ne_zero]
    exact_mod_cast Iff.rfl
  constructor
  · rintro ⟨hnear, htie⟩
    exact ⟨hle.mp hnear, fun h => htie (heq.mpr h)⟩
  · rintro ⟨hnear, htie⟩
    exact ⟨hle.mpr hnear, fun h => htie (heq.mp h)⟩

theorem isNearest_halfEven (num : ℕ) (hden : 0 < den) :
    IsNearest ((num : ℚ) / den) (halfEven num den) := by
  have hcast : (num : ℚ) = ((num : ℤ) : ℚ) := by norm_cast
  rw [hcast, isNearest_div_iff hden]
  have hdiv : ((num / den : ℕ) : ℤ) * den + (num % den : ℕ) = num := by
    exact_mod_cast Nat.div_add_mod' num den
  have hmod := Nat.mod_lt num hden
  -- twice the distance to the neighbour below and to the one above
  have hlow : 2 * ((num : ℤ) - (num / den : ℕ) * den) = 2 * (num % den : ℕ) := by linarith
  have hhigh : 2 * ((num : ℤ) - (num / den + 1 : ℕ) * den) = 2 * (num % den : ℕ) - 2 * den := by
    push_cast at hdiv ⊢
    linarith
  unfold halfEven
  dsimp only
  split
  · rw [hlow, abs_of_nonneg (by omega)]
    omega
  · split
    · rw [hhigh, abs_of_nonpos (by omega)]
      omega
    · split
      · rw [hlow, abs_of_nonneg (by omega)]
        omega
      · rw [hhigh, abs_of_nonpos (by omega)]
        omega

/-- The nearest integer is hardly larger than the quotient. -/
theorem IsNearest.natAbs_le (hden : 0 < den) (h : IsNearest ((num : ℚ) / den) k) :
    2 * (k.natAbs * den) ≤ 2 * num.natAbs + den := by
  obtain ⟨hlow, hhigh⟩ := abs_le.mp ((isNearest_div_iff hden).mp h).1
  have hproduct : k.natAbs * den = (k * den).natAbs := by
    rw [Int.natAbs_mul, Int.natAbs_natCast]
  omega

/-! ## Two roundings -/

/-- A tie times an even number is an integer, so that nothing is lost at first. -/
theorem IsNearest.eq_of_tie (hden : 0 < den)
    (hm : IsNearest ((num * (2 * half : ℕ) : ℤ) / den) m)
    (htie : 2 * (num - k * den) = e * den) : m = (2 * k + e) * half := by
  have hpos : (0 : ℚ) < den := by exact_mod_cast hden
  have hexact : ((num * (2 * half : ℕ) : ℤ) : ℚ) / den = ((2 * k + e) * half : ℤ) := by
    rw [div_eq_iff hpos.ne']
    have hnum : 2 * num = (2 * k + e) * den := by linarith
    have hscaled : num * (2 * half) = (2 * k + e) * half * den := by
      calc num * (2 * half) = 2 * num * half := by ring
        _ = (2 * k + e) * half * den := by rw [hnum]; ring
    exact_mod_cast hscaled
  exact hm.unique (hexact ▸ isNearest_self _)

/-- **Rounding twice is rounding once** when the first rounding is to parts of more than the
divisor: a quotient that is no tie is too far from all ties to be rounded onto one of them, and
a tie is kept as it is. -/
theorem IsNearest.of_places (hden : 0 < den) (heven : 2 ∣ scale) (hlt : den < scale)
    (hm : IsNearest ((num * scale : ℤ) / den) m) (hk : IsNearest ((m : ℚ) / scale) k) :
    IsNearest ((num : ℚ) / den) k := by
  rw [isNearest_div_iff (hden.trans hlt)] at hk
  obtain ⟨hknear, hktie⟩ := hk
  obtain ⟨hmlow, hmhigh⟩ := abs_le.mp ((isNearest_div_iff hden).mp hm).1
  obtain ⟨hklow, hkhigh⟩ := abs_le.mp hknear
  have hscale : (den : ℤ) < scale := by exact_mod_cast hlt
  have hpos : (0 : ℤ) < den := by exact_mod_cast hden
  rw [isNearest_div_iff hden]
  constructor
  · -- an integer quotient off by one is off by a whole part, more than the first rounding moves
    rw [abs_le]
    constructor
    · by_contra hfar
      have hstep : 2 * (num - k * den) + 1 ≤ -den := by omega
      have hparts := mul_le_mul_of_nonneg_right hstep (hpos.trans hscale).le
      have hback := mul_le_mul_of_nonneg_right hklow hpos.le
      linarith
    · by_contra hfar
      have hstep : den + 1 ≤ 2 * (num - k * den) := by omega
      have hparts := mul_le_mul_of_nonneg_right hstep (hpos.trans hscale).le
      have hback := mul_le_mul_of_nonneg_right hkhigh hpos.le
      linarith
  · intro htie
    obtain ⟨half, rfl⟩ := heven
    refine hktie ?_
    rcases (abs_eq hpos.le).mp htie with htie | htie
    · have hm : m = (2 * k + 1) * half := hm.eq_of_tie hden (by rw [htie, one_mul])
      rw [hm, abs_of_nonneg] <;> push_cast <;> linarith
    · have hm : m = (2 * k + -1) * half := hm.eq_of_tie hden (by rw [htie, neg_one_mul])
      rw [hm, abs_of_nonpos] <;> push_cast <;> linarith

end TickFeed.Rounding
