import Mathlib.Algebra.Order.Field.Rat
import Mathlib.Data.Nat.Cast.Order.Field
import Mathlib.Tactic.FieldSimp
import Mathlib.Tactic.Linarith
import Mathlib.Tactic.Positivity
import Mathlib.Tactic.Ring
import TickFeed.Proofs.Binary64.Decimal
import TickFeed.Proofs.Rounding

/-! # Values of doubles

A finite double stands for a fraction, and finite doubles are in the order of their fractions
(`lt_iff_value_lt`). Rounding keeps the order of quotients (`ofUnits_le_ofUnits`), and it
changes one that is not too small by a part in `2 ^ 53` at most (`close_roundUnits`). Such
parts hardly more than add up over several operations (`Close.trans`, `Close.div`). -/

namespace TickFeed

namespace Rounding

/-- The fraction `b` is `a` up to a part `e` of it. -/
def Close (e a b : ℚ) : Prop := |b - a| ≤ e * a

variable {a b c d e f : ℚ}

theorem Close.le (h : Close e a b) : b ≤ (1 + e) * a := by
  have := (abs_le.mp h).2
  linarith

theorem Close.ge (h : Close e a b) : (1 - e) * a ≤ b := by
  have := (abs_le.mp h).1
  linarith

theorem Close.trans (hf : 0 ≤ f) (hab : Close e a b) (hbc : Close f b c) :
    Close (e + f + e * f) a c := by
  have hstep : f * b ≤ f * ((1 + e) * a) := mul_le_mul_of_nonneg_left hab.le hf
  calc |c - a| = |(c - b) + (b - a)| := by rw [sub_add_sub_cancel]
    _ ≤ |c - b| + |b - a| := abs_add_le _ _
    _ ≤ f * b + e * a := add_le_add hbc hab
    _ ≤ (e + f + e * f) * a := by linarith

theorem Close.mono (ha : 0 ≤ a) (hef : e ≤ f) (h : Close e a b) : Close f a b :=
  le_trans h (mul_le_mul_of_nonneg_right hef ha)

theorem Close.mul_left (hc : 0 ≤ c) (h : Close e a b) : Close e (c * a) (c * b) := by
  have := mul_le_mul_of_nonneg_left h hc
  rw [Close, ← mul_sub, abs_mul, abs_of_nonneg hc]
  linarith

/-- A quotient takes over the errors of both its parts, and hardly more. -/
theorem Close.div (he : 3 * e ≤ 1) (ha : 0 ≤ a) (hc : 0 < c) (hab : Close e a b)
    (hcd : Close e c d) : Close (3 * e) (a / c) (b / d) := by
  have he0 : 0 ≤ e := nonneg_of_mul_nonneg_left (le_trans (abs_nonneg _) hcd) hc
  have hd : 0 < d := by
    have hpart : 0 < (1 - e) * c := mul_pos (by linarith) hc
    exact hpart.trans_le hcd.ge
  have hsplit : b / d - a / c = ((b - a) * c - a * (d - c)) / (d * c) := by
    field_simp
    ring
  rw [Close, hsplit, abs_div, abs_of_pos (mul_pos hd hc), div_le_iff₀ (mul_pos hd hc)]
  calc |(b - a) * c - a * (d - c)|
      ≤ |(b - a) * c| + |a * (d - c)| := abs_sub _ _
    _ = |b - a| * c + a * |d - c| := by rw [abs_mul, abs_mul, abs_of_pos hc, abs_of_nonneg ha]
    _ ≤ e * a * c + a * (e * c) :=
      add_le_add (mul_le_mul_of_nonneg_right hab hc.le) (mul_le_mul_of_nonneg_left hcd ha)
    _ ≤ 3 * (e * a) * ((1 - e) * c) := by
      have hpart : 0 ≤ (1 - 3 * e) * (e * a * c) :=
        mul_nonneg (by linarith) (mul_nonneg (mul_nonneg he0 ha) hc.le)
      linarith
    _ ≤ 3 * (e * a) * d :=
      mul_le_mul_of_nonneg_left hcd.ge (mul_nonneg zero_le_three (mul_nonneg he0 ha))
    _ = 3 * e * (a / c) * (d * c) := by field_simp

/-- A fraction that is further from `a` than `b` is lies on one side of both. -/
theorem lt_iff_of_abs_lt {s : ℚ} (h : |b - a| < |s - a|) : s < b ↔ s < a := by
  rcases lt_abs.mp h with hfar | hfar <;> rcases abs_lt.mp hfar with ⟨hlow, hhigh⟩
  · exact ⟨fun _ => by linarith, fun _ => by linarith⟩
  · exact ⟨fun _ => by linarith, fun _ => by linarith⟩

theorem le_iff_of_abs_lt {s : ℚ} (h : |b - a| < |s - a|) : s ≤ b ↔ s ≤ a := by
  rcases lt_abs.mp h with hfar | hfar <;> rcases abs_lt.mp hfar with ⟨hlow, hhigh⟩
  · exact ⟨fun _ => by linarith, fun _ => by linarith⟩
  · exact ⟨fun _ => by linarith, fun _ => by linarith⟩

end Rounding

namespace Binary64

open Rounding (Close)

def value : Binary64 → ℚ
  | .finite neg units _ => signed neg units / unitsPerOne
  | .infinite _ | .nan => 0

theorem unitsPerOne_cast_pos : (0 : ℚ) < unitsPerOne := by exact_mod_cast unitsPerOne_pos

variable {x y z : Binary64}

theorem lt_iff_value_lt (hx : x.isFinite = true) (hy : y.isFinite = true) :
    lt x y = true ↔ x.value < y.value := by
  cases x with
  | infinite | nan => cases hx
  | finite a u =>
    cases y with
    | infinite | nan => cases hy
    | finite b v =>
      rw [lt, value, value, div_lt_div_iff_of_pos_right unitsPerOne_cast_pos, Int.cast_lt,
        decide_eq_true_iff]

theorem le_eq_not_lt (hx : x.isFinite = true) (hy : y.isFinite = true) : le x y = !lt y x := by
  cases x with
  | infinite | nan => cases hx
  | finite =>
    cases y with
    | infinite | nan => cases hy
    | finite => rfl

theorem le_iff_value_le (hx : x.isFinite = true) (hy : y.isFinite = true) :
    le x y = true ↔ x.value ≤ y.value := by
  rw [le_eq_not_lt hx hy, Bool.not_eq_true', ← Bool.not_eq_true, lt_iff_value_lt hy hx, not_lt]

theorem value_of_not_neg {u : ℕ} (hu : Fits u) : value (.finite false u hu) = u / unitsPerOne := by
  simp only [value, signed, Bool.false_eq_true, if_false, Int.cast_natCast]

theorem value_literal {n : ℕ} (h : n ≤ 2 ^ 53) : value (OfNat.ofNat n) = n := by
  rw [literal_eq h, value_of_not_neg, Nat.cast_mul,
    mul_div_cancel_right₀ _ unitsPerOne_cast_pos.ne']

/-! ## The order of quotients -/

/-- A smaller quotient is not rounded to a larger number of units. -/
theorem roundUnits_le_roundUnits {a b c d : ℕ} (hb : 0 < b) (hd : 0 < d) (h : a * d ≤ c * b) :
    roundUnits a b ≤ roundUnits c d :=
  calc roundUnits a b = roundUnits (a * d) (b * d) := (roundUnits_mul_mul a b hd).symm
    _ ≤ roundUnits (c * b) (b * d) := roundUnits_mono (Nat.mul_pos hb hd) h
    _ = roundUnits (c * b) (d * b) := by rw [Nat.mul_comm b d]
    _ = roundUnits c d := roundUnits_mul_mul c d hb

/-- A quotient that is no more than a double is rounded to a finite one. -/
theorem exists_ofUnits_eq (neg : Bool) {num den u : ℕ} (hden : 0 < den) (hu : Fits u)
    (h : num ≤ u * den) : ∃ fits,
      ofUnits neg num den = .finite neg (roundUnits num den) fits ∧ roundUnits num den ≤ u := by
  have hle := roundUnits_le hden hu.2 h
  exact ⟨_, ofUnits_of_lt (Nat.lt_of_le_of_lt (log2_mono hle) hu.1), hle⟩

theorem ofUnits_le_ofUnits {a b c d : ℕ} (hb : 0 < b) (hd : 0 < d) (h : a * d ≤ c * b) :
    le (ofUnits false a b) (ofUnits false c d) = true := by
  have hround := roundUnits_le_roundUnits hb hd h
  by_cases hc : (roundUnits c d).log2 < 2098
  · rw [ofUnits_of_lt (Nat.lt_of_le_of_lt (log2_mono hround) hc), ofUnits_of_lt hc, le_eq]
    exact decide_eq_true hround
  · have hinfinite : ofUnits false c d = .infinite false := dif_neg hc
    rw [hinfinite]
    by_cases ha : (roundUnits a b).log2 < 2098
    · rw [ofUnits_of_lt ha]
      rfl
    · have hinfinite : ofUnits false a b = .infinite false := dif_neg ha
      rw [hinfinite]
      rfl

/-! ## The error of one rounding -/

/-- From `2 ^ 52` units on the doubles are apart by a part in `2 ^ 52` of themselves. -/
theorem two_pow_mul_spacing_le_self {u : ℕ} (h : 2 ^ 52 ≤ u) : 2 ^ 52 * spacing u ≤ u := by
  have hne : u ≠ 0 := (Nat.lt_of_lt_of_le (Nat.two_pow_pos 52) h).ne'
  have hlog : 52 ≤ u.log2 := (Nat.le_log2 hne).mpr h
  rw [spacing, ← Nat.pow_add, Nat.add_sub_cancel' hlog]
  exact Nat.log2_self_le hne

theorem roundUnits_zero {den : ℕ} (hden : 0 < den) : roundUnits 0 den = 0 :=
  Nat.le_zero.mp (roundUnits_le hden fits_zero.2 (Nat.zero_le _))

theorem close_roundUnits {num den : ℕ} (hden : 0 < den) (h : num = 0 ∨ 2 ^ 52 * den ≤ num) :
    Close (1 / 2 ^ 53) ((num : ℚ) / den) (roundUnits num den) := by
  rcases h with rfl | hlarge
  · simp [Close, roundUnits_zero hden]
  · have hstep : (0 : ℚ) < spacing (num / den) := by exact_mod_cast spacing_pos (num / den)
    have hgap : 2 ^ 52 * (spacing (num / den) : ℚ) ≤ num / den := by
      have hunits := two_pow_mul_spacing_le_self ((Nat.le_div_iff_mul_le hden).mpr hlarge)
      calc 2 ^ 52 * (spacing (num / den) : ℚ) ≤ (num / den : ℕ) := by exact_mod_cast hunits
        _ ≤ num / den := Nat.cast_div_le
    have hpos : 0 < den * spacing (num / den) := Nat.mul_pos hden (spacing_pos _)
    have hnear := (Rounding.isNearest_halfEven num hpos).near
    have hdistance : (roundUnits num den : ℚ) - num / den =
        -((num / (den * spacing (num / den) : ℕ) -
          (Rounding.halfEven num (den * spacing (num / den)) : ℤ)) * spacing (num / den)) := by
      rw [roundUnits]
      push_cast
      field_simp
      ring
    rw [Close, hdistance, abs_neg, abs_mul, abs_of_pos hstep]
    linarith [mul_le_mul_of_nonneg_right hnear hstep.le]

/-- The same in values. -/
theorem close_value {num den : ℕ} (hden : 0 < den) (h : num = 0 ∨ 2 ^ 52 * den ≤ num) :
    Close (1 / 2 ^ 53) ((num : ℚ) / den / unitsPerOne) (roundUnits num den / unitsPerOne) := by
  have hscaled := (close_roundUnits hden h).mul_left (inv_nonneg.mpr unitsPerOne_cast_pos.le)
  rwa [inv_mul_eq_div, inv_mul_eq_div] at hscaled

/-! ## Whole numbers -/

def wholeUnits (n : ℕ) : ℕ := roundUnits (n * unitsPerOne) 1

theorem wholeUnits_mono {m n : ℕ} (h : m ≤ n) : wholeUnits m ≤ wholeUnits n :=
  roundUnits_mono Nat.one_pos (Nat.mul_le_mul_right _ h)

theorem wholeUnits_of_le {n : ℕ} (h : n ≤ 2 ^ 53) : wholeUnits n = n * unitsPerOne := by
  have hexact := roundUnits_of_dvd Nat.one_pos (fits_whole h).2
  rwa [Nat.mul_one] at hexact

theorem exists_ofNat_eq {n : ℕ} (h : n < 2 ^ 64) :
    ∃ fits, ofNat n = .finite false (wholeUnits n) fits ∧ wholeUnits n ≤ 2 ^ 64 * unitsPerOne := by
  have hfits : Fits (2 ^ 64 * unitsPerOne) := by
    refine ⟨?_, spacing_dvd_two_pow_mul 64⟩
    rw [log2_two_pow_mul_unitsPerOne]
    decide
  refine exists_ofUnits_eq false Nat.one_pos hfits ?_
  rw [Nat.mul_one]
  exact Nat.mul_le_mul_right _ h.le

theorem unitsPerOne_le_wholeUnits {n : ℕ} (h : n ≠ 0) : unitsPerOne ≤ wholeUnits n :=
  calc unitsPerOne = wholeUnits 1 := by rw [wholeUnits_of_le (by decide), Nat.one_mul]
    _ ≤ wholeUnits n := wholeUnits_mono (Nat.one_le_iff_ne_zero.mpr h)

theorem two_pow_le_unitsPerOne {e : ℕ} (h : e ≤ 1074) : 2 ^ e ≤ unitsPerOne := by
  obtain ⟨d, hd⟩ := Nat.exists_eq_add_of_le h
  rw [unitsPerOne, hd]
  exact Nat.pow_le_pow_right (by decide) (Nat.le_add_right e d)

theorem close_wholeUnits (n : ℕ) : Close (1 / 2 ^ 53) (n : ℚ) (wholeUnits n / unitsPerOne) := by
  have hlarge : n * unitsPerOne = 0 ∨ 2 ^ 52 * 1 ≤ n * unitsPerOne := by
    rcases Nat.eq_zero_or_pos n with rfl | hpos
    · exact .inl (Nat.zero_mul _)
    · have hone := two_pow_le_unitsPerOne (by decide : 52 ≤ 1074)
      exact .inr (hone.trans (Nat.le_mul_of_pos_left _ hpos))
  have hround := close_value Nat.one_pos hlarge
  rwa [Nat.cast_one, div_one, Nat.cast_mul, mul_div_cancel_right₀ _ unitsPerOne_cast_pos.ne']
    at hround

/-! ## Signs -/

theorem value_of_neg {u : ℕ} (hu : Fits u) : value (.finite true u hu) = -(u / unitsPerOne) := by
  simp only [value, signed, if_true, Int.cast_neg, Int.cast_natCast, neg_div]

theorem value_nonneg_of_not_neg {u : ℕ} (hu : Fits u) : 0 ≤ value (.finite false u hu) := by
  rw [value_of_not_neg]
  exact div_nonneg (Nat.cast_nonneg u) unitsPerOne_cast_pos.le

theorem value_nonpos_of_neg {u : ℕ} (hu : Fits u) : value (.finite true u hu) ≤ 0 := by
  rw [value_of_neg]
  exact neg_nonpos.mpr (div_nonneg (Nat.cast_nonneg u) unitsPerOne_cast_pos.le)

theorem eq_zero_of_value_nonneg {u : ℕ} (hu : Fits u) (h : 0 ≤ value (.finite true u hu)) :
    u = 0 := by
  rw [value_of_neg, neg_nonneg, div_le_iff₀ unitsPerOne_cast_pos, zero_mul] at h
  exact Nat.le_zero.mp (by exact_mod_cast h)

/-- A quotient of one sign is not above one of the other. -/
theorem le_of_signs (a b c d : ℕ) : le (ofUnits true a b) (ofUnits false c d) = true := by
  unfold ofUnits
  split <;> split
  · refine (le_iff_value_le rfl rfl).mpr ?_
    exact le_trans (value_nonpos_of_neg _) (value_nonneg_of_not_neg _)
  all_goals rfl

protected theorem le_trans (hxy : le x y = true) (hyz : le y z = true) : le x z = true := by
  cases x <;> cases y <;> cases z <;> grind [le, lt]

end Binary64

end TickFeed
