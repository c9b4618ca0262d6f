import TickFeed.Instrument.Basic
import TickFeed.Proofs.Decimal.Value

/-! # Prices in steps

A price is divided by the increment, the quotient is rounded to an integer, and the product
with the increment is the price that can be quoted. The quotient is itself rounded, to as many
places as fit, but that never shows: the result is the multiple of the increment nearest to
the price (`rounds_to_nearest_multiple`), for prices and increments of up to 27 digits. -/

namespace TickFeed.Instrument

open Decimal Rounding

/-- The price and the increment, each in units of the places of the other, are below
`10 ^ 27`. -/
structure Covers (i : Instrument) (price : Decimal) : Prop where
  dividend : price.mantissa.natAbs * 10 ^ i.priceIncrement.scale < 10 ^ 27
  divisor : i.priceIncrement.mantissa * 10 ^ price.scale < 10 ^ 27

variable {i : Instrument} {price : Decimal} {k : ℤ}

/-- Once the number of steps is known, the rest is an exact product. -/
theorem exists_roundToIncrement?_of_div? {q : Decimal} (hpos : 0 < i.priceIncrement.mantissa)
    (hq : price.div? i.priceIncrement = some q) (hk : IsNearest q.value k)
    (hfits : k.natAbs * i.priceIncrement.magnitude < 2 ^ 96) :
    ∃ r, i.roundToIncrement? price = some r ∧ r.value = k * i.priceIncrement.value := by
  obtain ⟨n, hn, hscale, hnearest⟩ := exists_round? q
  have hmantissa : n.mantissa = k := hnearest.unique hk
  have hvalue : n.value = k := by simp [value, hscale, hmantissa]
  have hmagnitude : n.magnitude = k.natAbs := by rw [← natAbs_mantissa, hmantissa]
  have hplaces : n.scale + i.priceIncrement.scale ≤ 28 := by
    rw [hscale, Nat.zero_add]
    exact i.priceIncrement.scale_le
  obtain ⟨r, hr, hproduct⟩ := exists_mul?_of_lt hplaces (hmagnitude ▸ hfits)
  have hnonzero : i.priceIncrement.isZero = false :=
    decide_eq_false (mantissa_pos_iff.mp hpos).2.ne'
  refine ⟨r, ?_, by rw [hproduct, hvalue]⟩
  rw [roundToIncrement?, hnonzero]
  simp [hq, hn, hr]

/-- A price in reach has a nearest number of steps, and is rounded to so many of them. -/
theorem Covers.exists_roundToIncrement? (h : i.Covers price)
    (hpos : 0 < i.priceIncrement.mantissa) :
    ∃ r k, i.roundToIncrement? price = some r ∧
      IsNearest (price.value / i.priceIncrement.value) k ∧
      r.value = k * i.priceIncrement.value ∧
      k.natAbs * i.priceIncrement.magnitude < 2 ^ 96 := by
  obtain ⟨-, hmagnitude⟩ := mantissa_pos_iff.mp hpos
  have hnum : price.magnitude * 10 ^ i.priceIncrement.scale < 10 ^ 27 := by
    rw [← natAbs_mantissa]
    exact h.dividend
  have hden : i.priceIncrement.magnitude * 10 ^ price.scale < 10 ^ 27 := by
    have hcast : (i.priceIncrement.magnitude : ℤ) = i.priceIncrement.mantissa := by
      rw [← natAbs_mantissa, Int.natAbs_of_nonneg hpos.le]
    have hdivisor := h.divisor
    rw [← hcast] at hdivisor
    exact_mod_cast hdivisor
  have hdenpos : 0 < i.priceIncrement.magnitude * 10 ^ price.scale :=
    Nat.mul_pos hmagnitude (ten_pow_pos _)
  obtain ⟨q, hq, hplaces⟩ := exists_div?_of_lt hpos hnum hden
  obtain ⟨n, -, -, hn⟩ := exists_round? q
  have hk := isNearest_of_div? hpos hq hplaces hn
  -- the product with the increment is hardly more than the price
  have hfits : n.mantissa.natAbs * i.priceIncrement.magnitude < 2 ^ 96 := by
    rw [value_div price hpos] at hk
    have hle := hk.natAbs_le hdenpos
    rw [Int.natAbs_mul, natAbs_signOf, one_mul, Int.natAbs_natCast] at hle
    have hplain : i.priceIncrement.magnitude ≤ i.priceIncrement.magnitude * 10 ^ price.scale :=
      Nat.le_mul_of_pos_right _ (ten_pow_pos _)
    have hproduct := Nat.mul_le_mul_left n.mantissa.natAbs hplain
    omega
  obtain ⟨r, hr, hvalue⟩ := exists_roundToIncrement?_of_div? hpos hq hn hfits
  exact ⟨r, n.mantissa, hr, hk, hvalue, hfits⟩

/-- A multiple of the increment is left as it is, also one that is not in reach. -/
theorem exists_roundToIncrement?_of_multiple (hpos : 0 < i.priceIncrement.mantissa)
    (hvalue : price.value = k * i.priceIncrement.value)
    (hfits : k.natAbs * i.priceIncrement.magnitude < 2 ^ 96) :
    ∃ r, i.roundToIncrement? price = some r ∧ r.value = price.value := by
  have hk : k.natAbs < 2 ^ 96 := by
    refine Nat.lt_of_le_of_lt ?_ hfits
    exact Nat.le_mul_of_pos_right _ (mantissa_pos_iff.mp hpos).2
  obtain ⟨q, hq, hexact⟩ := exists_div?_of_multiple hpos hvalue hk
  rw [hvalue]
  exact exists_roundToIncrement?_of_div? hpos hq (hexact ▸ isNearest_self k) hfits

/-- **A price is rounded to the nearest multiple of the increment**, of two equally near ones
to the even multiple, and there always is an answer. So it moves by half an increment at most,
prices keep their order, and what was rounded once stays as it is. -/
theorem rounds_to_nearest_multiple (i : Instrument) (hpos : 0 < i.priceIncrement.mantissa) :
    (∀ price, i.Covers price → ∃ r k, i.roundToIncrement? price = some r ∧
      IsNearest (price.value / i.priceIncrement.value) k ∧
      r.value = k * i.priceIncrement.value ∧
      |r.value - price.value| ≤ i.priceIncrement.value / 2 ∧
      ∃ again, i.roundToIncrement? r = some again ∧ again.value = r.value) ∧
    ∀ price price' r r', i.Covers price → i.Covers price' → price.value ≤ price'.value →
      i.roundToIncrement? price = some r → i.roundToIncrement? price' = some r' →
      r.value ≤ r'.value := by
  have hincrement : 0 < i.priceIncrement.value := value_pos_iff.mpr hpos
  constructor
  · intro price hprice
    obtain ⟨r, k, hr, hk, hvalue, hfits⟩ := hprice.exists_roundToIncrement? hpos
    refine ⟨r, k, hr, hk, hvalue, ?_, exists_roundToIncrement?_of_multiple hpos hvalue hfits⟩
    have hmoved : r.value - price.value =
        -((price.value / i.priceIncrement.value - k) * i.priceIncrement.value) := by
      rw [hvalue, sub_mul, div_mul_cancel₀ _ hincrement.ne', neg_sub]
    calc |r.value - price.value|
        = |price.value / i.priceIncrement.value - k| * i.priceIncrement.value := by
          rw [hmoved, abs_neg, abs_mul, abs_of_pos hincrement]
      _ ≤ 1 / 2 * i.priceIncrement.value := mul_le_mul_of_nonneg_right hk.near hincrement.le
      _ = i.priceIncrement.value / 2 := by ring
  · intro price price' r r' hprice hprice' hle hr hr'
    obtain ⟨s, k, hs, hk, hvalue, -⟩ := hprice.exists_roundToIncrement? hpos
    obtain ⟨s', k', hs', hk', hvalue', -⟩ := hprice'.exists_roundToIncrement? hpos
    obtain rfl := Option.some.inj (hr.symm.trans hs)
    obtain rfl := Option.some.inj (hr'.symm.trans hs')
    have hsteps : k ≤ k' := hk.mono hk' (div_le_div_of_nonneg_right hle hincrement.le)
    rw [hvalue, hvalue']
    exact mul_le_mul_of_nonneg_right (by exact_mod_cast hsteps) hincrement.le

/-- In steps of five paise, a price halfway between two multiples goes to the even one, below
zero as above it. -/
theorem rounds_to_nearest_multiple_halfway :
    let increment : Decimal := ⟨false, 5, 2, by decide, by decide⟩
    let i : Instrument := ⟨.ofSymbol "SBIN-EQ" .nse, "SBIN-EQ", "SBIN", .ofText "3045", .nse,
      .equity, none, none, 1, increment⟩
    let low : Decimal := ⟨true, 501275, 3, by decide, by decide⟩
    let high : Decimal := ⟨false, 50127, 2, by decide, by decide⟩
    0 < i.priceIncrement.mantissa ∧ i.Covers low ∧ i.Covers high ∧ low.value ≤ high.value ∧
      i.roundToIncrement? low = some ⟨true, 50130, 2, by decide, by decide⟩ ∧
      i.roundToIncrement? high = some ⟨false, 50125, 2, by decide, by decide⟩ ∧
      (∃ r k, i.roundToIncrement? low = some r ∧ IsNearest (low.value / increment.value) k ∧
        r.value = k * increment.value) ∧
      value ⟨true, 50130, 2, by decide, by decide⟩ ≤
        value ⟨false, 50125, 2, by decide, by decide⟩ := by
  intro increment i low high
  have hpos : 0 < i.priceIncrement.mantissa := by decide
  have hlow : i.Covers low := ⟨by decide, by decide⟩
  have hhigh : i.Covers high := ⟨by decide, by decide⟩
  have hle : low.value ≤ high.value := by norm_num [low, high, value, mantissa]
  have hrlow : i.roundToIncrement? low = some ⟨true, 50130, 2, by decide, by decide⟩ := by
    decide +kernel
  have hrhigh : i.roundToIncrement? high = some ⟨false, 50125, 2, by decide, by decide⟩ := by
    decide +kernel
  obtain ⟨hnearest, hmono⟩ := rounds_to_nearest_multiple i hpos
  obtain ⟨r, k, hr, hk, hvalue, -⟩ := hnearest low hlow
  exact ⟨hpos, hlow, hhigh, hle, hrlow, hrhigh, ⟨r, k, hr, hk, hvalue⟩,
    hmono low high _ _ hlow hhigh hle hrlow hrhigh⟩

end TickFeed.Instrument
