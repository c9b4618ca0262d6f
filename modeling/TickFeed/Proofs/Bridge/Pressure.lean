import TickFeed.Bridge.Pressure
import TickFeed.Proofs.Binary64.Value

/-! # Bands and exact percentages

The percentage that a band is chosen by is rounded several times over. It is near the exact
one (`close_utilization`), so a queue has the band of its exact percentage unless a threshold
is very near. A queue that is at a threshold exactly has, in place of its percentage, what is
left of the threshold after a division and a multiplication by a hundred, and that can be
another number: then the queue is on the wrong side (`band_is_exact_unless_moved`). The
default thresholds are among those that are left as they are (`kept_default`). -/

namespace TickFeed.BandThresholds

open Binary64 (unitsPerOne unitsPerOne_pos unitsPerOne_cast_pos Fits wholeUnits roundUnits
  fits_one fits_hundred hundred_eq hundred_pos)
open Rounding (Close)

/-- The part of a queue that is taken, in percent, as a fraction. -/
def percent (depth capacity : ℕ) : ℚ := 100 * depth / capacity

def bandOf (t : BandThresholds) (x : ℚ) : PressureBand :=
  if t.critical.value < x then .critical
  else if t.warning.value ≤ x then .warning
  else .normal

/-- The thresholds are numbers, and the critical band is not below the warning band. -/
structure Proper (t : BandThresholds) : Prop where
  warning : t.warning.isFinite = true
  critical : t.critical.isFinite = true
  le : t.warning.value ≤ t.critical.value

/-- A threshold is further from the percentage than by a part in `2 ^ 50` of it. -/
def Clear (s : Binary64) (x : ℚ) : Prop := x / 2 ^ 50 < |s.value - x|

/-- A threshold is a whole number of parts of `2 ^ -k` percent. -/
def Places (k : ℕ) (s : Binary64) : Prop := ∃ n : ℤ, s.value * 2 ^ k = n

/-- What is left of a threshold after a division and a multiplication by a hundred. -/
def moved (s : Binary64) : Binary64 := s / 100 * 100

variable {t : BandThresholds} {depth capacity k : ℕ} {s : Binary64}

/-! ## The percentage in units -/

def quotientUnits (u v : ℕ) : ℕ := roundUnits (u * unitsPerOne) v

theorem quotientUnits_zero {v : ℕ} (hv : 0 < v) : quotientUnits 0 v = 0 := by
  rw [quotientUnits, Nat.zero_mul, Binary64.roundUnits_zero hv]

def inPercent (neg : Bool) (q : ℕ) : Binary64 := .ofUnits neg (q * (100 * unitsPerOne)) unitsPerOne

/-- A quotient that is no more than a double, times a hundred. -/
theorem div_mul_hundred (neg : Bool) {u v w : ℕ} (hu : Fits u) (hv : Fits v) (hw : Fits w)
    (hpos : 0 < v) (h : u * unitsPerOne ≤ w * v) :
    (.finite neg u hu / .finite false v hv * 100 : Binary64) =
      inPercent neg (quotientUnits u v) := by
  obtain ⟨fits, hquotient, -⟩ := Binary64.exists_ofUnits_eq neg hpos hw h
  have hdiv : (.finite neg u hu / .finite false v hv : Binary64) =
      .finite neg (quotientUnits u v) fits := by
    show Binary64.div _ _ = _
    rw [Binary64.div, if_neg hpos.ne', Bool.bne_false]
    exact hquotient
  rw [hdiv, hundred_eq]
  show Binary64.mul _ _ = _
  simp only [Binary64.mul, Bool.bne_false, inPercent]

theorem moved_eq (neg : Bool) {u : ℕ} (hu : Fits u) :
    moved (.finite neg u hu) = inPercent neg (quotientUnits u (100 * unitsPerOne)) := by
  have h := div_mul_hundred neg hu fits_hundred hu hundred_pos
    (Nat.mul_le_mul_left _ (Nat.le_mul_of_pos_left _ (by decide)))
  rwa [← hundred_eq] at h

theorem quotientUnits_le_one {u v : ℕ} (hpos : 0 < v) (h : u ≤ v) :
    quotientUnits u v ≤ unitsPerOne := by
  refine Binary64.roundUnits_le hpos fits_one.2 ?_
  rw [Nat.mul_comm]
  exact Nat.mul_le_mul_left _ h

theorem wholeUnits_pos (hpos : 0 < capacity) : 0 < wholeUnits capacity :=
  unitsPerOne_pos.trans_le (Binary64.unitsPerOne_le_wholeUnits hpos.ne')

theorem utilization_eq (hpos : 0 < capacity) (hdepth : depth ≤ capacity)
    (hsize : capacity < 2 ^ 64) : utilization depth capacity =
      inPercent false (quotientUnits (wholeUnits depth) (wholeUnits capacity)) := by
  obtain ⟨hfitsd, hd, -⟩ := Binary64.exists_ofNat_eq (hdepth.trans_lt hsize)
  obtain ⟨hfitsc, hc, -⟩ := Binary64.exists_ofNat_eq hsize
  rw [utilization, if_neg hpos.ne', hd, hc]
  refine div_mul_hundred false hfitsd hfitsc fits_one (wholeUnits_pos hpos) ?_
  rw [Nat.mul_comm]
  exact Nat.mul_le_mul_left _ (Binary64.wholeUnits_mono hdepth)

/-! ## The error of the percentage -/

/-- Twice rounded, a quotient in percent is off by a part in `2 ^ 51` at most. -/
theorem close_inPercent {u v : ℕ} (hpos : 0 < v) (h : u = 0 ∨ 2 ^ 52 * v ≤ u * unitsPerOne) :
    Close (1 / 2 ^ 51) (100 * ((u : ℚ) / v))
      (roundUnits (quotientUnits u v * (100 * unitsPerOne)) unitsPerOne / unitsPerOne) := by
  have hone := unitsPerOne_cast_pos.ne'
  have hquotient : Close (1 / 2 ^ 53) (100 * ((u : ℚ) / v))
      (100 * (quotientUnits u v / unitsPerOne)) := by
    refine Close.mul_left (by norm_num) ?_
    have hround := Binary64.close_value hpos (h.imp_left fun h0 => by rw [h0, Nat.zero_mul])
    rwa [Nat.cast_mul, div_right_comm, mul_div_cancel_right₀ _ hone] at hround
  have hlarge : quotientUnits u v * (100 * unitsPerOne) = 0 ∨
      2 ^ 52 * unitsPerOne ≤ quotientUnits u v * (100 * unitsPerOne) := by
    rcases h with rfl | hlarge
    · left
      rw [quotientUnits_zero hpos, Nat.zero_mul]
    · right
      have hunits : 2 ^ 52 ≤ quotientUnits u v :=
        Binary64.le_roundUnits hpos (by decide) hlarge
      exact Nat.mul_le_mul hunits (Nat.le_mul_of_pos_left _ (by decide))
  have hproduct := Binary64.close_value unitsPerOne_pos hlarge
  have hexact : ((quotientUnits u v * (100 * unitsPerOne) : ℕ) : ℚ) / unitsPerOne / unitsPerOne =
      100 * (quotientUnits u v / unitsPerOne) := by
    push_cast
    field_simp
  rw [hexact] at hproduct
  have hnonneg : (0 : ℚ) ≤ 100 * (u / v) :=
    mul_nonneg (by norm_num) (div_nonneg (Nat.cast_nonneg u) (Nat.cast_nonneg v))
  exact (hquotient.trans (by norm_num) hproduct).mono hnonneg (by norm_num)

theorem percent_eq (depth capacity : ℕ) :
    percent depth capacity = 100 * ((depth : ℚ) / capacity) := mul_div_assoc _ _ _

theorem percent_nonneg (depth capacity : ℕ) : 0 ≤ percent depth capacity :=
  div_nonneg (mul_nonneg (by norm_num) (Nat.cast_nonneg depth)) (Nat.cast_nonneg capacity)

/-- A queue of an address space is not so long that its percentages would be tiny. -/
theorem wholeUnits_large (depth : ℕ) (hsize : capacity < 2 ^ 64) : wholeUnits depth = 0 ∨
    2 ^ 52 * wholeUnits capacity ≤ wholeUnits depth * unitsPerOne := by
  by_cases hzero : depth = 0
  · left
    rw [hzero, Binary64.wholeUnits_of_le (Nat.zero_le _), Nat.zero_mul]
  · right
    obtain ⟨-, -, hlimit⟩ := Binary64.exists_ofNat_eq hsize
    have hone : 2 ^ 116 ≤ wholeUnits depth :=
      (Binary64.two_pow_le_unitsPerOne (by decide : 116 ≤ 1074)).trans
        (Binary64.unitsPerOne_le_wholeUnits hzero)
    calc 2 ^ 52 * wholeUnits capacity ≤ 2 ^ 52 * (2 ^ 64 * unitsPerOne) :=
          Nat.mul_le_mul_left _ hlimit
      _ = 2 ^ 116 * unitsPerOne := by rw [← Nat.mul_assoc]
      _ ≤ wholeUnits depth * unitsPerOne := Nat.mul_le_mul_right _ hone

/-- The percentage of a queue is a number, and it is near the exact one. -/
theorem close_utilization (hpos : 0 < capacity) (hdepth : depth ≤ capacity)
    (hsize : capacity < 2 ^ 64) : (utilization depth capacity).isFinite = true ∧
      Close (1 / 2 ^ 50) (percent depth capacity) (utilization depth capacity).value := by
  have hcap := wholeUnits_pos hpos
  have hhundred : quotientUnits (wholeUnits depth) (wholeUnits capacity) * (100 * unitsPerOne) ≤
      100 * unitsPerOne * unitsPerOne := by
    rw [Nat.mul_comm]
    exact Nat.mul_le_mul_left _ (quotientUnits_le_one hcap (Binary64.wholeUnits_mono hdepth))
  obtain ⟨fits, hunits, -⟩ := Binary64.exists_ofUnits_eq false unitsPerOne_pos fits_hundred hhundred
  rw [utilization_eq hpos hdepth hsize, inPercent, hunits]
  refine ⟨rfl, ?_⟩
  have hparts : Close (3 * (1 / 2 ^ 53)) ((depth : ℚ) / capacity)
      (wholeUnits depth / unitsPerOne / (wholeUnits capacity / unitsPerOne)) :=
    Close.div (by norm_num) (Nat.cast_nonneg depth) (Nat.cast_pos.mpr hpos)
      (Binary64.close_wholeUnits depth) (Binary64.close_wholeUnits capacity)
  rw [div_div_div_cancel_right₀ unitsPerOne_cast_pos.ne'] at hparts
  have hpercent := (hparts.mul_left (by norm_num : (0 : ℚ) ≤ 100)).trans (by norm_num)
    (close_inPercent hcap (wholeUnits_large depth hsize))
  rw [← percent_eq, ← Binary64.value_of_not_neg fits] at hpercent
  exact hpercent.mono (percent_nonneg depth capacity) (by norm_num)

/-! ## Queues at a threshold -/

theorem inPercent_le_inPercent {p q : ℕ} (h : p ≤ q) :
    Binary64.le (inPercent false p) (inPercent false q) = true :=
  Binary64.ofUnits_le_ofUnits unitsPerOne_pos unitsPerOne_pos
    (Nat.mul_le_mul_right _ (Nat.mul_le_mul_right _ h))

theorem quotientUnits_le_quotientUnits {u v p q : ℕ} (hv : 0 < v) (hq : 0 < q)
    (h : u * q ≤ p * v) : quotientUnits u v ≤ quotientUnits p q := by
  refine Binary64.roundUnits_le_roundUnits hv hq ?_
  rw [Nat.mul_right_comm, Nat.mul_right_comm p]
  exact Nat.mul_le_mul_right _ h

/-- As far as whole numbers are doubles, the quotient is rounded once. -/
theorem utilization_eq_of_le (hpos : 0 < capacity) (hdepth : depth ≤ capacity)
    (hwhole : capacity ≤ 2 ^ 53) :
    utilization depth capacity = inPercent false (quotientUnits depth capacity) := by
  rw [utilization_eq hpos hdepth (hwhole.trans_lt (by decide)),
    Binary64.wholeUnits_of_le (hdepth.trans hwhole), Binary64.wholeUnits_of_le hwhole,
    quotientUnits, Nat.mul_right_comm, Binary64.roundUnits_mul_mul _ _ unitsPerOne_pos,
    ← quotientUnits]

theorem value_le_percent_iff {u : ℕ} (hu : Fits u) (hpos : 0 < capacity) :
    Binary64.value (.finite false u hu) ≤ percent depth capacity ↔
      u * capacity ≤ depth * (100 * unitsPerOne) := by
  have hcast : (0 : ℚ) < capacity := Nat.cast_pos.mpr hpos
  rw [Binary64.value_of_not_neg, percent, div_le_div_iff₀ unitsPerOne_cast_pos hcast,
    mul_comm 100 (depth : ℚ), mul_assoc]
  exact_mod_cast Iff.rfl

theorem percent_le_value_iff {u : ℕ} (hu : Fits u) (hpos : 0 < capacity) :
    percent depth capacity ≤ Binary64.value (.finite false u hu) ↔
      depth * (100 * unitsPerOne) ≤ u * capacity := by
  have hcast : (0 : ℚ) < capacity := Nat.cast_pos.mpr hpos
  rw [Binary64.value_of_not_neg, percent, div_le_div_iff₀ hcast unitsPerOne_cast_pos,
    mul_comm 100 (depth : ℚ), mul_assoc]
  exact_mod_cast Iff.rfl

theorem inPercent_zero (neg : Bool) : inPercent neg 0 = .finite neg 0 Binary64.fits_zero := by
  rw [← Binary64.ofUnits_of_fits neg unitsPerOne_pos Binary64.fits_zero]
  simp only [inPercent, Nat.zero_mul]

/-! ## Comparing with a threshold -/

section Threshold

variable (hs : s.isFinite = true) (hpos : 0 < capacity) (hdepth : depth ≤ capacity)

include hs hpos hdepth

theorem le_utilization_iff_of_clear (hsize : capacity < 2 ^ 64)
    (hclear : Clear s (percent depth capacity)) :
    Binary64.le s (utilization depth capacity) = true ↔ s.value ≤ percent depth capacity := by
  obtain ⟨hfinite, hclose⟩ := close_utilization hpos hdepth hsize
  rw [Binary64.le_iff_value_le hs hfinite]
  exact Rounding.le_iff_of_abs_lt (hclose.trans_lt (by rwa [one_div_mul_eq_div]))

theorem utilization_le_iff_of_clear (hsize : capacity < 2 ^ 64)
    (hclear : Clear s (percent depth capacity)) :
    Binary64.le (utilization depth capacity) s = true ↔ percent depth capacity ≤ s.value := by
  obtain ⟨hfinite, hclose⟩ := close_utilization hpos hdepth hsize
  rw [Binary64.le_iff_value_le hfinite hs, ← not_lt, ← not_lt, not_iff_not]
  exact Rounding.lt_iff_of_abs_lt (hclose.trans_lt (by rwa [one_div_mul_eq_div]))

variable (hwhole : capacity ≤ 2 ^ 53)

include hwhole

/-- A queue that is not below a threshold is not below what is left of it. -/
theorem moved_le_utilization (h : s.value ≤ percent depth capacity) :
    Binary64.le (moved s) (utilization depth capacity) = true := by
  rw [utilization_eq_of_le hpos hdepth hwhole]
  cases s with
  | infinite | nan => cases hs
  | finite neg u hu =>
    rw [moved_eq]
    cases neg with
    | true => exact Binary64.le_of_signs _ _ _ _
    | false =>
      refine inPercent_le_inPercent (quotientUnits_le_quotientUnits hundred_pos hpos ?_)
      exact (value_le_percent_iff hu hpos).mp h

/-- A queue that is not above a threshold is not above what is left of it. -/
theorem utilization_le_moved (h : percent depth capacity ≤ s.value) :
    Binary64.le (utilization depth capacity) (moved s) = true := by
  rw [utilization_eq_of_le hpos hdepth hwhole]
  cases s with
  | infinite | nan => cases hs
  | finite neg u hu =>
    rw [moved_eq]
    cases neg with
    | false =>
      refine inPercent_le_inPercent (quotientUnits_le_quotientUnits hpos hundred_pos ?_)
      exact (percent_le_value_iff hu hpos).mp h
    | true =>
      -- nothing is below zero but zero itself, which has two spellings
      have hcast : (0 : ℚ) < capacity := Nat.cast_pos.mpr hpos
      have hdepth0 : depth = 0 := by
        have hzero := le_antisymm (h.trans (Binary64.value_nonpos_of_neg hu))
          (percent_nonneg depth capacity)
        simpa [percent, hcast.ne'] using hzero
      have hu0 : u = 0 :=
        Binary64.eq_zero_of_value_nonneg hu ((percent_nonneg depth capacity).trans h)
      subst hdepth0 hu0
      rw [quotientUnits_zero hpos, quotientUnits_zero hundred_pos, inPercent_zero, inPercent_zero]
      rfl

/-- A queue at a threshold is compared with what is left of it. -/
theorem le_utilization_iff
    (hapart : percent depth capacity ≠ s.value → Clear s (percent depth capacity)) :
    Binary64.le s (utilization depth capacity) = true ↔ s.value < percent depth capacity ∨
      percent depth capacity = s.value ∧ Binary64.le s (moved s) = true := by
  by_cases heq : percent depth capacity = s.value
  · simp only [heq, lt_irrefl, false_or, true_and]
    exact ⟨fun h => Binary64.le_trans h (utilization_le_moved hs hpos hdepth hwhole heq.le),
      fun h => Binary64.le_trans h (moved_le_utilization hs hpos hdepth hwhole heq.ge)⟩
  · rw [le_utilization_iff_of_clear hs hpos hdepth (hwhole.trans_lt (by decide)) (hapart heq)]
    simp only [heq, false_and, or_false, lt_iff_le_and_ne, Ne.symm heq, ne_eq, not_false_eq_true,
      and_true]

theorem utilization_le_iff
    (hapart : percent depth capacity ≠ s.value → Clear s (percent depth capacity)) :
    Binary64.le (utilization depth capacity) s = true ↔ percent depth capacity < s.value ∨
      percent depth capacity = s.value ∧ Binary64.le (moved s) s = true := by
  by_cases heq : percent depth capacity = s.value
  · simp only [heq, lt_irrefl, false_or, true_and]
    exact ⟨fun h => Binary64.le_trans (moved_le_utilization hs hpos hdepth hwhole heq.ge) h,
      fun h => Binary64.le_trans (utilization_le_moved hs hpos hdepth hwhole heq.le) h⟩
  · rw [utilization_le_iff_of_clear hs hpos hdepth (hwhole.trans_lt (by decide)) (hapart heq)]
    simp only [heq, false_and, or_false, lt_iff_le_and_ne, ne_eq, not_false_eq_true, and_true]

end Threshold

/-- Few places keep the percentages of a queue that are not at a threshold clear of it. -/
theorem clear_of_places (hpos : 0 < capacity) (hdepth : depth ≤ capacity) (hplaces : Places k s)
    (hsize : capacity * 2 ^ k ≤ 2 ^ 43) (hne : percent depth capacity ≠ s.value) :
    Clear s (percent depth capacity) := by
  obtain ⟨n, hn⟩ := hplaces
  have hcap : (0 : ℚ) < capacity := Nat.cast_pos.mpr hpos
  have hpow : (0 : ℚ) < 2 ^ k := by positivity
  have hpercent : percent depth capacity ≤ 100 := by
    rw [percent, div_le_iff₀ hcap]
    exact_mod_cast Nat.mul_le_mul_left 100 hdepth
  -- both are whole numbers of parts of `capacity * 2 ^ k`, so they are apart by one of these
  have hparts : (s.value - percent depth capacity) * (capacity * 2 ^ k) =
      (n * capacity - 100 * depth * 2 ^ k : ℤ) := by
    push_cast
    rw [← hn, percent]
    field_simp
  have hone : 1 ≤ |s.value - percent depth capacity| * (capacity * 2 ^ k) := by
    have hnonzero : (n * capacity - 100 * depth * 2 ^ k : ℤ) ≠ 0 := by
      intro hzero
      rw [hzero, Int.cast_zero, mul_eq_zero, sub_eq_zero] at hparts
      exact hparts.elim (fun heq => hne heq.symm) (mul_pos hcap hpow).ne'
    rw [← abs_of_pos (mul_pos hcap hpow), ← abs_mul, hparts]
    exact_mod_cast Int.one_le_abs hnonzero
  have hsize' : (capacity : ℚ) * 2 ^ k ≤ 2 ^ 43 := by exact_mod_cast hsize
  have hgap : 1 ≤ |s.value - percent depth capacity| * 2 ^ 43 :=
    hone.trans (mul_le_mul_of_nonneg_left hsize' (abs_nonneg _))
  rw [Clear]
  linarith

/-! ## Bands -/

theorem classify_eq (hcritical : t.critical.isFinite = true) (hpos : 0 < capacity)
    (hdepth : depth ≤ capacity) (hsize : capacity < 2 ^ 64) : t.classify depth capacity =
      if Binary64.le (utilization depth capacity) t.critical = true then
        if Binary64.le t.warning (utilization depth capacity) = true then .warning else .normal
      else .critical := by
  have hfinite := (close_utilization hpos hdepth hsize).1
  simp only [classify, Binary64.le_eq_not_lt hfinite hcritical, Bool.not_eq_true',
    ← Bool.not_eq_true, ite_not]

theorem bandOf_eq (t : BandThresholds) (x : ℚ) : t.bandOf x =
    if x ≤ t.critical.value then if t.warning.value ≤ x then .warning else .normal
    else .critical := by
  simp only [bandOf, ← not_le, ite_not]

section Bands

variable (ht : t.Proper) (hpos : 0 < capacity) (hdepth : depth ≤ capacity)

include ht hpos hdepth

/-- Where the thresholds are clear of it, a queue has the band of its exact percentage. -/
theorem classify_eq_bandOf_of_clear (hsize : capacity < 2 ^ 64)
    (hwarning : Clear t.warning (percent depth capacity))
    (hcritical : Clear t.critical (percent depth capacity)) :
    t.classify depth capacity = t.bandOf (percent depth capacity) := by
  simp only [classify_eq ht.critical hpos hdepth hsize, bandOf_eq,
    utilization_le_iff_of_clear ht.critical hpos hdepth hsize hcritical,
    le_utilization_iff_of_clear ht.warning hpos hdepth hsize hwarning]

variable (hwhole : capacity ≤ 2 ^ 53)

include hwhole

/-- From its threshold on a queue is in the warning band or above, if that is not moved down. -/
theorem classify_ne_normal (hkept : Binary64.le t.warning (moved t.warning) = true)
    (h : t.warning.value ≤ percent depth capacity) : t.classify depth capacity ≠ .normal := by
  have hle := Binary64.le_trans hkept (moved_le_utilization ht.warning hpos hdepth hwhole h)
  rw [classify_eq ht.critical hpos hdepth (hwhole.trans_lt (by decide)), if_pos hle]
  split <;> decide

/-- Up to its threshold no queue is in the critical band, if that is not moved up. -/
theorem classify_ne_critical (hkept : Binary64.le (moved t.critical) t.critical = true)
    (h : percent depth capacity ≤ t.critical.value) : t.classify depth capacity ≠ .critical := by
  have hle := Binary64.le_trans (utilization_le_moved ht.critical hpos hdepth hwhole h) hkept
  rw [classify_eq ht.critical hpos hdepth (hwhole.trans_lt (by decide)), if_pos hle]
  split <;> decide

/-- A queue that each threshold is at or clear of has another band only at a moved one. -/
theorem classify_eq_bandOf_iff
    (hwarning : percent depth capacity ≠ t.warning.value →
      Clear t.warning (percent depth capacity))
    (hcritical : percent depth capacity ≠ t.critical.value →
      Clear t.critical (percent depth capacity)) :
    t.classify depth capacity = t.bandOf (percent depth capacity) ↔
      (percent depth capacity = t.warning.value →
        Binary64.le t.warning (moved t.warning) = true) ∧
      (percent depth capacity = t.critical.value →
        Binary64.le (moved t.critical) t.critical = true) := by
  have hle := ht.le
  have hw := le_utilization_iff ht.warning hpos hdepth hwhole hwarning
  have hc := utilization_le_iff ht.critical hpos hdepth hwhole hcritical
  simp only [classify_eq ht.critical hpos hdepth (hwhole.trans_lt (by decide)), bandOf_eq, hw, hc]
  generalize percent depth capacity = x
  rcases lt_trichotomy x t.critical.value with hx | hx | hx
  · simp only [hx, hx.le, hx.ne, true_or, if_true]
    rcases lt_trichotomy x t.warning.value with hy | hy | hy
    · simp [hy.not_gt, hy.not_ge, hy.ne]
    · simp [hy]
    · simp [hy, hy.le, hy.ne']
  · subst hx
    rcases hle.lt_or_eq with hy | hy
    · simp [hy, hy.le, hy.ne']
    · simp only [hy, lt_irrefl, le_refl, false_or, true_and, true_implies, if_true]
      split <;> simp_all
  · simp [hx.not_gt, hx.ne', hx.not_ge, (hle.trans_lt hx).ne']

end Bands

/-! ## Whole thresholds -/

theorem places_whole {n : ℕ} (h : n ≤ 2 ^ 53) (k : ℕ) : Places k (OfNat.ofNat n) := by
  refine ⟨n * 2 ^ k, ?_⟩
  rw [Binary64.value_literal h]
  push_cast
  rfl

theorem proper_whole {m n : ℕ} (hmn : m ≤ n) (hn : n ≤ 2 ^ 53) :
    Proper ⟨OfNat.ofNat m, OfNat.ofNat n⟩ := by
  refine ⟨?_, ?_, ?_⟩
  · rw [Binary64.literal_eq (hmn.trans hn)]
    rfl
  · rw [Binary64.literal_eq hn]
    rfl
  · rw [Binary64.value_literal (hmn.trans hn), Binary64.value_literal hn]
    exact_mod_cast hmn

/-- A threshold that is equal to what is left of it is not moved. -/
theorem le_of_moved_eq (hs : s.isFinite = true) (h : moved s = s) :
    Binary64.le s (moved s) = true ∧ Binary64.le (moved s) s = true := by
  have hself := (Binary64.le_iff_value_le hs hs).mpr le_rfl
  rw [h]
  exact ⟨hself, hself⟩

theorem proper_default : Proper {} := proper_whole (by decide : 80 ≤ 95) (by decide)

theorem places_default (k : ℕ) :
    Places k ({} : BandThresholds).warning ∧ Places k ({} : BandThresholds).critical :=
  ⟨places_whole (by decide : 80 ≤ 2 ^ 53) k, places_whole (by decide : 95 ≤ 2 ^ 53) k⟩

theorem kept_default :
    Binary64.le ({} : BandThresholds).warning (moved ({} : BandThresholds).warning) = true ∧
      Binary64.le (moved ({} : BandThresholds).critical) ({} : BandThresholds).critical = true :=
  ⟨(le_of_moved_eq proper_default.warning (by decide +kernel)).1,
    (le_of_moved_eq proper_default.critical (by decide +kernel)).2⟩

/-! ## Main results -/

/-- **Bands of exact percentages**: a queue has the band of its exact percentage where both
thresholds are clear of it. As far as whole numbers are doubles, the warning band begins at
its threshold at the latest when this is not moved down, and the critical band begins above
its threshold when this is not moved up. And for thresholds with few places a queue is in
another band than that of its exact percentage exactly when it is at the warning threshold and
this is moved down, or at the critical threshold and this is moved up. -/
theorem band_is_exact_unless_moved (ht : t.Proper) (hpos : 0 < capacity)
    (hdepth : depth ≤ capacity) (hsize : capacity < 2 ^ 64) :
    (Clear t.warning (percent depth capacity) → Clear t.critical (percent depth capacity) →
      t.classify depth capacity = t.bandOf (percent depth capacity)) ∧
    (capacity ≤ 2 ^ 53 →
      (Binary64.le t.warning (moved t.warning) = true →
        t.warning.value ≤ percent depth capacity → t.classify depth capacity ≠ .normal) ∧
      (Binary64.le (moved t.critical) t.critical = true →
        percent depth capacity ≤ t.critical.value → t.classify depth capacity ≠ .critical)) ∧
    ∀ k, Places k t.warning → Places k t.critical → capacity * 2 ^ k ≤ 2 ^ 43 →
      (t.classify depth capacity = t.bandOf (percent depth capacity) ↔
        (percent depth capacity = t.warning.value →
          Binary64.le t.warning (moved t.warning) = true) ∧
        (percent depth capacity = t.critical.value →
          Binary64.le (moved t.critical) t.critical = true)) := by
  refine ⟨classify_eq_bandOf_of_clear ht hpos hdepth hsize, fun hwhole =>
    ⟨classify_ne_normal ht hpos hdepth hwhole, classify_ne_critical ht hpos hdepth hwhole⟩, ?_⟩
  intro k hwarning hcritical hplaces
  have hwhole : capacity ≤ 2 ^ 53 :=
    (Nat.le_mul_of_pos_right _ (Nat.two_pow_pos k)).trans (hplaces.trans (by decide))
  exact classify_eq_bandOf_iff ht hpos hdepth hwhole
    (clear_of_places hpos hdepth hwarning hplaces) (clear_of_places hpos hdepth hcritical hplaces)

/-- Half full, a queue is clear of the default thresholds; at 80 percent it is at one. -/
theorem band_is_exact_at_default_thresholds :
    ({} : BandThresholds).classify 1 2 = ({} : BandThresholds).bandOf (percent 1 2) ∧
    ({} : BandThresholds).classify 80 100 = ({} : BandThresholds).bandOf (percent 80 100) := by
  constructor
  · refine (band_is_exact_unless_moved proper_default (by decide) (by decide) (by decide)).1 ?_ ?_
    · norm_num [Clear, percent, Binary64.value_literal (by decide : 80 ≤ 2 ^ 53)]
    · norm_num [Clear, percent, Binary64.value_literal (by decide : 95 ≤ 2 ^ 53)]
  · obtain ⟨hwarning, hcritical⟩ := places_default 0
    have hexact := (band_is_exact_unless_moved proper_default (by decide : 0 < 100)
      (by decide : 80 ≤ 100) (by decide)).2.2 0 hwarning hcritical (by decide)
    exact hexact.mpr ⟨fun _ => kept_default.1, fun _ => kept_default.2⟩

/-- Of 29 percent a little less is left, so a queue at such a warning threshold is below its
band; of 55 percent a little more is left, so a queue at such a critical threshold is in its
band. -/
theorem band_at_moved_threshold :
    Proper ⟨29, 95⟩ ∧ Proper ⟨50, 55⟩ ∧
    (⟨29, 95⟩ : BandThresholds).classify 29 100 = .normal ∧
    (⟨29, 95⟩ : BandThresholds).bandOf (percent 29 100) = .warning ∧
    (⟨50, 55⟩ : BandThresholds).classify 55 100 = .critical ∧
    (⟨50, 55⟩ : BandThresholds).bandOf (percent 55 100) = .warning := by
  have hwhole {n : ℕ} (h : n ≤ 100) := Binary64.value_literal (h.trans (by decide : 100 ≤ 2 ^ 53))
  refine ⟨proper_whole (by decide) (by decide), proper_whole (by decide) (by decide),
    by decide +kernel, ?_, by decide +kernel, ?_⟩
  · norm_num [bandOf, percent, hwhole (by decide : 29 ≤ 100), hwhole (by decide : 95 ≤ 100)]
  · norm_num [bandOf, percent, hwhole (by decide : 50 ≤ 100), hwhole (by decide : 55 ≤ 100)]

end TickFeed.BandThresholds
