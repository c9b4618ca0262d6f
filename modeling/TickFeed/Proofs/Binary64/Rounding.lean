import TickFeed.Binary64.Arithmetic

/-! # Rounding and the order

Rounding keeps the order of what is rounded (`roundUnits_mono`), and a double is
rounded to itself, so no quotient is rounded past a double. What follows is the
arithmetic of doubles that are not negative as one of natural numbers, their units: a
sum, a difference or a quotient is the exact one rounded once, and a difference is
exact where the spacing below divides it. -/

namespace TickFeed.Binary64

theorem log2_mono {u v : Nat} (h : u ≤ v) : u.log2 ≤ v.log2 := by
  by_cases hu : u = 0
  · subst hu
    exact Nat.zero_le _
  · have hv : v ≠ 0 := by omega
    rw [Nat.le_log2 hv]
    exact Nat.le_trans (Nat.log2_self_le hu) h

/-- The grids of doubles become coarser upwards. -/
theorem spacing_dvd_spacing {u v : Nat} (h : u ≤ v) : spacing u ∣ spacing v :=
  Nat.pow_dvd_pow 2 (Nat.sub_le_sub_right (log2_mono h) 52)

theorem roundUnits_mono {a b den : Nat} (hd : 0 < den) (h : a ≤ b) :
    roundUnits a den ≤ roundUnits b den := by
  have hq : a / den ≤ b / den := Nat.div_le_div_right h
  rcases Nat.eq_or_lt_of_le (log2_mono hq) with he | hlt
  · have hs : spacing (a / den) = spacing (b / den) := by rw [spacing, spacing, he]
    simp only [roundUnits, hs]
    exact Nat.mul_le_mul_right _ (Rounding.halfEven_mono _ h)
  · -- the power of two below `b / den` is above `a / den`, and it is on both grids
    have hb : b / den ≠ 0 := by
      intro h0
      rw [h0] at hlt
      exact absurd hlt (Nat.not_lt_zero _)
    have hbelow : a ≤ 2 ^ (b / den).log2 * den := by
      have hlog : a / den < 2 ^ (b / den).log2 := by
        by_cases ha : a / den = 0
        · rw [ha]
          exact Nat.two_pow_pos _
        · exact (Nat.log2_lt ha).mp hlt
      exact Nat.le_of_lt ((Nat.div_lt_iff_lt_mul hd).mp hlog)
    have habove : 2 ^ (b / den).log2 * den ≤ b :=
      Nat.le_trans (Nat.mul_le_mul_right _ (Nat.log2_self_le hb)) (Nat.div_mul_le_self b den)
    have grid : ∀ e, e ≤ (b / den).log2 →
        2 ^ (b / den).log2 = Rounding.halfEven (2 ^ (b / den).log2 * den) (den * 2 ^ e) * 2 ^ e := by
      intro e he
      have hsplit : 2 ^ (b / den).log2 = 2 ^ ((b / den).log2 - e) * 2 ^ e := by
        rw [← Nat.pow_add, Nat.sub_add_cancel he]
      have hprod : 2 ^ (b / den).log2 * den = 2 ^ ((b / den).log2 - e) * (den * 2 ^ e) := by
        rw [hsplit, Nat.mul_assoc, Nat.mul_comm den]
      rw [hprod, Rounding.halfEven_mul_right _ _ (Nat.mul_pos hd (Nat.two_pow_pos e))]
      exact hsplit
    calc roundUnits a den
        ≤ Rounding.halfEven (2 ^ (b / den).log2 * den) (den * spacing (a / den)) *
            spacing (a / den) := Nat.mul_le_mul_right _ (Rounding.halfEven_mono _ hbelow)
      _ = 2 ^ (b / den).log2 := (grid _ (by omega)).symm
      _ = Rounding.halfEven (2 ^ (b / den).log2 * den) (den * spacing (b / den)) *
            spacing (b / den) := grid _ (Nat.sub_le _ _)
      _ ≤ roundUnits b den := Nat.mul_le_mul_right _ (Rounding.halfEven_mono _ habove)

/-- A quotient below a double is not rounded above it. -/
theorem roundUnits_le {num den u : Nat} (hd : 0 < den) (hu : spacing u ∣ u) (h : num ≤ u * den) :
    roundUnits num den ≤ u :=
  calc roundUnits num den ≤ roundUnits (u * den) den := roundUnits_mono hd h
    _ = u := roundUnits_of_dvd hd hu

/-- A quotient above a double is not rounded below it. -/
theorem le_roundUnits {num den u : Nat} (hd : 0 < den) (hu : spacing u ∣ u) (h : u * den ≤ num) :
    u ≤ roundUnits num den :=
  calc u = roundUnits (u * den) den := (roundUnits_of_dvd hd hu).symm
    _ ≤ roundUnits num den := roundUnits_mono hd h

/-- To a whole number of units rounding adds at most half of the spacing there. -/
theorem two_mul_roundUnits_le (u : Nat) : 2 * roundUnits u 1 ≤ 2 * u + spacing u := by
  have h := Rounding.two_mul_halfEven_le u (spacing_pos u)
  simpa only [roundUnits, Nat.div_one, Nat.one_mul] using h

theorem fits_roundUnits {num den : Nat} (h : (roundUnits num den).log2 < 2098) :
    Fits (roundUnits num den) := ⟨h, spacing_dvd_roundUnits num den⟩

theorem ofUnits_of_lt {neg : Bool} {num den : Nat} (h : (roundUnits num den).log2 < 2098) :
    ofUnits neg num den = .finite neg (roundUnits num den) (fits_roundUnits h) := dif_pos h

/-! ## Whole numbers -/

theorem unitsPerOne_pos : 0 < unitsPerOne := by
  rw [unitsPerOne]
  exact Nat.two_pow_pos 1074

theorem two_pow_mul_unitsPerOne (k : Nat) : 2 ^ k * unitsPerOne = 2 ^ (k + 1074) := by
  rw [Nat.pow_add, unitsPerOne]

theorem two_pow_mul_unitsPerOne_le {k e : Nat} (h : k + 1074 ≤ e) :
    2 ^ k * unitsPerOne ≤ 2 ^ e := by
  rw [two_pow_mul_unitsPerOne]
  exact Nat.pow_le_pow_right (by decide) h

theorem spacing_dvd_two_pow_mul (k : Nat) :
    spacing (2 ^ k * unitsPerOne) ∣ 2 ^ k * unitsPerOne := by
  have h := spacing_dvd_mul_pow (by decide : 1 ≤ 2 ^ 53) (k + 1074)
  rwa [Nat.one_mul, ← two_pow_mul_unitsPerOne] at h

theorem log2_mul_pow_lt {m a e k : Nat} (hm : m ≤ 2 ^ a) (hk : a + e < k) :
    (m * 2 ^ e).log2 < k := by
  by_cases h0 : m * 2 ^ e = 0
  · rw [h0]
    exact Nat.zero_lt_of_lt hk
  · rw [Nat.log2_lt h0]
    calc m * 2 ^ e ≤ 2 ^ a * 2 ^ e := Nat.mul_le_mul_right _ hm
      _ = 2 ^ (a + e) := (Nat.pow_add 2 a e).symm
      _ < 2 ^ k := Nat.pow_lt_pow_right (by decide) hk

/-- At most `2 ^ 53` steps of a power of two make a double, if it is not too large. -/
theorem fits_mul_pow {m e : Nat} (hm : m ≤ 2 ^ 53) (he : 53 + e < 2098) : Fits (m * 2 ^ e) :=
  ⟨log2_mul_pow_lt hm he, spacing_dvd_mul_pow hm e⟩

theorem fits_whole {n : Nat} (h : n ≤ 2 ^ 53) : Fits (n * unitsPerOne) := by
  rw [unitsPerOne]
  exact @fits_mul_pow n 1074 h (by decide)

theorem ofNat_eq {n : Nat} (h : n ≤ 2 ^ 53) :
    ofNat n = .finite false (n * unitsPerOne) (fits_whole h) := by
  have hfits := ofUnits_of_fits false Nat.one_pos (fits_whole h)
  rwa [Nat.mul_one] at hfits

theorem literal_eq {n : Nat} (h : n ≤ 2 ^ 53) :
    (OfNat.ofNat n : Binary64) = .finite false (n * unitsPerOne) (fits_whole h) := by
  show ofNat n = _
  exact ofNat_eq h

theorem zero_eq : (0 : Binary64) = .finite false 0 fits_zero := by
  have h := literal_eq (Nat.zero_le (2 ^ 53))
  simp only [Nat.zero_mul] at h
  exact h

theorem fits_one : Fits unitsPerOne := by
  have h := fits_whole (by decide : 1 ≤ 2 ^ 53)
  rwa [Nat.one_mul] at h

theorem fits_hundred : Fits (100 * unitsPerOne) := fits_whole (by decide)

theorem hundred_eq : (100 : Binary64) = .finite false (100 * unitsPerOne) fits_hundred := by
  rw [literal_eq (by decide : 100 ≤ 2 ^ 53)]

theorem hundred_pos : 0 < 100 * unitsPerOne := Nat.mul_pos (by decide) unitsPerOne_pos

/-- Neither zero is above zero. -/
theorem lt_zero (neg : Bool) : lt 0 (.finite neg 0 fits_zero) = false := by
  rw [zero_eq]
  cases neg <;> rfl

/-- A whole number over a power of two is a double. -/
theorem exists_quotient {n k e : Nat} (h : n ≤ 2 ^ 53) (hk : e + k = 1074) :
    ∃ u, Fits u ∧ u * 2 ^ k = n * unitsPerOne := by
  refine ⟨n * 2 ^ e, fits_mul_pow h (by omega), ?_⟩
  rw [unitsPerOne, ← hk, Nat.pow_add, Nat.mul_assoc]

/-- On the grid at `u`, which steps of `2 ^ e` refine up to `2 ^ (53 + e)`. -/
theorem spacing_dvd_pow {u e : Nat} (h : u < 2 ^ 53 * 2 ^ e) : spacing u ∣ 2 ^ e := by
  by_cases hu : u = 0
  · rw [hu, spacing_of_lt (by decide)]
    exact Nat.one_dvd _
  · rw [← Nat.pow_add, ← Nat.log2_lt hu] at h
    exact Nat.pow_dvd_pow 2 (by omega)

/-- Below `2 ^ 53` whole numbers are on the grid of doubles. -/
theorem spacing_dvd_whole {u : Nat} (h : u < 2 ^ 53 * unitsPerOne) (n : Nat) :
    spacing u ∣ n * unitsPerOne := by
  rw [unitsPerOne] at h ⊢
  exact Nat.dvd_trans (spacing_dvd_pow h) (Nat.dvd_mul_left _ n)

/-- Below `2 ^ k` ones there are `2 ^ d` doubles or more to a one, for `k + d = 53`. -/
theorem two_pow_mul_spacing_le {u k d e : Nat} (hk : k + d = 53) (he : d + e = 1074)
    (h : u < 2 ^ k * unitsPerOne) : 2 ^ d * spacing u ≤ unitsPerOne := by
  have hone : unitsPerOne = 2 ^ d * 2 ^ e := by rw [← Nat.pow_add, he, unitsPerOne]
  rw [hone] at h ⊢
  rw [← Nat.mul_assoc, ← Nat.pow_add, hk] at h
  exact Nat.mul_le_mul_left _ (Nat.le_of_dvd (Nat.two_pow_pos e) (spacing_dvd_pow h))

/-! ## Doubles that are not negative -/

variable {u v : Nat} (hu : Fits u) (hv : Fits v)

theorem le_eq : le (.finite false u hu) (.finite false v hv) = decide (u ≤ v) := by
  simp only [le, lt, signed, Bool.false_eq_true, if_false, Int.ofNat_lt]
  by_cases h : u ≤ v
  · simp [h, Nat.not_lt.mpr h]
  · simp [h, Nat.lt_of_not_le h]

theorem lt_eq : lt (.finite false u hu) (.finite false v hv) = decide (u < v) := by
  simp only [lt, signed, Bool.false_eq_true, if_false, Int.ofNat_lt]

theorem zero_le : le 0 (.finite false u hu) = true := by
  rw [zero_eq, le_eq]
  exact decide_eq_true (Nat.zero_le u)

theorem zero_le_zero : le 0 0 = true := by
  have h := zero_le fits_zero
  rwa [← zero_eq] at h

theorem add_eq : (.finite false u hu + .finite false v hv : Binary64) = ofUnits false (u + v) 1 := by
  show add _ _ = _
  rw [add]
  split
  · rename_i h
    have h0 := ofUnits_of_fits false Nat.one_pos fits_zero
    rw [h.1, h.2]
    exact h0.symm
  · rfl

theorem sub_eq (h : v ≤ u) :
    (.finite false u hu - .finite false v hv : Binary64) = ofUnits false (u - v) 1 := by
  show sub _ _ = _
  rw [sub, neg, add]
  split
  · rename_i h0
    have h1 := ofUnits_of_fits false Nat.one_pos fits_zero
    rw [h0.1, h0.2]
    exact h1.symm
  · have hs : signed false u + signed (!false) v = ((u - v : Nat) : Int) := by
      simp only [signed, Bool.not_false, Bool.false_eq_true, if_false, if_true]
      omega
    rw [hs, ofSignedUnits, Int.natAbs_natCast]
    congr 1

theorem div_eq (hne : v ≠ 0) :
    (.finite false u hu / .finite false v hv : Binary64) = ofUnits false (u * unitsPerOne) v := by
  show div _ _ = _
  rw [div, if_neg hne]
  rfl

/-- A multiple of the spacing at a double that is no more than it is a double. -/
theorem fits_of_spacing_dvd {u v : Nat} (hu : Fits u) (hle : v ≤ u) (h : spacing u ∣ v) : Fits v :=
  ⟨Nat.lt_of_le_of_lt (log2_mono hle) hu.1, Nat.dvd_trans (spacing_dvd_spacing hle) h⟩

/-! ## Neighbours -/

theorem lt_two_pow_mul_spacing (u : Nat) : u < 2 ^ 53 * spacing u := by
  rw [spacing, ← Nat.pow_add]
  exact Nat.lt_of_lt_of_le Nat.lt_log2_self (Nat.pow_le_pow_right (by decide) (by omega))

/-- The next double is further up by a part in `2 ^ 53` of itself, or more. -/
theorem two_pow_mul_le_of_lt {u v : Nat} (hu : Fits u) (hv : Fits v) (h : u < v) :
    2 ^ 53 * u ≤ (2 ^ 53 - 1) * v := by
  obtain ⟨k, hk⟩ := hu.2
  obtain ⟨l, hl⟩ := Nat.dvd_trans (spacing_dvd_spacing (Nat.le_of_lt h)) hv.2
  have hs := spacing_pos u
  have hstep : k + 1 ≤ l := by
    refine Nat.lt_of_mul_lt_mul_left (a := spacing u) ?_
    rwa [← hk, ← hl]
  have hbelow : k < 2 ^ 53 := by
    refine Nat.lt_of_mul_lt_mul_right (a := spacing u) ?_
    rw [Nat.mul_comm, ← hk]
    exact lt_two_pow_mul_spacing u
  calc 2 ^ 53 * u = spacing u * (2 ^ 53 * k) := by rw [Nat.mul_left_comm, ← hk]
    _ ≤ spacing u * ((2 ^ 53 - 1) * l) := Nat.mul_le_mul_left _ (by omega)
    _ = (2 ^ 53 - 1) * v := by rw [Nat.mul_left_comm, ← hl]

/-- The quotient of a double by a larger one is not rounded up to one, also when it is
taken of `2 ^ k` times the double. -/
theorem roundUnits_lt {u v k e : Nat} (hk : k + 1074 = 53 + e) (hu : Fits u) (hv : Fits v)
    (h : u < v) : roundUnits (u * (2 ^ k * unitsPerOne)) v < 2 ^ k * unitsPerOne := by
  rw [two_pow_mul_unitsPerOne, hk, Nat.pow_add]
  have hbound : u * (2 ^ 53 * 2 ^ e) ≤ (2 ^ 53 - 1) * 2 ^ e * v :=
    calc u * (2 ^ 53 * 2 ^ e) = 2 ^ 53 * u * 2 ^ e := by
          rw [Nat.mul_comm (2 ^ 53) u, Nat.mul_assoc]
      _ ≤ (2 ^ 53 - 1) * v * 2 ^ e := Nat.mul_le_mul_right _ (two_pow_mul_le_of_lt hu hv h)
      _ = (2 ^ 53 - 1) * 2 ^ e * v := Nat.mul_right_comm _ _ _
  calc roundUnits (u * (2 ^ 53 * 2 ^ e)) v
      ≤ (2 ^ 53 - 1) * 2 ^ e :=
        roundUnits_le (Nat.zero_lt_of_lt h) (spacing_dvd_mul_pow (by decide) e) hbound
    _ < 2 ^ 53 * 2 ^ e := Nat.mul_lt_mul_of_pos_right (by decide) (Nat.two_pow_pos e)

end TickFeed.Binary64
