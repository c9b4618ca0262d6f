import TickFeed.Binary64.Reader
import TickFeed.Proofs.Binary64.Rounding

/-! # Decimals

The double nearest to a decimal depends on nothing but its value, and `ofDecimal` is that
double also where it answers without the power of ten (`ofDecimal_eq`). -/

namespace TickFeed

theorem Rounding.halfEven_mul_mul (num den : Nat) {k : Nat} (hk : 0 < k) :
    halfEven (num * k) (den * k) = halfEven num den := by
  have hlt {a b : Nat} : a * k < b * k ↔ a < b := Nat.mul_lt_mul_right hk
  simp only [halfEven, Nat.mul_div_mul_right num den hk, Nat.mul_mod_mul_right,
    ← Nat.mul_assoc, hlt]

namespace Binary64

/-! ## Quotients -/

/-- A quotient may be expanded. -/
theorem roundUnits_mul_mul (num den : Nat) {k : Nat} (hk : 0 < k) :
    roundUnits (num * k) (den * k) = roundUnits num den := by
  simp only [roundUnits, Nat.mul_div_mul_right num den hk]
  rw [Nat.mul_right_comm den, Rounding.halfEven_mul_mul _ _ hk]

theorem ofUnits_mul_mul (neg : Bool) (num den : Nat) {k : Nat} (hk : 0 < k) :
    ofUnits neg (num * k) (den * k) = ofUnits neg num den := by
  simp only [ofUnits, roundUnits_mul_mul num den hk]

/-- Less than half a unit is rounded to none. -/
theorem ofUnits_of_two_mul_lt {neg : Bool} {num den : Nat} (h : 2 * num < den) :
    ofUnits neg num den = .finite neg 0 fits_zero := by
  have hlt : num < den := by omega
  have hround : roundUnits num den = 0 := by
    simp only [roundUnits, Rounding.halfEven, Nat.div_eq_of_lt hlt,
      spacing_of_lt (by decide : 0 < 2 ^ 53), Nat.mul_one, Nat.mod_eq_of_lt hlt, if_pos h]
  simp only [ofUnits, hround]
  rfl

/-- From `2 ^ 1024` on there is no double. -/
theorem ofUnits_of_le {neg : Bool} {num den k : Nat} (hd : 0 < den) (hk : 1024 ≤ k)
    (h : 2 ^ k * unitsPerOne * den ≤ num) : ofUnits neg num den = .infinite neg := by
  have hle : 2 ^ (k + 1074) ≤ roundUnits num den := by
    rw [← two_pow_mul_unitsPerOne]
    exact le_roundUnits hd (spacing_dvd_two_pow_mul k) h
  have hlog : k + 1074 ≤ (roundUnits num den).log2 := by
    rwa [Nat.le_log2 (Nat.ne_of_gt (Nat.lt_of_lt_of_le (Nat.two_pow_pos _) hle))]
  exact dif_neg (by omega)

/-! ## Signs and products -/

theorem neg_ofUnits (num den : Nat) : -ofUnits false num den = ofUnits true num den := by
  unfold ofUnits
  split <;> rfl

theorem mul_eq {u v : Nat} (hu : Fits u) (hv : Fits v) :
    (.finite false u hu * .finite false v hv : Binary64) = ofUnits false (u * v) unitsPerOne := by
  show mul _ _ = _
  simp only [mul, bne_self_eq_false]

/-- Up to `10 ^ 22` a power of ten is a double. -/
theorem fits_ten_pow {e : Nat} (h : e ≤ 22) : Fits (10 ^ e * unitsPerOne) := by
  have hsplit : 10 ^ e * unitsPerOne = 5 ^ e * 2 ^ (e + 1074) := by
    rw [unitsPerOne, Nat.pow_add, ← Nat.mul_assoc, ← Nat.mul_pow]
  rw [hsplit]
  refine fits_mul_pow ?_ (by omega)
  exact Nat.le_trans (Nat.pow_le_pow_right (by decide) h) (by decide)

/-! ## The nearest double -/

def nearest (neg : Bool) (digits : Nat) (exponent : Int) : Binary64 :=
  ofRatio neg (digits * 10 ^ exponent.toNat) (10 ^ (-exponent).toNat)

theorem neg_nearest (n : Nat) (e : Int) : -nearest false n e = nearest true n e := by
  rw [nearest, nearest, ofRatio, ofRatio, neg_ofUnits]

theorem lt_ten_pow_length (n : Nat) : n < 10 ^ (Nat.toDigits 10 n).length :=
  (Nat.length_toDigits_le_iff (by decide) Nat.length_toDigits_pos).mp (Nat.le_refl _)

theorem ten_pow_length_le {n : Nat} (h : n ≠ 0) : 10 ^ ((Nat.toDigits 10 n).length - 1) ≤ n := by
  have hpos : 0 < (Nat.toDigits 10 n).length := Nat.length_toDigits_pos
  by_cases hone : (Nat.toDigits 10 n).length - 1 = 0
  · rw [hone]
    exact Nat.pos_of_ne_zero h
  · rw [← Nat.not_lt, ← Nat.length_toDigits_le_iff (by decide) (Nat.pos_of_ne_zero hone)]
    omega

/-- `10 ^ 7` is a little more than `2 ^ 23`. -/
theorem two_pow_le_ten_pow {a b k : Nat} (ha : a ≤ 23 * k) (hb : 7 * k ≤ b) : 2 ^ a ≤ 10 ^ b :=
  calc 2 ^ a ≤ 2 ^ (23 * k) := Nat.pow_le_pow_right (by decide) ha
    _ = (2 ^ 23) ^ k := Nat.pow_mul ..
    _ ≤ (10 ^ 7) ^ k := Nat.pow_le_pow_left (by decide) k
    _ = 10 ^ (7 * k) := (Nat.pow_mul ..).symm
    _ ≤ 10 ^ b := Nat.pow_le_pow_right (by decide) hb

theorem two_mul_two_pow_le {a b k : Nat} (ha : a < 23 * k) (hb : 7 * k ≤ b) :
    2 * 2 ^ a ≤ 10 ^ b := by
  rw [Nat.mul_comm, ← Nat.pow_succ]
  exact two_pow_le_ten_pow ha hb

theorem nearest_of_small {neg : Bool} {digits : Nat} {exponent : Int}
    (h : digits = 0 ∨ (Nat.toDigits 10 digits).length + exponent < -330) :
    nearest neg digits exponent = .finite neg 0 fits_zero := by
  refine ofUnits_of_two_mul_lt ?_
  rcases h with rfl | hsize
  · simp only [Nat.zero_mul, Nat.mul_zero]
    exact Nat.pow_pos (by decide)
  · obtain ⟨e, he⟩ : ∃ e, (-exponent).toNat = (Nat.toDigits 10 digits).length + e :=
      Nat.exists_eq_add_of_le (by omega)
    have hunits : 2 * unitsPerOne ≤ 10 ^ e := by
      rw [unitsPerOne]
      exact @two_mul_two_pow_le 1074 e 47 (by decide) (by omega)
    rw [show exponent.toNat = 0 by omega, Nat.pow_zero, Nat.mul_one, he]
    calc 2 * (digits * unitsPerOne) = digits * (2 * unitsPerOne) := Nat.mul_left_comm _ _ _
      _ < 10 ^ (Nat.toDigits 10 digits).length * (2 * unitsPerOne) :=
        Nat.mul_lt_mul_of_pos_right (lt_ten_pow_length digits)
          (Nat.mul_pos (by decide) unitsPerOne_pos)
      _ ≤ 10 ^ (Nat.toDigits 10 digits).length * 10 ^ e := Nat.mul_le_mul_left _ hunits
      _ = 10 ^ ((Nat.toDigits 10 digits).length + e) := (Nat.pow_add ..).symm

theorem nearest_of_large {neg : Bool} {digits : Nat} {exponent : Int} (hne : digits ≠ 0)
    (h : 320 < (Nat.toDigits 10 digits).length + exponent) :
    nearest neg digits exponent = .infinite neg := by
  have hpos : 0 < (Nat.toDigits 10 digits).length := Nat.length_toDigits_pos
  obtain ⟨e, he⟩ : ∃ e, (Nat.toDigits 10 digits).length - 1 + exponent.toNat =
      (-exponent).toNat + e := Nat.exists_eq_add_of_le (by omega)
  have hlimit := @two_pow_le_ten_pow 1024 e 45 (by decide) (by omega)
  refine ofUnits_of_le (Nat.pow_pos (by decide)) (Nat.le_refl 1024) ?_
  calc 2 ^ 1024 * unitsPerOne * 10 ^ (-exponent).toNat
      ≤ 10 ^ e * unitsPerOne * 10 ^ (-exponent).toNat :=
        Nat.mul_le_mul_right _ (Nat.mul_le_mul_right _ hlimit)
    _ = 10 ^ (-exponent).toNat * 10 ^ e * unitsPerOne := by
      rw [Nat.mul_right_comm, Nat.mul_comm (10 ^ e)]
    _ = 10 ^ ((Nat.toDigits 10 digits).length - 1 + exponent.toNat) * unitsPerOne := by
      rw [he, Nat.pow_add]
    _ = 10 ^ ((Nat.toDigits 10 digits).length - 1) * 10 ^ exponent.toNat * unitsPerOne := by
      rw [Nat.pow_add]
    _ ≤ digits * 10 ^ exponent.toNat * unitsPerOne :=
      Nat.mul_le_mul_right _ (Nat.mul_le_mul_right _ (ten_pow_length_le hne))

/-- The reader of decimals answers the nearest double. -/
theorem ofDecimal_eq (neg : Bool) (digits : Nat) (exponent : Int) :
    ofDecimal neg digits exponent = nearest neg digits exponent := by
  unfold ofDecimal
  dsimp only
  split
  next hsmall => exact (nearest_of_small hsmall).symm
  next hsmall =>
    split
    next hlarge => exact (nearest_of_large (fun h => hsmall (.inl h)) hlarge).symm
    next =>
      split
      next hexponent =>
        have hpower : (-exponent).toNat = 0 := by omega
        rw [nearest, hpower, Nat.pow_zero]
      next hexponent =>
        have hpower : exponent.toNat = 0 := by omega
        rw [nearest, hpower, Nat.pow_zero, Nat.mul_one]

/-! ## Integers -/

theorem nearest_zero (neg : Bool) (n : Nat) : nearest neg n 0 = ofUnits neg (n * unitsPerOne) 1 := by
  rw [nearest, ofRatio]
  simp only [Int.toNat_zero, Int.neg_zero, Nat.pow_zero, Nat.mul_one]

theorem ofInt_eq (n : Int) : ofInt n = nearest (n < 0) n.natAbs 0 := (nearest_zero _ _).symm

theorem log2_two_pow_mul_unitsPerOne (k : Nat) : (2 ^ k * unitsPerOne).log2 = k + 1074 := by
  rw [two_pow_mul_unitsPerOne, Nat.log2_two_pow]

/-- The double nearest to an integer of 64 bits is finite. -/
theorem exists_nearest_eq_finite (neg : Bool) {n : Nat} (h : n ≤ 2 ^ 64) :
    ∃ u hu, nearest neg n 0 = .finite neg u hu := by
  have hle : roundUnits (n * unitsPerOne) 1 ≤ 2 ^ 64 * unitsPerOne := by
    refine roundUnits_le Nat.one_pos (spacing_dvd_two_pow_mul 64) ?_
    rw [Nat.mul_one]
    exact Nat.mul_le_mul_right _ h
  have hlog : (roundUnits (n * unitsPerOne) 1).log2 < 2098 := by
    refine Nat.lt_of_le_of_lt (log2_mono hle) ?_
    rw [log2_two_pow_mul_unitsPerOne]
    decide
  exact ⟨_, fits_roundUnits hlog, (nearest_zero neg n).trans (ofUnits_of_lt hlog)⟩

end Binary64

end TickFeed
