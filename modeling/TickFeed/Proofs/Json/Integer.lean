import TickFeed.Proofs.Json.Numeral

/-! # Integers beyond 64 bits

An integer that does not fit 64 bits is read as a double: as a number by its leading digits
times a power of ten, as a text by one rounding. It may be another double in the two cases, and
need not be the integer in either. But its sign is that of the integer, and it is `2 ^ 63` or
more when the integer is (`outside_of_numeral`, `outside_nearest`), which is all that matters
to one who takes no integer of that size. -/

namespace TickFeed

namespace Binary64

/-! ## Large doubles -/

/-- A double from `2 ^ k` on, or the positive infinity. -/
inductive Reaches (k : Nat) : Binary64 → Prop where
  | finite {u : Nat} (hu : Fits u) (h : 2 ^ k * unitsPerOne ≤ u) : Reaches k (.finite false u hu)
  | infinite : Reaches k (.infinite false)

theorem reaches_ofUnits {num den k : Nat} (hd : 0 < den) (h : 2 ^ k * unitsPerOne * den ≤ num) :
    Reaches k (ofUnits false num den) := by
  have hle : 2 ^ k * unitsPerOne ≤ roundUnits num den :=
    le_roundUnits hd (spacing_dvd_two_pow_mul k) h
  by_cases hlog : (roundUnits num den).log2 < 2098
  · rw [ofUnits_of_lt hlog]
    exact .finite _ hle
  · rw [ofUnits, dif_neg hlog]
    exact .infinite

theorem reaches_ofNat {n k : Nat} (h : 2 ^ k ≤ n) : Reaches k (ofNat n) := by
  refine reaches_ofUnits Nat.one_pos ?_
  rw [Nat.mul_one]
  exact Nat.mul_le_mul_right _ h

theorem ne_zero_of_two_pow_le {k u : Nat} (h : 2 ^ k * unitsPerOne ≤ u) : u ≠ 0 := by
  have hpos : 0 < 2 ^ k * unitsPerOne := Nat.mul_pos (Nat.two_pow_pos k) unitsPerOne_pos
  omega

variable {x y : Binary64}

theorem Reaches.ne_zero {k : Nat} (h : Reaches k x) : x ≠ .zero := by
  cases h with
  | infinite => nofun
  | finite hu h =>
    intro hzero
    obtain ⟨-, hunits⟩ := Binary64.finite.inj hzero
    exact ne_zero_of_two_pow_le h hunits

/-- Rounding takes nothing away from what the factors have at least. -/
theorem Reaches.mul {j k : Nat} (hx : Reaches j x) (hy : Reaches k y) : Reaches (j + k) (x * y) := by
  show Reaches _ (Binary64.mul x y)
  cases hx with
  | infinite =>
    cases hy with
    | infinite => exact .infinite
    | finite hv hle =>
      rw [Binary64.mul, if_neg (ne_zero_of_two_pow_le hle)]
      exact .infinite
  | @finite u hu hle =>
    cases hy with
    | infinite =>
      rw [Binary64.mul, if_neg (ne_zero_of_two_pow_le hle)]
      exact .infinite
    | @finite v hv hle' =>
      refine reaches_ofUnits unitsPerOne_pos ?_
      calc 2 ^ (j + k) * unitsPerOne * unitsPerOne
          = 2 ^ j * unitsPerOne * (2 ^ k * unitsPerOne) := by
            rw [Nat.pow_add, Nat.mul_mul_mul_comm, Nat.mul_assoc]
        _ ≤ u * v := Nat.mul_le_mul hle hle'

/-! ## Signs -/

theorem isNegative_ofUnits (neg : Bool) (num den : Nat) :
    (ofUnits neg num den).isNegative = neg := by
  unfold ofUnits
  split <;> rfl

theorem isNegative_mul (hx : x.isNegative = false) (hy : y.isNegative = false) :
    (x * y).isNegative = false := by
  show (mul x y).isNegative = false
  cases x with
  | nan => rfl
  | finite a u hu =>
    cases y with
    | nan => rfl
    | finite b v hv =>
      rw [mul, isNegative_ofUnits]
      cases hx
      cases hy
      rfl
    | infinite b =>
      cases hx
      cases hy
      rw [mul]
      split <;> rfl
  | infinite a =>
    cases y with
    | nan => rfl
    | finite b v hv =>
      cases hx
      cases hy
      rw [mul]
      split <;> rfl
    | infinite b =>
      cases hx
      cases hy
      rfl

theorem isNegative_neg (hfinite : (-x).isFinite = true) : (-x).isNegative = !x.isNegative := by
  cases x with
  | nan => cases hfinite
  | finite _ _ _ | infinite _ => rfl

/-- A negative double, minus zero included, is not above zero. -/
theorem lt_zero_of_isNegative (h : x.isNegative = true) : lt 0 x = false := by
  rw [zero_eq]
  cases x with
  | nan => cases h
  | infinite neg =>
    cases h
    rfl
  | finite neg u hu =>
    cases h
    simp [lt, signed]

end Binary64

namespace Json

open Binary64

/-! ## Integers and the doubles read for them -/

/-- What a double has of an integer that it stands for: the sign of one that is not positive,
the size of one beyond 63 bits. -/
inductive Outside (k : Int) (x : Binary64) : Prop where
  | early (hk : k ≤ 0) (hx : x.isNegative = true)
  | late (hk : 2 ^ 63 ≤ k) (hx : x.Reaches 63)

/-- The nearest double, with a sign that is that of the integer unless it is zero. -/
theorem outside_nearest {k : Int} {neg : Bool} (hneg : k < 0 → neg = true)
    (hpos : 0 < k → neg = false) (h : k < 0 ∨ 2 ^ 63 ≤ k) :
    Outside k (nearest neg k.natAbs 0) := by
  rw [nearest_zero]
  rcases h with hk | hk
  · obtain rfl := hneg hk
    exact .early (by omega) (isNegative_ofUnits _ _ _)
  · obtain rfl := hpos (by omega)
    exact .late hk (reaches_ofNat (by omega))

/-! ### Leading digits -/

/-- When not all digits fit 64 bits, those that are taken fill them but for one digit. -/
theorem leadingDigits_of_le {value : Nat} {cs : List Char} (hcs : ∀ c ∈ cs, c.isDigit = true)
    (hvalue : value < 2 ^ 64)
    (h : 2 ^ 64 ≤ cs.foldl (fun n c => 10 * n + (c.toNat - '0'.toNat)) value) :
    (leadingDigits value cs).2 ≠ 0 ∧ 2 ^ 64 ≤ 10 * (leadingDigits value cs).1 + 9 := by
  induction cs generalizing value with
  | nil => exact absurd h (Nat.not_le.mpr hvalue)
  | cons c cs ih =>
    obtain ⟨hc, hrest⟩ := List.forall_mem_cons.mp hcs
    simp only [leadingDigits]
    split
    next hnext => exact ih hrest hnext h
    next hfull =>
      have hdigit : c.toNat - '0'.toNat ≤ 9 :=
        Nat.sub_le_sub_right (Char.isDigit_iff_toNat.mp hc).2 48
      exact ⟨Nat.succ_ne_zero _, by omega⟩

namespace Numeral

variable {n : Numeral} {k : Int}

theorem significand_of_integer (h : n.integer? = some k) :
    n.significand = ((leadingDigits 0 n.whole).1, ((leadingDigits 0 n.whole).2 : Int)) := by
  obtain ⟨⟨hfraction, hexponent⟩, -⟩ := integer?_eq_some_iff.mp h
  rw [significand, hfraction, hexponent]
  simp [leadingDigits]

theorem isNegative_scaleByTen (digits e : Nat) :
    (scaleByTen (.ofNat digits) e).isNegative = false := by
  rw [scaleByTen]
  split
  · split <;> rfl
  · rw [if_pos (Int.natCast_nonneg e)]
    exact isNegative_mul (isNegative_ofUnits _ _ _) (isNegative_ofUnits _ _ _)

theorem reaches_scaleByTen {digits e : Nat} (hdigits : 2 ^ 60 ≤ digits) (he : e ≠ 0) :
    Reaches 63 (scaleByTen (.ofNat digits) e) := by
  have hx : Reaches 60 (.ofNat digits) := reaches_ofNat hdigits
  rw [scaleByTen]
  split
  · rw [if_neg hx.ne_zero]
    exact .infinite
  · have hpower : 2 ^ 3 ≤ 10 ^ e :=
      calc 2 ^ 3 ≤ 10 ^ 1 := by decide
        _ ≤ 10 ^ e := Nat.pow_le_pow_right (by decide) (Nat.pos_of_ne_zero he)
    rw [if_pos (Int.natCast_nonneg e), Int.toNat_natCast]
    exact hx.mul (reaches_ofNat hpower)

/-- The double that is found for an integer. -/
theorem outside_of_numeral {cs : List Char} (hcs : n.Literal cs) (hk : n.integer? = some k)
    (hfinite : n.toBinary64.isFinite = true)
    (hout : n.neg = true ∧ (k = 0 ∨ k < -2 ^ 63) ∨ n.neg = false ∧ 2 ^ 64 ≤ k) :
    Outside k n.toBinary64 := by
  have hwhole : ∀ c ∈ n.whole, c.isDigit = true := by
    cases hcs with
    | mk _ hwhole _ _ => exact hwhole.2
  rw [toBinary64, significand_of_integer hk] at hfinite ⊢
  dsimp only at hfinite ⊢
  rcases hout with ⟨hneg, hsmall⟩ | ⟨hpos, hlarge⟩
  · rw [hneg, if_pos rfl] at hfinite ⊢
    refine .early (by omega) ?_
    rw [isNegative_neg hfinite, isNegative_scaleByTen]
    rfl
  · have hvalue : 2 ^ 64 ≤ Text.digitsValue n.whole := by
      obtain ⟨-, rfl⟩ := integer?_eq_some_iff.mp hk
      rw [hpos, if_neg Bool.false_ne_true] at hlarge
      omega
    obtain ⟨hdropped, hdigits⟩ := leadingDigits_of_le hwhole (by decide) hvalue
    rw [hpos, if_neg Bool.false_ne_true]
    exact .late (by omega) (reaches_scaleByTen (by omega) hdropped)

/-! ### Integers in text -/

/-- Digits behind a sign are read as the nearest double. -/
theorem read?_of_isRun {neg : Bool} {cs ds : List Char} (h : Text.IsRun ds)
    (hsplit : Text.splitSign cs = (neg, ds)) :
    Binary64.read? (String.ofList cs) = some (.nearest neg (Text.digitsValue ds) 0) := by
  have hword : Binary64.word? neg ds = none := by
    obtain ⟨c, rest, rfl⟩ := List.exists_cons_of_ne_nil h.1
    exact word?_eq_none (h.2 c List.mem_cons_self) _ _
  have hnumeral : Binary64.numeral? neg ds = some ⟨neg, ds, [], 0⟩ := by
    simpa using numeral?_eq h .absent .absent
  rw [Binary64.read?, String.toList_ofList, hsplit]
  dsimp only
  rw [hword, hnumeral]
  refine congrArg some ((ofDecimal_eq _ _ _).trans ?_)
  simp

/-- The text of an integer is read as a double too, the nearest one. -/
theorem read?_of_int? {cs : List Char} (h : Text.int? cs = some k) :
    ∃ neg, Binary64.read? (String.ofList cs) = some (.nearest neg k.natAbs 0) ∧
      (k < 0 → neg = true) ∧ (0 < k → neg = false) := by
  obtain ⟨neg, ds, hrun, hsplit, rfl⟩ := Text.exists_isRun_of_int? h
  refine ⟨neg, ?_, ?_⟩
  · rw [read?_of_isRun hrun hsplit]
    cases neg <;> simp
  · cases neg <;> simp

end Numeral

end Json

end TickFeed
