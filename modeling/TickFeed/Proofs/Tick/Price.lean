import TickFeed.Proofs.Binary64.Rounding
import TickFeed.Tick.Reading

/-! # Prices

A price is a finite double whose sign bit is clear. Every reader of prices answers
one, and reads one back as it is. A hundredth of a price is a price: rounding does not
take it above the price itself, so it is still finite. -/

namespace TickFeed

namespace Binary64

/-- Finite, and positive or the positive zero. -/
def IsPrice (x : Binary64) : Prop := x.isFinite = true ∧ x.isNegative = false

theorem isPrice_iff {x : Binary64} : x.IsPrice ↔ ∃ u h, x = .finite false u h := by
  constructor
  · rintro ⟨hf, hn⟩
    cases x with
    | finite neg u h =>
      cases neg with
      | false => exact ⟨u, h, rfl⟩
      | true => cases hn
    | infinite _ | nan => cases hf
  · rintro ⟨u, h, rfl⟩
    exact ⟨rfl, rfl⟩

theorem isPrice_zero : IsPrice 0 := isPrice_iff.mpr ⟨0, fits_zero, zero_eq⟩

/-- A finite double above zero has its sign clear. -/
theorem isPrice_of_lt {x : Binary64} (hf : x.isFinite = true) (h : lt 0 x = true) : x.IsPrice := by
  refine ⟨hf, ?_⟩
  cases x with
  | finite neg u hu =>
    cases neg with
    | false => rfl
    | true =>
      rw [zero_eq] at h
      simp only [lt, signed, decide_eq_true_eq, if_true] at h
      exact absurd h (by simp)
  | infinite _ | nan => cases hf

/-- The choice that a reader of prices makes leaves a price alone. -/
theorem IsPrice.clamped {x : Binary64} (h : x.IsPrice) : (if lt 0 x then x else 0) = x := by
  obtain ⟨u, hu, rfl⟩ := isPrice_iff.mp h
  rw [zero_eq]
  split
  · rfl
  · rename_i hz
    simp only [lt, signed, decide_eq_true_eq, Bool.false_eq_true, if_false] at hz
    have : u = 0 := by omega
    subst this
    rfl

/-! ## A hundredth -/

theorem IsPrice.div_hundred {x : Binary64} (h : x.IsPrice) : (x / 100).IsPrice := by
  obtain ⟨u, hu, rfl⟩ := isPrice_iff.mp h
  have hpos : 0 < 100 * unitsPerOne := Nat.mul_pos (by decide) unitsPerOne_pos
  have hle : roundUnits (u * unitsPerOne) (100 * unitsPerOne) ≤ u :=
    roundUnits_le hpos hu.2 (Nat.mul_le_mul_left u (Nat.le_mul_of_pos_left _ (by decide)))
  have hlt := Nat.lt_of_le_of_lt (log2_mono hle) hu.1
  rw [literal_eq (by decide : 100 ≤ 2 ^ 53), div_eq hu _ (Nat.ne_of_gt hpos), ofUnits_of_lt hlt]
  exact ⟨rfl, rfl⟩

end Binary64

/-! ## Readers -/

theorem Json.isPrice_of_read {v : Json} {x : Binary64} (h : v.price? = some x) : x.IsPrice := by
  obtain ⟨y, hy, rfl⟩ := Option.map_eq_some_iff.mp h
  have hf := (Option.filter_eq_some_iff.mp hy).2
  split
  · rename_i hlt
    exact Binary64.isPrice_of_lt hf hlt
  · exact Binary64.isPrice_zero

/-- A price is written as a number and read back as it is. -/
theorem Json.price?_ofBinary64 {x : Binary64} (h : x.IsPrice) :
    (Json.ofBinary64 x).price? = some x := by
  rw [Json.ofBinary64, dif_pos h.1]
  simp only [Json.price?, Json.finite?, Json.Number.toBinary64, Option.filter_some, h.1, if_true,
    Option.map_some, h.clamped]

end TickFeed
