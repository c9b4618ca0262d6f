import TickFeed.Text.Blank

/-! # Letters

The letters of ASCII are the only characters that change with the case. None of them is a
digit and none is blank. -/

namespace TickFeed.Text

variable {c : Char}

theorem isUpper_iff : c.isUpper = true ↔ 65 ≤ c.toNat ∧ c.toNat ≤ 90 :=
  decide_eq_true_iff

theorem isLower_iff : c.isLower = true ↔ 97 ≤ c.toNat ∧ c.toNat ≤ 122 :=
  Bool.and_eq_true_iff.trans (and_congr decide_eq_true_iff decide_eq_true_iff)

theorem isAlpha_iff_upper_or_lower : c.isAlpha = true ↔ c.isUpper = true ∨ c.isLower = true :=
  Bool.or_eq_true_iff

theorem isAlpha_iff : c.isAlpha = true ↔
    65 ≤ c.toNat ∧ c.toNat ≤ 90 ∨ 97 ≤ c.toNat ∧ c.toNat ≤ 122 := by
  rw [isAlpha_iff_upper_or_lower, isUpper_iff, isLower_iff]

theorem isAlpha_of_isDigit (h : c.isDigit = true) : c.isAlpha = false := by
  have hdigit : 48 ≤ c.toNat ∧ c.toNat ≤ 57 := Char.isDigit_iff_toNat.mp h
  rw [Bool.eq_false_iff, ne_eq, isAlpha_iff]
  omega

theorem isAlpha_of_isBlank (h : isBlank c = true) : c.isAlpha = false := by
  rw [Bool.eq_false_iff, ne_eq, isAlpha_iff]
  simp only [isBlank, Bool.or_eq_true, Bool.and_eq_true, decide_eq_true_eq, beq_iff_eq] at h
  omega

/-! ## Upper case -/

theorem toNat_toUpper (c : Char) :
    c.toUpper.toNat = if 97 ≤ c.toNat ∧ c.toNat ≤ 122 then c.toNat - 32 else c.toNat := by
  have ha : 'a'.val.toNat = 97 := rfl
  have hz : 'z'.val.toNat = 122 := rfl
  have hc : c.val.toNat = c.toNat := rfl
  unfold Char.toUpper
  split
  · rename_i h
    rw [UInt32.le_iff_toNat_le, UInt32.le_iff_toNat_le, ha, hz, hc] at h
    rw [if_pos h]
    show (c.val + ('A'.val - 'a'.val)).toNat = c.toNat - 32
    have hd : ('A'.val - 'a'.val).toNat = 2 ^ 32 - 32 := by decide
    rw [UInt32.toNat_add, hd, hc]
    omega
  · rename_i h
    rw [UInt32.le_iff_toNat_le, UInt32.le_iff_toNat_le, ha, hz, hc] at h
    rw [if_neg h]

theorem toUpper_toUpper (c : Char) : c.toUpper.toUpper = c.toUpper := by
  apply Char.toNat_inj.mp
  rw [toNat_toUpper, toNat_toUpper]
  by_cases h : 97 ≤ c.toNat ∧ c.toNat ≤ 122
  · rw [if_pos h, if_neg (by omega)]
  · rw [if_neg h, if_neg h]

theorem isBlank_toUpper (c : Char) : isBlank c.toUpper = isBlank c := by
  rw [Bool.eq_iff_iff]
  simp only [isBlank, toNat_toUpper, Bool.or_eq_true, Bool.and_eq_true, decide_eq_true_eq,
    beq_iff_eq]
  split <;> omega

theorem upper_upper (s : String) : upper (upper s) = upper s := by
  simp only [upper, String.toList_ofList, List.map_map, Function.comp_def, toUpper_toUpper]

theorem upper_eq_empty {s : String} (h : upper s = "") : s = "" := by
  rw [upper, String.ofList_eq_empty_iff, List.map_eq_nil_iff] at h
  exact String.toList_eq_nil_iff.mp h

/-! ## Lower case -/

theorem toLower_of_not_isAlpha (h : c.isAlpha = false) : c.toLower = c := by
  have hupper : ¬c.isUpper = true := fun hupper =>
    Bool.eq_false_iff.mp h (isAlpha_iff_upper_or_lower.mpr (.inl hupper))
  unfold Char.toLower
  rw [dif_neg fun hrange => hupper (decide_eq_true hrange)]

theorem toLower_of_isDigit (h : c.isDigit = true) : c.toLower = c :=
  toLower_of_not_isAlpha (isAlpha_of_isDigit h)

theorem isAlpha_of_isLower_toLower (h : c.toLower.isLower = true) : c.isAlpha = true := by
  cases hc : c.isAlpha with
  | true => rfl
  | false =>
    rw [toLower_of_not_isAlpha hc] at h
    rw [← hc]
    exact isAlpha_iff_upper_or_lower.mpr (.inr h)

end TickFeed.Text
