/-! # Rounding a quotient

`halfEven num den` is the integer nearest to `num / den`; of two equally near
ones it is the even one. Binary and decimal arithmetic both end in this step. -/

namespace TickFeed.Rounding

/-- The integer nearest to `num / den`, a tie going to the even neighbour. -/
def halfEven (num den : Nat) : Nat :=
  let q := num / den
  let r := num % den
  if 2 * r < den then q
  else if den < 2 * r then q + 1
  else if q % 2 = 0 then q else q + 1

/-- The integer nearest to `num / den`, a tie going up. -/
def halfUp (num den : Nat) : Nat := (2 * num + den) / (2 * den)

theorem le_halfEven (num den : Nat) : num / den ≤ halfEven num den := by
  unfold halfEven
  simp only
  split <;> (try split) <;> (try split) <;> omega

theorem halfEven_le (num den : Nat) : halfEven num den ≤ num / den + 1 := by
  unfold halfEven
  simp only
  split <;> (try split) <;> (try split) <;> omega

theorem halfEven_mono {a b : Nat} (den : Nat) (h : a ≤ b) : halfEven a den ≤ halfEven b den := by
  rcases Nat.eq_or_lt_of_le (Nat.div_le_div_right (c := den) h) with hq | hq
  · have ha := Nat.div_add_mod a den
    have hb := Nat.div_add_mod b den
    rw [hq] at ha
    have hr : a % den ≤ b % den := by omega
    unfold halfEven
    simp only [hq]
    repeat' split
    all_goals omega
  · calc halfEven a den ≤ a / den + 1 := halfEven_le a den
      _ ≤ b / den := hq
      _ ≤ halfEven b den := le_halfEven b den

/-- What rounding adds is at most half of the divisor. -/
theorem two_mul_halfEven_le (num : Nat) {den : Nat} (h : 0 < den) :
    2 * (halfEven num den * den) ≤ 2 * num + den := by
  have hd := Nat.div_add_mod num den
  have hr := Nat.mod_lt num h
  have hk : num / den * den = den * (num / den) := Nat.mul_comm _ _
  have hs : (num / den + 1) * den = den * (num / den) + den := by
    rw [Nat.add_mul, Nat.one_mul, hk]
  unfold halfEven
  simp only
  repeat' split
  all_goals omega

/-- A multiple of the divisor is rounded to its exact quotient. -/
@[simp] theorem halfEven_mul_right (n den : Nat) (h : 0 < den) :
    halfEven (n * den) den = n := by
  simp [halfEven, h]

end TickFeed.Rounding
