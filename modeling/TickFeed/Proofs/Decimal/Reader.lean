import TickFeed.Decimal.Reader
import TickFeed.Proofs.Decimal.Arithmetic
import TickFeed.Proofs.Text.Digits

/-! # Decimals that are integers

A natural number in text is read as a decimal of the same value (`read?_of_nat?`), and
`toInt?` answers the integer that a decimal equals, whatever its places. -/

namespace TickFeed.Decimal

def EqualsInt (d : Decimal) (n : Int) : Prop := d.mantissa = n * 10 ^ d.scale

theorem toInt?_eq_some_iff {d : Decimal} {n : Int} : d.toInt? = some n ↔ d.EqualsInt n := by
  have hone : (10 : Int) ^ d.scale ≠ 0 := Int.pow_ne_zero (by decide)
  unfold toInt? EqualsInt
  constructor
  · intro h
    split at h
    · next hwhole =>
      rw [← Option.some.inj h, Int.ediv_mul_cancel (Int.dvd_of_emod_eq_zero hwhole)]
    · cases h
  · intro h
    rw [h, if_pos (Int.mul_emod_left _ _), Int.mul_ediv_cancel _ hone]

/-! ## Natural numbers in text -/

open Text

theorem parts?_of_digits {ds : List Char} (h : ∀ c ∈ ds, c.isDigit = true) :
    parts? true false ds = some (ds, []) := by
  induction ds with
  | nil => rfl
  | cons c ds ih =>
    obtain ⟨hc, hds⟩ := List.forall_mem_cons.mp h
    rw [parts?, if_pos hc, ih hds]
    rfl

theorem parts?_of_isRun {ds : List Char} (h : IsRun ds) : parts? false false ds = some (ds, []) := by
  obtain ⟨c, cs, rfl⟩ := List.exists_cons_of_ne_nil h.1
  obtain ⟨hc, hcs⟩ := List.forall_mem_cons.mp h.2
  rw [parts?, if_pos hc, parts?_of_digits hcs]
  rfl

/-- Leading zeros and a plus sign change nothing. -/
theorem read?_of_nat? {t : String} {m : Nat} (h : nat? t.toList = some m) (hm : m < 2 ^ 96) :
    ∃ d, read? t = some d ∧ d.EqualsInt m := by
  obtain ⟨ds, hrun, hsplit, rfl⟩ := exists_isRun_of_nat? h
  have hplain : plain? t.toList = some ⟨false, digitsValue ds, 0, hm, by decide⟩ := by
    rw [plain?, hsplit]
    simp only [parts?_of_isRun hrun, appendPlaces, Option.bind_eq_bind, Option.bind_some]
    rw [if_neg (Nat.not_le.mpr hm)]
    exact make?_eq_some_iff.mpr ⟨rfl, rfl, rfl⟩
  have hread : read? t = some ⟨false, digitsValue ds, 0, hm, by decide⟩ := by
    rw [read?, readChars?, hplain]
  exact ⟨_, hread, by simp [EqualsInt, mantissa]⟩

end TickFeed.Decimal
