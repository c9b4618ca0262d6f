import TickFeed.Decimal.Arithmetic

/-! # Results of decimal arithmetic

`normalize` changes the places of a decimal and nothing of its value. A quotient keeps
the most places that fit: `ofRatio?_eq_some_iff` says which they are, and there is an
answer as soon as some number of places fits. So a decimal of one and more has a
hundredth, and it is positive. -/

namespace TickFeed.Decimal

/-! ## Signs -/

theorem mantissa_pos_iff {d : Decimal} :
    0 < d.mantissa ↔ d.isNegative = false ∧ 0 < d.magnitude := by
  unfold mantissa
  cases d.isNegative <;> simp

theorem isPositive_iff {d : Decimal} : d.isPositive = true ↔ 0 < d.mantissa := by
  simp [isPositive]

/-! ## Trailing zeros -/

/-- There is no zero at the end of the places. -/
def Stripped (d : Decimal) : Prop := d.scale = 0 ∨ d.magnitude % 10 ≠ 0

theorem stripZeros_stripped (magnitude scale : Nat) :
    (stripZeros magnitude scale).2 = 0 ∨ (stripZeros magnitude scale).1 % 10 ≠ 0 := by
  induction scale generalizing magnitude with
  | zero => exact .inl rfl
  | succ scale ih =>
    rw [stripZeros]
    split
    · exact ih (magnitude / 10)
    · exact .inr ‹_›

/-- A zero less and a place less is the same value. -/
theorem stripZeros_value (magnitude scale : Nat) :
    (stripZeros magnitude scale).1 * 10 ^ scale =
      magnitude * 10 ^ (stripZeros magnitude scale).2 := by
  induction scale generalizing magnitude with
  | zero => rfl
  | succ scale ih =>
    rw [stripZeros]
    split
    · next hzero =>
      have htens : magnitude / 10 * 10 = magnitude := by omega
      calc (stripZeros (magnitude / 10) scale).1 * 10 ^ (scale + 1)
          = (stripZeros (magnitude / 10) scale).1 * 10 ^ scale * 10 := by
            rw [Nat.pow_succ, Nat.mul_assoc]
        _ = magnitude / 10 * 10 * 10 ^ (stripZeros (magnitude / 10) scale).2 := by
            rw [ih, Nat.mul_right_comm]
        _ = magnitude * 10 ^ (stripZeros (magnitude / 10) scale).2 := by rw [htens]
    · rfl

theorem normalize_stripped (d : Decimal) : d.normalize.Stripped :=
  stripZeros_stripped d.magnitude d.scale

theorem normalize_value (d : Decimal) :
    d.normalize.magnitude * 10 ^ d.scale = d.magnitude * 10 ^ d.normalize.scale :=
  stripZeros_value d.magnitude d.scale

theorem normalize_pos {d : Decimal} (h : 0 < d.mantissa) : 0 < d.normalize.mantissa := by
  obtain ⟨hsign, hpos⟩ := mantissa_pos_iff.mp h
  refine mantissa_pos_iff.mpr ⟨hsign, ?_⟩
  have hvalue : 0 < d.normalize.magnitude * 10 ^ d.scale := by
    rw [normalize_value]
    exact Nat.mul_pos hpos (Nat.pow_pos (by decide))
  exact Nat.pos_of_mul_pos_right hvalue

/-! ## Quotients -/

theorem make?_eq_some_iff {neg : Bool} {magnitude scale : Nat} {d : Decimal} :
    make? neg magnitude scale = some d ↔
      d.isNegative = (neg && magnitude != 0) ∧ d.magnitude = magnitude ∧ d.scale = scale := by
  unfold make? ofParts?
  split
  · next hfits =>
    rw [Option.some.injEq]
    constructor
    · rintro rfl
      exact ⟨rfl, rfl, rfl⟩
    · intro hparts
      cases d
      simp_all
  · next hfits =>
    refine ⟨nofun, ?_⟩
    rintro ⟨-, rfl, rfl⟩
    exact absurd ⟨d.magnitude_lt, d.scale_le⟩ hfits

/-- `q` is the quotient, rounded to as many places as `q` has. -/
structure IsQuotient (q : Decimal) (neg : Bool) (num den : Nat) : Prop where
  magnitude : q.magnitude = Rounding.halfEven (num * 10 ^ q.scale) den
  isNegative : q.isNegative = (neg && q.magnitude != 0)

/-- There is a decimal for the quotient rounded to `s` places. -/
def FitsAt (num den s : Nat) : Prop := Rounding.halfEven (num * 10 ^ s) den < 2 ^ 96 ∧ s ≤ 28

variable {neg : Bool} {num den : Nat}

theorem IsQuotient.fitsAt {q : Decimal} (h : q.IsQuotient neg num den) :
    FitsAt num den q.scale := by
  have hmagnitude := q.magnitude_lt
  rw [h.magnitude] at hmagnitude
  exact ⟨hmagnitude, q.scale_le⟩

/-- One attempt of a division. -/
theorem make?_quotient_iff {s : Nat} {q : Decimal} :
    make? neg (Rounding.halfEven (num * 10 ^ s) den) s = some q ↔
      q.IsQuotient neg num den ∧ q.scale = s := by
  rw [make?_eq_some_iff]
  constructor
  · rintro ⟨hsign, hmagnitude, rfl⟩
    exact ⟨⟨hmagnitude, hmagnitude ▸ hsign⟩, rfl⟩
  · rintro ⟨⟨hmagnitude, hsign⟩, rfl⟩
    exact ⟨hmagnitude ▸ hsign, hmagnitude, rfl⟩

theorem make?_quotient_eq_none_iff {s : Nat} :
    make? neg (Rounding.halfEven (num * 10 ^ s) den) s = none ↔ ¬FitsAt num den s := by
  simp [make?, ofParts?, FitsAt]

theorem ofRatio?_succ (scale : Nat) :
    ofRatio? neg num den (scale + 1) =
      (make? neg (Rounding.halfEven (num * 10 ^ (scale + 1)) den) (scale + 1)).or
        (ofRatio? neg num den scale) := by
  simp only [ofRatio?]
  rw [List.range_succ, List.reverse_append, List.reverse_singleton, List.singleton_append,
    List.findSome?_cons]
  cases make? neg (Rounding.halfEven (num * 10 ^ (scale + 1)) den) (scale + 1) <;> rfl

/-- The quotient has the most places that fit. -/
theorem ofRatio?_eq_some_iff {scale : Nat} {q : Decimal} :
    ofRatio? neg num den scale = some q ↔
      q.IsQuotient neg num den ∧ q.scale ≤ scale ∧
        ∀ s, q.scale < s → s ≤ scale → ¬FitsAt num den s := by
  induction scale with
  | zero =>
    have hone : ofRatio? neg num den 0 =
        make? neg (Rounding.halfEven (num * 10 ^ 0) den) 0 := by simp [ofRatio?]
    rw [hone, make?_quotient_iff, Nat.le_zero]
    refine and_congr_right fun _ => ⟨fun hscale => ⟨hscale, ?_⟩, And.left⟩
    intro s hs hle
    omega
  | succ scale ih =>
    rw [ofRatio?_succ]
    cases hmake : make? neg (Rounding.halfEven (num * 10 ^ (scale + 1)) den) (scale + 1) with
    | some p =>
      -- the largest number of places fits, so it is the one
      rw [Option.some_or, ← hmake, make?_quotient_iff]
      refine and_congr_right fun hq => ⟨fun hscale => ⟨Nat.le_of_eq hscale, ?_⟩, ?_⟩
      · intro s hs hle
        omega
      · rintro ⟨hle, hmost⟩
        obtain ⟨hp, hplaces⟩ := make?_quotient_iff.mp hmake
        have hfits : FitsAt num den (scale + 1) := hplaces ▸ hp.fitsAt
        rcases Nat.lt_or_eq_of_le hle with hless | heq
        · exact absurd hfits (hmost (scale + 1) hless (Nat.le_refl _))
        · exact heq
    | none =>
      have htop : ¬FitsAt num den (scale + 1) := make?_quotient_eq_none_iff.mp hmake
      rw [Option.none_or, ih]
      refine and_congr_right fun hq => ⟨?_, ?_⟩
      · rintro ⟨hle, hmost⟩
        refine ⟨by omega, fun s hs hsle => ?_⟩
        rcases Nat.le_succ_iff.mp hsle with hbelow | rfl
        · exact hmost s hs hbelow
        · exact htop
      · rintro ⟨hle, hmost⟩
        have hne : q.scale ≠ scale + 1 := fun heq => htop (heq ▸ hq.fitsAt)
        exact ⟨by omega, fun s hs hsle => hmost s hs (by omega)⟩

/-- When `s` places fit, there is an answer, and it has `s` places or more. -/
theorem exists_ofRatio?_of_fitsAt {s scale : Nat} (hs : s ≤ scale) (h : FitsAt num den s) :
    ∃ q, ofRatio? neg num den scale = some q ∧ s ≤ q.scale := by
  have hsome : (ofRatio? neg num den scale).isSome = true := by
    refine List.isSome_findSome?.trans (List.any_eq_true.mpr ⟨s, ?_, ?_⟩)
    · rw [List.mem_reverse, List.mem_range]
      omega
    · rw [Option.isSome_iff_ne_none]
      exact fun hnone => make?_quotient_eq_none_iff.mp hnone h
  obtain ⟨q, hq⟩ := Option.isSome_iff_exists.mp hsome
  obtain ⟨-, -, hmost⟩ := ofRatio?_eq_some_iff.mp hq
  refine ⟨q, hq, ?_⟩
  rcases Nat.lt_or_ge q.scale s with hless | hge
  · exact absurd h (hmost s hless hs)
  · exact hge

/-! ## Hundredths -/

theorem atLeastOne_iff {d : Decimal} :
    d.atLeastOne = true ↔ d.isNegative = false ∧ 10 ^ d.scale ≤ d.magnitude := by
  have hone : (0 : Int) < 10 ^ d.scale := Int.pow_pos (by decide)
  unfold atLeastOne mantissa
  rw [decide_eq_true_iff]
  cases d.isNegative with
  | false => simp only [Bool.false_eq_true, if_false, true_and]; exact_mod_cast Iff.rfl
  | true =>
    simp only [if_true, Bool.true_eq_false, false_and, iff_false]
    omega

/-- A decimal of one and more has a hundredth, which is positive. -/
theorem exists_hundredth {d : Decimal} (h : d.atLeastOne = true) :
    ∃ q, d.div? hundred = some q ∧ 0 < q.mantissa := by
  obtain ⟨hsign, hone⟩ := atLeastOne_iff.mp h
  have hden : 0 < 100 * 10 ^ d.scale := Nat.mul_pos (by decide) (Nat.pow_pos (by decide))
  -- two places more make up for the hundred
  have hfits : FitsAt (d.magnitude * 10 ^ 0) (100 * 10 ^ d.scale) 2 := by
    refine ⟨Nat.lt_of_le_of_lt ?_ d.magnitude_lt, by decide⟩
    calc Rounding.halfEven (d.magnitude * 10 ^ 0 * 10 ^ 2) (100 * 10 ^ d.scale)
        ≤ Rounding.halfEven (d.magnitude * (100 * 10 ^ d.scale)) (100 * 10 ^ d.scale) := by
          refine Rounding.halfEven_mono _ ?_
          rw [Nat.pow_zero, Nat.mul_one]
          refine Nat.mul_le_mul_left _ ?_
          exact Nat.le_mul_of_pos_right 100 (Nat.pow_pos (by decide))
      _ = d.magnitude := Rounding.halfEven_mul_right _ _ hden
  obtain ⟨q, hq, hplaces⟩ : ∃ q, d.div? hundred = some q ∧ 2 ≤ q.scale :=
    exists_ofRatio?_of_fitsAt (by decide) hfits
  refine ⟨q, hq, mantissa_pos_iff.mpr ?_⟩
  obtain ⟨hquotient, -, -⟩ := ofRatio?_eq_some_iff.mp hq
  constructor
  · rw [hquotient.isNegative, hsign]
    rfl
  · rw [hquotient.magnitude]
    refine Nat.lt_of_lt_of_le ?_ (Rounding.le_halfEven _ _)
    refine Nat.div_pos ?_ hden
    calc 100 * 10 ^ d.scale = 10 ^ 2 * 10 ^ d.scale := rfl
      _ ≤ 10 ^ q.scale * d.magnitude :=
        Nat.mul_le_mul (Nat.pow_le_pow_right (by decide) hplaces) hone
      _ = d.magnitude * 10 ^ 0 * 10 ^ q.scale := by rw [Nat.pow_zero, Nat.mul_one, Nat.mul_comm]

end TickFeed.Decimal
