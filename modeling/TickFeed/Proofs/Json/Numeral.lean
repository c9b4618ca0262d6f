import TickFeed.Json.Numeral
import TickFeed.Proofs.Binary64.Decimal
import TickFeed.Proofs.Json.Literals
import TickFeed.Proofs.Text.Padding

/-! # What a numeral says

The text of a numeral is read elsewhere too: as a double, which is then the nearest one
(`Literal.read?`), and as an integer where it has no point and no exponent
(`Literal.int?`). The double that `toBinary64` finds is the nearest one for short numerals
(`isRounded_of_short`), but need not be for long ones. -/

namespace TickFeed

namespace Json

/-! ## Digits -/

/-- Digits that fit 64 bits are all taken. -/
theorem leadingDigits_eq {value : Nat} {cs : List Char}
    (h : cs.foldl (fun n c => 10 * n + (c.toNat - '0'.toNat)) value < 2 ^ 64) :
    leadingDigits value cs = (cs.foldl (fun n c => 10 * n + (c.toNat - '0'.toNat)) value, 0) := by
  induction cs generalizing value with
  | nil => rfl
  | cons c cs ih =>
    have hnext := Nat.lt_of_le_of_lt (Text.le_foldl_digits _ cs) h
    simp only [leadingDigits]
    rw [if_pos hnext]
    exact ih h

namespace Numeral

def digits (n : Numeral) : Nat := Text.digitsValue (n.whole ++ n.fraction)

/-- The power of ten that the last digit counts. -/
def power (n : Numeral) : Int := n.exponent.getD 0 - n.fraction.length

def nearest (n : Numeral) : Binary64 := .nearest n.neg n.digits n.power

/-- The double found for the numeral is the nearest one. -/
def IsRounded (n : Numeral) : Prop := n.toBinary64 = n.nearest

instance (n : Numeral) : Decidable n.IsRounded := inferInstanceAs (Decidable (_ = _))

theorem significand_eq {n : Numeral} (h : n.digits < 2 ^ 64) :
    n.significand = (n.digits, n.power) := by
  have hdigits := Text.digitsValue_append n.whole n.fraction
  rw [digits, hdigits] at h
  have hwhole : leadingDigits 0 n.whole = (Text.digitsValue n.whole, 0) :=
    leadingDigits_eq (Nat.lt_of_le_of_lt (Text.le_foldl_digits _ n.fraction) h)
  rw [significand, hwhole]
  dsimp only
  rw [leadingDigits_eq h, digits, hdigits, power]
  simp

end Numeral

open Binary64

theorem powerOfTen_eq {e : Nat} (h : e ≤ 22) :
    powerOfTen e = .finite false (10 ^ e * unitsPerOne) (fits_ten_pow h) := by
  have hfits := ofUnits_of_fits false Nat.one_pos (fits_ten_pow h)
  rwa [Nat.mul_one] at hfits

theorem mul_powerOfTen {u e : Nat} (hu : Fits u) (h : e ≤ 22) :
    .finite false u hu * powerOfTen e = ofUnits false (u * 10 ^ e) 1 := by
  rw [powerOfTen_eq h, mul_eq, ← ofUnits_mul_mul false _ 1 unitsPerOne_pos, Nat.one_mul,
    Nat.mul_assoc]

theorem div_powerOfTen {u e : Nat} (hu : Fits u) (h : e ≤ 22) :
    .finite false u hu / powerOfTen e = ofUnits false u (10 ^ e) := by
  have hpower : 10 ^ e * unitsPerOne ≠ 0 :=
    Nat.ne_of_gt (Nat.mul_pos (Nat.pow_pos (by decide)) unitsPerOne_pos)
  rw [powerOfTen_eq h, div_eq _ _ hpower, ofUnits_mul_mul false _ _ unitsPerOne_pos]

theorem scaleByTen_of_nonneg {x : Binary64} {e : Int} (h : 0 ≤ e) (he : e ≤ 308) :
    scaleByTen x e = x * powerOfTen e.toNat := by
  rw [scaleByTen, maxPowerOfTen, if_neg (by omega), if_pos h]

theorem scaleByTen_of_neg {x : Binary64} {e : Int} (h : e < 0) (he : -308 ≤ e) :
    scaleByTen x e = x / powerOfTen (-e).toNat := by
  rw [scaleByTen, maxPowerOfTen, if_neg (by omega), if_neg (by omega), if_pos (by omega)]

/-- Where the digits and the power of ten are doubles the one rounding is that of their
product or quotient. -/
theorem scaleByTen_eq {n : Nat} {e : Int} (hn : n ≤ 2 ^ 53) (hlower : -22 ≤ e) (hupper : e ≤ 22) :
    scaleByTen (.ofNat n) e = nearest false n e := by
  rw [ofNat_eq hn, nearest, ofRatio]
  by_cases hpos : 0 ≤ e
  · rw [scaleByTen_of_nonneg hpos (by omega), mul_powerOfTen _ (by omega),
      show (-e).toNat = 0 by omega, Nat.pow_zero, Nat.mul_right_comm]
  · rw [scaleByTen_of_neg (by omega) (by omega), div_powerOfTen _ (by omega),
      show e.toNat = 0 by omega, Nat.pow_zero, Nat.mul_one]

/-- Without a power of ten the one rounding is that of the digits. -/
theorem scaleByTen_zero {n : Nat} (hn : n < 2 ^ 64) :
    scaleByTen (.ofNat n) 0 = nearest false n 0 := by
  have hof : Binary64.ofNat n = nearest false n 0 := (nearest_zero false n).symm
  obtain ⟨u, hu, hfinite⟩ := exists_nearest_eq_finite false (Nat.le_of_lt hn)
  have hone := mul_powerOfTen hu (Nat.zero_le 22)
  rw [scaleByTen_of_nonneg (by omega) (by omega), Int.toNat_zero, hof, hfinite, hone, Nat.pow_zero]
  exact ofUnits_of_fits false Nat.one_pos hu

/-- A numeral of up to 53 binary digits with a small power of ten, or an integer of 64 bits. -/
theorem Numeral.isRounded_of_short {n : Numeral}
    (h : n.digits ≤ 2 ^ 53 ∧ -22 ≤ n.power ∧ n.power ≤ 22 ∨ n.digits < 2 ^ 64 ∧ n.power = 0) :
    n.IsRounded := by
  have hdigits : n.digits < 2 ^ 64 := by omega
  have hscale : scaleByTen (.ofNat n.digits) n.power = .nearest false n.digits n.power := by
    rcases h with ⟨hn, hlower, hupper⟩ | ⟨hn, hzero⟩
    · exact scaleByTen_eq hn hlower hupper
    · rw [hzero]
      exact scaleByTen_zero hn
  rw [IsRounded, toBinary64, significand_eq hdigits, Numeral.nearest]
  dsimp only
  rw [hscale]
  cases n.neg with
  | false => rw [if_neg Bool.false_ne_true]
  | true => rw [if_pos rfl, neg_nearest]

/-- A larger power of ten is itself rounded first. -/
example : ¬ Numeral.IsRounded ⟨false, ['3'], [], some 23⟩ := by decide +kernel

/-! ## The text -/

open Text

namespace Numeral

theorem Mark.eq {neg : Bool} {mark : List Char} (h : Mark neg mark) :
    ∃ e, (e = 'e' ∨ e = 'E') ∧ ∃ sign, mark = e :: sign ∧
      ∀ ds, IsRun ds → splitSign (sign ++ ds) = (neg, ds) := by
  cases h with
  | plain he =>
    refine ⟨_, he, [], rfl, fun ds hds => ?_⟩
    simpa using splitSign_append hds []
  | plus he => exact ⟨_, he, _, rfl, fun _ _ => rfl⟩
  | minus he => exact ⟨_, he, _, rfl, fun _ _ => rfl⟩

theorem Exponent.exponent? {exponent : Option Int} {power : List Char}
    (h : Exponent exponent power) : Binary64.exponent? power = some (exponent.getD 0) := by
  cases h with
  | absent => rfl
  | present hmark hds =>
    obtain ⟨e, he, sign, rfl, hsplit⟩ := hmark.eq
    rw [List.cons_append, Binary64.exponent?, if_pos he, hsplit _ hds]
    dsimp only
    rw [digits?_of_isRun hds]
    rfl

/-- Where there is an exponent its text begins with the mark, which is no digit. -/
theorem Exponent.cases_text {exponent : Option Int} {power : List Char}
    (h : Exponent exponent power) :
    exponent = none ∧ power = [] ∨
      exponent ≠ none ∧ ∃ e rest, power = e :: rest ∧ (e = 'e' ∨ e = 'E') := by
  cases h with
  | absent => exact .inl ⟨rfl, rfl⟩
  | present hmark hds =>
    obtain ⟨e, he, sign, rfl, -⟩ := hmark.eq
    exact .inr ⟨nofun, e, _, List.cons_append, he⟩

theorem Exponent.startsElsewhere {exponent : Option Int} {power : List Char}
    (h : Exponent exponent power) : StartsElsewhere power := by
  rcases h.cases_text with ⟨-, rfl⟩ | ⟨-, e, rest, rfl, he⟩
  · exact fun _ hc => nomatch hc
  · rcases he with rfl | rfl <;> exact startsElsewhere_cons rfl

theorem Fraction.startsElsewhere {fraction point power : List Char} {exponent : Option Int}
    (hfraction : Fraction fraction point) (hexponent : Exponent exponent power) :
    StartsElsewhere (point ++ power) := by
  cases hfraction with
  | absent => exact hexponent.startsElsewhere
  | present => exact startsElsewhere_cons rfl

/-! ### Without blanks -/

variable {n : Numeral} {cs : List Char}

theorem Sign.isBlank {neg : Bool} (h : Sign neg cs) : ∀ c ∈ cs, Text.isBlank c = false := by
  cases h with
  | absent => exact fun _ hc => nomatch hc
  | minus => exact List.forall_mem_singleton.mpr rfl

theorem isBlank_of_isRun (h : IsRun cs) : ∀ c ∈ cs, Text.isBlank c = false :=
  fun c hc => isBlank_of_isDigit (h.2 c hc)

theorem Fraction.isBlank {fraction : List Char} (h : Fraction fraction cs) :
    ∀ c ∈ cs, Text.isBlank c = false := by
  cases h with
  | absent => exact fun _ hc => nomatch hc
  | present hrun => exact List.forall_mem_cons.mpr ⟨rfl, isBlank_of_isRun hrun⟩

theorem Mark.isBlank {neg : Bool} (h : Mark neg cs) : ∀ c ∈ cs, Text.isBlank c = false := by
  have hmark {e : Char} (he : e = 'e' ∨ e = 'E') : Text.isBlank e = false := by
    obtain rfl | rfl := he <;> rfl
  cases h with
  | plain he => exact List.forall_mem_singleton.mpr (hmark he)
  | plus he | minus he =>
    exact List.forall_mem_cons.mpr ⟨hmark he, List.forall_mem_singleton.mpr rfl⟩

theorem Exponent.isBlank {exponent : Option Int} (h : Exponent exponent cs) :
    ∀ c ∈ cs, Text.isBlank c = false := by
  cases h with
  | absent => exact fun _ hc => nomatch hc
  | present hmark hrun => exact List.forall_mem_append.mpr ⟨hmark.isBlank, isBlank_of_isRun hrun⟩

theorem Literal.isBlank (h : n.Literal cs) : ∀ c ∈ cs, Text.isBlank c = false := by
  cases h with
  | mk hsign hwhole hfraction hexponent =>
    simp only [List.forall_mem_append]
    exact ⟨⟨⟨hsign.isBlank, isBlank_of_isRun hwhole⟩, hfraction.isBlank⟩, hexponent.isBlank⟩

/-! ### As a double -/

theorem numeral?_eq {neg : Bool} {whole fraction point power : List Char} {exponent : Option Int}
    (hwhole : IsRun whole) (hfraction : Fraction fraction point)
    (hexponent : Exponent exponent power) :
    Binary64.numeral? neg (whole ++ (point ++ power)) =
      some ⟨neg, whole, fraction, exponent.getD 0⟩ := by
  have hstart := hfraction.startsElsewhere hexponent
  -- what is left when the parts have been told apart
  have close (fraction rest : List Char) (h : Binary64.exponent? rest = some (exponent.getD 0)) :
      (if whole = [] ∧ fraction = [] then none
        else (Binary64.exponent? rest).map fun e => (⟨neg, whole, fraction, e⟩ : Binary64.Numeral)) =
          some ⟨neg, whole, fraction, exponent.getD 0⟩ := by
    rw [if_neg fun h => hwhole.1 h.1, h]
    rfl
  rw [Binary64.numeral?, takeWhile_isDigit hwhole hstart, dropWhile_isDigit hwhole hstart]
  cases hfraction with
  | absent =>
    have hpower := close [] _ hexponent.exponent?
    rcases hexponent.cases_text with ⟨-, rfl⟩ | ⟨-, e, rest, rfl, rfl | rfl⟩ <;> exact hpower
  | present hrun =>
    have htake := takeWhile_isDigit hrun hexponent.startsElsewhere
    have hdrop := dropWhile_isDigit hrun hexponent.startsElsewhere
    have hpoint := close ((fraction ++ power).takeWhile Char.isDigit)
      ((fraction ++ power).dropWhile Char.isDigit) (by rw [hdrop, hexponent.exponent?])
    exact hpoint.trans (by rw [htake])

/-- The words for infinities and for what is not a number begin with letters. -/
theorem word?_eq_none {c : Char} (h : c.isDigit = true) (neg : Bool) (cs : List Char) :
    Binary64.word? neg (c :: cs) = none := by
  have hne {w : List Char} (hw : w.head?.any Char.isDigit = false) :
      (c :: cs).map Char.toLower ≠ w := by
    rintro rfl
    rw [List.map_cons, toLower_of_isDigit h] at hw
    exact Bool.eq_false_iff.mp hw h
  rw [Binary64.word?, if_neg (not_or.mpr ⟨hne rfl, hne rfl⟩), if_neg (hne rfl)]

/-- The text of a numeral is read as the nearest double. -/
theorem Literal.read? (h : n.Literal cs) : Binary64.read? (String.ofList cs) = some n.nearest := by
  cases h with
  | @mk neg whole fraction exponent sign point power hsign hwhole hfraction hexponent =>
    have hsplit : splitSign (sign ++ whole ++ point ++ power) = (neg, whole ++ (point ++ power)) := by
      rw [List.append_assoc, List.append_assoc]
      cases hsign with
      | absent => exact splitSign_append hwhole _
      | minus => rfl
    have hword : Binary64.word? neg (whole ++ (point ++ power)) = none := by
      obtain ⟨c, rest, rfl⟩ := List.exists_cons_of_ne_nil hwhole.1
      exact word?_eq_none (hwhole.2 c List.mem_cons_self) _ _
    rw [Binary64.read?, String.toList_ofList, hsplit]
    dsimp only
    rw [hword, numeral?_eq hwhole hfraction hexponent]
    exact congrArg some (ofDecimal_eq _ _ _)

/-! ### As an integer -/

/-- The integer that a numeral without point and exponent is. -/
def integer? (n : Numeral) : Option Int :=
  if n.fraction = [] ∧ n.exponent = none then
    some (if n.neg then -(digitsValue n.whole : Int) else digitsValue n.whole)
  else none

theorem digits?_eq_none {c : Char} (hc : c ∈ cs) (h : c.isDigit = false) : digits? cs = none :=
  if_neg fun hdigits => Bool.eq_false_iff.mp h (List.all_eq_true.mp hdigits.2 c hc)

/-- The digits before the point are all there is, or a point or a mark follows them. -/
theorem digits?_eq {whole fraction point power : List Char} {exponent : Option Int}
    (hwhole : IsRun whole) (hfraction : Fraction fraction point)
    (hexponent : Exponent exponent power) :
    digits? (whole ++ (point ++ power)) =
      if fraction = [] ∧ exponent = none then some (digitsValue whole) else none := by
  cases hfraction with
  | present hrun =>
    rw [if_neg fun h => hrun.1 h.1]
    exact digits?_eq_none (List.mem_append_right _ List.mem_cons_self) rfl
  | absent =>
    rcases hexponent.cases_text with ⟨rfl, rfl⟩ | ⟨hsome, e, rest, rfl, he⟩
    · rw [if_pos ⟨rfl, rfl⟩, List.append_nil, List.append_nil, digits?_of_isRun hwhole]
    · rw [if_neg fun h => hsome h.2]
      refine digits?_eq_none (List.mem_append_right _ List.mem_cons_self) ?_
      rcases he with rfl | rfl <;> rfl

/-- Digits have no sign in front. -/
theorem nat?_append {ds : List Char} (h : IsRun ds) (rest : List Char) :
    nat? (ds ++ rest) = digits? (ds ++ rest) := by
  obtain ⟨c, cs, rfl⟩ := List.exists_cons_of_ne_nil h.1
  have hc : c.isDigit = true := h.2 c List.mem_cons_self
  rw [List.cons_append]
  unfold nat?
  split
  next heq => cases heq; cases hc
  next => rfl

theorem int?_append {ds : List Char} (h : IsRun ds) (rest : List Char) :
    int? (ds ++ rest) = (digits? (ds ++ rest)).map Int.ofNat := by
  rw [← nat?_append h]
  obtain ⟨c, cs, rfl⟩ := List.exists_cons_of_ne_nil h.1
  have hc : c.isDigit = true := h.2 c List.mem_cons_self
  rw [List.cons_append]
  unfold int?
  split
  next heq => cases heq; cases hc
  next => rfl

theorem Literal.int? (h : n.Literal cs) : Text.int? cs = n.integer? := by
  cases h with
  | mk hsign hwhole hfraction hexponent =>
    have hdigits := digits?_eq hwhole hfraction hexponent
    rw [List.append_assoc, List.append_assoc, integer?]
    cases hsign with
    | absent =>
      rw [List.nil_append, int?_append hwhole, hdigits]
      split <;> rfl
    | minus =>
      rw [List.singleton_append, Text.int?, hdigits]
      split <;> rfl

theorem Literal.nat? (h : n.Literal cs) :
    Text.nat? cs = if n.neg then none else n.integer?.map Int.toNat := by
  cases h with
  | mk hsign hwhole hfraction hexponent =>
    rw [List.append_assoc, List.append_assoc, integer?]
    cases hsign with
    | absent =>
      rw [List.nil_append, nat?_append hwhole, digits?_eq hwhole hfraction hexponent]
      split <;> rfl
    | minus => exact digits?_eq_none List.mem_cons_self rfl

/-! ### As a number -/

theorem integer?_eq_some_iff {k : Int} : n.integer? = some k ↔
    (n.fraction = [] ∧ n.exponent = none) ∧
      k = if n.neg then -(digitsValue n.whole : Int) else digitsValue n.whole := by
  rw [integer?, Option.ite_none_right_eq_some, Option.some_inj, eq_comm (a := k)]

/-- A number is an integer as it is written, or else it is a double: it is not written as an
integer, it is minus zero, or it is out of range. -/
theorem toNumber?_cases {v : Number} (h : n.toNumber? = some v) :
    (∃ k hlower hupper, v = .integer k hlower hupper ∧ n.integer? = some k ∧
      (n.neg = true ↔ k < 0)) ∨
    ∃ hfinite, v = .double n.toBinary64 hfinite ∧ ∀ k, n.integer? = some k →
      n.neg = true ∧ (k = 0 ∨ k < -2 ^ 63) ∨ n.neg = false ∧ 2 ^ 64 ≤ k := by
  have double (hdouble : (if hx : n.toBinary64.isFinite then
      some (Number.double n.toBinary64 hx) else none) = some v) :
      ∃ hfinite, v = .double n.toBinary64 hfinite := by
    split at hdouble
    next hx => exact ⟨hx, (Option.some.inj hdouble).symm⟩
    next => cases hdouble
  unfold toNumber? at h
  dsimp only at h
  split at h
  next hplain =>
    split at h
    next hneg =>
      split at h
      next hrange =>
        refine .inl ⟨_, _, _, (Option.some.inj h).symm, ?_, iff_of_true hneg (by omega)⟩
        exact integer?_eq_some_iff.mpr ⟨hplain, by rw [if_pos hneg]⟩
      next hrange =>
        obtain ⟨hfinite, rfl⟩ := double h
        refine .inr ⟨hfinite, rfl, fun k hk => .inl ⟨hneg, ?_⟩⟩
        obtain ⟨-, rfl⟩ := integer?_eq_some_iff.mp hk
        rw [if_pos hneg]
        omega
    next hneg =>
      split at h
      next hrange =>
        refine .inl ⟨_, _, _, (Option.some.inj h).symm, ?_, iff_of_false hneg (by omega)⟩
        exact integer?_eq_some_iff.mpr ⟨hplain, by rw [if_neg hneg]⟩
      next hrange =>
        obtain ⟨hfinite, rfl⟩ := double h
        refine .inr ⟨hfinite, rfl, fun k hk => .inr ⟨Bool.eq_false_iff.mpr hneg, ?_⟩⟩
        obtain ⟨-, rfl⟩ := integer?_eq_some_iff.mp hk
        rw [if_neg hneg]
        omega
  next hplain =>
    obtain ⟨hfinite, rfl⟩ := double h
    refine .inr ⟨hfinite, rfl, fun k hk => ?_⟩
    exact absurd (integer?_eq_some_iff.mp hk).1 hplain

theorem nearest_of_integer {k : Int} (h : n.integer? = some k) :
    n.nearest = .nearest n.neg k.natAbs 0 := by
  obtain ⟨⟨hfraction, hexponent⟩, hk⟩ := integer?_eq_some_iff.mp h
  have hdigits : n.digits = k.natAbs := by
    rw [digits, hfraction, List.append_nil]
    split at hk <;> omega
  have hpower : n.power = 0 := by
    rw [power, hfraction, hexponent]
    rfl
  rw [nearest, hdigits, hpower]

/-- Zero keeps its sign. -/
theorem nearest_of_zero (h : n.integer? = some 0) : n.nearest = .finite n.neg 0 fits_zero := by
  rw [nearest_of_integer h]
  exact nearest_of_small (.inl rfl)

/-- The double of a number is the one nearest to its numeral, if the one found for the
numeral is. -/
theorem toBinary64_of_toNumber? {v : Number} (h : n.toNumber? = some v) (hround : n.IsRounded) :
    v.toBinary64 = n.nearest := by
  rcases toNumber?_cases h with ⟨k, -, -, rfl, hk, hneg⟩ | ⟨hfinite, rfl, -⟩
  · have hsign : decide (k < 0) = n.neg := by
      rw [Bool.eq_iff_iff, decide_eq_true_iff, hneg]
    rw [nearest_of_integer hk, ← hsign]
    exact ofInt_eq k
  · exact hround

end Numeral

theorem Number.isFinite_toBinary64 (v : Number) : v.toBinary64.isFinite = true := by
  cases v with
  | integer k hlower hupper =>
    obtain ⟨u, hu, hfinite⟩ := exists_nearest_eq_finite (k < 0) (by omega : k.natAbs ≤ 2 ^ 64)
    rw [Number.toBinary64, ofInt_eq, hfinite]
    rfl
  | double x hfinite => exact hfinite

end Json

end TickFeed
