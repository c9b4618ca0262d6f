import TickFeed.Proofs.Catalog.Columns
import TickFeed.Proofs.Decimal.Value

/-! # Lot sizes

A lot size is looked for by the reader of integers first, and by the one of decimals when that
finds none. The first is a short way only: what it finds is found by the second as well
(`exists_read?_of_uint32?`), with any zeros in front and behind a plus sign. So a text has a lot
size exactly when it is a decimal that equals one, rounded places included
(`lotSize_is_decimal`). -/

namespace TickFeed

/-! ## Spellings of integers -/

namespace Text

/-- `n` behind zeros, and behind a plus sign. -/
def spelled (plus : Bool) (zeros n : ℕ) : List Char :=
  (if plus then ['+'] else []) ++ (List.replicate zeros '0' ++ Nat.toDigits 10 n)

theorem isRun_zeros_append (zeros n : ℕ) :
    IsRun (List.replicate zeros '0' ++ Nat.toDigits 10 n) := by
  refine ⟨?_, fun c hc => ?_⟩
  · exact List.append_ne_nil_of_right_ne_nil _ (List.ne_nil_of_length_pos Nat.length_toDigits_pos)
  · rcases List.mem_append.mp hc with hzero | hdigit
    · rw [List.eq_of_mem_replicate hzero]
      decide
    · exact Nat.isDigit_of_mem_toDigits (by decide) (by decide) hdigit

theorem digitsValue_zeros (zeros : ℕ) : digitsValue (List.replicate zeros '0') = 0 := by
  unfold digitsValue
  induction zeros with
  | zero => rfl
  | succ zeros ih => rwa [List.replicate_succ, List.foldl_cons]

/-- Zeros in front do not count. -/
theorem digitsValue_zeros_append (zeros n : ℕ) :
    digitsValue (List.replicate zeros '0' ++ Nat.toDigits 10 n) = n := by
  rw [digitsValue_append, digitsValue_zeros, ← Nat.ofDigitChars_eq_foldl,
    Nat.ofDigitChars_toDigits (by decide) (by decide)]

theorem nat?_of_isRun {ds : List Char} (h : IsRun ds) : nat? ds = some (digitsValue ds) := by
  unfold nat?
  split
  next cs =>
    have hplus := h.2 '+' List.mem_cons_self
    cases hplus
  next => exact digits?_of_isRun h

theorem nat?_spelled (plus : Bool) (zeros n : ℕ) : nat? (spelled plus zeros n) = some n := by
  have hrun := isRun_zeros_append zeros n
  have hvalue := digitsValue_zeros_append zeros n
  cases plus with
  | false => exact (nat?_of_isRun hrun).trans (congrArg some hvalue)
  | true => exact (digits?_of_isRun hrun).trans (congrArg some hvalue)

theorem uint32?_spelled (plus : Bool) (zeros : ℕ) (k : UInt32) :
    uint32? (String.ofList (spelled plus zeros k.toNat)) = some k := by
  rw [uint32?, unsigned?, String.toList_ofList, nat?_spelled, Option.filter_some,
    if_pos (decide_eq_true k.toNat_lt), Option.map_some, UInt32.ofNat_toNat]

end Text

/-! ## Integers among decimals -/

theorem Decimal.equalsInt_iff {d : Decimal} {n : ℤ} : d.EqualsInt n ↔ d.value = n := by
  have hten : ((10 ^ d.scale : ℕ) : ℚ) ≠ 0 := by exact_mod_cast (Decimal.ten_pow_pos d.scale).ne'
  rw [EqualsInt, value, div_eq_iff hten]
  norm_cast

namespace Row

variable {t : String}

/-- The text is a decimal that equals the integer `k`, of 32 bits and not zero. -/
def IsLotOf (t : String) (k : ℤ) : Prop :=
  ∃ d, Decimal.read? t = some d ∧ d.value = k ∧ 1 ≤ k ∧ k ≤ 2 ^ 32 - 1

/-- The reader of decimals reads what the one of integers reads, as the same number. -/
theorem exists_read?_of_uint32? {k : UInt32} (h : Text.uint32? t = some k) :
    ∃ d, Decimal.read? t = some d ∧ d.value = k.toNat := by
  obtain ⟨d, hd, hk⟩ := wholeNumber?_eq_some_iff.mp (wholeNumber?_of_uint32? h)
  exact ⟨d, hd, by exact_mod_cast Decimal.equalsInt_iff.mp hk⟩

theorem lotSize?_eq_some_iff_isLotOf {n : UInt32} :
    lotSize? t = some n ↔ IsLotOf t n.toNat := by
  have hlt := n.toNat_lt
  have hpos : 0 < n ↔ 1 ≤ (n.toNat : ℤ) := by
    rw [UInt32.lt_iff_toNat_lt, UInt32.toNat_zero]
    omega
  have hupper : (n.toNat : ℤ) ≤ 2 ^ 32 - 1 := by omega
  simp only [lotSize?_eq_some_iff, IsLotOf, Decimal.equalsInt_iff, hpos, hupper, and_true]

theorem lotSize_eq (t : String) :
    lotSize (some t) = (lotSize? t).elim (.error (.invalidLotSize t)) .ok := by
  rw [lotSize]
  cases lotSize? t <;> rfl

theorem lotSize_eq_ok_iff {n : UInt32} : lotSize (some t) = .ok n ↔ lotSize? t = some n := by
  rw [lotSize_eq]
  cases lotSize? t <;> simp

theorem lotSize_eq_error_iff :
    lotSize (some t) = .error (.invalidLotSize t) ↔ lotSize? t = none := by
  rw [lotSize_eq]
  cases lotSize? t <;> simp

/-- The integer of 32 bits that `k` is. -/
theorem IsLotOf.exists_uint32 {k : ℤ} (h : IsLotOf t k) : ∃ n : UInt32, (n.toNat : ℤ) = k := by
  obtain ⟨-, -, -, hlower, hupper⟩ := h
  refine ⟨UInt32.ofNat k.toNat, ?_⟩
  rw [UInt32.toNat_ofNat_of_lt' (by omega : k.toNat < 2 ^ 32), Int.toNat_of_nonneg (by omega)]

/-- A lot size is a decimal, however it is written: the text has the lot size `k` exactly when it
is read as a decimal that equals `k`, with `k` of 32 bits and not zero, and any other text is
invalid. What the reader of integers takes, which is every such integer behind any zeros and a
plus sign, the reader of decimals takes as the same number, and without the reader of integers all
lot sizes would be the same. -/
theorem lotSize_is_decimal (t : String) :
    (∀ k : ℤ, (∃ n : UInt32, lotSize (some t) = .ok n ∧ (n.toNat : ℤ) = k) ↔ IsLotOf t k) ∧
    (lotSize (some t) = .error (.invalidLotSize t) ↔ ∀ k, ¬IsLotOf t k) ∧
    (∀ k, Text.uint32? t = some k → ∃ d, Decimal.read? t = some d ∧ d.value = k.toNat) ∧
    (∀ plus zeros (k : UInt32), t = String.ofList (Text.spelled plus zeros k.toNat) →
      Text.uint32? t = some k) ∧
    lotSize (some t) =
      ((wholeNumber? t).filter (0 < ·)).elim (.error (.invalidLotSize t)) .ok := by
  have hok (k : ℤ) :
      (∃ n : UInt32, lotSize (some t) = .ok n ∧ (n.toNat : ℤ) = k) ↔ IsLotOf t k := by
    simp only [lotSize_eq_ok_iff, lotSize?_eq_some_iff_isLotOf]
    constructor
    · rintro ⟨n, hn, rfl⟩
      exact hn
    · intro h
      obtain ⟨n, rfl⟩ := h.exists_uint32
      exact ⟨n, h, rfl⟩
  refine ⟨hok, ?_, fun k => exists_read?_of_uint32?, ?_, ?_⟩
  · rw [lotSize_eq_error_iff, Option.eq_none_iff_forall_ne_some]
    constructor
    · intro hnone k hk
      obtain ⟨n, rfl⟩ := hk.exists_uint32
      exact hnone n (lotSize?_eq_some_iff_isLotOf.mpr hk)
    · intro hnot n hn
      exact hnot n.toNat (lotSize?_eq_some_iff_isLotOf.mp hn)
  · rintro plus zeros k rfl
    exact Text.uint32?_spelled plus zeros k
  · rw [lotSize_eq, lotSize?_eq]

theorem lotSize_is_decimal_of_zeros :
    ∃ n : UInt32, lotSize (some "+00075") = .ok n ∧ (n.toNat : ℤ) = 75 := by
  obtain ⟨hok, -, hread, hspelled, -⟩ := lotSize_is_decimal "+00075"
  obtain ⟨d, hd, hvalue⟩ := hread 75 (hspelled true 3 75 (by decide))
  exact (hok 75).mpr ⟨d, hd, by exact_mod_cast hvalue, by decide, by decide⟩

/-- The place that is dropped rounds the others, here to one. -/
example : lotSize (some ("0." ++ String.ofList (List.replicate 29 '9'))) = .ok 1 := by decide

end Row

end TickFeed
