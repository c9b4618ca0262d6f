import TickFeed.Proofs.Catalog.Row
import TickFeed.Proofs.Decimal.Reader

/-! # Columns of rows

What a row gives under a list of columns is the text of the first of them that has one
(`column?_eq_some_iff`), and there is none when all are blank (`column?_eq_none_iff`). What
stands in a column is valid or not: a lot size is a decimal that equals an integer of 1 to
`2 ^ 32 - 1`, however it is written (`lotSize?_eq_some_iff`), an expiry is a date in one of the
two layouts, a strike and a tick size are decimals. -/

namespace TickFeed

/-- The value has the text `t`: text that is not blank, or a number as it is written. -/
inductive Json.Gives : Json → String → Prop where
  | text {s : String} (h : Text.trim s ≠ "") : Gives (.string s) (Text.trim s)
  | number (n : Json.Number) : Gives (.number n) n.text

namespace Row

/-! ## Blank and filled columns -/

theorem valueText?_eq_some_iff {v : Json} {t : String} : valueText? v = some t ↔ v.Gives t := by
  constructor
  · intro h
    cases v with
    | string s =>
      rw [valueText?, Option.filter_eq_some_iff] at h
      obtain ⟨hs, hne⟩ := h
      obtain rfl := Option.some.inj hs
      exact .text (of_decide_eq_true hne)
    | number n =>
      obtain rfl := Option.some.inj h
      exact .number n
    | null | bool _ | array _ | object _ => cases h
  · intro h
    cases h with
    | text hne =>
      rw [valueText?, Option.filter_eq_some_iff]
      exact ⟨rfl, decide_eq_true hne⟩
    | number n => rfl

def Filled (row : Row) (name : String) : Prop := ∃ v t, row.get? name = some v ∧ v.Gives t

def Has (row : Row) (columns : List String) : Prop := ∃ name ∈ columns, row.Filled name

/-- `t` is the text in the first of the columns that has one. -/
def Gives (row : Row) (columns : List String) (t : String) : Prop :=
  ∃ before name after, columns = before ++ name :: after ∧
    (∃ v, row.get? name = some v ∧ v.Gives t) ∧ ∀ blank ∈ before, ¬row.Filled blank

variable {row : Row} {columns : List String} {name t : String} {e : RowError}

theorem bind_valueText?_eq_some_iff :
    (row.get? name).bind valueText? = some t ↔ ∃ v, row.get? name = some v ∧ v.Gives t := by
  simp only [Option.bind_eq_some_iff, valueText?_eq_some_iff]

theorem bind_valueText?_eq_none_iff :
    (row.get? name).bind valueText? = none ↔ ¬row.Filled name := by
  rw [Option.eq_none_iff_forall_ne_some]
  simp only [ne_eq, bind_valueText?_eq_some_iff, Filled]
  exact ⟨fun h ⟨v, t, hv⟩ => h t ⟨v, hv⟩, fun h t ⟨v, hv⟩ => h ⟨v, t, hv⟩⟩

theorem column?_eq_some_iff : row.column? columns = some t ↔ row.Gives columns t := by
  rw [column?, List.findSome?_eq_some_iff]
  simp only [bind_valueText?_eq_some_iff, bind_valueText?_eq_none_iff, Gives]

theorem column?_eq_none_iff : row.column? columns = none ↔ ¬row.Has columns := by
  rw [column?, List.findSome?_eq_none_iff]
  simp only [bind_valueText?_eq_none_iff, Has, not_exists, not_and]

/-! ## Valid texts -/

/-- A whole number of units, 1 at least and of 32 bits. -/
def IsLotSize (t : String) : Prop :=
  ∃ d n, Decimal.read? t = some d ∧ d.EqualsInt n ∧ 1 ≤ n ∧ n ≤ 2 ^ 32 - 1

/-- A date, in the compact layout or in the one of ISO 8601. -/
def IsExpiry (t : String) : Prop :=
  ∃ date, Date.readAs? Date.compactLayout t = some date ∨
    Date.readAs? Date.isoLayout t = some date

theorem isExpiry_iff : IsExpiry t ↔ ∃ date,
    (Date.readAs? Date.compactLayout t).or (Date.readAs? Date.isoLayout t) = some date := by
  unfold IsExpiry
  cases Date.readAs? Date.compactLayout t <;> simp

def IsDecimal (t : String) : Prop := ∃ d, Decimal.read? t = some d

/-- The integer of 32 bits that a decimal in text equals. -/
def wholeNumber? (t : String) : Option UInt32 := do
  let n ← (← Decimal.read? t).toInt?
  if 0 ≤ n ∧ n < 2 ^ 32 then some (UInt32.ofNat n.toNat) else none

theorem wholeNumber?_eq_some_iff {n : UInt32} :
    wholeNumber? t = some n ↔ ∃ d, Decimal.read? t = some d ∧ d.EqualsInt n.toNat := by
  simp only [wholeNumber?, Option.bind_eq_bind, Option.bind_eq_some_iff,
    Decimal.toInt?_eq_some_iff]
  constructor
  · rintro ⟨d, hd, k, hk, hn⟩
    split at hn
    · next hrange =>
      obtain rfl := Option.some.inj hn
      have hlt : k.toNat < 2 ^ 32 := by omega
      refine ⟨d, hd, ?_⟩
      rwa [UInt32.toNat_ofNat_of_lt' hlt, Int.toNat_of_nonneg hrange.1]
    · cases hn
  · rintro ⟨d, hd, hn⟩
    refine ⟨d, hd, n.toNat, hn, ?_⟩
    have hlt := n.toNat_lt
    rw [if_pos (by omega), Int.toNat_natCast, UInt32.ofNat_toNat]

/-- What is read as an integer at once is read as the same decimal. -/
theorem wholeNumber?_of_uint32? {n : UInt32} (h : Text.uint32? t = some n) :
    wholeNumber? t = some n := by
  obtain ⟨m, hm, rfl⟩ := Option.map_eq_some_iff.mp h
  obtain ⟨hread, hfits⟩ := Option.filter_eq_some_iff.mp hm
  have hlt : m < 2 ^ 32 := of_decide_eq_true hfits
  rw [wholeNumber?_eq_some_iff, UInt32.toNat_ofNat_of_lt' hlt]
  exact Decimal.read?_of_nat? hread (Nat.lt_trans hlt (by decide))

/-- The reader of integers is a short way only: decimals alone would give the same. -/
theorem lotSize?_eq (t : String) : lotSize? t = (wholeNumber? t).filter (0 < ·) := by
  have hshort : (Text.uint32? t).or (wholeNumber? t) = wholeNumber? t := by
    cases h : Text.uint32? t with
    | none => exact Option.none_or
    | some n => rw [Option.some_or, wholeNumber?_of_uint32? h]
  exact congrArg (Option.filter (0 < ·)) hshort

theorem lotSize?_eq_some_iff {n : UInt32} :
    lotSize? t = some n ↔ ∃ d, Decimal.read? t = some d ∧ d.EqualsInt n.toNat ∧ 0 < n := by
  rw [lotSize?_eq, Option.filter_eq_some_iff, wholeNumber?_eq_some_iff, decide_eq_true_iff]
  constructor
  · rintro ⟨⟨d, hd, hn⟩, hpos⟩
    exact ⟨d, hd, hn, hpos⟩
  · rintro ⟨d, hd, hn, hpos⟩
    exact ⟨⟨d, hd, hn⟩, hpos⟩

theorem isLotSize_iff : IsLotSize t ↔ ∃ n, lotSize? t = some n := by
  simp only [lotSize?_eq_some_iff]
  constructor
  · rintro ⟨d, n, hd, hn, hlower, hupper⟩
    have hlt : n.toNat < 2 ^ 32 := by omega
    have hvalue : (UInt32.ofNat n.toNat).toNat = n.toNat := UInt32.toNat_ofNat_of_lt' hlt
    refine ⟨UInt32.ofNat n.toNat, d, hd, ?_, ?_⟩
    · rwa [hvalue, Int.toNat_of_nonneg (by omega)]
    · rw [UInt32.lt_iff_toNat_lt, hvalue, UInt32.toNat_zero]
      omega
  · rintro ⟨n, d, hd, hn, hpos⟩
    have hlt := n.toNat_lt
    rw [UInt32.lt_iff_toNat_lt, UInt32.toNat_zero] at hpos
    exact ⟨d, n.toNat, hd, hn, by omega, by omega⟩

/-! ## The numbers of an instrument -/

theorem lotSize_pos {text : Option String} {n : UInt32} (h : lotSize text = .ok n) :
    1 ≤ n.toNat := by
  unfold lotSize at h
  split at h
  next =>
    cases h
    decide
  next t =>
    split at h
    next m hm =>
      cases h
      obtain ⟨d, -, -, hpos⟩ := lotSize?_eq_some_iff.mp hm
      exact UInt32.lt_iff_toNat_lt.mp hpos
    next => cases h

theorem strike_pos {text : Option String} {o : Option Decimal} {d : Decimal}
    (h : strike text = .ok o) (hd : o = some d) : 0 < d.mantissa := by
  subst hd
  unfold strike at h
  split at h
  next => cases h
  next t =>
    split at h
    next x hx =>
      have hx : (if x.isPositive then some x else none) = some d := Except.ok.inj h
      split at hx
      next hpos =>
        obtain rfl := Option.some.inj hx
        exact Decimal.isPositive_iff.mp hpos
      next => cases hx
    next => cases h

/-- An increment is positive, also where it is a hundredth, and has no zeros at its end. -/
theorem priceIncrement_spec {text : Option String} {d : Decimal}
    (h : priceIncrement text = .ok d) : 0 < d.mantissa ∧ d.Stripped := by
  have hdefault : 0 < defaultIncrement.mantissa ∧ defaultIncrement.Stripped :=
    ⟨by decide, .inr (by decide)⟩
  have hnormal : ∀ {x : Decimal}, 0 < x.mantissa → 0 < x.normalize.mantissa ∧ x.normalize.Stripped :=
    fun hx => ⟨Decimal.normalize_pos hx, Decimal.normalize_stripped _⟩
  unfold priceIncrement at h
  split at h
  next =>
    cases h
    exact hdefault
  next t =>
    split at h
    next => cases h
    next x hx =>
      split at h
      next =>
        cases h
        exact hdefault
      next hpos =>
        split at h
        next hone =>
          obtain ⟨q, hq, hqpos⟩ := Decimal.exists_hundredth hone
          rw [hq, Option.getD_some] at h
          cases h
          exact hnormal hqpos
        next =>
          cases h
          exact hnormal (Decimal.isPositive_iff.mp (Decidable.not_not.mp hpos))

end Row

end TickFeed
