import TickFeed.Proofs.Exchange
import TickFeed.Proofs.Tick.Price
import TickFeed.Tick.Normalize

/-! # Well-formed ticks

What every tick is like that comes out of normalization, with or without a lookup. It
follows from what each reader of a loosely typed value can answer. -/

namespace TickFeed

/-- A symbol without padding, an exchange that its code stands for, a time from 1970 on
and three prices. -/
structure Tick.WellFormed (t : Tick) : Prop where
  symbol_ne : t.symbol ≠ ""
  symbol_trim : Text.trim t.symbol = t.symbol
  exchange : t.exchange.Canonical
  timestamp : 0 ≤ t.timestamp
  ltp : t.ltp.IsPrice
  bid : t.bid.IsPrice
  ask : t.ask.IsPrice

namespace Json

/-- A text that is read is not blank and has no padding. -/
theorem text?_spec {v : Json} {s : String} (h : v.text? = some s) :
    s ≠ "" ∧ Text.trim s = s := by
  obtain ⟨hs, hne⟩ := Option.filter_eq_some_iff.mp h
  refine ⟨of_decide_eq_true hne, ?_⟩
  cases v with
  | string r =>
    cases hs
    exact Text.trim_trim r
  | number n =>
    cases hs
    exact n.trim_text
  | null | bool _ | array _ | object _ => cases hs

theorem firstOf_spec {α : Type} {fields : Fields} {names : List String}
    {convert : Json → Option α} {a : α} (h : fields.firstOf names convert = some a) :
    ∃ v, convert v = some a := by
  obtain ⟨name, -, hname⟩ := List.exists_of_findSome?_eq_some h
  obtain ⟨v, -, hv⟩ := Option.bind_eq_some_iff.mp hname
  split at hv
  · cases hv
  · exact ⟨v, hv⟩

/-! ## Times -/

theorem nonneg_ofInt {n : Int} (h : 0 ≤ n) (hlt : n < 2 ^ 63) : 0 ≤ Int64.ofInt n := by
  rw [Int64.le_iff_toInt_le, Int64.toInt_ofInt_of_le (by omega) hlt]
  exact h

theorem nonneg_ofNat {n : Nat} (h : n < 2 ^ 63) : 0 ≤ Int64.ofNat n := by
  rw [Int64.le_iff_toInt_le, Int64.toInt_ofNat_of_lt h]
  exact Int.natCast_nonneg n

theorem epochFactor_pos (n : Int) : 0 < epochFactor n := by
  unfold epochFactor
  split
  · decide
  · split
    · decide
    · split <;> decide

theorem epoch?_nonneg {v : Json} {ns : Int64} (h : v.epoch? = some ns) : 0 ≤ ns := by
  unfold epoch? at h
  split at h
  · rename_i n _
    cases h
    split
    · exact Int64.le_refl _
    · rename_i hpos
      have hprod : 0 < n.toInt * epochFactor n.toInt :=
        Int.mul_pos (by omega) (epochFactor_pos _)
      exact nonneg_ofInt (by simp only [maxTimestamp]; omega) (by simp only [maxTimestamp]; omega)
  · obtain ⟨x, -, rfl⟩ := Option.map_eq_some_iff.mp h
    split
    · exact nonneg_ofNat (Nat.lt_succ_of_le (Binary64.truncate_le _ _))
    · exact Int64.le_refl _

theorem instant?_nonneg {s : String} {ns : Int64} (h : instant? s = some ns) : 0 ≤ ns := by
  obtain ⟨n, hn, rfl⟩ := Option.map_eq_some_iff.mp h
  have hrange := of_decide_eq_true (Option.filter_eq_some_iff.mp hn).2
  exact nonneg_ofInt (by omega) (by omega)

theorem timestamp?_nonneg {v : Json} {ns : Int64} (h : v.timestamp? = some ns) : 0 ≤ ns := by
  cases v with
  | number n => exact epoch?_nonneg h
  | string s =>
    rcases Option.or_eq_some_iff.mp h with h | ⟨-, h⟩
    · exact epoch?_nonneg h
    · exact instant?_nonneg h
  | null | bool _ | array _ | object _ => cases h

end Json

namespace RawTick

/-! ## Fields -/

theorem exchangeHint_canonical {raw : RawTick} {e : Exchange} (h : raw.exchangeHint = some e) :
    e.Canonical := by
  rw [exchangeHint] at h
  cases hcode : raw.fields.firstOf exchangeNames Json.text? with
  | some code =>
    rw [hcode] at h
    obtain ⟨v, hv⟩ := Json.firstOf_spec hcode
    obtain ⟨hne, htrim⟩ := Json.text?_spec hv
    rw [← Option.some.inj h]
    exact Exchange.canonical_ofCode (by rwa [htrim])
  | none =>
    rw [hcode] at h
    simp only [Option.bind_eq_some_iff] at h
    obtain ⟨n, -, hn⟩ := h
    exact Exchange.canonical_of_feedCode hn

theorem timestamp_nonneg (raw : RawTick) : 0 ≤ raw.timestamp := by
  unfold timestamp
  split
  · split
    · exact Int64.le_refl _
    · rename_i hneg
      exact Int64.not_lt.mp hneg
  · cases h : raw.fields.firstOf timestampNames Json.timestamp? with
    | none => exact Int64.le_refl _
    | some ns =>
      obtain ⟨v, hv⟩ := Json.firstOf_spec h
      exact Json.timestamp?_nonneg hv

/-- A price that was read, or zero when there was none. -/
theorem isPrice_getD {o : Option Binary64} (h : ∀ x, o = some x → x.IsPrice) :
    (o.getD 0).IsPrice := by
  cases o with
  | none => exact Binary64.isPrice_zero
  | some x => exact h x rfl

theorem isPrice_firstOf {fields : Json.Fields} {names : List String} {x : Binary64}
    (h : fields.firstOf names Json.price? = some x) : x.IsPrice := by
  obtain ⟨v, hv⟩ := Json.firstOf_spec h
  exact Json.isPrice_of_read hv

theorem quotedPrice_isPrice (raw : RawTick) (names : List String) (depth : String) :
    (raw.quotedPrice names depth).IsPrice := by
  refine isPrice_getD fun x hx => ?_
  rcases Option.or_eq_some_iff.mp hx with hx | ⟨-, hx⟩
  · exact isPrice_firstOf hx
  · obtain ⟨level, -, hx⟩ := Option.bind_eq_some_iff.mp hx
    exact isPrice_firstOf hx

theorem inRupees_isPrice (raw : RawTick) {x : Binary64} (h : x.IsPrice) :
    (raw.inRupees x).IsPrice := by
  unfold inRupees
  split
  · exact h.div_hundred
  · exact h

/-! ## Normalized ticks -/

theorem toTick_wellFormed (raw : RawTick) {symbol : String} (hne : symbol ≠ "")
    (htrim : Text.trim symbol = symbol) : (raw.toTick symbol).WellFormed where
  symbol_ne := hne
  symbol_trim := htrim
  exchange := by
    show (raw.exchangeHint.getD .nse).Canonical
    cases h : raw.exchangeHint with
    | none => exact .of_mem_known (by decide)
    | some e => exact exchangeHint_canonical h
  timestamp := raw.timestamp_nonneg
  ltp := raw.inRupees_isPrice (isPrice_getD fun _ => isPrice_firstOf)
  bid := raw.inRupees_isPrice (raw.quotedPrice_isPrice _ _)
  ask := raw.inRupees_isPrice (raw.quotedPrice_isPrice _ _)

theorem normalize_wellFormed {raw : RawTick} {t : Tick} (h : raw.normalize = .ok t) :
    t.WellFormed := by
  unfold normalize at h
  split at h
  · rename_i symbol hsymbol
    cases h
    obtain ⟨v, hv⟩ := Json.firstOf_spec hsymbol
    obtain ⟨hne, htrim⟩ := Json.text?_spec hv
    exact raw.toTick_wellFormed hne htrim
  · split at h <;> cases h

/-- A lookup only gives a raw tick the symbol that it lacks. -/
theorem normalizeWith_wellFormed {lookup : InstrumentLookup} {raw : RawTick} {t : Tick}
    (h : raw.normalizeWith lookup = .ok t) : t.WellFormed := by
  unfold normalizeWith at h
  split at h
  · split at h
    · exact normalize_wellFormed h
    · cases h
  · exact normalize_wellFormed h

end RawTick

end TickFeed
