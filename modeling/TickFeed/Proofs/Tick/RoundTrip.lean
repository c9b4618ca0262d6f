import TickFeed.Proofs.Tick.WellFormed

/-! # Ticks in the shape of raw ones

`toRaw` writes each field of a tick under a name from which `normalize` reads it, and
for a well-formed tick the reader of each field answers what was written. So such a
tick survives the way there and back, and since normalization answers no others, it is
the exact condition for that. -/

namespace TickFeed

namespace Json

theorem firstOf_of_get? {α : Type} {fields : Fields} {name : String} {names : List String}
    {convert : Json → Option α} {v : Json} {a : α} (hv : fields.get? name = some v)
    (hnull : v.isNull = false) (ha : convert v = some a) :
    fields.firstOf (name :: names) convert = some a := by
  simp only [Fields.firstOf, List.findSome?_cons, hv, Option.bind_some, hnull, ha,
    Bool.false_eq_true, if_false]

theorem firstOf_of_missing {α : Type} {fields : Fields} {name : String} {names : List String}
    {convert : Json → Option α} (h : fields.get? name = none) :
    fields.firstOf (name :: names) convert = fields.firstOf names convert := by
  simp only [Fields.firstOf, List.findSome?_cons, h, Option.bind_none]

theorem Number.int64?_ofInt64 (n : Int64) : (Number.ofInt64 n).int64? = some n := by
  simp only [Number.ofInt64, Number.int64?, n.toInt_lt, if_true, Int64.ofInt_toInt]

theorem Number.uint64?_ofUInt64 (n : UInt64) : (Number.ofUInt64 n).uint64? = some n := by
  simp only [Number.ofUInt64, Number.uint64?, Int.natCast_nonneg, if_true, Int.toNat_natCast,
    UInt64.ofNat_toNat]

theorem quantity?_ofUInt64 (n : UInt64) : (Json.number (.ofUInt64 n)).quantity? = some n := by
  simp only [quantity?, Number.uint64?_ofUInt64]

/-- A text that is not blank is read without its padding. -/
theorem text?_string {s : String} (h : Text.trim s ≠ "") :
    (Json.string s).text? = some (Text.trim s) := by
  simp only [text?, Option.filter_some, h, ne_eq, not_false_eq_true, decide_true, if_true]

theorem isNull_ofBinary64 {x : Binary64} (h : x.isFinite = true) :
    (Json.ofBinary64 x).isNull = false := by
  rw [ofBinary64, dif_pos h]
  rfl

end Json

namespace Tick

/-! ## What is under which name -/

theorem toRaw_get? (t : Tick) (name : String) :
    t.toRaw.fields.get? name =
      if name = "seq" then some (.number (.ofUInt64 t.seq))
      else if name = "volume" then some (.number (.ofUInt64 t.volume))
      else if name = "ask_qty" then some (.number (.ofUInt64 t.askQty))
      else if name = "bid_qty" then some (.number (.ofUInt64 t.bidQty))
      else if name = "ask" then some (.ofBinary64 t.ask)
      else if name = "bid" then some (.ofBinary64 t.bid)
      else if name = "ltp" then some (.ofBinary64 t.ltp)
      else if name = "timestamp_ns" then some (.number (.ofInt64 t.timestamp))
      else if name = "exchange" then some (.string t.exchange.code)
      else if name = "symbol" then some (.string t.symbol)
      else none := by
  simp only [toRaw, RawTick.insert, Json.Fields.get?_insert]
  rfl

variable {t : Tick}

theorem toRaw_symbol (h : t.WellFormed) : t.toRaw.symbol? = some t.symbol := by
  have htext := Json.text?_string (s := t.symbol) (by rw [h.symbol_trim]; exact h.symbol_ne)
  rw [h.symbol_trim] at htext
  exact Json.firstOf_of_get? (t.toRaw_get? "symbol") rfl htext

theorem toRaw_exchangeHint (h : t.WellFormed) : t.toRaw.exchangeHint = some t.exchange := by
  have htext := Json.text?_string h.exchange.trim_ne_empty
  have hfirst : t.toRaw.fields.firstOf RawTick.exchangeNames Json.text? =
      some (Text.trim t.exchange.code) :=
    Json.firstOf_of_get? (t.toRaw_get? "exchange") rfl htext
  rw [RawTick.exchangeHint, hfirst]
  show some (Exchange.ofCode (Text.trim t.exchange.code)) = _
  rw [Exchange.ofCode_trim, h.exchange.2]

theorem toRaw_timestamp (h : t.WellFormed) : t.toRaw.timestamp = t.timestamp := by
  have hget : t.toRaw.get? "timestamp_ns" = some (.number (.ofInt64 t.timestamp)) :=
    t.toRaw_get? "timestamp_ns"
  rw [RawTick.timestamp, hget]
  simp only [Option.bind_some, Json.exactInt64?, Json.Number.int64?_ofInt64]
  exact if_neg (Int64.not_lt.mpr h.timestamp)

theorem toRaw_inRupees (x : Binary64) : t.toRaw.inRupees x = x := by
  have hget : t.toRaw.get? "subscription_mode" = none := t.toRaw_get? "subscription_mode"
  have hstreaming : t.toRaw.isStreaming = false := by
    simp only [RawTick.isStreaming, hget]
  simp only [RawTick.inRupees, hstreaming, Bool.false_eq_true, if_false]

/-- A price under a name is what is read, when the names before it are not there. -/
theorem toRaw_price {fields : Json.Fields} {name : String} {names : List String} {x : Binary64}
    (hget : fields.get? name = some (.ofBinary64 x)) (hx : x.IsPrice) :
    fields.firstOf (name :: names) Json.price? = some x :=
  Json.firstOf_of_get? hget (Json.isNull_ofBinary64 hx.1) (Json.price?_ofBinary64 hx)

theorem toRaw_quantity {fields : Json.Fields} {name : String} {names : List String} {n : UInt64}
    (hget : fields.get? name = some (.number (.ofUInt64 n))) :
    fields.firstOf (name :: names) Json.quantity? = some n :=
  Json.firstOf_of_get? hget rfl (Json.quantity?_ofUInt64 n)

theorem toRaw_ltp (h : t.WellFormed) :
    t.toRaw.inRupees ((t.toRaw.fields.firstOf RawTick.ltpNames Json.price?).getD 0) = t.ltp := by
  have hread : t.toRaw.fields.firstOf RawTick.ltpNames Json.price? = some t.ltp :=
    toRaw_price (t.toRaw_get? "ltp") h.ltp
  rw [toRaw_inRupees, hread, Option.getD_some]

/-- A side of the book is under the second of its names. -/
theorem toRaw_quotedPrice {first name depth : String} {x : Binary64} (hx : x.IsPrice)
    (hfirst : t.toRaw.fields.get? first = none)
    (hget : t.toRaw.fields.get? name = some (.ofBinary64 x)) :
    t.toRaw.inRupees (t.toRaw.quotedPrice [first, name] depth) = x := by
  have hread : t.toRaw.fields.firstOf [first, name] Json.price? = some x := by
    rw [Json.firstOf_of_missing hfirst]
    exact toRaw_price hget hx
  rw [toRaw_inRupees, RawTick.quotedPrice, hread, Option.some_or, Option.getD_some]

theorem toRaw_quotedQty {first name depth : String} {n : UInt64}
    (hfirst : t.toRaw.fields.get? first = none)
    (hget : t.toRaw.fields.get? name = some (.number (.ofUInt64 n))) :
    t.toRaw.quotedQty [first, name] depth = n := by
  have hread : t.toRaw.fields.firstOf [first, name] Json.quantity? = some n := by
    rw [Json.firstOf_of_missing hfirst]
    exact toRaw_quantity hget
  rw [RawTick.quotedQty, hread, Option.some_or, Option.getD_some]

/-! ## There and back -/

theorem toRaw_toTick (h : t.WellFormed) : t.toRaw.toTick t.symbol = t := by
  have hexchange : t.toRaw.exchangeHint.getD .nse = t.exchange := by
    rw [toRaw_exchangeHint h, Option.getD_some]
  have hbid : t.toRaw.inRupees (t.toRaw.quotedPrice RawTick.bidNames "best_5_buy_data") = t.bid :=
    toRaw_quotedPrice h.bid (t.toRaw_get? "best_bid_price") (t.toRaw_get? "bid")
  have hask : t.toRaw.inRupees (t.toRaw.quotedPrice RawTick.askNames "best_5_sell_data") = t.ask :=
    toRaw_quotedPrice h.ask (t.toRaw_get? "best_ask_price") (t.toRaw_get? "ask")
  have hbidQty : t.toRaw.quotedQty RawTick.bidQtyNames "best_5_buy_data" = t.bidQty :=
    toRaw_quotedQty (t.toRaw_get? "best_bid_qty") (t.toRaw_get? "bid_qty")
  have haskQty : t.toRaw.quotedQty RawTick.askQtyNames "best_5_sell_data" = t.askQty :=
    toRaw_quotedQty (t.toRaw_get? "best_ask_qty") (t.toRaw_get? "ask_qty")
  have hvolume : t.toRaw.fields.firstOf RawTick.volumeNames Json.quantity? = some t.volume :=
    toRaw_quantity (t.toRaw_get? "volume")
  have hseq : t.toRaw.fields.firstOf RawTick.seqNames Json.quantity? = some t.seq :=
    toRaw_quantity (t.toRaw_get? "seq")
  rw [RawTick.toTick, hexchange, toRaw_timestamp h, toRaw_ltp h, hbid, hask, hbidQty, haskQty,
    hvolume, hseq]
  rfl

theorem normalize_of_wellFormed (h : t.WellFormed) : t.toRaw.normalize = .ok t := by
  rw [RawTick.normalize, toRaw_symbol h]
  exact congrArg Except.ok (toRaw_toTick h)

/-- Normalization answers well-formed ticks only, and the well-formed ticks are exactly
those that it gives back, every field as it was, from their own shape as a raw tick. So
what it answers once it answers again. -/
theorem normalize_toRaw :
    (∀ (raw : RawTick) (t : Tick), raw.normalize = .ok t → t.WellFormed) ∧
      (∀ (lookup : InstrumentLookup) (raw : RawTick) (t : Tick),
        raw.normalizeWith lookup = .ok t → t.WellFormed) ∧
      (∀ t : Tick, t.toRaw.normalize = .ok t ↔ t.WellFormed) ∧
      (∀ (raw : RawTick) (t : Tick), raw.normalize = .ok t → t.toRaw.normalize = .ok t) ∧
      (∀ (lookup : InstrumentLookup) (raw : RawTick) (t : Tick),
        raw.normalizeWith lookup = .ok t → t.toRaw.normalize = .ok t) := by
  refine ⟨fun _ _ h => RawTick.normalize_wellFormed h,
    fun _ _ _ h => RawTick.normalizeWith_wellFormed h,
    fun t => ⟨fun h => RawTick.normalize_wellFormed h, fun h => normalize_of_wellFormed h⟩, ?_, ?_⟩
  · intro raw t h
    exact normalize_of_wellFormed (RawTick.normalize_wellFormed h)
  · intro lookup raw t h
    exact normalize_of_wellFormed (RawTick.normalizeWith_wellFormed h)

/-- Padding goes, and a text becomes a number, but only once. -/
theorem normalize_toRaw_padded :
    let raw := (RawTick.empty.insert "symbol" (.string " NIFTY ")).insert "volume" (.string "75")
    ∃ t, raw.normalize = .ok t ∧ t.symbol = "NIFTY" ∧ t.volume = 75 ∧
      t.toRaw.normalize = .ok t := by
  intro raw
  refine ⟨raw.toTick "NIFTY", rfl, rfl, rfl, ?_⟩
  exact normalize_toRaw.2.2.2.1 raw _ rfl

end Tick

end TickFeed
