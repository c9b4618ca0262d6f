import TickFeed.Proofs.Tick.Deletion

/-! # Prices in paise

A raw tick with the mark of the streaming feed quotes its prices in paise. Next to the same
tick without the mark (`Marked`) every reader answers the same, and only the prices are divided
by a hundred afterwards. An identity that a lookup gives is written into both alike, so the
second pass divides once too, and the shape of a tick as a raw one has no mark at all
(`normalize_streaming`). -/

namespace TickFeed

def Tick.perHundred (t : Tick) : Tick :=
  { t with ltp := t.ltp / 100, bid := t.bid / 100, ask := t.ask / 100 }

namespace RawTick

/-- `raw` has the mark of the streaming feed, and `plain` is the same without it. -/
structure Marked (raw plain : RawTick) : Prop where
  marked : raw.isStreaming = true
  unmarked : plain.isStreaming = false
  same : ∀ name, name ≠ "subscription_mode" → raw.get? name = plain.get? name

variable {raw plain : RawTick}

theorem marked_without {mode : Json} (hmode : raw.get? "subscription_mode" = some mode)
    (hnull : mode.isNull = false) : Marked raw (raw.without ["subscription_mode"]) := by
  have hget (name : String) : (raw.without ["subscription_mode"]).get? name =
      if name ∈ ["subscription_mode"] then none else raw.get? name :=
    raw.fields.get?_without _ name
  constructor
  · rw [isStreaming, hmode]
    simp [hnull]
  · rw [isStreaming, hget]
    simp
  · intro name hname
    rw [hget, if_neg (by simpa using hname)]

/-! ## Readers -/

namespace Marked

theorem firstOf {α : Type} {convert : Json → Option α} (h : Marked raw plain)
    (names : List String) (hnames : "subscription_mode" ∉ names) :
    raw.fields.firstOf names convert = plain.fields.firstOf names convert := by
  refine Json.firstOf_congr fun name hname => ?_
  exact h.same name (ne_of_mem_of_not_mem hname hnames)

theorem quotedPrice (h : Marked raw plain) (names : List String) (depth : String)
    (hnames : "subscription_mode" ∉ names) (hdepth : depth ≠ "subscription_mode") :
    raw.quotedPrice names depth = plain.quotedPrice names depth := by
  rw [RawTick.quotedPrice, RawTick.quotedPrice, h.firstOf names hnames, topLevel?_eq, topLevel?_eq,
    h.same depth hdepth]

theorem quotedQty (h : Marked raw plain) (names : List String) (depth : String)
    (hnames : "subscription_mode" ∉ names) (hdepth : depth ≠ "subscription_mode") :
    raw.quotedQty names depth = plain.quotedQty names depth := by
  rw [RawTick.quotedQty, RawTick.quotedQty, h.firstOf names hnames, topLevel?_eq, topLevel?_eq,
    h.same depth hdepth]

theorem exchangeHint (h : Marked raw plain) : raw.exchangeHint = plain.exchangeHint := by
  rw [RawTick.exchangeHint, RawTick.exchangeHint, h.firstOf _ (by decide), h.same _ (by decide)]

theorem timestamp (h : Marked raw plain) : raw.timestamp = plain.timestamp := by
  rw [RawTick.timestamp, RawTick.timestamp, h.firstOf _ (by decide), h.same _ (by decide)]

theorem symbol? (h : Marked raw plain) : raw.symbol? = plain.symbol? := h.firstOf _ (by decide)

theorem token? (h : Marked raw plain) : raw.token? = plain.token? := h.firstOf _ (by decide)

/-! ## The tick -/

theorem toTick (h : Marked raw plain) (symbol : String) :
    raw.toTick symbol = (plain.toTick symbol).perHundred := by
  have hraw (x : Binary64) : raw.inRupees x = x / 100 := by
    rw [inRupees, h.marked, if_pos rfl]
  have hplain (x : Binary64) : plain.inRupees x = x := by
    rw [inRupees, h.unmarked, if_neg Bool.false_ne_true]
  simp only [RawTick.toTick, Tick.perHundred, hraw, hplain, h.exchangeHint, h.timestamp,
    h.firstOf ltpNames (by decide), h.firstOf volumeNames (by decide),
    h.firstOf seqNames (by decide),
    h.quotedPrice bidNames "best_5_buy_data" (by decide) (by decide),
    h.quotedPrice askNames "best_5_sell_data" (by decide) (by decide),
    h.quotedQty bidQtyNames "best_5_buy_data" (by decide) (by decide),
    h.quotedQty askQtyNames "best_5_sell_data" (by decide) (by decide)]

theorem normalize (h : Marked raw plain) :
    raw.normalize = plain.normalize.map Tick.perHundred := by
  rw [RawTick.normalize, RawTick.normalize, h.symbol?, h.token?]
  cases plain.symbol? with
  | some symbol => exact congrArg Except.ok (h.toTick symbol)
  | none => cases plain.token? <;> rfl

/-! ## The second pass -/

theorem insert (h : Marked raw plain) (name : String) (hname : name ≠ "subscription_mode")
    (v : Json) : Marked (raw.insert name v) (plain.insert name v) := by
  have hmode (tick : RawTick) : (tick.insert name v).isStreaming = tick.isStreaming := by
    rw [isStreaming, isStreaming, get?_insert, if_neg hname.symm]
  refine ⟨(hmode raw).trans h.marked, (hmode plain).trans h.unmarked, fun n hn => ?_⟩
  rw [get?_insert, get?_insert, h.same n hn]

theorem identify (h : Marked raw plain) (i : Instrument) :
    Marked (raw.identify i) (plain.identify i) := by
  have hnamed := h.insert "symbol" (by decide) (.string i.symbol)
  rw [RawTick.identify, RawTick.identify, h.exchangeHint]
  split
  · exact hnamed
  · exact hnamed.insert "exchange" (by decide) (.string i.exchange.code)

theorem normalizeWith (h : Marked raw plain) (lookup : InstrumentLookup) :
    raw.normalizeWith lookup = (plain.normalizeWith lookup).map Tick.perHundred := by
  cases hsymbol : plain.symbol? with
  | some symbol =>
    have hne : plain.symbol? ≠ none := by simp [hsymbol]
    rw [normalizeWith_other lookup (.inl hne), normalizeWith_other lookup (.inl (h.symbol? ▸ hne)),
      h.normalize]
  | none =>
    cases htoken : plain.token? with
    | none =>
      rw [normalizeWith_other lookup (.inr htoken),
        normalizeWith_other lookup (.inr (h.token?.trans htoken)), h.normalize]
    | some token =>
      rw [normalizeWith_token lookup hsymbol htoken,
        normalizeWith_token lookup (h.symbol?.trans hsymbol) (h.token?.trans htoken),
        h.exchangeHint]
      cases lookup token plain.exchangeHint with
      | none => rfl
      | some i => exact (h.identify i).normalize

end Marked

/-- A tick in the shape of a raw one has a symbol, so no lookup has a say in it. -/
theorem normalizeWith_toRaw {t : Tick} (h : t.WellFormed) (lookup : InstrumentLookup) :
    t.toRaw.normalizeWith lookup = .ok t := by
  have hsymbol : t.toRaw.symbol? ≠ none := by simp [Tick.toRaw_symbol h]
  rw [normalizeWith_other lookup (.inl hsymbol), Tick.normalize_of_wellFormed h]

/-- **Prices in paise**: a mark that is not null divides the last price and both sides of the
book by a hundred, wherever they stand, and does nothing else, neither to the other fields nor
to the reason of a rejection. With a lookup it is the same, and the tick that comes out is not
divided again. -/
theorem normalize_streaming (raw : RawTick) {mode : Json}
    (hmode : raw.get? "subscription_mode" = some mode) (hnull : mode.isNull = false) :
    let plain := raw.without ["subscription_mode"]
    raw.normalize = plain.normalize.map Tick.perHundred ∧
      (∀ lookup, raw.normalizeWith lookup = (plain.normalizeWith lookup).map Tick.perHundred) ∧
      (∀ t, raw.normalize = .ok t →
        t.toRaw.normalize = .ok t ∧ ∀ lookup, t.toRaw.normalizeWith lookup = .ok t) ∧
      ∀ lookup t, raw.normalizeWith lookup = .ok t →
        t.toRaw.normalize = .ok t ∧ ∀ lookup', t.toRaw.normalizeWith lookup' = .ok t := by
  intro plain
  have hmarked : Marked raw plain := marked_without hmode hnull
  refine ⟨hmarked.normalize, hmarked.normalizeWith, fun t ht => ?_, fun lookup t ht => ?_⟩
  · have hwell := normalize_wellFormed ht
    exact ⟨Tick.normalize_of_wellFormed hwell, normalizeWith_toRaw hwell⟩
  · have hwell := normalizeWith_wellFormed ht
    exact ⟨Tick.normalize_of_wellFormed hwell, normalizeWith_toRaw hwell⟩

/-- The symbol comes from a lookup, the last price from a number and the bid from the book. -/
theorem normalize_streaming_resolved :
    let level : Json := .object [("price", .string "4812500"), ("quantity", .string "15")]
    let raw := (((RawTick.empty.insert "subscription_mode" (.number (.ofUInt64 3))).insert "token"
      (.string "35001")).insert "last_traded_price" (.number (.ofUInt64 4812525))).insert
        "best_5_buy_data" (.array [level])
    let future : Instrument :=
      { id := .ofSymbol "BANKNIFTY26FEBFUT" .nfo, symbol := "BANKNIFTY26FEBFUT"
        name := "BANKNIFTY", token := ⟨"35001"⟩, exchange := .nfo, kind := .indexFuture
        expiry := none, strike := none, lotSize := 15
        priceIncrement := ⟨false, 5, 2, by decide, by decide⟩ }
    ∃ t, raw.normalizeWith (fun _ _ => some future) = .ok t ∧
      t.symbol = "BANKNIFTY26FEBFUT" ∧ t.exchange = .nfo ∧ t.ltp = 4812525 / 100 ∧
      t.bid = 4812500 / 100 ∧ t.bidQty = 15 ∧ t.toRaw.normalize = .ok t := by
  intro level raw future
  have hmode : raw.get? "subscription_mode" = some (.number (.ofUInt64 3)) := by rfl
  obtain ⟨-, hwith, -, hagain⟩ := normalize_streaming raw hmode rfl
  let plain := (raw.without ["subscription_mode"]).identify future
  have hplain : (raw.without ["subscription_mode"]).normalizeWith (fun _ _ => some future) =
      .ok (plain.toTick "BANKNIFTY26FEBFUT") := by
    have htoken : (raw.without ["subscription_mode"]).token? = some "35001" := by rfl
    rw [normalizeWith_token _ (by rfl) htoken]
    have hsymbol : plain.symbol? = some "BANKNIFTY26FEBFUT" := by decide +kernel
    dsimp only
    rw [RawTick.normalize, hsymbol]
  have hltp : (plain.toTick "BANKNIFTY26FEBFUT").ltp = 4812525 := by decide +kernel
  have hbid : (plain.toTick "BANKNIFTY26FEBFUT").bid = 4812500 := by decide +kernel
  have hok : raw.normalizeWith (fun _ _ => some future) =
      .ok (plain.toTick "BANKNIFTY26FEBFUT").perHundred := by
    rw [hwith, hplain]
    rfl
  refine ⟨_, hok, rfl, by decide +kernel, ?_, ?_, by decide +kernel, (hagain _ _ hok).1⟩
  · exact congrArg (· / 100) hltp
  · exact congrArg (· / 100) hbid

end RawTick

end TickFeed
