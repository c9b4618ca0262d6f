import TickFeed.Proofs.Catalog.Loading
import TickFeed.Proofs.Catalog.Row
import TickFeed.Proofs.Tick.Readings
import TickFeed.Proofs.Tick.RoundTrip

/-! # Resolution of tokens

A tick that has a token and no symbol is the tick that names the instrument its catalog
lists under the token. What the catalog writes into the raw tick is read back as it is,
for it comes from a row, and nothing else that the tick reads stands under those
names. -/

namespace TickFeed

/-! ## Fields -/

namespace Json

variable {α : Type} {convert : Json → Option α}

/-- Where nothing was usable, a usable value is what is read. -/
theorem firstOf_insert {fields : Fields} {name : String} {names : List String} {v : Json} {a : α}
    (hmem : name ∈ names) (hnone : fields.firstOf names convert = none)
    (hnull : v.isNull = false) (ha : convert v = some a) :
    (fields.insert name v).firstOf names convert = some a := by
  induction names with
  | nil => cases hmem
  | cons n names ih =>
    by_cases hn : n = name
    · subst hn
      refine firstOf_of_get? ?_ hnull ha
      rw [Fields.get?_insert, if_pos rfl]
    · -- nothing usable stands before the name, and the search goes on to it
      obtain ⟨hfirst, hrest⟩ := List.forall_mem_cons.mp (List.findSome?_eq_none_iff.mp hnone)
      have hlater := ih (List.mem_of_ne_of_mem (Ne.symm hn) hmem)
        (List.findSome?_eq_none_iff.mpr hrest)
      simp only [Fields.firstOf, List.findSome?_cons, Fields.get?_insert, if_neg hn, hfirst]
      simpa only [Fields.firstOf, Fields.get?_insert] using hlater

theorem isNull_of_text? {v : Json} {s : String} (h : v.text? = some s) : v.isNull = false := by
  cases v with
  | null => cases h
  | bool _ | number _ | string _ | array _ | object _ => rfl

end Json

namespace RawTick

/-- The names under which a tick reads anything but its symbol, its token and its
exchange. -/
def quoteNames : List String :=
  ["timestamp_ns", "subscription_mode", "best_5_buy_data", "best_5_sell_data"] ++
    timestampNames ++ ltpNames ++ bidNames ++ askNames ++ bidQtyNames ++ askQtyNames ++
    volumeNames ++ seqNames

theorem not_mem_of_symbolNames :
    ∀ name ∈ symbolNames, name ∉ quoteNames ∧ name ∉ "exchange_type" :: exchangeNames := by
  decide

/-- The same values there are the same quote. -/
theorem sameQuote_of_get? {raw raw' : RawTick}
    (h : ∀ name ∈ quoteNames, raw'.get? name = raw.get? name) : SameQuote raw raw' := by
  have first {α : Type} {convert : Json → Option α} {names : List String}
      (hnames : ∀ name ∈ names, name ∈ quoteNames) :
      raw'.fields.firstOf names convert = raw.fields.firstOf names convert :=
    Json.firstOf_congr fun name hname => h name (hnames name hname)
  have hprice (names : List String) (depth : String) (hnames : ∀ name ∈ names, name ∈ quoteNames)
      (hdepth : depth ∈ quoteNames) :
      raw'.quotedPrice names depth = raw.quotedPrice names depth := by
    rw [quotedPrice, topLevel?, h _ hdepth, first hnames]
    rfl
  have hqty (names : List String) (depth : String) (hnames : ∀ name ∈ names, name ∈ quoteNames)
      (hdepth : depth ∈ quoteNames) :
      raw'.quotedQty names depth = raw.quotedQty names depth := by
    rw [quotedQty, topLevel?, h _ hdepth, first hnames]
    rfl
  exact {
    timestamp := by
      rw [timestamp, h _ (by decide), first (by decide)]
      rfl
    isStreaming := by
      rw [isStreaming, h _ (by decide)]
      rfl
    ltp := first (by decide)
    bid := hprice _ _ (by decide) (by decide)
    ask := hprice _ _ (by decide) (by decide)
    bidQty := hqty _ _ (by decide) (by decide)
    askQty := hqty _ _ (by decide) (by decide)
    volume := first (by decide)
    seq := first (by decide) }

theorem exchangeHint_insert (raw : RawTick) (name : String) (v : Json)
    (h : name ∉ "exchange_type" :: exchangeNames) :
    (raw.insert name v).exchangeHint = raw.exchangeHint := by
  have hget : ∀ n ∈ "exchange_type" :: exchangeNames,
      (raw.insert name v).get? n = raw.get? n := by
    intro n hn
    exact (raw.fields.get?_insert name n v).trans (if_neg (ne_of_mem_of_not_mem hn h))
  obtain ⟨htype, hnames⟩ := List.forall_mem_cons.mp hget
  rw [exchangeHint, htype, Json.firstOf_congr hnames]
  rfl

/-! ## The identity that a catalog gives -/

theorem symbol?_insert {raw : RawTick} (h : raw.symbol? = none) {name s : String} {v : Json}
    (hname : name ∈ symbolNames) (hv : v.text? = some s) :
    (raw.insert name v).symbol? = some s :=
  Json.firstOf_insert hname h (Json.isNull_of_text? hv) hv

variable {raw : RawTick} {i : Instrument}

theorem identify_get? (raw : RawTick) (i : Instrument) {name : String}
    (h : name ∉ ["symbol", "exchange"]) : (raw.identify i).get? name = raw.get? name := by
  obtain ⟨hsymbol, hexchange⟩ : name ≠ "symbol" ∧ name ≠ "exchange" := by
    simpa using h
  have hnamed : (raw.insert "symbol" (.string i.symbol)).get? name = raw.get? name :=
    (raw.fields.get?_insert _ _ _).trans (if_neg hsymbol)
  unfold identify
  split
  · exact hnamed
  · exact (Json.Fields.get?_insert _ _ _ _).trans ((if_neg hexchange).trans hnamed)

theorem identify_symbol? (hi : i.Carried) : (raw.identify i).symbol? = some i.symbol := by
  have htext : (Json.string i.symbol).text? = some i.symbol := by
    rw [Json.text?_string (by rw [hi.symbol_trim]; exact hi.symbol_ne), hi.symbol_trim]
  have hget : (raw.identify i).fields.get? "symbol" = some (.string i.symbol) := by
    unfold identify
    split
    · exact (Json.Fields.get?_insert _ _ _ _).trans (if_pos rfl)
    · refine (Json.Fields.get?_insert _ _ _ _).trans ((if_neg (by decide)).trans ?_)
      exact (Json.Fields.get?_insert _ _ _ _).trans (if_pos rfl)
  exact Json.firstOf_of_get? hget rfl htext

/-- The exchange is the instrument's, be it that the tick names it or that it is written
there, in front of what the tick could not say. -/
theorem identify_exchangeHint (hi : i.Carried)
    (h : ∀ e, raw.exchangeHint = some e → i.exchange = e) :
    (raw.identify i).exchangeHint = some i.exchange := by
  have hnamed := raw.exchangeHint_insert "symbol" (.string i.symbol) (by decide)
  rw [identify]
  cases hhint : raw.exchangeHint with
  | some e =>
    rw [if_pos Option.isSome_some, hnamed, hhint, h e hhint]
  | none =>
    have htext := Json.text?_string hi.exchange.trim_ne_empty
    have hfirst : ((raw.insert "symbol" (.string i.symbol)).insert "exchange"
        (.string i.exchange.code)).fields.firstOf exchangeNames Json.text? =
          some (Text.trim i.exchange.code) :=
      Json.firstOf_of_get? ((Json.Fields.get?_insert _ _ _ _).trans (if_pos rfl)) rfl htext
    rw [if_neg (by decide), exchangeHint, hfirst]
    dsimp only
    rw [Exchange.ofCode_trim, hi.exchange.2]

/-- The identified tick is the raw one under the symbol, on the exchange. -/
theorem normalize_identify (hi : i.Carried)
    (h : ∀ e, raw.exchangeHint = some e → i.exchange = e) :
    (raw.identify i).normalize = .ok { raw.toTick i.symbol with exchange := i.exchange } := by
  have hget : ∀ name ∈ quoteNames, (raw.identify i).get? name = raw.get? name :=
    fun name hname => raw.identify_get? i fun hmem =>
      (by decide : ∀ n ∈ ["symbol", "exchange"], n ∉ quoteNames) name hmem hname
  rw [normalize, identify_symbol? hi]
  dsimp only
  rw [(sameQuote_of_get? hget).toTick, identify_exchangeHint hi h]
  rfl

theorem normalize_insert (h : raw.symbol? = none) {name s : String} {v : Json}
    (hname : name ∈ symbolNames) (hv : v.text? = some s) :
    (raw.insert name v).normalize = .ok (raw.toTick s) := by
  have hget : ∀ n ∈ quoteNames, (raw.insert name v).get? n = raw.get? n := by
    intro n hn
    refine (raw.fields.get?_insert name n v).trans (if_neg ?_)
    rintro rfl
    exact (not_mem_of_symbolNames n hname).1 hn
  rw [normalize, symbol?_insert h hname hv]
  dsimp only
  rw [(sameQuote_of_get? hget).toTick, exchangeHint_insert]
  · rfl
  · exact (not_mem_of_symbolNames name hname).2

/-- The lookup is asked for the token of a tick without a symbol. -/
theorem normalizeWith_token {token : String} (lookup : InstrumentLookup)
    (hsymbol : raw.symbol? = none) (htoken : raw.token? = some token) :
    raw.normalizeWith lookup = match lookup token raw.exchangeHint with
      | some i => (raw.identify i).normalize
      | none => .error (.unresolvedToken token) := by
  have hrejected : raw.normalize = .error (.unresolvedToken token) := by
    rw [normalize, hsymbol, htoken]
  unfold normalizeWith
  generalize raw.normalize = answer at hrejected
  cases hrejected
  rfl

theorem normalizeWith_other (lookup : InstrumentLookup)
    (h : raw.symbol? ≠ none ∨ raw.token? = none) : raw.normalizeWith lookup = raw.normalize := by
  unfold normalizeWith
  split
  · rename_i token hrejected
    unfold normalize at hrejected
    cases hsymbol : raw.symbol? with
    | some s => rw [hsymbol] at hrejected; cases hrejected
    | none =>
      rw [hsymbol, h.resolve_left (absurd hsymbol)] at hrejected
      cases hrejected
  · rfl

end RawTick

/-! ## Catalogs -/

theorem SourceRow.exists_row {rows : List SourceRow} {i : Instrument}
    (h : i ∈ instruments rows) : ∃ row : Row, row.toInstrument = .ok i := by
  obtain ⟨row, -, hi⟩ := List.mem_filterMap.mp h
  cases hread : row.bind Row.toInstrument with
  | error e =>
    rw [hread] at hi
    cases hi
  | ok j =>
    rw [hread] at hi
    obtain rfl := Option.some.inj hi
    obtain ⟨row, -, hrow⟩ := ok_of_bind hread
    exact ⟨row, hrow⟩

namespace Catalog

/-- Between loads what a catalog lists comes from rows. -/
theorem Settled.exists_row {c : Catalog} (h : c.Settled) {i : Instrument}
    (hi : i ∈ c.served.toList) : ∃ row : Row, row.toInstrument = .ok i := by
  obtain ⟨rows, hserved⟩ := h.served
  rw [hserved] at hi
  have hi' : i ∈ (Snapshot.ofRows rows).toList := hi
  rw [(Snapshot.ofRows_indexed rows).2] at hi'
  exact SourceRow.exists_row ((Instrument.mem_of_mem_keeps hi').resolve_left List.not_mem_nil)

/-- Between loads the indices of a catalog are exact, and what it lists comes from
rows. -/
theorem Settled.listed {c : Catalog} (h : c.Settled) :
    c.served.Indexed ∧ ∀ i ∈ c.served.toList, i.Carried := by
  refine ⟨?_, fun i hi => ?_⟩
  · obtain ⟨rows, hserved⟩ := h.served
    obtain ⟨hindexed, -⟩ := Snapshot.ofRows_indexed rows
    rw [hserved]
    exact ⟨hindexed.bySymbol, hindexed.byToken, hindexed.byExpiry, hindexed.searchKeys⟩
  · obtain ⟨row, hrow⟩ := h.exists_row hi
    exact Row.toInstrument_carried hrow

/-- **Tokens resolve soundly and completely**, after any loads. A tick that has a token
and no symbol becomes the tick of the instrument that is listed under the token on the
exchange the tick names, or else on the preferred one. The catalog finds that instrument
again under what the tick says, and the rest of the tick is what it would be under any
symbol. Where nothing is listed the token is what the answer complains of. No other tick
depends on a catalog. -/
theorem resolution_exact (config : CatalogConfig) (calls : List LoadCall) (raw : RawTick) :
    let c := (unloaded config).after calls
    let exchange := raw.exchangeHint.getD config.preferredExchange
    (∀ token, raw.symbol? = none → raw.token? = some token →
      (∀ i ∈ c.served.toList, i.token.text = token → i.exchange = exchange →
        ∃ t, raw.normalizeWith c.lookup = .ok t ∧
          t.symbol = i.symbol ∧ t.exchange = i.exchange ∧
          c.findSymbol? t.symbol (some t.exchange) = some i ∧
          ∀ name ∈ RawTick.symbolNames, ∀ (v : Json) (s : String), v.text? = some s →
            ∃ t', (raw.insert name v).normalize = .ok t' ∧
              t = { t' with symbol := i.symbol, exchange := i.exchange }) ∧
      ((∀ i ∈ c.served.toList, i.token.text = token → i.exchange ≠ exchange) →
        raw.normalizeWith c.lookup = .error (.unresolvedToken token))) ∧
    (raw.symbol? ≠ none ∨ raw.token? = none →
      ∀ lookup, raw.normalizeWith lookup = raw.normalize) := by
  intro c exchange
  obtain ⟨hsettled, hconfig, -⟩ := (Settled.unloaded config).after calls
  obtain ⟨hindexed, hcarried⟩ := hsettled.listed
  have hfind (token : String) (i : Instrument) : c.lookup token raw.exchangeHint = some i ↔
      i ∈ c.served.toList ∧ i.token.text = token ∧ i.exchange = exchange := by
    have hpreferred : exchange = raw.exchangeHint.getD c.config.preferredExchange := by
      rw [show c.config = config from hconfig]
    rw [hpreferred]
    exact hindexed.findToken?_eq_some_iff
  refine ⟨fun token hsymbol htoken => ⟨fun i hi hitoken hiexchange => ?_, fun hnone => ?_⟩,
    fun h lookup => RawTick.normalizeWith_other lookup h⟩
  · have hnamed : ∀ e, raw.exchangeHint = some e → i.exchange = e :=
      fun e he => hiexchange.trans (congrArg (·.getD config.preferredExchange) he)
    have hok : raw.normalizeWith c.lookup =
        .ok { raw.toTick i.symbol with exchange := i.exchange } := by
      rw [RawTick.normalizeWith_token _ hsymbol htoken,
        (hfind token i).mpr ⟨hi, hitoken, hiexchange⟩]
      exact RawTick.normalize_identify (hcarried i hi) hnamed
    refine ⟨_, hok, rfl, rfl, ?_, fun name hname v s hv => ?_⟩
    · exact hindexed.findSymbol?_eq_some_iff.mpr ⟨hi, rfl, rfl⟩
    · exact ⟨_, RawTick.normalize_insert hsymbol hname hv, rfl⟩
  · have hlookup : c.lookup token raw.exchangeHint = none := by
      rw [Option.eq_none_iff_forall_ne_some]
      intro i hi
      obtain ⟨hmem, hitoken, hiexchange⟩ := (hfind token i).mp hi
      exact hnone i hmem hitoken hiexchange
    rw [RawTick.normalizeWith_token _ hsymbol htoken, hlookup]

/-- A row of text lists the token that a tick gives as a number, and what the tick has
under its other names, blank or null, stays out of its identity. -/
theorem resolution_exact_number :
    let table := "token,symbol,exch_seg\n1594,INFY-EQ,nse_cm\n".toUTF8.data.toList
    let c := (unloaded {}).after [⟨.ofMemory .csv table, none⟩]
    let raw := (((RawTick.empty.insert "token" (.number (.ofUInt64 1594))).insert "symbol"
      (.string " ")).insert "exchange" .null).insert "volume" (.string "75")
    ∃ t, raw.normalizeWith c.lookup = .ok t ∧
      t.symbol = "INFY-EQ" ∧ t.exchange = .nse ∧ t.volume = 75 := by
  intro table c raw
  obtain ⟨row, listed, hrows, hrow, hsymbol, htoken, hexchange⟩ : ∃ (row : Row) (i : Instrument),
      (CatalogSource.ofMemory .csv table).rows = .ok [.ok row] ∧ row.toInstrument = .ok i ∧
        i.symbol = "INFY-EQ" ∧ i.token.text = "1594" ∧ i.exchange = .nse :=
    ⟨.ofList [("token", .string "1594"), ("symbol", .string "INFY-EQ"),
        ("exch_seg", .string "nse_cm")],
      ⟨.ofSymbol "INFY-EQ" .nse, "INFY-EQ", "INFY-EQ", ⟨"1594"⟩, .nse, .equity, none, none, 1,
        Row.defaultIncrement⟩,
      by rfl, by rfl, rfl, rfl, rfl⟩
  have hserved : c = (unloaded {}).serve [.ok row] := by
    show ((unloaded {}).load _ none).1 = _
    rw [load_eq (.unloaded _), hrows]
    rfl
  have hlisted : listed ∈ c.served.toList := by
    have hlist := (Snapshot.ofRows_indexed [.ok row]).2
    have hread : (Except.ok row : SourceRow).bind Row.toInstrument = .ok listed := hrow
    rw [SourceRow.instruments_cons_ok hread] at hlist
    rw [hserved]
    show listed ∈ (Snapshot.ofRows [.ok row]).toList
    rw [hlist]
    exact List.mem_singleton.mpr rfl
  obtain ⟨t, ht, hsymbol', hexchange', -, hrest⟩ :=
    ((resolution_exact {} [⟨.ofMemory .csv table, none⟩] raw).1 "1594" rfl rfl).1
      listed hlisted htoken hexchange
  obtain ⟨t', ht', hother⟩ := hrest "symbol" (by decide) (.string "INFY-EQ") "INFY-EQ" rfl
  have hvolume : (raw.insert "symbol" (.string "INFY-EQ")).normalize.toOption.map Tick.volume =
      some 75 := rfl
  rw [ht'] at hvolume
  refine ⟨t, ht, hsymbol'.trans hsymbol, hexchange'.trans hexchange, ?_⟩
  rw [hother]
  exact Option.some.inj hvolume

end Catalog

end TickFeed
