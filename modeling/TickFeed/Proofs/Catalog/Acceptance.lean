import TickFeed.Proofs.Catalog.Columns
import TickFeed.Proofs.Instrument.Kind

/-! # Which rows are instruments

A row is checked item by item, and the first item that fails gives the error
(`toInstrument_error_iff`); the row is an instrument when none fails. The instrument is then
well-formed: its texts have no padding, its codes are read back as they are, and its numbers
are positive. Nothing on the way there is left without an answer, the hundredth part of a tick
size in paise included (`acceptance`). -/

namespace TickFeed

/-! ## Errors of a chain of checks -/

def errorOf? {ε α : Type} : Except ε α → Option ε
  | .error e => some e
  | .ok _ => none

theorem errorOf?_eq_some_iff {ε α : Type} {x : Except ε α} {e : ε} :
    errorOf? x = some e ↔ x = .error e := by
  cases x <;> simp [errorOf?]

theorem errorOf?_eq_none_iff {ε α : Type} {x : Except ε α} :
    errorOf? x = none ↔ ∃ a, x = .ok a := by
  cases x <;> simp [errorOf?]

/-- A check and then the others: the error is that of the first of them that fails. -/
theorem errorOf?_bind {ε α β ι : Type} {x : Except ε α} {next : α → Except ε β}
    {fault? : ι → Option ε} {check : ι} {checks : List ι} (hx : errorOf? x = fault? check)
    (hnext : ∀ a, errorOf? (next a) = checks.findSome? fault?) :
    errorOf? (x >>= next) = (check :: checks).findSome? fault? := by
  rw [List.findSome?_cons, ← hx]
  cases x with
  | error e => rfl
  | ok a => exact hnext a

/-! ## Items of a row -/

inductive RowItem where
  | token
  | symbol
  | exchange
  | lotSize
  | expiry
  | strike
  | tickSize
deriving DecidableEq

namespace RowItem

/-- The identity comes before the numbers. -/
def inOrder : List RowItem := [.token, .symbol, .exchange, .lotSize, .expiry, .strike, .tickSize]

/-- The item is missing or not valid, and the error says so. -/
inductive Fails (row : Row) : RowItem → RowError → Prop where
  | token (h : ¬row.Has ["token"]) : Fails row .token (.missingColumn "token")
  | symbol (h : ¬row.Has ["symbol"]) : Fails row .symbol (.missingColumn "symbol")
  | exchange (h : ¬row.Has ["exch_seg", "exchange"]) :
    Fails row .exchange (.missingColumn "exch_seg")
  | lotSize {t : String} (ht : row.Gives ["lotsize", "lot_size"] t) (h : ¬Row.IsLotSize t) :
    Fails row .lotSize (.invalidLotSize t)
  | expiry {t : String} (ht : row.Gives ["expiry"] t) (h : ¬Row.IsExpiry t) :
    Fails row .expiry (.invalidExpiry t)
  | strike {t : String} (ht : row.Gives ["strike"] t) (h : ¬Row.IsDecimal t) :
    Fails row .strike (.invalidStrike t)
  | tickSize {t : String} (ht : row.Gives ["tick_size", "price_increment"] t)
    (h : ¬Row.IsDecimal t) : Fails row .tickSize (.invalidTickSize t)

def fault? (row : Row) : RowItem → Option RowError
  | .token => errorOf? (row.requiredColumn ["token"] "token")
  | .symbol => errorOf? (row.requiredColumn ["symbol"] "symbol")
  | .exchange => errorOf? (row.requiredColumn ["exch_seg", "exchange"] "exch_seg")
  | .lotSize => errorOf? (Row.lotSize (row.column? ["lotsize", "lot_size"]))
  | .expiry => errorOf? (Row.expiry (row.column? ["expiry"]))
  | .strike => errorOf? (Row.strike (row.column? ["strike"]))
  | .tickSize => errorOf? (Row.priceIncrement (row.column? ["tick_size", "price_increment"]))

end RowItem

namespace Row

open RowItem

variable {row : Row} {columns : List String} {t : String} {e : RowError}

/-! ## Checks as they run -/

theorem errorOf?_toInstrument (row : Row) :
    errorOf? row.toInstrument = inOrder.findSome? (fault? row) := by
  unfold toInstrument
  refine errorOf?_bind rfl fun token => ?_
  refine errorOf?_bind rfl fun symbol => ?_
  refine errorOf?_bind rfl fun code => ?_
  refine errorOf?_bind rfl fun lotSize => ?_
  refine errorOf?_bind rfl fun expiry => ?_
  refine errorOf?_bind rfl fun strike => ?_
  refine errorOf?_bind rfl fun priceIncrement => ?_
  rfl

theorem errorOf?_requiredColumn {name : String} :
    errorOf? (row.requiredColumn columns name) = some e ↔
      ¬row.Has columns ∧ e = .missingColumn name := by
  rw [← column?_eq_none_iff, requiredColumn]
  cases row.column? columns <;> simp [errorOf?, eq_comm]

/-- A column that may be blank fails when it has a text that is not valid. -/
theorem errorOf?_optional {α : Type} {read : Option String → Except RowError α}
    {Valid : String → Prop} {error : String → RowError} (hblank : errorOf? (read none) = none)
    (hread : ∀ t e, errorOf? (read (some t)) = some e ↔ ¬Valid t ∧ e = error t) :
    errorOf? (read (row.column? columns)) = some e ↔
      ∃ t, row.Gives columns t ∧ ¬Valid t ∧ e = error t := by
  simp only [← column?_eq_some_iff]
  cases row.column? columns with
  | none => simp [hblank]
  | some t => simp [hread]

theorem errorOf?_lotSize : errorOf? (lotSize (row.column? columns)) = some e ↔
    ∃ t, row.Gives columns t ∧ ¬IsLotSize t ∧ e = .invalidLotSize t := by
  refine errorOf?_optional rfl fun t e => ?_
  rw [isLotSize_iff, lotSize]
  cases lotSize? t <;> simp [errorOf?, eq_comm]

theorem errorOf?_expiry : errorOf? (expiry (row.column? columns)) = some e ↔
    ∃ t, row.Gives columns t ∧ ¬IsExpiry t ∧ e = .invalidExpiry t := by
  refine errorOf?_optional rfl fun t e => ?_
  rw [isExpiry_iff, expiry]
  cases (Date.readAs? Date.compactLayout t).or (Date.readAs? Date.isoLayout t) <;>
    simp [errorOf?, eq_comm]

theorem errorOf?_strike : errorOf? (strike (row.column? columns)) = some e ↔
    ∃ t, row.Gives columns t ∧ ¬IsDecimal t ∧ e = .invalidStrike t := by
  refine errorOf?_optional rfl fun t e => ?_
  rw [IsDecimal, strike]
  cases Decimal.read? t <;> simp [errorOf?, eq_comm]

theorem errorOf?_priceIncrement : errorOf? (priceIncrement (row.column? columns)) = some e ↔
    ∃ t, row.Gives columns t ∧ ¬IsDecimal t ∧ e = .invalidTickSize t := by
  refine errorOf?_optional rfl fun t e => ?_
  rw [IsDecimal, priceIncrement]
  cases Decimal.read? t with
  | none => simp [errorOf?, eq_comm]
  | some d =>
    -- a decimal of any size has an increment
    dsimp only
    repeat' split
    all_goals simp [errorOf?]

/-- The checks find what fails. -/
theorem fault?_eq_some_iff {item : RowItem} : fault? row item = some e ↔ item.Fails row e := by
  constructor
  · intro h
    cases item with
    | token =>
      obtain ⟨hblank, rfl⟩ := errorOf?_requiredColumn.mp h
      exact .token hblank
    | symbol =>
      obtain ⟨hblank, rfl⟩ := errorOf?_requiredColumn.mp h
      exact .symbol hblank
    | exchange =>
      obtain ⟨hblank, rfl⟩ := errorOf?_requiredColumn.mp h
      exact .exchange hblank
    | lotSize =>
      obtain ⟨t, ht, hinvalid, rfl⟩ := errorOf?_lotSize.mp h
      exact .lotSize ht hinvalid
    | expiry =>
      obtain ⟨t, ht, hinvalid, rfl⟩ := errorOf?_expiry.mp h
      exact .expiry ht hinvalid
    | strike =>
      obtain ⟨t, ht, hinvalid, rfl⟩ := errorOf?_strike.mp h
      exact .strike ht hinvalid
    | tickSize =>
      obtain ⟨t, ht, hinvalid, rfl⟩ := errorOf?_priceIncrement.mp h
      exact .tickSize ht hinvalid
  · intro h
    cases h with
    | token hblank => exact errorOf?_requiredColumn.mpr ⟨hblank, rfl⟩
    | symbol hblank => exact errorOf?_requiredColumn.mpr ⟨hblank, rfl⟩
    | exchange hblank => exact errorOf?_requiredColumn.mpr ⟨hblank, rfl⟩
    | lotSize ht hinvalid => exact errorOf?_lotSize.mpr ⟨_, ht, hinvalid, rfl⟩
    | expiry ht hinvalid => exact errorOf?_expiry.mpr ⟨_, ht, hinvalid, rfl⟩
    | strike ht hinvalid => exact errorOf?_strike.mpr ⟨_, ht, hinvalid, rfl⟩
    | tickSize ht hinvalid => exact errorOf?_priceIncrement.mpr ⟨_, ht, hinvalid, rfl⟩

theorem fault?_eq_none_iff {item : RowItem} :
    fault? row item = none ↔ ∀ e, ¬item.Fails row e := by
  simp only [Option.eq_none_iff_forall_ne_some, ne_eq, fault?_eq_some_iff]

/-! ## Rejected and accepted rows -/

/-- The error is that of the first item that fails. -/
theorem toInstrument_error_iff : row.toInstrument = .error e ↔
    ∃ before item after, inOrder = before ++ item :: after ∧ item.Fails row e ∧
      ∀ passed ∈ before, ∀ e, ¬passed.Fails row e := by
  rw [← errorOf?_eq_some_iff, errorOf?_toInstrument, List.findSome?_eq_some_iff]
  simp only [fault?_eq_some_iff, fault?_eq_none_iff]

theorem toInstrument_ok_iff :
    (∃ i, row.toInstrument = .ok i) ↔ ∀ item e, ¬RowItem.Fails row item e := by
  rw [← errorOf?_eq_none_iff, errorOf?_toInstrument, List.findSome?_eq_none_iff]
  simp only [fault?_eq_none_iff]
  have hall : ∀ item : RowItem, item ∈ inOrder := by
    intro item
    cases item <;> decide
  exact ⟨fun h item => h item (hall item), fun h item _ => h item⟩

/-- All that a row has to have, and nothing in it that cannot be read. -/
structure Valid (row : Row) : Prop where
  token : row.Has ["token"]
  symbol : row.Has ["symbol"]
  exchange : row.Has ["exch_seg", "exchange"]
  lotSize : ∀ t, row.Gives ["lotsize", "lot_size"] t → IsLotSize t
  expiry : ∀ t, row.Gives ["expiry"] t → IsExpiry t
  strike : ∀ t, row.Gives ["strike"] t → IsDecimal t
  tickSize : ∀ t, row.Gives ["tick_size", "price_increment"] t → IsDecimal t

theorem valid_iff : row.Valid ↔ ∀ item e, ¬RowItem.Fails row item e := by
  constructor
  · intro h item e hfails
    cases hfails with
    | token hblank => exact hblank h.token
    | symbol hblank => exact hblank h.symbol
    | exchange hblank => exact hblank h.exchange
    | lotSize ht hinvalid => exact hinvalid (h.lotSize _ ht)
    | expiry ht hinvalid => exact hinvalid (h.expiry _ ht)
    | strike ht hinvalid => exact hinvalid (h.strike _ ht)
    | tickSize ht hinvalid => exact hinvalid (h.tickSize _ ht)
  · intro h
    exact {
      token := Classical.byContradiction fun hblank => h _ _ (.token hblank)
      symbol := Classical.byContradiction fun hblank => h _ _ (.symbol hblank)
      exchange := Classical.byContradiction fun hblank => h _ _ (.exchange hblank)
      lotSize := fun t ht => Classical.byContradiction fun hinvalid => h _ _ (.lotSize ht hinvalid)
      expiry := fun t ht => Classical.byContradiction fun hinvalid => h _ _ (.expiry ht hinvalid)
      strike := fun t ht => Classical.byContradiction fun hinvalid => h _ _ (.strike ht hinvalid)
      tickSize := fun t ht => Classical.byContradiction fun hinvalid => h _ _ (.tickSize ht hinvalid) }

end Row

/-! ## Instruments of rows -/

/-- An instrument as lookups and the rounding of prices rely on it. -/
structure Instrument.WellFormed (i : Instrument) : Prop where
  token : i.token.text ≠ "" ∧ Text.trim i.token.text = i.token.text
  symbol : i.symbol ≠ "" ∧ Text.trim i.symbol = i.symbol
  name : i.name ≠ "" ∧ Text.trim i.name = i.name
  exchange : i.exchange.code ≠ "" ∧ Exchange.ofCode i.exchange.code = i.exchange
  kind : InstrumentKind.ofCode i.kind.code = i.kind
  id : i.id.text = i.symbol ++ "." ++ i.exchange.code
  lotSize : 1 ≤ i.lotSize.toNat ∧ i.lotSize.toNat ≤ 2 ^ 32 - 1
  strike : ∀ d, i.strike = some d → 0 < d.mantissa
  priceIncrement : 0 < i.priceIncrement.mantissa ∧ i.priceIncrement.Stripped

namespace Row

variable {row : Row} {i : Instrument}

theorem toInstrument_wellFormed (h : row.toInstrument = .ok i) : i.WellFormed := by
  have hrow := toInstrument_describes h
  have hcarried := toInstrument_carried h
  obtain ⟨token, htoken, htext⟩ := hrow.token
  obtain ⟨htokenNe, htokenTrim⟩ := requiredColumn_spec htoken
  have hsymbol := requiredColumn_spec hrow.symbol
  have hlot := i.lotSize.toNat_lt
  exact {
    token := by
      rw [htext]
      exact ⟨by rwa [Token.ofText, htokenTrim], Text.trim_trim token⟩
    symbol := hsymbol
    name := by
      -- without a column of its own the name is the symbol
      rw [hrow.name]
      cases hcolumn : row.column? ["name"] with
      | none => exact hsymbol
      | some name => exact column?_spec hcolumn
    exchange := hcarried.exchange
    kind := by
      rw [hrow.kind]
      exact InstrumentKind.ofCode_code _
    id := congrArg InstrumentId.text hrow.id
    lotSize := ⟨lotSize_pos hrow.lotSize, by omega⟩
    strike := fun d hd => strike_pos hrow.strike hd
    priceIncrement := priceIncrement_spec hrow.priceIncrement }

/-- A row is an instrument when it is valid, and else its error is that of the first item
that fails. The instrument is well-formed, and a tick size in paise always has the hundredth
part that makes it an increment in rupees. -/
theorem acceptance (row : Row) :
    ((∃ i, row.toInstrument = .ok i) ↔ row.Valid) ∧
      (∀ e, row.toInstrument = .error e ↔
        ∃ before item after, RowItem.inOrder = before ++ item :: after ∧ item.Fails row e ∧
          ∀ passed ∈ before, ∀ e, ¬passed.Fails row e) ∧
      (∀ i, row.toInstrument = .ok i → i.WellFormed) ∧
      ∀ t d, row.Gives ["tick_size", "price_increment"] t → Decimal.read? t = some d →
        d.atLeastOne = true → ∃ q, d.div? Decimal.hundred = some q := by
  refine ⟨toInstrument_ok_iff.trans valid_iff.symm, fun e => toInstrument_error_iff,
    fun i => toInstrument_wellFormed, fun t d _ _ hone => ?_⟩
  obtain ⟨q, hq, -⟩ := Decimal.exists_hundredth hone
  exact ⟨q, hq⟩

/-- A lot size with a fraction of zero is one, and a tick size of five paise is a twentieth of
a rupee. With two items that fail, the error is that of the lot size. -/
theorem acceptance_of_option :
    let row : Row := .ofList [("token", .number (.ofUInt64 43650)),
      ("symbol", .string " NIFTY26FEB2622500CE "), ("exch_seg", .string "nfo"),
      ("expiry", .string "26FEB2026"), ("lotsize", .string "75.0"),
      ("instrumenttype", .string "OPTIDX"), ("tick_size", .string "5.000000")]
    let faulty : Row := (row.insert "lotsize" (.string "1.5")).insert "strike" (.string "abc")
    (∃ i, row.toInstrument = .ok i ∧ i.WellFormed ∧ i.lotSize = 75 ∧
        i.priceIncrement = ⟨false, 5, 2, by decide, by decide⟩) ∧
      (∃ q, Decimal.div? ⟨false, 5000000, 6, by decide, by decide⟩ .hundred = some q) ∧
      faulty.toInstrument = .error (.invalidLotSize "1.5") ∧ ¬faulty.Valid := by
  intro row faulty
  obtain ⟨-, -, hwell, hhundredth⟩ := acceptance row
  have htick : row.Gives ["tick_size", "price_increment"] "5.000000" :=
    column?_eq_some_iff.mp (by rfl)
  have hfaulty : faulty.toInstrument = .error (.invalidLotSize "1.5") := by rfl
  refine ⟨?_, hhundredth _ _ htick (by rfl) (by decide), hfaulty, ?_⟩
  · exact ⟨_, by rfl, hwell _ (by rfl), by decide +kernel, by decide +kernel⟩
  · intro hvalid
    obtain ⟨i, hi⟩ := (acceptance faulty).1.mpr hvalid
    rw [hfaulty] at hi
    cases hi

end Row

end TickFeed
