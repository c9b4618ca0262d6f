import TickFeed.Catalog.Row
import TickFeed.Proofs.Tick.WellFormed

/-! # What rows describe

Everything about an instrument is what its row says in some column
(`Row.toInstrument_describes`). A column is read as a field of a tick is: blank text and other
values than text and numbers are none, and what is read has no padding. So an instrument that
a row describes has an identity that a tick can carry. -/

namespace TickFeed

/-- A number is written with one character at least. -/
theorem Json.Number.text_ne_empty (n : Json.Number) : n.text ≠ "" := by
  have last : ∀ {s t : String}, t ≠ "" → s ++ t ≠ "" :=
    fun ht h => ht (String.append_eq_empty_iff.mp h).2
  have written : ∀ whole fraction : List Char,
      ¬(if fraction = [] then (if whole = [] then ['0'] else whole)
        else (if whole = [] then ['0'] else whole) ++ '.' :: fraction) = [] := by
    intro whole fraction
    split
    · split
      · exact List.cons_ne_nil _ _
      · assumption
    · simp
  cases n with
  | integer n _ _ =>
    rw [Json.Number.text, Int.toString_eq_repr, Int.repr_eq_if]
    split
    · exact Nat.repr_ne_empty
    · exact last Nat.repr_ne_empty
  | double x hx =>
    cases x with
    | infinite _ | nan => cases hx
    | finite neg u hu =>
      simp only [Json.Number.text, Binary64.jsonText]
      split
      · exact last (by decide)
      · refine last ?_
        split
        · rw [Binary64.positional, ne_eq, String.ofList_eq_empty_iff]
          exact written _ _
        · rw [Binary64.scientific, ne_eq, String.ofList_eq_empty_iff]
          simp

namespace Row

/-- Columns and fields of ticks are read alike. -/
theorem valueText?_eq (v : Json) : valueText? v = v.text? := by
  cases v with
  | number n =>
    refine (Option.filter_eq_some_iff.mpr ⟨rfl, ?_⟩).symm
    exact decide_eq_true n.text_ne_empty
  | string _ | null | bool _ | array _ | object _ => rfl

/-- What a column has is not blank and has no padding. -/
theorem column?_spec {row : Row} {columns : List String} {text : String}
    (h : row.column? columns = some text) : text ≠ "" ∧ Text.trim text = text := by
  obtain ⟨name, -, hname⟩ := List.exists_of_findSome?_eq_some h
  obtain ⟨v, -, hv⟩ := Option.bind_eq_some_iff.mp hname
  rw [valueText?_eq] at hv
  exact Json.text?_spec hv

theorem requiredColumn_spec {row : Row} {columns : List String} {name text : String}
    (h : row.requiredColumn columns name = .ok text) : text ≠ "" ∧ Text.trim text = text := by
  unfold requiredColumn at h
  split at h
  · rename_i hcolumn
    cases h
    exact column?_spec hcolumn
  · cases h

end Row

/-- A tick can carry the symbol and the exchange, and they are read back as they are. -/
structure Instrument.Carried (i : Instrument) : Prop where
  symbol_ne : i.symbol ≠ ""
  symbol_trim : Text.trim i.symbol = i.symbol
  exchange : i.exchange.Canonical

theorem ok_of_bind {ε α β : Type} {x : Except ε α} {next : α → Except ε β} {b : β}
    (h : (x >>= next) = .ok b) : ∃ a, x = .ok a ∧ next a = .ok b := by
  cases x with
  | error e => cases h
  | ok a => exact ⟨a, rfl, h⟩

/-- Everything about the instrument is what the row says under the columns for it. -/
structure Row.Describes (row : Row) (i : Instrument) : Prop where
  token : ∃ text, row.requiredColumn ["token"] "token" = .ok text ∧ i.token = .ofText text
  symbol : row.requiredColumn ["symbol"] "symbol" = .ok i.symbol
  exchange : ∃ code, row.requiredColumn ["exch_seg", "exchange"] "exch_seg" = .ok code ∧
    i.exchange = .ofCode code
  id : i.id = .ofSymbol i.symbol i.exchange
  name : i.name = (row.column? ["name"]).getD i.symbol
  kind : i.kind = .ofCode ((row.column? ["instrumenttype", "instrument_type"]).getD "")
  lotSize : lotSize (row.column? ["lotsize", "lot_size"]) = .ok i.lotSize
  expiry : expiry (row.column? ["expiry"]) = .ok i.expiry
  strike : strike (row.column? ["strike"]) = .ok i.strike
  priceIncrement :
    priceIncrement (row.column? ["tick_size", "price_increment"]) = .ok i.priceIncrement

theorem Row.toInstrument_describes {row : Row} {i : Instrument} (h : row.toInstrument = .ok i) :
    row.Describes i := by
  unfold toInstrument at h
  obtain ⟨token, htoken, h⟩ := ok_of_bind h
  obtain ⟨symbol, hsymbol, h⟩ := ok_of_bind h
  obtain ⟨code, hcode, h⟩ := ok_of_bind h
  obtain ⟨lotSize, hlotSize, h⟩ := ok_of_bind h
  obtain ⟨expiry, hexpiry, h⟩ := ok_of_bind h
  obtain ⟨strike, hstrike, h⟩ := ok_of_bind h
  obtain ⟨priceIncrement, hincrement, h⟩ := ok_of_bind h
  cases h
  exact {
    token := ⟨token, htoken, by dsimp only⟩
    symbol := hsymbol
    exchange := ⟨code, hcode, by dsimp only⟩
    id := by dsimp only
    name := by dsimp only
    kind := by dsimp only
    lotSize := hlotSize
    expiry := hexpiry
    strike := hstrike
    priceIncrement := hincrement }

theorem Row.toInstrument_carried {row : Row} {i : Instrument} (h : row.toInstrument = .ok i) :
    i.Carried := by
  have hrow := toInstrument_describes h
  obtain ⟨code, hcode, hexchange⟩ := hrow.exchange
  obtain ⟨hne, htrim⟩ := requiredColumn_spec hcode
  obtain ⟨hsymbol, hsymbolTrim⟩ := requiredColumn_spec hrow.symbol
  refine ⟨hsymbol, hsymbolTrim, ?_⟩
  rw [hexchange]
  exact Exchange.canonical_ofCode (htrim.symm ▸ hne)

end TickFeed
