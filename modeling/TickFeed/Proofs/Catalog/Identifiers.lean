import TickFeed.Proofs.Catalog.Resolution
import TickFeed.Proofs.Instrument.Id

/-! # Identifiers in a catalog

No two instruments that a catalog serves have the symbol and the exchange in common, so two
of them can have one identifier only by a dot in the code of an exchange. Among the
instruments on exchanges without such a code the identifier identifies, and it is taken
apart into the symbol and the code (`split_unless_dotted`). A code is free text, and one
with a dot breaks both (`shared_id_of_dotted`). -/

namespace TickFeed

def Instrument.isDotted (i : Instrument) : Bool := i.exchange.code.toList.contains '.'

theorem Instrument.isDotted_eq_false_iff {i : Instrument} :
    i.isDotted = false ↔ '.' ∉ i.exchange.code.toList := by
  rw [isDotted, ← Bool.not_eq_true, List.contains_iff_mem]

/-- The symbol goes on where that of the other instrument ends, with a part that stands in
front of the code of the other exchange. -/
def Instrument.Shifts (i j : Instrument) : Prop :=
  InstrumentId.Shifted i.symbol i.exchange j.symbol j.exchange

namespace Catalog

variable {c : Catalog} {i j : Instrument}

theorem Settled.id_eq (h : c.Settled) (hi : i ∈ c.served.toList) :
    i.id = .ofSymbol i.symbol i.exchange := by
  obtain ⟨row, hrow⟩ := h.exists_row hi
  exact (Row.toInstrument_describes hrow).id

/-- On an exchange a symbol is that of one instrument, and a code is that of one exchange. -/
theorem Settled.eq_of_symbol (h : c.Settled) (hi : i ∈ c.served.toList)
    (hj : j ∈ c.served.toList) (hsymbol : i.symbol = j.symbol)
    (hcode : i.exchange.code = j.exchange.code) : i = j := by
  obtain ⟨hindexed, hcarried⟩ := h.listed
  have hexchange : i.exchange = j.exchange := by
    rw [← (hcarried i hi).exchange.2, ← (hcarried j hj).exchange.2, hcode]
  have hfound := hindexed.findSymbol?_eq_some_iff.mpr ⟨hj, hsymbol.symm, hexchange.symm⟩
  exact Option.some.inj ((hindexed.findSymbol?_eq_some_iff.mpr ⟨hi, rfl, rfl⟩).symm.trans hfound)

theorem Settled.id_eq_iff (h : c.Settled) (hi : i ∈ c.served.toList)
    (hj : j ∈ c.served.toList) : i.id = j.id ↔ i = j ∨ i.Shifts j ∨ j.Shifts i := by
  rw [h.id_eq hi, h.id_eq hj, InstrumentId.ofSymbol_eq_iff]
  refine or_congr_left ⟨fun ⟨hsymbol, hcode⟩ => h.eq_of_symbol hi hj hsymbol hcode, ?_⟩
  rintro rfl
  exact ⟨rfl, rfl⟩

/-- **Identifiers**, after any loads. An identifier is taken apart into the symbol and the
exchange code of its instrument exactly when the code has no dot. Two instruments have one
identifier exactly when a dot of the symbol of one of them is a dot of the code of the
other, so among those without a dot in the code no identifier comes twice. -/
theorem split_unless_dotted (config : CatalogConfig) (calls : List LoadCall) :
    let listed := ((unloaded config).after calls).served.toList
    (∀ i ∈ listed, i.id.split = (i.symbol, i.exchange.code) ↔ i.isDotted = false) ∧
      (∀ i ∈ listed, ∀ j ∈ listed, i.id = j.id ↔ i = j ∨ i.Shifts j ∨ j.Shifts i) ∧
      ((listed.filter fun i => !i.isDotted).map Instrument.id).Nodup := by
  intro listed
  obtain ⟨hsettled, -⟩ := (Settled.unloaded config).after calls
  refine ⟨fun i hi => ?_, fun i hi j hj => hsettled.id_eq_iff hi hj, ?_⟩
  · rw [hsettled.id_eq hi, InstrumentId.split_ofSymbol_iff, Instrument.isDotted_eq_false_iff]
  · have hdistinct := List.pairwise_map.mp hsettled.listed.1.bySymbol.nodup
    refine List.pairwise_map.mpr ((hdistinct.filter _).imp_of_mem fun hi hj hne heq => ?_)
    obtain ⟨hi, hdotless⟩ := List.mem_filter.mp hi
    obtain ⟨hj, hdotless'⟩ := List.mem_filter.mp hj
    rw [Bool.not_eq_true', Instrument.isDotted_eq_false_iff] at hdotless hdotless'
    rcases (hsettled.id_eq_iff hi hj).mp heq with rfl | hshifts | hshifts
    · exact hne rfl
    · exact hdotless hshifts.dot_mem
    · exact hdotless' hshifts.dot_mem

/-- Three rows with a dot in the symbol or in the code of the exchange. -/
def dottedTable : CatalogSource :=
  .ofMemory .csv "token,symbol,exch_seg\n1,M.M,NSE\n2,A,B.C\n3,A.B,C\n".toUTF8.data.toList

theorem exists_served_dottedTable {symbol code id : String}
    (h : (symbol, code, id) ∈
      [("M.M", "NSE", "M.M.NSE"), ("A", "B.C", "A.B.C"), ("A.B", "C", "A.B.C")]) :
    ∃ i ∈ ((unloaded {}).after [⟨dottedTable, none⟩]).served.toList,
      i.symbol = symbol ∧ i.exchange.code = code ∧ i.id = ⟨id⟩ := by
  let row := fun (token symbol exchange : String) => (Except.ok (.ofList [("token", .string token),
    ("symbol", .string symbol), ("exch_seg", .string exchange)]) : SourceRow)
  have hrows : dottedTable.rows =
      .ok [row "1" "M.M" "NSE", row "2" "A" "B.C", row "3" "A.B" "C"] := by rfl
  have hserved : ((unloaded {}).load dottedTable none).1.served.toList.map
      (fun i => (i.symbol, i.exchange.code, i.id.text)) =
        [("M.M", "NSE", "M.M.NSE"), ("A", "B.C", "A.B.C"), ("A.B", "C", "A.B.C")] := by
    rw [load_eq (.unloaded _), hrows]
    exact (congrArg _ (Snapshot.ofRows_indexed _).2).trans (by decide)
  rw [← hserved] at h
  obtain ⟨i, hi, heq⟩ := List.mem_map.mp h
  cases heq
  exact ⟨i, hi, rfl, rfl, rfl⟩

/-- The last dot is the one that divides, and the symbol keeps its own. -/
theorem split_unless_dotted_in_symbol :
    let listed := ((unloaded {}).after [⟨dottedTable, none⟩]).served.toList
    ∃ i ∈ listed, i.isDotted = false ∧ i.id.split = ("M.M", "NSE") := by
  intro listed
  obtain ⟨i, hi, hsymbol, hcode, -⟩ := exists_served_dottedTable List.mem_cons_self
  have hdotless : i.isDotted = false := by
    rw [Instrument.isDotted, hcode]
    decide
  refine ⟨i, hi, hdotless, ?_⟩
  rw [((split_unless_dotted {} [⟨dottedTable, none⟩]).1 i hi).mpr hdotless, hsymbol, hcode]

/-- The dot of a symbol in one row is that of a code in another one. The two instruments
have one identifier, and it is taken apart as that of one of them only. -/
theorem shared_id_of_dotted :
    let listed := ((unloaded {}).after [⟨dottedTable, none⟩]).served.toList
    (∃ i ∈ listed, ∃ j ∈ listed, i ≠ j ∧ i.id = j.id) ∧
      ∃ i ∈ listed, i.id.split ≠ (i.symbol, i.exchange.code) := by
  intro listed
  obtain ⟨i, hi, hsymbol, hcode, hid⟩ :=
    exists_served_dottedTable (List.mem_cons_of_mem _ List.mem_cons_self)
  obtain ⟨j, hj, hsymbol', -, hid'⟩ := exists_served_dottedTable
    (List.mem_cons_of_mem _ (List.mem_cons_of_mem _ List.mem_cons_self))
  refine ⟨⟨i, hi, j, hj, ?_, hid.trans hid'.symm⟩, i, hi, ?_⟩
  · rintro rfl
    exact absurd (hsymbol.symm.trans hsymbol') (by decide)
  · rw [hid, hsymbol, hcode]
    decide

end Catalog

end TickFeed
