import TickFeed.Instrument.Id

/-! # Identifiers and their parts

The last dot of a text divides it, so what follows that dot has none
(`splitAtLastDot?_eq_some_iff`). An identifier is taken apart into the symbol and the code
that it was made of as long as the code has no dot (`split_ofSymbol_iff`), and the texts that
are read as identifiers are the joins of two such parts (`parts_are_found_again`). A dot in a
code can also be read as a dot of the symbol, and this is the only way in which two pairs of
a symbol and a code come to one identifier (`ofSymbol_eq_iff`). -/

namespace TickFeed

theorem splitAtLastDot?_eq_none_iff {cs : List Char} :
    splitAtLastDot? cs = none ↔ '.' ∉ cs := by
  induction cs with
  | nil => simp [splitAtLastDot?]
  | cons c rest ih =>
    rw [splitAtLastDot?, List.mem_cons, not_or, ← ih]
    cases splitAtLastDot? rest with
    | some parts => simp
    | none =>
      by_cases hc : c = '.'
      · simp [hc]
      · simp [hc, Ne.symm hc]

theorem splitAtLastDot?_append {after : List Char} (h : '.' ∉ after) (before : List Char) :
    splitAtLastDot? (before ++ '.' :: after) = some (before, after) := by
  induction before with
  | nil =>
    rw [List.nil_append, splitAtLastDot?, splitAtLastDot?_eq_none_iff.mpr h]
    exact if_pos rfl
  | cons c before ih => rw [List.cons_append, splitAtLastDot?, ih]

theorem splitAtLastDot?_eq_some_iff {cs before after : List Char} :
    splitAtLastDot? cs = some (before, after) ↔
      cs = before ++ '.' :: after ∧ '.' ∉ after := by
  refine ⟨fun h => ?_, fun ⟨hcs, hafter⟩ => hcs ▸ splitAtLastDot?_append hafter before⟩
  induction cs generalizing before with
  | nil => cases h
  | cons c rest ih =>
    rw [splitAtLastDot?] at h
    cases hrest : splitAtLastDot? rest with
    | some parts =>
      rw [hrest] at h
      cases h
      obtain ⟨hcs, hafter⟩ := ih hrest
      exact ⟨congrArg (c :: ·) hcs, hafter⟩
    | none =>
      rw [hrest] at h
      dsimp only at h
      split at h
      next hc =>
        cases h
        exact ⟨congrArg (· :: after) hc, splitAtLastDot?_eq_none_iff.mp hrest⟩
      next => cases h

/-- Two texts with a separator in them are one text when their parts are the same, or when
the separator of one of them lies further back, in what follows that of the other. -/
theorem append_cons_eq_append_cons_iff {α : Type} {a : α} {xs ys cs ds : List α} :
    xs ++ a :: cs = ys ++ a :: ds ↔
      (xs = ys ∧ cs = ds) ∨ (∃ part, ys = xs ++ a :: part ∧ cs = part ++ a :: ds) ∨
        ∃ part, xs = ys ++ a :: part ∧ ds = part ++ a :: cs := by
  constructor
  · intro h
    rcases List.append_eq_append_iff.mp h with ⟨part, rfl, htail⟩ | ⟨part, rfl, htail⟩
    · cases part with
      | nil => exact .inl ⟨(List.append_nil xs).symm, (List.cons.inj htail).2⟩
      | cons b part =>
        obtain ⟨rfl, hcs⟩ := List.cons.inj htail
        exact .inr (.inl ⟨part, rfl, hcs⟩)
    · cases part with
      | nil => exact .inl ⟨List.append_nil ys, (List.cons.inj htail).2.symm⟩
      | cons b part =>
        obtain ⟨rfl, hds⟩ := List.cons.inj htail
        exact .inr (.inr ⟨part, rfl, hds⟩)
  · rintro (⟨rfl, rfl⟩ | ⟨part, rfl, rfl⟩ | ⟨part, rfl, rfl⟩)
    · rfl
    · rw [List.append_assoc, List.cons_append]
    · rw [List.append_assoc, List.cons_append]

namespace InstrumentId

variable {symbol symbol' : String} {exchange exchange' : Exchange}

theorem toList_join (symbol venue : String) :
    (symbol ++ "." ++ venue).toList = symbol.toList ++ '.' :: venue.toList := by
  rw [String.toList_append, String.toList_append, List.append_assoc]
  rfl

theorem toList_ofSymbol (symbol : String) (exchange : Exchange) :
    (ofSymbol symbol exchange).text.toList = symbol.toList ++ '.' :: exchange.code.toList := by
  rw [ofSymbol, toList_join]

/-- The parts of an identifier are found again exactly when the code has no dot. -/
theorem split_ofSymbol_iff :
    (ofSymbol symbol exchange).split = (symbol, exchange.code) ↔
      '.' ∉ exchange.code.toList := by
  constructor
  · intro h
    rw [split, toList_ofSymbol] at h
    cases hsplit : splitAtLastDot? (symbol.toList ++ '.' :: exchange.code.toList) with
    | none =>
      rw [splitAtLastDot?_eq_none_iff] at hsplit
      exact absurd (List.mem_append_right _ List.mem_cons_self) hsplit
    | some parts =>
      rw [hsplit] at h
      obtain ⟨-, hcode⟩ := Prod.mk.inj h
      rw [← hcode, String.toList_ofList]
      exact (splitAtLastDot?_eq_some_iff.mp hsplit).2
  · intro h
    rw [split, toList_ofSymbol, splitAtLastDot?_append h]
    dsimp only
    rw [String.ofList_toList, String.ofList_toList]

/-- The text is that of a symbol and a venue with the dividing dot between them. -/
structure Joins (symbol venue s : String) : Prop where
  symbol_ne : symbol ≠ ""
  venue_ne : venue ≠ ""
  dotless : '.' ∉ venue.toList
  text : s = symbol ++ "." ++ venue

theorem Joins.splitAtLastDot? {symbol venue s : String} (h : Joins symbol venue s) :
    splitAtLastDot? s.toList = some (symbol.toList, venue.toList) := by
  rw [h.text, toList_join, splitAtLastDot?_append h.dotless]

theorem Joins.split {symbol venue : String} {id : InstrumentId} (h : Joins symbol venue id.text) :
    id.split = (symbol, venue) := by
  rw [InstrumentId.split, h.splitAtLastDot?]
  simp only [String.ofList_toList]

/-- A text is read as an identifier exactly when it has both parts. -/
theorem read?_eq_some_iff {s : String} {id : InstrumentId} :
    read? s = some id ↔ id.text = s ∧ ∃ symbol venue, Joins symbol venue s := by
  constructor
  · intro h
    rw [read?] at h
    split at h
    next symbol venue hsplit =>
      split at h
      next hparts =>
        cases h
        obtain ⟨hs, hvenue⟩ := splitAtLastDot?_eq_some_iff.mp hsplit
        refine ⟨rfl, String.ofList symbol, String.ofList venue, ?_, ?_, ?_, ?_⟩
        · simpa using hparts.1
        · simpa using hparts.2
        · rwa [String.toList_ofList]
        · refine String.toList_inj.mp ?_
          rw [toList_join, String.toList_ofList, String.toList_ofList, hs]
      next => cases h
    next => cases h
  · rintro ⟨rfl, symbol, venue, h⟩
    have hparts : symbol.toList ≠ [] ∧ venue.toList ≠ [] := by
      simpa using And.intro h.symbol_ne h.venue_ne
    rw [read?, h.splitAtLastDot?]
    exact if_pos hparts

/-- **The parts of an identifier** are found again. They are those that it was made of as long
as the code has no dot, whatever dots the symbol has, and its text is read as that identifier
when neither of them is empty. What is read is split into two parts that it is the join of,
and a text that joins no two parts is not read. -/
theorem parts_are_found_again :
    (∀ (symbol : String) (exchange : Exchange), '.' ∉ exchange.code.toList →
      (ofSymbol symbol exchange).split = (symbol, exchange.code) ∧
        (symbol ≠ "" → exchange.code ≠ "" →
          read? (ofSymbol symbol exchange).text = some (ofSymbol symbol exchange))) ∧
      ∀ s : String,
        (∀ id, read? s = some id → id.text = s ∧ Joins id.split.1 id.split.2 s) ∧
          (read? s = none ↔ ¬∃ symbol venue, Joins symbol venue s) := by
  constructor
  · intro symbol exchange hdotless
    refine ⟨split_ofSymbol_iff.mpr hdotless, fun hsymbol hcode => ?_⟩
    exact read?_eq_some_iff.mpr ⟨rfl, symbol, exchange.code, hsymbol, hcode, hdotless, rfl⟩
  · intro s
    constructor
    · intro id hread
      obtain ⟨rfl, symbol, venue, hjoins⟩ := read?_eq_some_iff.mp hread
      rw [hjoins.split]
      exact ⟨rfl, hjoins⟩
    · rw [Option.eq_none_iff_forall_ne_some]
      constructor
      · exact fun hnone hjoins => hnone ⟨s⟩ (read?_eq_some_iff.mpr ⟨rfl, hjoins⟩)
      · exact fun hnone id hread => hnone (read?_eq_some_iff.mp hread).2

/-- A symbol that begins and ends with a dot and has two of them in the middle. -/
theorem parts_are_found_again_dots :
    let id := ofSymbol ".M..M." .nfo
    '.' ∉ Exchange.nfo.code.toList ∧ id.split = (".M..M.", "NFO") ∧
      read? ".M..M..NFO" = some id ∧ Joins id.split.1 id.split.2 ".M..M..NFO" := by
  intro id
  have hdotless : '.' ∉ Exchange.nfo.code.toList := by decide
  obtain ⟨hmade, htext⟩ := parts_are_found_again
  obtain ⟨hsplit, hread⟩ := hmade ".M..M." .nfo hdotless
  have hread : read? ".M..M..NFO" = some id := hread (by decide) (by decide)
  exact ⟨hdotless, hsplit, hread, ((htext _).1 id hread).2⟩

/-- The symbol goes on where the other one ends, with a part that the other code begins
with. -/
def Shifted (symbol : String) (exchange : Exchange) (symbol' : String) (exchange' : Exchange) :
    Prop :=
  ∃ part, symbol' = symbol ++ "." ++ part ∧ exchange.code = part ++ "." ++ exchange'.code

theorem shifted_iff : Shifted symbol exchange symbol' exchange' ↔
    ∃ part, symbol'.toList = symbol.toList ++ '.' :: part ∧
      exchange.code.toList = part ++ '.' :: exchange'.code.toList := by
  constructor
  · rintro ⟨part, rfl, hcode⟩
    refine ⟨part.toList, ?_, ?_⟩
    · simp
    · simp [hcode]
  · rintro ⟨part, hsymbol, hcode⟩
    refine ⟨String.ofList part, String.toList_inj.mp ?_, String.toList_inj.mp ?_⟩
    · simp [hsymbol]
    · simp [hcode]

/-- Two pairs have one identifier when they agree, or when a dot is read as one of the
symbol in one of them and as one of the code in the other. -/
theorem ofSymbol_eq_iff : ofSymbol symbol exchange = ofSymbol symbol' exchange' ↔
    (symbol = symbol' ∧ exchange.code = exchange'.code) ∨
      Shifted symbol exchange symbol' exchange' ∨
      Shifted symbol' exchange' symbol exchange := by
  have htext (a b : InstrumentId) : a = b ↔ a.text.toList = b.text.toList := by
    cases a
    cases b
    rw [InstrumentId.mk.injEq, String.toList_inj]
  rw [htext, toList_ofSymbol, toList_ofSymbol, append_cons_eq_append_cons_iff, shifted_iff,
    shifted_iff, String.toList_inj, String.toList_inj]

theorem Shifted.dot_mem (h : Shifted symbol exchange symbol' exchange') :
    '.' ∈ exchange.code.toList := by
  obtain ⟨part, -, hcode⟩ := shifted_iff.mp h
  rw [hcode]
  exact List.mem_append_right _ List.mem_cons_self

end InstrumentId

end TickFeed
