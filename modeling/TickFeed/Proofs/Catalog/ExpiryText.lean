import TickFeed.Proofs.Calendar.DateReader
import TickFeed.Proofs.Catalog.Columns

/-! # Texts of expiries

An expiry is documented as `DDMMMYYYY` or as `YYYY-MM-DD`, with a fixed number of digits. Every
text of these two forms is taken for the date that it spells, but so are texts with fewer
digits, with a sign in front of the year and with blanks in front of the numbers
(`expiry_grammar` says exactly which). A year of two digits is then a year of the first century
and not an error (`expiry_of_short_year`). -/

namespace TickFeed.Row

open Date

variable {t : String} {row : Row} {d : Date} {i : Instrument}

/-- The two layouts are tried in turn, and no text is in both. -/
theorem readLayouts_eq_some_iff :
    (readAs? compactLayout t).or (readAs? isoLayout t) = some d ↔ Spells .lenient t d := by
  rw [Option.or_eq_some_iff, readAs?_compactLayout_iff, readAs?_isoLayout_iff, Spells]
  constructor
  · rintro (hcompact | ⟨-, hiso⟩)
    · exact .inl hcompact
    · exact .inr hiso
  · rintro (hcompact | hiso)
    · exact .inl hcompact
    · refine .inr ⟨Option.eq_none_iff_forall_ne_some.mpr fun d' hd' => ?_, hiso⟩
      exact (readAs?_compactLayout_iff.mp hd').not_iso hiso

theorem expiry_eq_ok_iff : expiry (some t) = .ok (some d) ↔ Spells .lenient t d := by
  rw [← readLayouts_eq_some_iff, expiry]
  cases (readAs? compactLayout t).or (readAs? isoLayout t) <;> simp

theorem expiry_eq_error_iff :
    expiry (some t) = .error (.invalidExpiry t) ↔ ∀ d, ¬Spells .lenient t d := by
  simp only [← readLayouts_eq_some_iff, ← ne_eq, ← Option.eq_none_iff_forall_ne_some]
  rw [expiry]
  cases (readAs? compactLayout t).or (readAs? isoLayout t) <;> simp

theorem toInstrument_spells (ht : row.Gives ["expiry"] t) (h : row.toInstrument = .ok i) :
    ∃ d, i.expiry = some d ∧ Spells .lenient t d := by
  have hexpiry := (toInstrument_describes h).expiry
  rw [column?_eq_some_iff.mpr ht] at hexpiry
  cases hdate : i.expiry with
  | some d => exact ⟨d, rfl, expiry_eq_ok_iff.mp (hdate ▸ hexpiry)⟩
  | none =>
    rw [hdate, expiry] at hexpiry
    split at hexpiry <;> cases hexpiry

/-- **Which texts are expiries.** A text is taken for a date when it spells it in one of the two
layouts, in the style of the reader, and is invalid when it spells none. A text as documented
is taken for its date and for no other. An instrument carries the date that its row spells, and
a row whose expiry spells none is no instrument. -/
theorem expiry_grammar (t : String) :
    (∀ d, expiry (some t) = .ok (some d) ↔ Spells .lenient t d) ∧
      (expiry (some t) = .error (.invalidExpiry t) ↔ ∀ d, ¬Spells .lenient t d) ∧
      (∀ d, Spells .exact t d → ∀ d', expiry (some t) = .ok (some d') ↔ d' = d) ∧
      ∀ row : Row, row.Gives ["expiry"] t →
        (∀ i, row.toInstrument = .ok i → ∃ d, i.expiry = some d ∧ Spells .lenient t d) ∧
        ((∀ d, ¬Spells .lenient t d) → ∃ e, row.toInstrument = .error e) := by
  refine ⟨fun d => expiry_eq_ok_iff, expiry_eq_error_iff, fun d hd d' => ?_, fun row ht => ?_⟩
  · have hexpiry : expiry (some t) = .ok (some d) := expiry_eq_ok_iff.mpr hd.lenient
    rw [hexpiry, Except.ok.injEq, Option.some.injEq, eq_comm]
  · refine ⟨fun i hi => toInstrument_spells ht hi, fun hnone => ?_⟩
    cases hrow : row.toInstrument with
    | error e => exact ⟨e, rfl⟩
    | ok i =>
      obtain ⟨d, -, hd⟩ := toInstrument_spells ht hrow
      exact absurd hd (hnone d)

/-- A month in lower case is as documented. Without a name of a month there is no date, and the
row is no instrument. -/
theorem expiry_grammar_lower_case :
    let row (text : String) : Row := .ofList [("token", .string "1"), ("symbol", .string "A"),
      ("exch_seg", .string "NFO"), ("expiry", .string text)]
    let date : Date := ⟨2026, 2, 26, by decide⟩
    Spells .exact "26feb2026" date ∧
      (∀ d, expiry (some "26feb2026") = .ok (some d) ↔ d = date) ∧
      (∃ i d, (row "26feb2026").toInstrument = .ok i ∧ i.expiry = some d ∧
        Spells .lenient "26feb2026" d) ∧
      (∀ d, ¬Spells .lenient "31FOO2026" d) ∧ ∃ e, (row "31FOO2026").toInstrument = .error e := by
  intro row date
  obtain ⟨-, -, hdocumented, hrow⟩ := expiry_grammar "26feb2026"
  obtain ⟨-, hinvalid, -, hfaulty⟩ := expiry_grammar "31FOO2026"
  have hgives : (row "26feb2026").Gives ["expiry"] "26feb2026" := column?_eq_some_iff.mp (by rfl)
  have hgives' : (row "31FOO2026").Gives ["expiry"] "31FOO2026" := column?_eq_some_iff.mp (by rfl)
  have hday : Fixed 2 ['2', '6'] 26 := ⟨rfl, ⟨nofun, List.all_eq_true.mp rfl⟩, rfl⟩
  have hyear : Fixed 4 ['2', '0', '2', '6'] 2026 := ⟨rfl, ⟨nofun, List.all_eq_true.mp rfl⟩, rfl⟩
  have hspells : Spells .exact "26feb2026" date :=
    .inl ⟨_, ['f', 'e', 'b'], _, rfl, hday, by decide, 2026, hyear, rfl⟩
  have hnone : ∀ d, ¬Spells .lenient "31FOO2026" d := hinvalid.mp (by rfl)
  refine ⟨hspells, hdocumented date hspells, ?_, hnone, (hfaulty _ hgives').2 hnone⟩
  obtain ⟨i, hi⟩ : ∃ i, (row "26feb2026").toInstrument = .ok i := ⟨_, by rfl⟩
  obtain ⟨d, hd, hlenient⟩ := (hrow _ hgives).1 i hi
  exact ⟨i, d, hi, hd, hlenient⟩

/-- A year of two digits is not as documented, but is taken all the same: for a year of the first
century, with which the row is an instrument. -/
theorem expiry_of_short_year :
    let row : Row := .ofList [("token", .string "1"), ("symbol", .string "A"),
      ("exch_seg", .string "NFO"), ("expiry", .string "26FEB26")]
    let date : Date := ⟨26, 2, 26, by decide⟩
    "26FEB26" ≠ "" ∧ Text.trim "26FEB26" = "26FEB26" ∧ (∀ d, ¬Spells .exact "26FEB26" d) ∧
      expiry (some "26FEB26") = .ok (some date) ∧
      ∃ i, row.toInstrument = .ok i ∧ i.expiry = some date := by
  intro row date
  refine ⟨by decide, by decide +kernel, fun d hd => ?_, by rfl, _, by rfl, by rfl⟩
  have hlength : "26FEB26".toList.length = 7 := by rfl
  have hdocumented := hd.length
  omega

end TickFeed.Row
