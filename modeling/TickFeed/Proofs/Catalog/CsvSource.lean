import TickFeed.Proofs.Catalog.CsvText
import TickFeed.Proofs.Catalog.JsonSources
import TickFeed.Proofs.Json.Writer

/-! # Rows from CSV

CSV is one more way to write the rows that JSON writes, as far as their values are text.
Columns and values come without their padding. A record that does not have a field for every
column is an error of its own (`SourceRow.ofRecord_ofNumbered`), and the records around it are
read as they are without it. -/

namespace TickFeed

open Json

/-- Values by the names of their columns, both without padding. -/
def Csv.named (columns values : List String) : List (String × String) :=
  (columns.map Text.trim).zip (values.map Text.trim)

namespace SourceRow

theorem texts?_bytes (fields : List String) :
    texts? (fields.map Text.bytes) = some (fields.map Text.trim) := by
  induction fields with
  | nil => rfl
  | cons s fields ih =>
    rw [texts?] at ih ⊢
    rw [List.map_cons, List.mapM_cons, Text.ofBytes?_bytes, ih]
    rfl

/-- The row of a record that is numbered by its line. -/
theorem ofRecord_ofNumbered (columns : List String) (r : Nat × List String) :
    ofRecord (columns.map Text.trim) (Csv.ofNumbered r) =
      if r.2.length = columns.length then .ok (.ofStrings (Csv.named columns r.2))
      else .error (.unparsable r.1) := by
  rw [ofRecord, Csv.ofNumbered, texts?_bytes]
  simp only [List.length_map]
  rfl

end SourceRow

theorem Csv.numbered_cons {columns : List String} (h : columns ≠ [])
    (records : List (List String)) :
    numbered (columns :: records) = (1, columns) :: (numbered (columns :: records)).tail := by
  cases columns with
  | nil => exact absurd rfl h
  | cons => rfl

/-- Only the records without a field are not numbered. -/
theorem Csv.numberFrom_map_snd (next lines : Nat) (records : List (List String)) :
    (numberFrom next lines records).map Prod.snd = records.filter (· ≠ []) := by
  induction records generalizing next lines with
  | nil => rfl
  | cons fields records ih =>
    cases fields with
    | nil => exact ih next (lines + 1)
    | cons s fields => exact congrArg _ (ih _ _)

namespace SourceRow

theorem ofCsv_text {columns : List String} (hcolumns : columns ≠ [])
    (records : List (List String)) :
    ofCsv (Text.bytes (Csv.text (columns :: records))) =
      .ok ((Csv.numbered (columns :: records)).tail.map fun r =>
        if r.2.length = columns.length then .ok (.ofStrings (Csv.named columns r.2))
        else .error (.unparsable r.1)) := by
  have hread := Csv.read_text (columns :: records)
  rw [Csv.numbered_cons hcolumns, List.map_cons] at hread
  have hheader : texts? (Csv.ofNumbered (1, columns)).fields = some (columns.map Text.trim) :=
    texts?_bytes columns
  rw [ofCsv, hread]
  dsimp only
  rw [hheader]
  dsimp only
  rw [List.map_map]
  exact congrArg _ (List.map_congr_left fun r _ => ofRecord_ofNumbered columns r)

end SourceRow

namespace Catalog

/-- **CSV is the JSON of its records**, when there are columns and their names are distinct. In
quotes a field may hold anything. Every record that has a field has a row, and it is its own:
a full record gives the values by the names of the columns, both without padding, and any
other one is an error that tells where it begins. Where all records are full, the rows are
those of any text that is read as the array of these objects, which the one that is written
of them is, so a load comes out the same. -/
theorem csv_and_json_agree {columns : List String} (hcolumns : columns ≠ [])
    (hdistinct : (columns.map Text.trim).Nodup) (records : List (List String))
    (path path' : Option String) :
    let csv : CatalogSource := ⟨path, .csv, some (Text.bytes (Csv.text (columns :: records)))⟩
    let numbered := (Csv.numbered (columns :: records)).tail
    let rows : List SourceRow := numbered.map fun r =>
      if r.2.length = columns.length then .ok (.ofStrings (Csv.named columns r.2))
      else .error (.unparsable r.1)
    let objects := Json.array (records.map fun values =>
      (Fields.ofStrings (Csv.named columns values)).toJson)
    csv.rows = .ok rows ∧
      numbered.map Prod.snd = records.filter (· ≠ []) ∧
      (∀ values : List String, values.length = columns.length → ∀ name,
        (Fields.ofStrings (Csv.named columns values)).get? name =
          ((Csv.named columns values).lookup name).map .string) ∧
      ((∀ values ∈ records, values.length = columns.length) →
        rows = records.map (fun values => .ok (.ofStrings (Csv.named columns values))) ∧
        ∀ text : String, Json.read? text = some objects →
          let json : CatalogSource := ⟨path', .jsonArray, some (Text.bytes text)⟩
          json.rows = .ok rows ∧
            ∀ (c : Catalog) signal, c.load csv signal = c.load json signal) ∧
      Json.read? (Json.array (records.map fun values =>
        .ofStrings (Csv.named columns values))).text = some objects ∧
      ∀ config calls, ∃ report,
        (((unloaded config).after calls).load csv none).2 = .ok report := by
  intro csv numbered rows objects
  have hcsv : csv.rows = .ok rows := SourceRow.ofCsv_text hcolumns records
  have hrecords : numbered.map Prod.snd = records.filter (· ≠ []) := by
    rw [List.map_tail, Csv.numbered, Csv.numberFrom_map_snd,
      List.filter_cons_of_pos (by simpa using hcolumns)]
    rfl
  refine ⟨hcsv, hrecords, fun values hlength name => ?_, fun hfull => ?_, ?_,
    exists_report hcsv⟩
  · refine Fields.get?_ofStrings ?_ name
    rw [Csv.named, List.map_fst_zip (by simp [hlength])]
    exact hdistinct
  · have hall : numbered.map Prod.snd = records := by
      refine hrecords.trans (List.filter_eq_self.mpr fun values hvalues => decide_eq_true ?_)
      rintro rfl
      exact hcolumns (List.length_eq_zero_iff.mp (hfull [] hvalues).symm)
    have hrows : rows = records.map fun values => .ok (.ofStrings (Csv.named columns values)) := by
      rw [← hall, List.map_map]
      refine List.map_congr_left fun r hr => if_pos (hfull r.2 ?_)
      rw [← hall]
      exact List.mem_map_of_mem hr
    refine ⟨hrows, fun text htext => ?_⟩
    have hjson : (⟨path', .jsonArray, some (Text.bytes text)⟩ : CatalogSource).rows = .ok rows := by
      refine (SourceRow.ofJsonArray_of_read? htext).trans ?_
      rw [hrows, List.map_map]
      refine congrArg _ (List.map_congr_left fun values _ => ?_)
      exact congrArg Except.ok (Fields.ofList_members _)
    exact ⟨hjson, fun c signal => by rw [load_congr (hcsv.trans hjson.symm)]⟩
  · have := read?_text_array (records.map (Csv.named columns))
    rwa [List.map_map, List.map_map] at this

/-- The line ends in the first record count for the lines of those behind it, of which one is a
field short. Without that one the rows are those of an array. -/
theorem csv_and_json_agree_line_ends :
    let columns := [" symbol", "token"]
    let first := ["a,\"b\"\r\n", " 7 "]
    let last := ["\n", ""]
    let row (symbol token : String) : SourceRow :=
      .ok (.ofStrings [("symbol", symbol), ("token", token)])
    let csv := CatalogSource.ofMemory .csv (Text.bytes (Csv.text [columns, first, last]))
    let json := CatalogSource.ofMemory .jsonArray (Text.bytes
      (Json.array [ofStrings [("symbol", "a,\"b\""), ("token", "7")],
        ofStrings [("symbol", ""), ("token", "")]]).text)
    SourceRow.read .csv (Text.bytes (Csv.text [columns, first, ["short"], last])) =
        .ok [row "a,\"b\"" "7", .error (.unparsable 4), row "" ""] ∧
      json.rows = .ok [row "a,\"b\"" "7", row "" ""] ∧
      ∀ c : Catalog, c.load csv = c.load json := by
  intro columns first last row csv json
  have hcolumns : columns ≠ [] := List.cons_ne_nil _ _
  have hdistinct : (columns.map Text.trim).Nodup := by decide
  have hfirst : Csv.named columns first = [("symbol", "a,\"b\""), ("token", "7")] := by decide
  have hlast : Csv.named columns last = [("symbol", ""), ("token", "")] := by decide
  have hnumbered : (Csv.numbered [columns, first, ["short"], last]).tail =
      [(2, first), (4, ["short"]), (5, last)] := by
    simp only [columns, first, last, Csv.numbered, Csv.numberFrom, Csv.height, List.flatMap_cons,
      List.flatMap_nil, Text.bytes_eq]
    rfl
  obtain ⟨hrows, -⟩ :=
    csv_and_json_agree hcolumns hdistinct [first, ["short"], last] none none
  obtain ⟨-, -, -, hfull, hobjects, -⟩ :=
    csv_and_json_agree hcolumns hdistinct [first, last] none none
  obtain ⟨hall, hsame⟩ := hfull (by decide)
  obtain ⟨hjson, hload⟩ := hsame _ hobjects
  rw [List.map_cons, List.map_cons, List.map_nil, hfirst, hlast] at hall hjson hload
  rw [hnumbered] at hrows
  simp only [List.map_cons, List.map_nil, hfirst, hlast] at hrows
  refine ⟨hrows, ?_, fun c => funext fun signal => hload c signal⟩
  rw [hall] at hjson
  exact hjson

/-- An empty line is no record, so without a column no record has a row, and under a column
a record without any field is not one that is a field short. -/
theorem csv_of_empty_lines :
    (¬∀ (columns : List String) (records : List (List String)),
      (columns.map Text.trim).Nodup → (∀ values ∈ records, values.length = columns.length) →
        SourceRow.read .csv (Text.bytes (Csv.text (columns :: records))) =
          .ok (records.map fun values => .ok (.ofStrings (Csv.named columns values)))) ∧
    ¬∀ (columns : List String) (values : List String),
      (columns.map Text.trim).Nodup → values.length ≠ columns.length →
        ∃ line, SourceRow.read .csv (Text.bytes (Csv.text [columns, values])) =
          .ok [.error (.unparsable line)] := by
  refine ⟨fun h => ?_, fun h => ?_⟩
  · have hread : SourceRow.read .csv (Text.bytes (Csv.text [[], []])) = .ok [] := by
      rw [SourceRow.read, SourceRow.ofCsv, Csv.read_text]
      rfl
    have hrow := h [] [[]] List.nodup_nil (by decide)
    rw [hread] at hrow
    exact nomatch Except.ok.inj hrow
  · have hread : SourceRow.read .csv (Text.bytes (Csv.text [["token"], []])) = .ok [] :=
      SourceRow.ofCsv_text (by decide) [[]]
    obtain ⟨line, hrow⟩ := h ["token"] [] (by decide) (by decide)
    rw [hread] at hrow
    exact nomatch Except.ok.inj hrow

end Catalog

end TickFeed
