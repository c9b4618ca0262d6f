import TickFeed.Proofs.Catalog.FirstRow
import TickFeed.Proofs.Catalog.Lines
import TickFeed.Proofs.Json.Depth

/-! # Rows from JSON

An array and JSON Lines are two ways to write the same rows. What is JSON on its own has the
same value as an item of an array (`Json.read?_array`), and on a line of its own it is never
taken for a blank line (`Json.not_all_blank`). -/

namespace TickFeed

open Json

/-- Bytes that are all blank are no JSON. -/
theorem Json.not_all_blank {r : String} {v : Json} (h : read? r = some v) :
    (Text.bytes r).all Text.isAsciiBlank = false := by
  obtain ⟨d, hd, -⟩ := Option.bind_eq_some_iff.mp h
  obtain ⟨c, hc, hbegin⟩ := (Document.read?_eq_some_iff.mp hd).exists_begin?
  obtain ⟨b, hb⟩ : ∃ b, b ∈ String.utf8EncodeChar c :=
    List.exists_mem_of_length_pos (by rw [String.length_utf8EncodeChar]; exact c.utf8Size_pos)
  have hmem : b ∈ Text.bytes r := by
    rw [Text.bytes_eq]
    exact List.mem_flatMap.mpr ⟨c, hc, hb⟩
  refine List.all_eq_false.mpr ⟨b, hmem, fun hblank => ?_⟩
  obtain ⟨a, ha, rfl⟩ : ∃ a ∈ [' ', '\t', '\n', '\x0c', '\r'], b = UInt8.ofNat a.toNat := by
    simpa [Text.isAsciiBlank, or_assoc] using hblank
  obtain ⟨hascii, hnone⟩ : a.toNat < 128 ∧ (Document.begin? [] a).isSome = false := by
    simp only [List.mem_cons, List.not_mem_nil, or_false] at ha
    obtain rfl | rfl | rfl | rfl | rfl := ha <;> exact ⟨by decide, rfl⟩
  rw [(Text.mem_encoding_iff hascii).mp hb, hnone] at hbegin
  exact nomatch hbegin

namespace SourceRow

/-- Lines that are each JSON have the rows of their values. -/
theorem ofLines_bytes {texts : List String} {values : List Json}
    (h : List.Forall₂ (fun r v => Json.read? r = some v) texts values) (number : Nat) :
    ofLines number (texts.map Text.bytes) = values.map ofJson := by
  induction h generalizing number with
  | nil => rfl
  | @cons r v texts values hr _ ih =>
    have hline : ofLine number (Text.bytes r) = ofJson v := by
      rw [ofLine, Text.ofBytes?_bytes, Option.bind_some, hr]
    rw [List.map_cons, ofLines_cons, ih, ofLine?, Json.not_all_blank hr, hline]
    rfl

/-- The rows of an array are those of the values in it. -/
theorem ofJsonArray_of_read? {s : String} {items : List Json}
    (h : Json.read? s = some (.array items)) :
    ofJsonArray (Text.bytes s) = .ok (items.map ofJson) := by
  rw [ofJsonArray, Text.ofBytes?_bytes, Option.bind_some, h]

theorem ofJsonArray_bytes {texts : List String} {values : List Json}
    (h : List.Forall₂ (fun r v => Json.read? r = some v) texts values)
    (hdepth : ∀ r ∈ texts, ∀ d, Document.read? r = some d → d.depth < maxDepth) :
    ofJsonArray (Text.bytes ("[" ++ ",".intercalate texts ++ "]")) =
      .ok (values.map ofJson) :=
  ofJsonArray_of_read? (Json.read?_array h hdepth)

/-- The rows of JSON Lines are those of the values on the lines. -/
theorem ofJsonLines_bytes {texts : List String} {values : List Json}
    (h : List.Forall₂ (fun r v => Json.read? r = some v) texts values)
    (hline : ∀ r ∈ texts, '\n' ∉ r.toList) :
    ofJsonLines (Text.bytes ("\n".intercalate texts)) = values.map ofJson := by
  cases h with
  | nil =>
    rw [String.intercalate_nil, Text.bytes_empty]
    rfl
  | cons hr hrest =>
    rw [ofJsonLines, Text.splitLines_bytes (List.cons_ne_nil _ _) hline]
    exact ofLines_bytes (.cons hr hrest) 1

end SourceRow

namespace Catalog

/-- A load depends on its source by the rows only. -/
theorem load_congr {s t : CatalogSource} (h : s.rows = t.rows) (c : Catalog) :
    c.load s = c.load t := by
  funext signal
  rw [load, load, h]

/-- **JSON Lines are the array of the lines.** Whatever texts there are, if each of them is
JSON on its own, on one line and not nested so deep that there is no room for the array, the
array of them and the lines of them are both read, and as the same rows: an object is a row
and any other value an error. So a load comes out the same, and it does come out. -/
theorem json_layouts_agree {texts : List String} {values : List Json}
    (hvalues : texts.map Json.read? = values.map some)
    (hline : ∀ r ∈ texts, '\n' ∉ r.toList)
    (hdepth : ∀ r ∈ texts, ∀ d, Document.read? r = some d → d.depth ≤ 126)
    (path path' : Option String) :
    let array : CatalogSource :=
      ⟨path, .jsonArray, some (Text.bytes ("[" ++ ",".intercalate texts ++ "]"))⟩
    let lines : CatalogSource :=
      ⟨path', .jsonLines, some (Text.bytes ("\n".intercalate texts))⟩
    let rows : List SourceRow := values.map fun v =>
      match v with
      | .object members => .ok (.ofList members)
      | _ => .error .notAnObject
    rows.length = texts.length ∧ array.rows = .ok rows ∧ lines.rows = .ok rows ∧
      (∀ (c : Catalog) signal, c.load array signal = c.load lines signal) ∧
      ∀ config calls, ∃ report,
        (((unloaded config).after calls).load array none).2 = .ok report := by
  intro array lines rows
  have hread : List.Forall₂ (fun r v => Json.read? r = some v) texts values := by
    rwa [← List.forall₂_eq_eq_eq, List.forall₂_map_left_iff, List.forall₂_map_right_iff] at hvalues
  have harray : array.rows = .ok rows := SourceRow.ofJsonArray_bytes hread fun r hr d hd =>
    Nat.lt_succ_of_le (hdepth r hr d hd)
  have hlines : lines.rows = .ok rows := congrArg _ (SourceRow.ofJsonLines_bytes hread hline)
  refine ⟨?_, harray, hlines, fun c signal => ?_, exists_report harray⟩
  · rw [List.length_map, hread.length_eq]
  · rw [load_congr (harray.trans hlines.symm)]

/-- A comma and a bracket in a string are no part of the array, the second value of a name
replaces the first one, and a value that is no object costs its own row. -/
theorem json_layouts_agree_repeated_name :
    let texts := ["\x7b\"token\":\",]\",\"token\":\"1\"\x7d", "true", " [[ ]] "]
    let rows : List SourceRow :=
      [.ok (.ofList [("token", .string "1")]), .error .notAnObject, .error .notAnObject]
    SourceRow.read .jsonArray (Text.bytes ("[" ++ ",".intercalate texts ++ "]")) = .ok rows ∧
      SourceRow.read .jsonLines (Text.bytes ("\n".intercalate texts)) = .ok rows := by
  intro texts rows
  have hdocument : Document.read? "\x7b\"token\":\",]\",\"token\":\"1\"\x7d" =
      some (.object [(some "token", .string (some ",]")), (some "token", .string (some "1"))]) := by
    rfl
  have hobject : Json.read? "\x7b\"token\":\",]\",\"token\":\"1\"\x7d" =
      some (.object [("token", .string "1")]) := by
    rw [Json.read?, hdocument]
    simp [maxDepth, Document.toJson?, Document.membersToJson?, Document.memberToJson?,
      Fields.ofList, Fields.insert, Fields.empty, insertMember]
  have hvalues : texts.map Json.read? =
      [.object [("token", .string "1")], .bool true, .array [.array []]].map some :=
    congrArg₂ List.cons hobject rfl
  have hdepths : ∀ r ∈ texts, ((Document.read? r).map Document.depth).getD 0 ≤ 126 := by
    decide +kernel
  obtain ⟨-, harray, hlines, -⟩ := json_layouts_agree hvalues (by decide)
    (fun r hr d hd => by simpa [hd] using hdepths r hr) none none
  exact ⟨harray, hlines⟩

end Catalog

end TickFeed
