import TickFeed.Catalog.Csv
import TickFeed.Proofs.Text.Bytes

/-! # Records in quotes

`Csv.text` writes records with every field in quotes, so a field may hold anything. The
reader finds the fields as they were (`read_text`). Only a record without any field is lost:
it is an empty line, and empty lines are no records. -/

namespace TickFeed.Csv

/-! ## Writing -/

/-- A field in quotes, with every quote in it twice. -/
def quoted (s : String) : String :=
  String.ofList ('"' :: s.toList.flatMap (fun c => if c = '"' then ['"', '"'] else [c]) ++ ['"'])

def line (fields : List String) : String := ",".intercalate (fields.map quoted) ++ "\n"

def text (records : List (List String)) : String := String.join (records.map line)

/-- The line feeds in a record, the one at its end included. -/
def height (fields : List String) : Nat :=
  (fields.flatMap Text.bytes).count Text.lineFeed + 1

/-- The records that have a field, each with the line on which the reader says it begins. The
next one begins on line `next`, and the reader stands on line `lines`: it does not count
empty lines before the record that follows them. -/
def numberFrom (next lines : Nat) : List (List String) → List (Nat × List String)
  | [] => []
  | [] :: records => numberFrom next (lines + 1) records
  | fields :: records =>
    (next, fields) :: numberFrom (lines + height fields) (lines + height fields) records

/-- The records of a text, numbered by their lines. -/
def numbered (records : List (List String)) : List (Nat × List String) := numberFrom 1 1 records

/-! ## Reading a field -/

def doubled (bs : List UInt8) : List UInt8 :=
  bs.flatMap fun b => if b = quote then [quote, quote] else [b]

theorem doubled_of_notMem {bs : List UInt8} (h : quote ∉ bs) : doubled bs = bs := by
  induction bs with
  | nil => rfl
  | cons b bs ih =>
    obtain ⟨hb, hbs⟩ := not_or.mp (mt List.mem_cons.mpr h)
    rw [doubled, List.flatMap_cons, if_neg (Ne.symm hb), ← doubled, ih hbs]
    rfl

theorem bytes_quoted (s : String) :
    Text.bytes (quoted s) = quote :: (doubled (Text.bytes s) ++ [quote]) := by
  have hquote : String.utf8EncodeChar '"' = [quote] := rfl
  have hchar : ∀ c : Char, (if c = '"' then ['"', '"'] else [c]).flatMap String.utf8EncodeChar =
      doubled (String.utf8EncodeChar c) := by
    intro c
    by_cases hc : c = '"'
    · subst hc
      rfl
    · have hother : quote ∉ String.utf8EncodeChar c := fun hb =>
        hc ((Text.mem_encoding_iff (a := '"') (by decide)).mp hb)
      rw [if_neg hc, List.flatMap_singleton, doubled_of_notMem hother]
  rw [Text.bytes_eq, Text.bytes_eq, quoted, String.toList_ofList, List.cons_append,
    List.flatMap_cons, List.flatMap_append, List.flatMap_singleton, hquote, List.flatMap_assoc]
  simp only [hchar, doubled, List.flatMap_assoc]
  rfl

/-- Inside of quotes the machine takes everything into the field. -/
theorem foldl_doubled {m : Machine} (hm : m.mode = .quoted) (bs : List UInt8) :
    (doubled bs).foldl Machine.step m =
      { m with line := m.line + bs.count Text.lineFeed, field := bs.reverse ++ m.field } := by
  induction bs generalizing m with
  | nil => rfl
  | cons b bs ih =>
    obtain ⟨mode, line, recordLine, field, fields, records⟩ := m
    obtain rfl : mode = .quoted := hm
    have hstep : (if b = quote then [quote, quote] else [b]).foldl Machine.step
        ⟨.quoted, line, recordLine, field, fields, records⟩ =
          ⟨.quoted, line + if b == Text.lineFeed then 1 else 0, recordLine, b :: field, fields,
            records⟩ := by
      by_cases hquote : b = quote
      · subst hquote
        rfl
      · rw [if_neg hquote, List.foldl_cons, List.foldl_nil]
        by_cases hfeed : b = Text.lineFeed
        · subst hfeed
          rfl
        · simp only [Machine.step, if_neg hfeed, if_neg hquote, beq_false_of_ne hfeed]
          rfl
    rw [doubled, List.flatMap_cons, List.foldl_append, ← doubled, hstep, ih rfl, List.count_cons,
      Nat.add_comm (List.count _ _), Nat.add_assoc, List.reverse_cons, List.append_assoc]
    rfl

/-- A field in quotes, where a field may begin. -/
theorem foldl_quoted {m : Machine} (hm : m.mode = .between ∨ m.mode = .fieldStart)
    (hfield : m.field = []) (s : String) :
    (Text.bytes (quoted s)).foldl Machine.step m =
      { m with
        mode := .quoteSeen
        line := m.line + (Text.bytes s).count Text.lineFeed
        field := (Text.bytes s).reverse } := by
  obtain ⟨mode, line, recordLine, field, fields, records⟩ := m
  obtain rfl : field = [] := hfield
  have hopen : Machine.step ⟨mode, line, recordLine, [], fields, records⟩ quote =
      ⟨.quoted, line, recordLine, [], fields, records⟩ := by
    obtain rfl | rfl := hm <;> rfl
  rw [bytes_quoted, List.foldl_cons, hopen, List.foldl_append, foldl_doubled rfl,
    List.append_nil]
  rfl

/-! ## Reading records -/

theorem text_nil : text [] = "" := rfl

theorem text_cons (fields : List String) (records : List (List String)) :
    text (fields :: records) = line fields ++ text records := by
  simp [text]

theorem line_nil : line [] = "\n" := rfl

theorem line_singleton (s : String) : line [s] = quoted s ++ "\n" := rfl

theorem line_cons_cons (s t : String) (fields : List String) :
    line (s :: t :: fields) = quoted s ++ "," ++ line (t :: fields) := by
  simp only [line, List.map_cons, String.intercalate_cons_cons, String.append_assoc]

theorem height_singleton (s : String) :
    height [s] = (Text.bytes s).count Text.lineFeed + 1 := by
  rw [height, List.flatMap_singleton]

theorem height_cons (s : String) (fields : List String) :
    height (s :: fields) = (Text.bytes s).count Text.lineFeed + height fields := by
  rw [height, List.flatMap_cons, List.count_append, Nat.add_assoc, ← height]

theorem foldl_line {m : Machine} (hm : m.mode = .between ∨ m.mode = .fieldStart)
    (hfield : m.field = []) {fields : List String} (hne : fields ≠ []) :
    (Text.bytes (line fields)).foldl Machine.step m =
      { mode := .between
        line := m.line + height fields
        recordLine := m.line + height fields
        field := []
        fields := []
        records := ⟨m.recordLine, m.fields.reverse ++ fields.map Text.bytes⟩ :: m.records } := by
  induction fields generalizing m with
  | nil => exact absurd rfl hne
  | cons s fields ih =>
    let seen : Machine :=
      { m with
        mode := .quoteSeen
        line := m.line + (Text.bytes s).count Text.lineFeed
        field := (Text.bytes s).reverse }
    have hseen : (Text.bytes (quoted s)).foldl Machine.step m = seen := foldl_quoted hm hfield s
    cases fields with
    | nil =>
      have hend : seen.step Text.lineFeed =
          ⟨.between, seen.line + 1, seen.line + 1, [], [],
            ⟨m.recordLine, (seen.field.reverse :: m.fields).reverse⟩ :: m.records⟩ := rfl
      rw [line_singleton, Text.bytes_append, List.foldl_append, hseen, Text.bytes_lineFeed,
        List.foldl_cons, hend, List.reverse_reverse, List.reverse_cons, height_singleton]
      rfl
    | cons t fields =>
      have hcomma : Text.bytes "," = [comma] := by rw [Text.bytes_eq]; rfl
      have hnext : seen.step comma =
          ⟨.fieldStart, seen.line, m.recordLine, [], seen.field.reverse :: m.fields,
            m.records⟩ := rfl
      rw [line_cons_cons, Text.bytes_append, Text.bytes_append, List.foldl_append,
        List.foldl_append, hseen, hcomma, List.foldl_cons, List.foldl_nil, hnext,
        ih (.inr rfl) rfl (List.cons_ne_nil _ _), height_cons s, ← Nat.add_assoc]
      rw [List.reverse_reverse, List.reverse_cons, List.append_assoc]
      rfl

/-- An empty line is passed over. -/
theorem foldl_line_nil {m : Machine} (hm : m.mode = .between) :
    (Text.bytes (line [])).foldl Machine.step m = { m with line := m.line + 1 } := by
  obtain ⟨mode, lines, recordLine, field, fields, records⟩ := m
  obtain rfl : mode = .between := hm
  rw [line_nil, Text.bytes_lineFeed]
  rfl

def ofNumbered (r : Nat × List String) : Record := ⟨r.1, r.2.map Text.bytes⟩

/-- Between two records, the machine goes on to read those that are there. -/
theorem foldl_lines (recordLine lines : Nat) (before : List Record) (records : List (List String)) :
    ((Text.bytes (text records)).foldl Machine.step
        ⟨.between, lines, recordLine, [], [], before⟩).finish =
      before.reverse ++ (numberFrom recordLine lines records).map ofNumbered := by
  induction records generalizing recordLine lines before with
  | nil =>
    rw [text_nil, Text.bytes_empty, numberFrom, List.map_nil, List.append_nil]
    rfl
  | cons fields records ih =>
    rw [text_cons, Text.bytes_append, List.foldl_append]
    cases fields with
    | nil =>
      rw [foldl_line_nil rfl]
      exact ih recordLine (lines + 1) before
    | cons s fields =>
      rw [foldl_line (.inl rfl) rfl (List.cons_ne_nil _ _)]
      refine (ih _ _ _).trans ?_
      rw [List.reverse_cons, List.append_assoc]
      rfl

/-- The lines begin with a quote or a line feed, so there is no mark to drop. -/
theorem dropMark_text (records : List (List String)) :
    dropMark (Text.bytes (text records)) = Text.bytes (text records) := by
  match records with
  | [] =>
    rw [text_nil, Text.bytes_empty]
    rfl
  | [] :: records =>
    rw [text_cons, line_nil, Text.bytes_append, Text.bytes_lineFeed]
    rfl
  | [s] :: records =>
    rw [text_cons, line_singleton, Text.bytes_append, Text.bytes_append, bytes_quoted]
    rfl
  | (s :: t :: fields) :: records =>
    rw [text_cons, line_cons_cons, Text.bytes_append, Text.bytes_append, Text.bytes_append,
      bytes_quoted]
    rfl

/-- The reader finds the records as they were written. -/
theorem read_text (records : List (List String)) :
    read (Text.bytes (text records)) = (numbered records).map ofNumbered := by
  rw [read, dropMark_text]
  exact foldl_lines 1 1 [] records

end TickFeed.Csv
