import TickFeed.Catalog.Source
import TickFeed.Proofs.Text.Bytes

/-! # Rows on lines

Every line that is not blank has one row, and the line alone decides which; its number shows
only when it cannot be read (`ofLine_add`). So the rows of two pieces of data with a line feed
between them are those of the one and those of the other, the latter with their numbers moved
on (`ofJsonLines_append`), and what stands on a line matters to the row of that line only. -/

namespace TickFeed.SourceRow

open Text

def later (n : Nat) : SourceRow → SourceRow
  | .error (.unparsable line) => .error (.unparsable (line + n))
  | row => row

theorem later_ofJson (n : Nat) (v : Json) : later n (ofJson v) = ofJson v := by
  cases v <;> rfl

theorem ofLine_add (number n : Nat) (line : List UInt8) :
    ofLine (number + n) line = later n (ofLine number line) := by
  unfold ofLine
  cases (ofBytes? line).bind Json.read? with
  | none => rfl
  | some v => exact (later_ofJson n v).symm

def ofLine? (number : Nat) (line : List UInt8) : Option SourceRow :=
  if line.all isAsciiBlank then none else some (ofLine number line)

theorem ofLine?_add (number n : Nat) (line : List UInt8) :
    ofLine? (number + n) line = (ofLine? number line).map (later n) := by
  unfold ofLine?
  split
  · rfl
  · rw [ofLine_add, Option.map_some]

theorem ofLines_cons (number : Nat) (line : List UInt8) (lines : List (List UInt8)) :
    ofLines number (line :: lines) =
      (ofLine? number line).toList ++ ofLines (number + 1) lines := by
  have hrows : ofLines number (line :: lines) =
      ((line :: lines).zipIdx number).filterMap fun entry => ofLine? entry.2 entry.1 := rfl
  rw [hrows, List.zipIdx_cons, List.filterMap_cons]
  cases ofLine? number line <;> rfl

theorem ofLines_append (number : Nat) (lines lines' : List (List UInt8)) :
    ofLines number (lines ++ lines') =
      ofLines number lines ++ ofLines (number + lines.length) lines' := by
  rw [ofLines, List.zipIdx_append, List.filterMap_append]
  rfl

theorem ofLines_add (number n : Nat) (lines : List (List UInt8)) :
    ofLines (number + n) lines = (ofLines number lines).map (later n) := by
  induction lines generalizing number with
  | nil => rfl
  | cons line lines ih =>
    have hnext := ih (number + 1)
    rw [Nat.add_right_comm] at hnext
    rw [ofLines_cons, ofLines_cons, hnext, ofLine?_add, List.map_append, Option.toList_map]

/-- Lines that are not blank have one row each. -/
theorem length_ofLines (number : Nat) (lines : List (List UInt8)) :
    (ofLines number lines).length = lines.countP fun line => !line.all isAsciiBlank := by
  induction lines generalizing number with
  | nil => rfl
  | cons line lines ih =>
    rw [ofLines_cons, List.length_append, ih, List.countP_cons, Nat.add_comm, ofLine?]
    cases line.all isAsciiBlank <;> rfl

theorem ofJsonLines_append (a b : List UInt8) :
    ofJsonLines (a ++ lineFeed :: b) =
      ofJsonLines a ++ (ofJsonLines b).map (later (a.count lineFeed + 1)) := by
  rw [ofJsonLines, splitLines_append, ofLines_append, length_splitLines, ofLines_add]
  rfl

/-- Whatever stands on a line, the rows in front of its own row and behind it are the same. -/
theorem exists_ofJsonLines_around {front back : List UInt8} (hfront : StartsLine front)
    (hback : EndsLine back) :
    ∃ before after, ∀ line, lineFeed ∉ line → ofJsonLines (front ++ line ++ back) =
      before ++ (ofLine? (front.count lineFeed + 1) line).toList ++ after := by
  obtain ⟨linesBefore, linesAfter, hlength, hlines⟩ := exists_splitLines_around hfront hback
  refine ⟨ofLines 1 linesBefore, ofLines (front.count lineFeed + 2) linesAfter,
    fun line hline => ?_⟩
  rw [ofJsonLines, hlines line hline, ofLines_append, ofLines_cons, hlength, Nat.add_comm 1,
    List.append_assoc]

end TickFeed.SourceRow

namespace TickFeed.CatalogSource

open Text SourceRow

/-- **JSON Lines keep their records apart.** Whatever the bytes are, they have rows: one for
each line that is not blank. A line feed between two pieces of data takes them apart, and only
the numbers of the lines that cannot be read are moved on. Every line has the rows in front of
its own and those behind it whatever stands on it, and its own row, if it has one, whatever
stands on the others, but for the number. -/
theorem lines_are_isolated (path : Option String) :
    let rows (data : List UInt8) := (CatalogSource.mk path .jsonLines (some data)).rows
    (∀ data, ∃ found, rows data = .ok found ∧
      found.length = (splitLines data).countP fun line => !line.all isAsciiBlank) ∧
    (∀ a b found found', rows a = .ok found → rows b = .ok found' →
      rows (a ++ lineFeed :: b) = .ok (found ++ found'.map (later (a.count lineFeed + 1)))) ∧
    (∀ front back, StartsLine front → EndsLine back →
      ∃ before after, ∀ line, lineFeed ∉ line → rows (front ++ line ++ back) =
        .ok (before ++ (if line.all isAsciiBlank then []
          else [ofLine (front.count lineFeed + 1) line]) ++ after)) ∧
    ∀ number n line, ofLine (number + n) line = later n (ofLine number line) := by
  intro rows
  refine ⟨fun data => ⟨_, rfl, length_ofLines 1 _⟩, ?_, ?_, ofLine_add⟩
  · rintro a b _ _ ⟨⟩ ⟨⟩
    exact congrArg _ (ofJsonLines_append a b)
  · intro front back hfront hback
    obtain ⟨before, after, hrows⟩ := exists_ofJsonLines_around hfront hback
    refine ⟨before, after, fun line hline => (congrArg _ (hrows line hline)).trans ?_⟩
    rw [ofLine?]
    split <;> rfl

/-- Behind an object and a blank line, a byte that is no text is on the third line. In the
place of the blank it costs the second line only, and the rows on either side stay. -/
theorem lines_are_isolated_no_text :
    let rows (data : List UInt8) := (CatalogSource.mk none .jsonLines (some data)).rows
    rows ([0x7B, 0x7D, 10, 32] ++ lineFeed :: [0xFF]) =
        .ok [.ok (.ofList []), .error (.unparsable 3)] ∧
      ∃ before after, rows ([0x7B, 0x7D, 10] ++ [32] ++ [10, 0xFF]) = .ok (before ++ [] ++ after) ∧
        rows ([0x7B, 0x7D, 10] ++ [0xFF] ++ [10, 0xFF]) =
          .ok (before ++ [.error (.unparsable 2)] ++ after) := by
  obtain ⟨-, happend, haround, -⟩ := lines_are_isolated none
  have hfront : StartsLine [0x7B, 0x7D, 10] := .inr ⟨[0x7B, 0x7D], rfl⟩
  have hback : EndsLine [10, 0xFF] := .inr ⟨[0xFF], rfl⟩
  obtain ⟨before, after, hline⟩ := haround _ _ hfront hback
  exact ⟨happend _ _ [.ok (.ofList [])] [.error (.unparsable 1)] (by rfl) (by rfl), before, after,
    hline [32] (by decide), hline [0xFF] (by decide)⟩

end TickFeed.CatalogSource
