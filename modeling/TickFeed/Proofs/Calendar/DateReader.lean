import Mathlib.Data.List.TakeWhile
import TickFeed.Calendar.DateReader
import TickFeed.Proofs.Text.Digits
import TickFeed.Proofs.Text.Padding

/-! # Dates as they may be written

A layout says in which order day, month and year stand, a style how their numbers are
written. The style of the documents has a fixed number of digits for each of them; the reader
takes more: blanks in front of every number, numbers with fewer digits, years with a sign and
any number of digits. In that style it finds exactly the dates that are spelled
(`readAs?_compactLayout_iff`, `readAs?_isoLayout_iff`), and no text is in both layouts
(`Compact.not_iso`). -/

namespace TickFeed.Date

open Text

/-- How numbers are written: those of days and months, and those of years. -/
structure NumberStyle where
  two : List Char → Nat → Prop
  year : List Char → Int → Prop

/-! ## Styles -/

def AllBlank (cs : List Char) : Prop := ∀ c ∈ cs, isBlank c = true

def Fixed (width : Nat) (cs : List Char) (n : Nat) : Prop :=
  cs.length = width ∧ IsRun cs ∧ n = digitsValue cs

/-- Blanks, and then up to `limit` digits. -/
def Loose (limit : Nat) (cs : List Char) (n : Nat) : Prop :=
  ∃ blanks ds, cs = blanks ++ ds ∧ AllBlank blanks ∧ IsRun ds ∧ ds.length ≤ limit ∧
    n = digitsValue ds

/-- Blanks, and then up to four digits, or a sign and any number of digits. -/
inductive LooseYear : List Char → Int → Prop where
  | digits {blanks ds : List Char} (hblanks : AllBlank blanks) (hrun : IsRun ds)
    (hlength : ds.length ≤ 4) : LooseYear (blanks ++ ds) (digitsValue ds)
  | plus {blanks ds : List Char} (hblanks : AllBlank blanks) (hrun : IsRun ds) :
    LooseYear (blanks ++ '+' :: ds) (digitsValue ds)
  | minus {blanks ds : List Char} (hblanks : AllBlank blanks) (hrun : IsRun ds) :
    LooseYear (blanks ++ '-' :: ds) (-digitsValue ds)

/-- Two digits for days and months, four for years. -/
def NumberStyle.exact : NumberStyle where
  two := Fixed 2
  year := fun cs y => ∃ n : Nat, Fixed 4 cs n ∧ y = n

def NumberStyle.lenient : NumberStyle where
  two := Loose 2
  year := LooseYear

/-! ## Items -/

def MonthName (cs : List Char) (month : Nat) : Prop :=
  (String.ofList (cs.map Char.toLower), month) ∈ monthNames.zipIdx 1

instance (cs : List Char) (month : Nat) : Decidable (MonthName cs month) :=
  inferInstanceAs (Decidable (_ ∈ _))

/-- The text is what the item says, and turns one reading into the next. -/
def Item.Takes : Item → List Char → Reading → Reading → Prop
  | .year, text, r, r' => ∃ year, LooseYear text year ∧ r' = { r with year := year }
  | .month, text, r, r' => ∃ n, Loose 2 text n ∧ r' = { r with month := n }
  | .monthName, text, r, r' => ∃ n, MonthName text n ∧ r' = { r with month := n }
  | .day, text, r, r' => ∃ n, Loose 2 text n ∧ r' = { r with day := n }
  | .char c, text, r, r' => text = [c] ∧ r' = r
  | .blanks, text, r, r' => AllBlank text ∧ r' = r

/-- What comes next does not carry the item on. -/
def Item.EndsAt : Item → List Char → Prop
  | .year, rest | .month, rest | .day, rest => StartsElsewhere rest
  | .blanks, rest => ∀ c ∈ rest.head?, isBlank c = false
  | .monthName, _ | .char _, _ => True

/-! ## Layouts -/

def Compact (style : NumberStyle) (cs : List Char) (d : Date) : Prop :=
  ∃ day name year, cs = day ++ name ++ year ∧ style.two day d.day ∧ MonthName name d.month ∧
    style.year year d.year

def Iso (style : NumberStyle) (cs : List Char) (d : Date) : Prop :=
  ∃ year month day, cs = year ++ '-' :: month ++ '-' :: day ∧ style.year year d.year ∧
    style.two month d.month ∧ style.two day d.day

/-- The text spells the date in one of the two layouts. -/
def Spells (style : NumberStyle) (t : String) (d : Date) : Prop :=
  Compact style t.toList d ∨ Iso style t.toList d

variable {limit n : Nat} {cs rest text : List Char} {year : Int} {t : String} {d : Date}

/-! ## Numbers -/

theorem number?_sound (h : number? limit cs = some (n, rest)) :
    ∃ ds, cs = ds ++ rest ∧ IsRun ds ∧ ds.length ≤ limit ∧ n = digitsValue ds := by
  unfold number? at h
  dsimp only at h
  split at h
  next => cases h
  next hne =>
    cases h
    have hfront : (cs.takeWhile Char.isDigit).take limit <+: cs :=
      (List.take_prefix _ _).trans (List.takeWhile_prefix _)
    refine ⟨_, (List.prefix_iff_eq_append.mp hfront).symm, ⟨hne, ?_⟩, List.length_take_le _ _, rfl⟩
    intro c hc
    exact List.mem_takeWhile_imp (List.mem_of_mem_take hc)

theorem number?_append {ds : List Char} (hrun : IsRun ds) (hlimit : ds.length ≤ limit)
    (hrest : StartsElsewhere rest) : number? limit (ds ++ rest) = some (digitsValue ds, rest) := by
  unfold number?
  rw [takeWhile_isDigit hrun hrest, List.take_of_length_le hlimit]
  simp [hrun.1]

/-- A run of digits does not begin with a blank. -/
theorem exists_cons_of_isRun {ds : List Char} (hrun : IsRun ds) :
    ∃ c tail, ds = c :: tail ∧ isBlank c = false := by
  obtain ⟨c, tail, rfl⟩ := List.exists_cons_of_ne_nil hrun.1
  exact ⟨c, tail, rfl, isBlank_of_isDigit (hrun.2 c List.mem_cons_self)⟩

theorem dropBlanks_append_cons {blanks : List Char} (hblanks : AllBlank blanks) {c : Char}
    (hc : isBlank c = false) : dropBlanks (blanks ++ c :: cs) = c :: cs := by
  rw [dropBlanks_append hblanks]
  simp [dropBlanks, hc]

theorem exists_blanks (cs : List Char) : ∃ blanks, cs = blanks ++ dropBlanks cs ∧ AllBlank blanks :=
  ⟨cs.takeWhile isBlank, List.takeWhile_append_dropWhile.symm, fun _ hc =>
    List.mem_takeWhile_imp hc⟩

theorem Loose.of_number? (h : number? limit (dropBlanks cs) = some (n, rest)) :
    ∃ text, cs = text ++ rest ∧ Loose limit text n := by
  obtain ⟨blanks, hcs, hblanks⟩ := exists_blanks cs
  obtain ⟨ds, hds, hrun, hlength, hn⟩ := number?_sound h
  refine ⟨blanks ++ ds, ?_, blanks, ds, rfl, hblanks, hrun, hlength, hn⟩
  rw [List.append_assoc, ← hds, ← hcs]

theorem Loose.number? (h : Loose limit text n) (hrest : StartsElsewhere rest) :
    number? limit (dropBlanks (text ++ rest)) = some (n, rest) := by
  obtain ⟨blanks, ds, rfl, hblanks, hrun, hlength, rfl⟩ := h
  obtain ⟨c, tail, rfl, hc⟩ := exists_cons_of_isRun hrun
  rw [List.append_assoc, List.cons_append, dropBlanks_append_cons hblanks hc, ← List.cons_append]
  exact number?_append hrun hlength hrest

theorem LooseYear.of_year? (h : year? (dropBlanks cs) = some (year, rest)) :
    ∃ text, cs = text ++ rest ∧ LooseYear text year := by
  obtain ⟨blanks, hcs, hblanks⟩ := exists_blanks cs
  generalize dropBlanks cs = front at h hcs
  subst hcs
  unfold year? at h
  split at h
  next tail =>
    obtain ⟨⟨n, _⟩, hnumber, he⟩ := Option.map_eq_some_iff.mp h
    cases he
    obtain ⟨ds, rfl, hrun, -, rfl⟩ := number?_sound hnumber
    exact ⟨blanks ++ '-' :: ds, by simp, .minus hblanks hrun⟩
  next tail =>
    obtain ⟨⟨n, _⟩, hnumber, he⟩ := Option.map_eq_some_iff.mp h
    cases he
    obtain ⟨ds, rfl, hrun, -, rfl⟩ := number?_sound hnumber
    exact ⟨blanks ++ '+' :: ds, by simp, .plus hblanks hrun⟩
  next =>
    obtain ⟨⟨n, _⟩, hnumber, he⟩ := Option.map_eq_some_iff.mp h
    cases he
    obtain ⟨ds, rfl, hrun, hlength, rfl⟩ := number?_sound hnumber
    exact ⟨blanks ++ ds, by simp, .digits hblanks hrun hlength⟩

theorem LooseYear.year? (h : LooseYear text year) (hrest : StartsElsewhere rest) :
    year? (dropBlanks (text ++ rest)) = some (year, rest) := by
  cases h with
  | @digits blanks ds hblanks hrun hlength =>
    obtain ⟨c, tail, rfl, hc⟩ := exists_cons_of_isRun hrun
    rw [List.append_assoc, List.cons_append, dropBlanks_append_cons hblanks hc]
    have hdigit : c.isDigit = true := hrun.2 c List.mem_cons_self
    unfold Date.year?
    split
    next heq => cases heq; cases hdigit
    next heq => cases heq; cases hdigit
    next =>
      rw [← List.cons_append, number?_append hrun hlength hrest]
      rfl
  | @plus blanks ds hblanks hrun =>
    have hnumber : Date.number? (ds ++ rest).length (ds ++ rest) = some (digitsValue ds, rest) :=
      number?_append hrun (by simp) hrest
    rw [List.append_assoc, List.cons_append, dropBlanks_append_cons hblanks (by decide),
      Date.year?, hnumber]
    rfl
  | @minus blanks ds hblanks hrun =>
    have hnumber : Date.number? (ds ++ rest).length (ds ++ rest) = some (digitsValue ds, rest) :=
      number?_append hrun (by simp) hrest
    rw [List.append_assoc, List.cons_append, dropBlanks_append_cons hblanks (by decide),
      Date.year?, hnumber]
    rfl

theorem Fixed.loose {width : Nat} (h : Fixed width cs n) : Loose width cs n := by
  obtain ⟨hlength, hrun, hn⟩ := h
  exact ⟨[], cs, rfl, nofun, hrun, hlength.le, hn⟩

theorem Fixed.looseYear (h : Fixed 4 cs n) : LooseYear cs n := by
  obtain ⟨hlength, hrun, rfl⟩ := h
  exact LooseYear.digits (List.forall_mem_nil _) hrun hlength.le

/-- What is spelled in the style of the documents is spelled for the reader. -/
theorem Spells.lenient (h : Spells .exact t d) : Spells .lenient t d := by
  rcases h with ⟨day, name, year, ht, hday, hname, n, hyear, hn⟩ |
    ⟨year, month, day, ht, ⟨n, hyear, hn⟩, hmonth, hday⟩
  · exact .inl ⟨day, name, year, ht, hday.loose, hname, hn ▸ hyear.looseYear⟩
  · exact .inr ⟨year, month, day, ht, hn ▸ hyear.looseYear, hmonth.loose, hday.loose⟩

/-! ## Names of months -/

theorem idxOf?_monthNames {name : String} {i : Nat} :
    monthNames.idxOf? name = some i ↔ (name, i + 1) ∈ monthNames.zipIdx 1 := by
  have hnodup : monthNames.Nodup := by decide
  rw [List.mk_mem_zipIdx_iff_le_and_getElem?_sub, List.idxOf?_eq_some_iff, Nat.add_sub_cancel]
  constructor
  · rintro ⟨hi, rfl, -⟩
    exact ⟨Nat.le_add_left 1 i, List.getElem?_eq_getElem hi⟩
  · rintro ⟨-, hname⟩
    obtain ⟨hi, rfl⟩ := List.getElem?_eq_some_iff.mp hname
    refine ⟨hi, rfl, fun j hj he => ?_⟩
    have hsame : j = i := (List.getElem_inj hnodup).mp he
    omega

theorem MonthName.length {name : List Char} {month : Nat} (h : MonthName name month) :
    name.length = 3 := by
  have hlengths : ∀ entry ∈ monthNames.zipIdx 1, entry.1.toList.length = 3 := by decide
  simpa using hlengths _ h

theorem monthName?_eq_some_iff :
    monthName? cs = some (n, rest) ↔ ∃ name, cs = name ++ rest ∧ MonthName name n := by
  unfold monthName?
  rw [Option.map_eq_some_iff]
  constructor
  · rintro ⟨i, hi, he⟩
    cases he
    exact ⟨cs.take 3, (List.take_append_drop 3 cs).symm, idxOf?_monthNames.mp hi⟩
  · rintro ⟨name, rfl, hname⟩
    have hlength := hname.length
    have hpos : 1 ≤ n := (List.mk_mem_zipIdx_iff_le_and_getElem?_sub.mp hname).1
    refine ⟨n - 1, idxOf?_monthNames.mpr ?_, ?_⟩
    · rw [List.take_append_of_le_length hlength.ge, List.take_of_length_le hlength.le,
        Nat.sub_add_cancel hpos]
      exact hname
    · rw [← hlength, List.drop_left, Nat.sub_add_cancel hpos]

/-- In the style of the documents a date has nine or ten characters. -/
theorem Spells.length (h : Spells .exact t d) : t.toList.length = 9 ∨ t.toList.length = 10 := by
  rcases h with ⟨day, name, year, ht, hday, hname, n, hyear, -⟩ |
    ⟨year, month, day, ht, ⟨n, hyear, -⟩, hmonth, hday⟩
  · left
    simp [ht, hday.1, hname.length, hyear.1]
  · right
    simp [ht, hyear.1, hmonth.1, hday.1]

/-! ## Letters -/

theorem MonthName.isAlpha {name : List Char} {month : Nat} (h : MonthName name month) :
    ∀ c ∈ name, c.isAlpha = true := by
  have hletters : ∀ entry ∈ monthNames.zipIdx 1, entry.1.toList.all Char.isLower = true := by
    decide
  have hname := List.all_eq_true.mp (hletters _ h)
  rw [String.toList_ofList] at hname
  intro c hc
  exact isAlpha_of_isLower_toLower (hname _ (List.mem_map_of_mem hc))

theorem MonthName.exists_cons {name : List Char} {month : Nat} (h : MonthName name month) :
    ∃ c tail, name = c :: tail ∧ c.isAlpha = true := by
  obtain ⟨c, tail, rfl⟩ : ∃ c tail, name = c :: tail :=
    List.exists_cons_of_length_pos (by rw [h.length]; decide)
  exact ⟨c, tail, rfl, h.isAlpha c List.mem_cons_self⟩

theorem MonthName.startsElsewhere {name : List Char} {month : Nat} (h : MonthName name month)
    (rest : List Char) : StartsElsewhere (name ++ rest) := by
  obtain ⟨c, tail, rfl, hc⟩ := h.exists_cons
  refine startsElsewhere_cons (Bool.eq_false_iff.mpr fun hdigit => ?_)
  rw [isAlpha_of_isDigit hdigit] at hc
  cases hc

def NoLetters (cs : List Char) : Prop := ∀ c ∈ cs, c.isAlpha = false

theorem NoLetters.append (h : NoLetters cs) (h' : NoLetters text) : NoLetters (cs ++ text) :=
  List.forall_mem_append.mpr ⟨h, h'⟩

theorem NoLetters.cons {c : Char} (hc : c.isAlpha = false) (h : NoLetters cs) :
    NoLetters (c :: cs) :=
  List.forall_mem_cons.mpr ⟨hc, h⟩

theorem AllBlank.noLetters (h : AllBlank cs) : NoLetters cs :=
  fun c hc => isAlpha_of_isBlank (h c hc)

theorem noLetters_of_isRun (h : IsRun cs) : NoLetters cs :=
  fun c hc => isAlpha_of_isDigit (h.2 c hc)

theorem Loose.noLetters (h : Loose limit text n) : NoLetters text := by
  obtain ⟨blanks, ds, rfl, hblanks, hrun, -, -⟩ := h
  exact hblanks.noLetters.append (noLetters_of_isRun hrun)

theorem LooseYear.noLetters (h : LooseYear text year) : NoLetters text := by
  cases h with
  | digits hblanks hrun _ => exact hblanks.noLetters.append (noLetters_of_isRun hrun)
  | plus hblanks hrun | minus hblanks hrun =>
    exact hblanks.noLetters.append ((noLetters_of_isRun hrun).cons rfl)

/-! ## Readings -/

section Readings

variable {r r' : Reading} {item : Item} {items : List Item} {out : Reading × List Char}

theorem exists_of_readItem (h : readItem r cs item = some (r', rest)) :
    ∃ text, cs = text ++ rest ∧ item.Takes text r r' := by
  cases item with
  | year =>
    obtain ⟨⟨year, _⟩, hyear, he⟩ := Option.map_eq_some_iff.mp h
    cases he
    obtain ⟨text, ht, htext⟩ := LooseYear.of_year? hyear
    exact ⟨text, ht, _, htext, rfl⟩
  | month | day =>
    obtain ⟨⟨n, _⟩, hnumber, he⟩ := Option.map_eq_some_iff.mp h
    cases he
    obtain ⟨text, ht, htext⟩ := Loose.of_number? hnumber
    exact ⟨text, ht, _, htext, rfl⟩
  | monthName =>
    obtain ⟨⟨n, _⟩, hname, he⟩ := Option.map_eq_some_iff.mp h
    cases he
    obtain ⟨text, ht, htext⟩ := monthName?_eq_some_iff.mp hname
    exact ⟨text, ht, _, htext, rfl⟩
  | char c =>
    cases cs with
    | nil => exact nomatch h
    | cons first tail =>
      have hfirst : (if c = first then some (r, tail) else none) = some (r', rest) := h
      split at hfirst
      next hc =>
        cases hfirst
        exact ⟨[c], by rw [hc]; rfl, rfl, rfl⟩
      next => cases hfirst
  | blanks =>
    cases h
    obtain ⟨blanks, ht, hblanks⟩ := exists_blanks cs
    exact ⟨blanks, ht, hblanks, rfl⟩

theorem Item.Takes.readItem (h : item.Takes text r r') (hrest : item.EndsAt rest) :
    readItem r (text ++ rest) item = some (r', rest) := by
  cases item with
  | year =>
    obtain ⟨year, hyear, rfl⟩ := h
    rw [Date.readItem, hyear.year? hrest]
    rfl
  | month | day =>
    obtain ⟨n, hn, rfl⟩ := h
    rw [Date.readItem, hn.number? hrest]
    rfl
  | monthName =>
    obtain ⟨n, hname, rfl⟩ := h
    rw [Date.readItem, monthName?_eq_some_iff.mpr ⟨text, rfl, hname⟩]
    rfl
  | char c =>
    obtain ⟨rfl, rfl⟩ := h
    exact if_pos rfl
  | blanks =>
    obtain ⟨hblanks, rfl⟩ := h
    rw [Date.readItem, dropBlanks_append hblanks]
    cases rest with
    | nil => rfl
    | cons c rest => simp [dropBlanks, hrest c rfl]

theorem exists_of_readItems (h : readItems r cs (item :: items) = some out) :
    ∃ text r' rest, cs = text ++ rest ∧ item.Takes text r r' ∧
      readItems r' rest items = some out := by
  obtain ⟨⟨r', rest⟩, hitem, hitems⟩ := Option.bind_eq_some_iff.mp h
  obtain ⟨text, ht, htakes⟩ := exists_of_readItem hitem
  exact ⟨text, r', rest, ht, htakes, hitems⟩

theorem Item.Takes.readItems (h : item.Takes text r r') (hrest : item.EndsAt rest) :
    readItems r (text ++ rest) (item :: items) = readItems r' rest items := by
  rw [Date.readItems, h.readItem hrest]
  rfl

end Readings

/-! ## Whole texts -/

theorem make?_eq_some_iff {year : Int} {month day : Nat} :
    make? year month day = some d ↔ year = d.year ∧ month = d.month ∧ day = d.day := by
  unfold make?
  split
  · next hvalid =>
    rw [Option.some.injEq]
    constructor
    · rintro rfl
      exact ⟨rfl, rfl, rfl⟩
    · rintro ⟨rfl, rfl, rfl⟩
      rfl
  · next hvalid =>
    constructor
    · intro h
      cases h
    · rintro ⟨rfl, rfl, rfl⟩
      exact absurd d.valid hvalid

theorem readAs?_eq_some_iff {layout : List Item} :
    readAs? layout t = some d ↔
      readItems ⟨0, 0, 0⟩ t.toList layout = some (⟨d.year, d.month, d.day⟩, []) := by
  unfold readAs?
  split
  · next r hr =>
    rw [hr, make?_eq_some_iff]
    cases r
    simp
  · next hnone =>
    exact ⟨nofun, fun hr => absurd hr (hnone _)⟩

theorem readAs?_compactLayout_iff :
    readAs? compactLayout t = some d ↔ Compact .lenient t.toList d := by
  rw [readAs?_eq_some_iff]
  constructor
  · intro h
    obtain ⟨day, _, afterDay, ht, ⟨_, hday, rfl⟩, h⟩ := exists_of_readItems h
    obtain ⟨name, _, afterName, rfl, ⟨_, hname, rfl⟩, h⟩ := exists_of_readItems h
    obtain ⟨year, _, afterYear, rfl, ⟨_, hyear, rfl⟩, h⟩ := exists_of_readItems h
    cases h
    exact ⟨day, name, year, by simp [ht], hday, hname, hyear⟩
  · rintro ⟨day, name, year, ht, hday, hname, hyear⟩
    calc readItems ⟨0, 0, 0⟩ t.toList compactLayout
        = readItems ⟨0, 0, d.day⟩ (name ++ year) [.monthName, .year] := by
          rw [ht, List.append_assoc]
          exact Item.Takes.readItems ⟨_, hday, rfl⟩ (hname.startsElsewhere year)
      _ = readItems ⟨0, d.month, d.day⟩ (year ++ []) [.year] := by
          rw [List.append_nil]
          exact Item.Takes.readItems ⟨_, hname, rfl⟩ trivial
      _ = some (⟨d.year, d.month, d.day⟩, []) := Item.Takes.readItems ⟨_, hyear, rfl⟩ nofun

theorem readAs?_isoLayout_iff :
    readAs? isoLayout t = some d ↔ Iso .lenient t.toList d := by
  have hdash : ∀ rest, StartsElsewhere ('-' :: rest) := fun rest => startsElsewhere_cons (by decide)
  rw [readAs?_eq_some_iff]
  constructor
  · intro h
    obtain ⟨year, _, afterYear, ht, ⟨_, hyear, rfl⟩, h⟩ := exists_of_readItems h
    obtain ⟨_, _, afterDash, rfl, ⟨rfl, rfl⟩, h⟩ := exists_of_readItems h
    obtain ⟨month, _, afterMonth, rfl, ⟨_, hmonth, rfl⟩, h⟩ := exists_of_readItems h
    obtain ⟨_, _, afterDash, rfl, ⟨rfl, rfl⟩, h⟩ := exists_of_readItems h
    obtain ⟨day, _, afterDay, rfl, ⟨_, hday, rfl⟩, h⟩ := exists_of_readItems h
    cases h
    exact ⟨year, month, day, by simp [ht], hyear, hmonth, hday⟩
  · rintro ⟨year, month, day, ht, hyear, hmonth, hday⟩
    calc readItems ⟨0, 0, 0⟩ t.toList isoLayout
        = readItems ⟨d.year, 0, 0⟩ (['-'] ++ (month ++ '-' :: day))
            [.char '-', .month, .char '-', .day] := by
          rw [ht, List.append_assoc]
          exact Item.Takes.readItems ⟨_, hyear, rfl⟩ (hdash _)
      _ = readItems ⟨d.year, 0, 0⟩ (month ++ '-' :: day) [.month, .char '-', .day] :=
          Item.Takes.readItems ⟨rfl, rfl⟩ trivial
      _ = readItems ⟨d.year, d.month, 0⟩ (['-'] ++ day) [.char '-', .day] :=
          Item.Takes.readItems ⟨_, hmonth, rfl⟩ (hdash _)
      _ = readItems ⟨d.year, d.month, 0⟩ (day ++ []) [.day] := by
          rw [List.append_nil]
          exact Item.Takes.readItems ⟨rfl, rfl⟩ trivial
      _ = some (⟨d.year, d.month, d.day⟩, []) := Item.Takes.readItems ⟨_, hday, rfl⟩ nofun

/-- No text is in both layouts: one has a letter and the other has none. -/
theorem Compact.not_iso {d' : Date} (h : Compact .lenient cs d) : ¬Iso .lenient cs d' := by
  obtain ⟨day, name, year, rfl, -, hname, -⟩ := h
  rintro ⟨year', month', day', hcs, hyear, hmonth, hday⟩
  obtain ⟨c, tail, rfl, hc⟩ := hname.exists_cons
  have hnone : NoLetters (year' ++ '-' :: month' ++ '-' :: day') :=
    (hyear.noLetters.append (hmonth.noLetters.cons rfl)).append (hday.noLetters.cons rfl)
  rw [hnone c (by simp [← hcs])] at hc
  cases hc

end TickFeed.Date
