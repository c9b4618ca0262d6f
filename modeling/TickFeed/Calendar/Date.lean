import TickFeed.Text.Numeral

/-! # Calendar dates

Dates of the Gregorian calendar, carried on in both directions over the years
-262143 to 262142. A date written out has four digits of year; a year outside 0
to 9999 has a sign in front. -/

namespace TickFeed

namespace Date

def isLeapYear (year : Int) : Bool :=
  year % 4 = 0 && (year % 100 ≠ 0 || year % 400 = 0)

def daysInMonth (year : Int) (month : Nat) : Nat :=
  if month = 2 then if isLeapYear year then 29 else 28
  else if month = 4 ∨ month = 6 ∨ month = 9 ∨ month = 11 then 30
  else 31

def Valid (year : Int) (month day : Nat) : Prop :=
  (-262143 ≤ year ∧ year ≤ 262142) ∧ (1 ≤ month ∧ month ≤ 12) ∧
    1 ≤ day ∧ day ≤ daysInMonth year month

instance (year : Int) (month day : Nat) : Decidable (Valid year month day) :=
  inferInstanceAs (Decidable (_ ∧ _))

end Date

structure Date where
  year : Int
  month : Nat
  day : Nat
  valid : Date.Valid year month day
deriving DecidableEq

namespace Date

def make? (year : Int) (month day : Nat) : Option Date :=
  if h : Valid year month day then some ⟨year, month, day, h⟩ else none

/-- By year, then month, then day. -/
instance : Ord Date :=
  ⟨compareLex (compareOn (·.year)) (compareLex (compareOn (·.month)) (compareOn (·.day)))⟩

instance : Std.TransOrd Date :=
  inferInstanceAs (Std.TransCmp
    (compareLex (compareOn Date.year) (compareLex (compareOn Date.month) (compareOn Date.day))))

theorem eq_of_compare {a b : Date} (h : compare a b = .eq) : a = b := by
  change compareLex (compareOn Date.year) (compareLex (compareOn Date.month)
    (compareOn Date.day)) a b = .eq at h
  simp only [compareLex_eq_eq, compareOn, Int.compare_eq_eq, Nat.compare_eq_eq] at h
  cases a; cases b
  simp_all

instance : Std.LawfulEqOrd Date := ⟨eq_of_compare⟩

/-- The number of days from the first of January 1970. March is taken as the
first month, so that the leap day ends the year; 400 years have 146097 days. -/
def toDays (d : Date) : Int :=
  let year := if d.month ≤ 2 then d.year - 1 else d.year
  let era := year.fdiv 400
  let yearOfEra := year - era * 400
  let dayOfYear : Int := (153 * ((d.month + 9) % 12) + 2) / 5 + d.day - 1
  era * 146097 + yearOfEra * 365 + yearOfEra / 4 - yearOfEra / 100 + dayOfYear - 719468

def text (d : Date) : String :=
  let sign := if d.year < 0 then "-" else if 9999 < d.year then "+" else ""
  sign ++ Text.padded 4 d.year.natAbs ++ "-" ++ Text.padded 2 d.month ++ "-" ++
    Text.padded 2 d.day

end Date

end TickFeed
