import TickFeed.Calendar.Date

/-! # Instants in text

The profile of ISO 8601 for the internet: a date of fixed width, `T` or a
space, a time of day with an optional fraction, and `Z` or an offset. Instants
are nanoseconds from the beginning of 1970, universal time. -/

namespace TickFeed.Instant

/-- A number of exactly `width` digits at the front, and the rest. -/
def fixed? (width : Nat) (cs : List Char) : Option (Nat × List Char) :=
  let ds := cs.take width
  if ds.length = width ∧ ds.all Char.isDigit then
    some (Text.digitsValue ds, cs.drop width)
  else none

def oneOf? (allowed : List Char) : List Char → Option (List Char)
  | c :: rest => if allowed.contains c then some rest else none
  | [] => none

/-- A point and the digits of a fraction of a second, if there is a point, in
nanoseconds. Digits past the ninth are passed over. -/
def fraction? : List Char → Option (Nat × List Char)
  | '.' :: rest =>
    let ds := rest.takeWhile Char.isDigit
    let nine := ds.take 9
    if ds = [] then none
    else some (Text.digitsValue nine * 10 ^ (9 - nine.length), rest.drop ds.length)
  | rest => some (0, rest)

def offset? (cs : List Char) : Option (Int × List Char) :=
  match cs with
  | [] => none
  | c :: rest =>
    if c = 'Z' ∨ c = 'z' then some (0, rest)
    else if c = '+' ∨ c = '-' ∨ c = '\u2212' then do
      let (hours, rest) ← fixed? 2 rest
      let rest ← oneOf? [':'] rest
      let (minutes, rest) ← fixed? 2 rest
      if hours < 24 ∧ minutes < 60 then
        let seconds : Int := 3600 * hours + 60 * minutes
        some (if c = '+' then seconds else -seconds, rest)
      else none
    else none

/-- The instant that the whole of `s` spells, in nanoseconds. A sixtieth second
is the first one of the next minute. -/
def read? (s : String) : Option Int := do
  let cs := s.toList
  let (year, cs) ← fixed? 4 cs
  let cs ← oneOf? ['-'] cs
  let (month, cs) ← fixed? 2 cs
  let cs ← oneOf? ['-'] cs
  let (day, cs) ← fixed? 2 cs
  let cs ← oneOf? ['T', 't', ' '] cs
  let (hour, cs) ← fixed? 2 cs
  let cs ← oneOf? [':'] cs
  let (minute, cs) ← fixed? 2 cs
  let cs ← oneOf? [':'] cs
  let (second, cs) ← fixed? 2 cs
  let (nanoseconds, cs) ← fraction? cs
  let (offset, cs) ← offset? cs
  let date ← Date.make? year month day
  if cs = [] ∧ hour < 24 ∧ minute < 60 ∧ second ≤ 60 then
    let time : Int := 3600 * hour + 60 * minute + second
    some ((date.toDays * 86400 + time - offset) * 10 ^ 9 + nanoseconds)
  else none

end TickFeed.Instant
