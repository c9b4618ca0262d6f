import TickFeed.Binary64.Reader
import TickFeed.Calendar.Instant
import TickFeed.Json.Writer
import TickFeed.Text.Blank

/-! # Loosely typed values

How the normalizer reads a member of a raw tick: a number may also stand in
quotes, and text may also be a number. Each reader answers nothing for a value
that it cannot use. -/

namespace TickFeed.Json

/-- A text without its padding, or the text of a number; blank text is none. -/
def text? (v : Json) : Option String :=
  (match v with
    | .string s => some (Text.trim s)
    | .number n => some n.text
    | _ => none).filter (· ≠ "")

def finite? (v : Json) : Option Binary64 :=
  (match v with
    | .number n => some n.toBinary64
    | .string s => Binary64.read? (Text.trim s)
    | _ => none).filter Binary64.isFinite

/-- A price. A negative one reads as zero. -/
def price? (v : Json) : Option Binary64 :=
  v.finite?.map fun x => if Binary64.lt 0 x then x else 0

/-- The whole part of a double, at most the largest integer of 64 bits; zero for
a negative one. -/
def wholePart (x : Binary64) : UInt64 := UInt64.ofNat (x.truncate (2 ^ 64 - 1))

/-- A quantity. An integer of 64 bits is exact; of any other number the whole
part counts. A negative one reads as zero. -/
def quantity? (v : Json) : Option UInt64 :=
  match v with
  | .number n =>
    match n.uint64?, n.int64? with
    | some k, _ => some k
    | none, some _ => some 0
    | none, none => v.finite?.map wholePart
  | .string s =>
    match Text.uint64? (Text.trim s) with
    | some k => some k
    | none => v.finite?.map wholePart
  | _ => none

def exactInt64? (v : Json) : Option Int64 :=
  match v with
  | .number n => n.int64?
  | .string s => Text.int64? (Text.trim s)
  | _ => none

/-- The nanoseconds in the unit that an integer epoch of this size counts. -/
def epochFactor (n : Int) : Int :=
  if 10 ^ 16 < n then 1
  else if 10 ^ 13 < n then 10 ^ 3
  else if 10 ^ 10 < n then 10 ^ 6
  else 10 ^ 9

def epochFactor64 (x : Binary64) : Binary64 :=
  if Binary64.lt (.ofNat (10 ^ 16)) x then .ofNat 1
  else if Binary64.lt (.ofNat (10 ^ 13)) x then .ofNat (10 ^ 3)
  else if Binary64.lt (.ofNat (10 ^ 10)) x then .ofNat (10 ^ 6)
  else .ofNat (10 ^ 9)

/-- The latest instant that has a timestamp. -/
def maxTimestamp : Nat := 2 ^ 63 - 1

/-- An epoch in seconds, milliseconds, microseconds or nanoseconds, told apart by
its size, in nanoseconds. It is never negative and ends at the latest instant. -/
def epoch? (v : Json) : Option Int64 :=
  match v.exactInt64? with
  | some n =>
    let n := n.toInt
    some (if n ≤ 0 then 0 else Int64.ofInt (min (n * epochFactor n) maxTimestamp))
  | none =>
    v.finite?.map fun x =>
      if Binary64.lt 0 x then Int64.ofNat ((x * epochFactor64 x).truncate maxTimestamp) else 0

/-- An instant as a timestamp; one before 1970 reads as its beginning. -/
def instant? (s : String) : Option Int64 :=
  ((Instant.read? (Text.trim s)).filter fun n => -2 ^ 63 ≤ n ∧ n < 2 ^ 63).map fun n =>
    Int64.ofInt (max n 0)

def timestamp? (v : Json) : Option Int64 :=
  match v with
  | .number _ => v.epoch?
  | .string s => v.epoch?.or (instant? s)
  | _ => none

end TickFeed.Json
