import TickFeed.Json.Record
import TickFeed.Rounding

/-! # Lengths of time -/

namespace TickFeed

structure Duration where
  nanoseconds : Nat
deriving DecidableEq, Inhabited

namespace Duration

def ofSeconds (n : Nat) : Duration := ⟨n * 10 ^ 9⟩

def ofMilliseconds (n : Nat) : Duration := ⟨n * 10 ^ 6⟩

def seconds (d : Duration) : Nat := d.nanoseconds / 10 ^ 9

def subsecond (d : Duration) : Nat := d.nanoseconds % 10 ^ 9

instance : Max Duration := ⟨fun a b => ⟨max a.nanoseconds b.nanoseconds⟩⟩

/-- A number of seconds, to the nearest nanosecond; a tie goes to the even one.
The whole seconds of a length of time fit 64 bits. -/
def ofBinary64? : Binary64 → Option Duration
  | .finite neg units _ =>
    if neg ∧ units ≠ 0 then none
    else if 2 ^ 64 * Binary64.unitsPerOne ≤ units then none
    else some ⟨Rounding.halfEven (units * 10 ^ 9) Binary64.unitsPerOne⟩
  | .infinite _ | .nan => none

/-- A record of whole seconds and further nanoseconds. The seconds, with what
the nanoseconds carry into them, fit 64 bits. -/
def ofDocument? (d : Json.Document) : Option Duration := do
  let r ← d.record? ["secs", "nanos"] true
  let secs ← r.required "secs" Json.Document.uint64?
  let nanos ← r.required "nanos" Json.Document.uint32?
  let d : Duration := ⟨secs.toNat * 10 ^ 9 + nanos.toNat⟩
  if d.seconds < 2 ^ 64 then some d else none

def toJson (d : Duration) : Json :=
  let count := fun (n : Nat) => Json.number (.ofUInt64 (.ofNat n))
  (Json.Fields.ofList [("secs", count d.seconds), ("nanos", count d.subsecond)]).toJson

end Duration

end TickFeed
