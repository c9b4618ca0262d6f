import TickFeed.Json.Document

/-! # Records in documents

A record is written as an object, whose members are found by name, or as an
array that lists its fields in their order. In an object a name may stand only
once when the record has it, members that the record does not have are passed
over, and a field that may be absent may be left out. An array may end early
only for a record in which every field has a default. -/

namespace TickFeed.Json

/-- The fields of a record that a document gives, by name. `positional` tells
that they came from an array. -/
structure Record where
  positional : Bool
  given : List (String × Document)

namespace Document

/-- The fields `names` of the record that a document writes. A `closed` record
takes no other members. -/
def record? (names : List String) (closed : Bool) : Document → Option Record
  | .array items =>
    if items.length ≤ names.length then some ⟨true, names.zip items⟩ else none
  | .object members => do
    let named ← members.mapM fun (name, v) => name.map (·, v)
    let given := named.filter fun m => names.contains m.1
    if closed ∧ given.length ≠ named.length then none
    else if (given.map (·.1)).Nodup then some ⟨false, given⟩
    else none
  | _ => none

def number? : Document → Option Number
  | .number n => n.toNumber?
  | _ => none

def uint64? (d : Document) : Option UInt64 := d.number?.bind Number.uint64?

def uint32? (d : Document) : Option UInt32 :=
  (d.uint64?.filter (·.toNat < 2 ^ 32)).map UInt64.toUInt32

def int64? (d : Document) : Option Int64 := d.number?.bind Number.int64?

/-- Any number, as the nearest double. -/
def binary64? (d : Document) : Option Binary64 := d.number?.map Number.toBinary64

def string? : Document → Option String
  | .string text => text
  | _ => none

/-- `null`, or what `read` reads. -/
def nullable? {α : Type} (read : Document → Option α) : Document → Option (Option α)
  | .null => some none
  | d => (read d).map some

end Document

namespace Record

def get? (r : Record) (name : String) : Option Document := r.given.lookup name

def required {α : Type} (r : Record) (name : String) (read : Document → Option α) : Option α :=
  (r.get? name).bind read

def optional {α : Type} (r : Record) (name : String) (read : Document → Option α) :
    Option (Option α) :=
  match r.get? name with
  | some d => d.nullable? read
  | none => if r.positional then none else some none

def defaulted {α : Type} (r : Record) (name : String) (default : α)
    (read : Document → Option α) : Option α :=
  match r.get? name with
  | some d => read d
  | none => some default

end Record

end TickFeed.Json
