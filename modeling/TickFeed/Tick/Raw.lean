import TickFeed.Json.Document

/-! # Raw ticks

What the broker's feed hands over: an object whose members vary with the mode
of the feed and the version of its interface. -/

namespace TickFeed

structure RawTick where
  fields : Json.Fields

namespace RawTick

instance : Inhabited RawTick := ⟨⟨.empty⟩⟩

def empty : RawTick := ⟨.empty⟩

/-- The raw tick that a value is. Only objects are ticks. -/
def ofJson? : Json → Option RawTick
  | .object members => some ⟨.ofList members⟩
  | _ => none

def read? (s : String) : Option RawTick := (Json.Fields.read? s).map RawTick.mk

def get? (raw : RawTick) (name : String) : Option Json := raw.fields.get? name

def insert (raw : RawTick) (name : String) (value : Json) : RawTick :=
  ⟨raw.fields.insert name value⟩

end RawTick

/-- The value of the first of `names` that `convert` takes. Names that are
missing, null or not convertible are passed over. -/
def Json.Fields.firstOf {α : Type} (fields : Json.Fields) (names : List String)
    (convert : Json → Option α) : Option α :=
  names.findSome? fun name =>
    (fields.get? name).bind fun v => if v.isNull then none else convert v

end TickFeed
