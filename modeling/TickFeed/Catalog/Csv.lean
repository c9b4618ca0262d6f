import TickFeed.Text.Bytes

/-! # Comma-separated values

A record is a line of fields with commas between them. A field in double quotes
may hold commas and line ends; inside it a quote is written twice. Anywhere else
a quote is a character like others, so what follows the closing quote belongs to
the field. A record ends at a line feed, at a carriage return or at both, and
empty lines are no records. The reader is a machine that takes one byte at a
time. -/

namespace TickFeed.Csv

/-- A record and the line on which it begins, as the reader counts: a line feed
between two records is counted with the second one. -/
structure Record where
  line : Nat
  fields : List (List UInt8)
deriving DecidableEq

inductive Mode where
  /-- Before a record. -/
  | between
  /-- At the beginning of a field. -/
  | fieldStart
  /-- In a field, outside quotes. -/
  | plain
  /-- In quotes. -/
  | quoted
  /-- After a quote inside quotes. -/
  | quoteSeen
deriving DecidableEq

/-- The machine with what it has read, each list in reverse. -/
structure Machine where
  mode : Mode
  line : Nat
  recordLine : Nat
  field : List UInt8
  fields : List (List UInt8)
  records : List Record

def Machine.start : Machine := ⟨.between, 1, 1, [], [], []⟩

def comma : UInt8 := 44

def quote : UInt8 := 34

def isLineEnd (b : UInt8) : Bool := b = Text.lineFeed || b = Text.carriageReturn

def Machine.endField (m : Machine) : Machine :=
  { m with mode := .fieldStart, field := [], fields := m.field.reverse :: m.fields }

def Machine.endRecord (m : Machine) : Machine :=
  let m := m.endField
  { m with
    mode := .between, recordLine := m.line, fields := []
    records := ⟨m.recordLine, m.fields.reverse⟩ :: m.records }

def Machine.push (m : Machine) (mode : Mode) (b : UInt8) : Machine :=
  { m with mode, field := b :: m.field }

def Machine.stepPlain (m : Machine) (b : UInt8) : Machine :=
  if b = comma then m.endField
  else if isLineEnd b then m.endRecord
  else m.push .plain b

/-- A byte at the beginning of a field. -/
def Machine.stepFieldStart (m : Machine) (b : UInt8) : Machine :=
  if b = quote then { m with mode := .quoted } else m.stepPlain b

def Machine.step (m : Machine) (b : UInt8) : Machine :=
  let m := if b = Text.lineFeed then { m with line := m.line + 1 } else m
  match m.mode with
  | .between => if isLineEnd b then m else m.stepFieldStart b
  | .fieldStart => m.stepFieldStart b
  | .plain => m.stepPlain b
  | .quoted => if b = quote then { m with mode := .quoteSeen } else m.push .quoted b
  | .quoteSeen => if b = quote then m.push .quoted b else m.stepPlain b

/-- All records, when the data ends here. -/
def Machine.finish (m : Machine) : List Record :=
  let m := if m.mode = .between then m else m.endRecord
  m.records.reverse

/-- The mark that may stand in front of UTF-8. -/
def dropMark : List UInt8 → List UInt8
  | 0xEF :: 0xBB :: 0xBF :: rest => rest
  | bs => bs

def read (data : List UInt8) : List Record :=
  ((dropMark data).foldl Machine.step Machine.start).finish

end TickFeed.Csv
