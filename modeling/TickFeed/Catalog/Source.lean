import TickFeed.Catalog.Csv
import TickFeed.Catalog.Row

/-! # Sources of reference data

Reference data comes as one JSON array of rows, as JSON Lines or as CSV, from a
file or from memory. A record that is corrupt costs that record only; what fails
as a whole is data that cannot be read, an array that is none, and a CSV header
that is no text. -/

namespace TickFeed

inductive SourceFormat where
  /-- One array of objects. -/
  | jsonArray
  /-- One object a line; blank lines are passed over. -/
  | jsonLines
  /-- The names of the columns, then one row a record. -/
  | csv
deriving DecidableEq

namespace SourceFormat

/-- The name of a file at a path: its last component that names anything. -/
def fileName? (path : String) : Option String :=
  match ((path.splitOn "/").filter fun c => c ≠ "" ∧ c ≠ ".").getLast? with
  | some name => if name = ".." then none else some name
  | none => none

/-- The text after the last dot of a file name, unless that dot is its first
character. -/
def extension? (name : String) : Option String :=
  match splitAtLastDot? name.toList with
  | some (before, after) => if before = [] then none else some (String.ofList after)
  | none => none

/-- The format that goes with an extension, in any case. -/
def ofExtension? (s : String) : Option SourceFormat :=
  let s := Text.upper s
  if s = "JSON" then some .jsonArray
  else if s = "JSONL" ∨ s = "NDJSON" then some .jsonLines
  else if s = "CSV" then some .csv
  else none

/-- The format that the extension of the file at a path says. -/
def ofPath? (path : String) : Option SourceFormat :=
  ((fileName? path).bind extension?).bind ofExtension?

/-- The format of the file at a path. Without a known extension it is an array. -/
def ofPath (path : String) : SourceFormat := (ofPath? path).getD .jsonArray

end SourceFormat

inductive CatalogError where
  | unreadable (path : String)
  | format
  | csvHeader
  | noSource (path : String)
  | refreshInProgress
  | cancelled
deriving DecidableEq

def CatalogError.message : CatalogError → String
  | .unreadable path => "failed to read catalog source " ++ path
  | .format => "catalog source is not a JSON array of rows"
  | .csvHeader => "catalog source has no readable CSV header"
  | .noSource path => "no catalog file found in " ++ path
  | .refreshInProgress => "a load or refresh is already in progress"
  | .cancelled => "refresh cancelled before swap"

/-- A row as it is read, before its columns are. -/
abbrev SourceRow := Except RowError Row

namespace SourceRow

def ofJson : Json → SourceRow
  | .object members => .ok (.ofList members)
  | _ => .error .notAnObject

def ofLine (number : Nat) (line : List UInt8) : SourceRow :=
  match (Text.ofBytes? line).bind Json.read? with
  | some v => ofJson v
  | none => .error (.unparsable number)

def ofJsonArray (data : List UInt8) : Except CatalogError (List SourceRow) :=
  match (Text.ofBytes? data).bind Json.read? with
  | some (.array items) => .ok (items.map ofJson)
  | _ => .error .format

/-- The rows of lines, the first of which has number `number`. -/
def ofLines (number : Nat) (lines : List (List UInt8)) : List SourceRow :=
  (lines.zipIdx number).filterMap fun (line, n) =>
    if line.all Text.isAsciiBlank then none else some (ofLine n line)

/-- The rows of JSON Lines. -/
def ofJsonLines (data : List UInt8) : List SourceRow := ofLines 1 (Text.splitLines data)

/-- The texts of the fields of a record, without padding. -/
def texts? (fields : List (List UInt8)) : Option (List String) :=
  fields.mapM fun f => (Text.ofBytes? f).map Text.trim

/-- The row of a record under these columns. -/
def ofRecord (columns : List String) (r : Csv.Record) : SourceRow :=
  match texts? r.fields with
  | some values =>
    if values.length = columns.length then
      .ok (.ofList ((columns.zip values).map fun (c, v) => (c, .string v)))
    else .error (.unparsable r.line)
  | none => .error (.unparsable r.line)

def ofCsv (data : List UInt8) : Except CatalogError (List SourceRow) :=
  match Csv.read data with
  | [] => .ok []
  | header :: records =>
    match texts? header.fields with
    | some columns => .ok (records.map (ofRecord columns))
    | none => .error .csvHeader

def read (format : SourceFormat) (data : List UInt8) : Except CatalogError (List SourceRow) :=
  match format with
  | .jsonArray => ofJsonArray data
  | .jsonLines => .ok (ofJsonLines data)
  | .csv => ofCsv data

end SourceRow

/-- Reference data: the file it is in, or none for data in memory; the format;
and the data, or none when it cannot be read. -/
structure CatalogSource where
  path : Option String
  format : SourceFormat
  data : Option (List UInt8)

namespace CatalogSource

def ofMemory (format : SourceFormat) (data : List UInt8) : CatalogSource :=
  ⟨none, format, some data⟩

def ofFile (path : String) (data : Option (List UInt8)) : CatalogSource :=
  ⟨some path, .ofPath path, data⟩

def describe (s : CatalogSource) : String :=
  match s.path with
  | some path => path
  | none => "<" ++ toString (s.data.getD []).length ++ " bytes in memory>"

def rows (s : CatalogSource) : Except CatalogError (List SourceRow) :=
  match s.data with
  | some data => SourceRow.read s.format data
  | none => .error (.unreadable s.describe)

end CatalogSource

end TickFeed
