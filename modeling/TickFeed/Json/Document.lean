import TickFeed.Json.Numeral

/-! # JSON documents

`Document.read?` reads a document to the tree of what is written: repeated names,
the spelling of a numeral and escapes that name half a surrogate pair are still
there, for those who take a document apart differ on them. The reader is a
machine that takes one character at a time and keeps the arrays and objects it
is inside of on a stack, so reading one text after another is running the
machine on from where it stands. `Document.toJson?` is the value of a tree. -/

namespace TickFeed.Json

/-- What a document says. A text is absent when one of its escapes names half a
surrogate pair. -/
inductive Document where
  | null
  | bool (b : Bool)
  | number (n : Numeral)
  | string (text : Option String)
  | array (items : List Document)
  | object (members : List (Option String × Document))

namespace Document

/-- A character of a string, or a code unit named by an escape. -/
inductive Piece where
  | char (c : Char)
  | unit (n : Nat)
deriving DecidableEq

/-- The text of the pieces of a string. Two units that make up a surrogate pair
are one character; half a pair is no text. -/
def textOfPieces : List Piece → Option (List Char)
  | [] => some []
  | .char c :: rest => (textOfPieces rest).map (c :: ·)
  | .unit n :: rest =>
    if n < 0xD800 ∨ 0xDFFF < n then (textOfPieces rest).map (Char.ofNat n :: ·)
    else match rest with
      | .unit m :: rest =>
        if n < 0xDC00 ∧ 0xDC00 ≤ m ∧ m ≤ 0xDFFF then
          (textOfPieces rest).map
            (Char.ofNat (0x10000 + (n - 0xD800) * 0x400 + (m - 0xDC00)) :: ·)
        else none
      | _ => none

/-- How far an escape inside a string has come. -/
inductive Escape where
  | none
  | started
  | unit (digits : Nat) (value : Nat)
deriving DecidableEq

/-- How far a numeral has come. -/
inductive Phase where
  | sign
  | zero
  | whole
  | point
  | fraction
  | mark
  | exponentSign
  | exponent
deriving DecidableEq

/-- The digits of a numeral so far, each part in reverse. -/
structure Partial where
  neg : Bool
  whole : List Char
  fraction : List Char
  exponentNeg : Bool
  exponent : List Char

/-- An array or object that is not closed yet, with what is before the place
where the machine is, in reverse. -/
inductive Frame where
  | array (before : List Document)
  | object (before : List (Option String × Document)) (name : Option String)

/-- What the machine expects. -/
inductive Mode where
  /-- A value. -/
  | value
  /-- A value, or the end of an array that is still empty. -/
  | firstItem
  /-- A name, or the end of an object that is still empty. -/
  | firstName
  /-- A name, after the members read so far. -/
  | name (before : List (Option String × Document))
  /-- The colon after a name. -/
  | colon (before : List (Option String × Document)) (name : Option String)
  /-- The rest of a word. -/
  | word (rest : List Char) (meaning : Document)
  | numeral (phase : Phase) (digits : Partial)
  /-- The rest of a string; a string that is a name comes with the members
  before it. -/
  | text (member : Option (List (Option String × Document))) (pieces : List Piece)
      (escape : Escape)
  /-- What follows a complete value. -/
  | after (v : Document)

structure Machine where
  stack : List Frame
  mode : Mode

def isSpace (c : Char) : Bool := c = ' ' || c = '\t' || c = '\n' || c = '\r'

def hexDigit? (c : Char) : Option Nat :=
  if '0' ≤ c ∧ c ≤ '9' then some (c.toNat - '0'.toNat)
  else if 'a' ≤ c ∧ c ≤ 'f' then some (c.toNat - 'a'.toNat + 10)
  else if 'A' ≤ c ∧ c ≤ 'F' then some (c.toNat - 'A'.toNat + 10)
  else none

def escaped? : Char → Option Char
  | '"' => some '"'
  | '\\' => some '\\'
  | '/' => some '/'
  | 'b' => some '\x08'
  | 'f' => some '\x0c'
  | 'n' => some '\n'
  | 'r' => some '\r'
  | 't' => some '\t'
  | _ => none

/-- The numeral read so far, if it may end here. -/
def Partial.finish? (phase : Phase) (d : Partial) : Option Document :=
  match phase with
  | .zero | .whole | .fraction => some (.number ⟨d.neg, d.whole.reverse, d.fraction.reverse, none⟩)
  | .exponent =>
    let n : Int := Text.digitsValue d.exponent.reverse
    some (.number ⟨d.neg, d.whole.reverse, d.fraction.reverse,
      some (if d.exponentNeg then -n else n)⟩)
  | .sign | .point | .mark | .exponentSign => none

/-- The numeral with one more character, when that is part of it. -/
def Partial.push? (phase : Phase) (d : Partial) (c : Char) : Option (Phase × Partial) :=
  match phase with
  | .sign =>
    if c = '0' then some (.zero, { d with whole := ['0'] })
    else if c.isDigit then some (.whole, { d with whole := [c] })
    else none
  | .zero => more
  | .whole => if c.isDigit then some (.whole, { d with whole := c :: d.whole }) else more
  | .point => if c.isDigit then some (.fraction, { d with fraction := [c] }) else none
  | .fraction =>
    if c.isDigit then some (.fraction, { d with fraction := c :: d.fraction }) else exponentMark
  | .mark =>
    if c = '-' then some (.exponentSign, { d with exponentNeg := true })
    else if c = '+' then some (.exponentSign, d)
    else if c.isDigit then some (.exponent, { d with exponent := [c] })
    else none
  | .exponentSign => if c.isDigit then some (.exponent, { d with exponent := [c] }) else none
  | .exponent =>
    if c.isDigit then some (.exponent, { d with exponent := c :: d.exponent }) else none
where
  exponentMark : Option (Phase × Partial) :=
    if c = 'e' ∨ c = 'E' then some (.mark, d) else none
  more : Option (Phase × Partial) := if c = '.' then some (.point, d) else exponentMark

def begin? (stack : List Frame) (c : Char) : Option Machine :=
  let empty : Partial := ⟨false, [], [], false, []⟩
  match c with
  | '[' => some ⟨.array [] :: stack, .firstItem⟩
  | '{' => some ⟨stack, .firstName⟩
  | '"' => some ⟨stack, .text none [] .none⟩
  | 'n' => some ⟨stack, .word "ull".toList .null⟩
  | 't' => some ⟨stack, .word "rue".toList (.bool true)⟩
  | 'f' => some ⟨stack, .word "alse".toList (.bool false)⟩
  | '-' => some ⟨stack, .numeral .sign { empty with neg := true }⟩
  | c => (empty.push? .sign c).map fun (phase, d) => ⟨stack, .numeral phase d⟩

/-- The value `v` is complete and `c` follows. -/
def follow? (stack : List Frame) (v : Document) (c : Char) : Option Machine :=
  if isSpace c then some ⟨stack, .after v⟩
  else match stack, c with
    | .array before :: stack, ',' => some ⟨.array (v :: before) :: stack, .value⟩
    | .array before :: stack, ']' => some ⟨stack, .after (.array (v :: before).reverse)⟩
    | .object before name :: stack, ',' => some ⟨stack, .name ((name, v) :: before)⟩
    | .object before name :: stack, '}' =>
      some ⟨stack, .after (.object ((name, v) :: before).reverse)⟩
    | _, _ => none

def endText (stack : List Frame) (member : Option (List (Option String × Document)))
    (pieces : List Piece) : Machine :=
  let text := (textOfPieces pieces.reverse).map String.ofList
  match member with
  | some before => ⟨stack, .colon before text⟩
  | none => ⟨stack, .after (.string text)⟩

def stepText? (stack : List Frame) (member : Option (List (Option String × Document)))
    (pieces : List Piece) (escape : Escape) (c : Char) : Option Machine :=
  match escape with
  | .none =>
    if c = '"' then some (endText stack member pieces)
    else if c = '\\' then some ⟨stack, .text member pieces .started⟩
    else if c.toNat < 0x20 then none
    else some ⟨stack, .text member (.char c :: pieces) .none⟩
  | .started =>
    if c = 'u' then some ⟨stack, .text member pieces (.unit 0 0)⟩
    else (escaped? c).map fun e => ⟨stack, .text member (.char e :: pieces) .none⟩
  | .unit digits value =>
    (hexDigit? c).map fun h =>
      let value := 16 * value + h
      if digits = 3 then ⟨stack, .text member (.unit value :: pieces) .none⟩
      else ⟨stack, .text member pieces (.unit (digits + 1) value)⟩

def step? (m : Machine) (c : Char) : Option Machine :=
  match m.mode with
  | .value => if isSpace c then some m else begin? m.stack c
  | .firstItem =>
    if isSpace c then some m
    else match m.stack, c with
      | .array _ :: stack, ']' => some ⟨stack, .after (.array [])⟩
      | stack, c => begin? stack c
  | .firstName =>
    if isSpace c then some m
    else if c = '}' then some ⟨m.stack, .after (.object [])⟩
    else if c = '"' then some ⟨m.stack, .text (some []) [] .none⟩
    else none
  | .name before =>
    if isSpace c then some m
    else if c = '"' then some ⟨m.stack, .text (some before) [] .none⟩
    else none
  | .colon before name =>
    if isSpace c then some m
    else if c = ':' then some ⟨.object before name :: m.stack, .value⟩
    else none
  | .word rest meaning =>
    match rest with
    | [] => follow? m.stack meaning c
    | r :: rest =>
      if c ≠ r then none
      else if rest = [] then some ⟨m.stack, .after meaning⟩
      else some ⟨m.stack, .word rest meaning⟩
  | .numeral phase d =>
    match d.push? phase c with
    | some (phase, d) => some ⟨m.stack, .numeral phase d⟩
    | none => (d.finish? phase).bind fun v => follow? m.stack v c
  | .text member pieces escape => stepText? m.stack member pieces escape c
  | .after v => follow? m.stack v c

/-- The value read, when the text may end here. -/
def Machine.finish? (m : Machine) : Option Document :=
  match m.stack, m.mode with
  | [], .after v => some v
  | [], .numeral phase d => d.finish? phase
  | _, _ => none

def Machine.start : Machine := ⟨[], .value⟩

def read? (s : String) : Option Document :=
  (s.toList.foldlM step? Machine.start).bind Machine.finish?

end Document

mutual

/-- The value of a document in which at most `depth` arrays and objects are
nested. -/
def Document.toJson? (depth : Nat) : Document → Option Json
  | .null => some .null
  | .bool b => some (.bool b)
  | .number n => n.toNumber?.map .number
  | .string text => text.map .string
  | .array items =>
    match depth with
    | 0 => none
    | depth + 1 => (Document.itemsToJson? depth items).map .array
  | .object members =>
    match depth with
    | 0 => none
    | depth + 1 =>
      (Document.membersToJson? depth members).map fun ms => .object (Fields.ofList ms).members

def Document.itemsToJson? (depth : Nat) : List Document → Option (List Json)
  | [] => some []
  | v :: rest => do return (← v.toJson? depth) :: (← itemsToJson? depth rest)

def Document.membersToJson? (depth : Nat) :
    List (Option String × Document) → Option (List (String × Json))
  | [] => some []
  | m :: rest => do return (← memberToJson? depth m) :: (← membersToJson? depth rest)

def Document.memberToJson? (depth : Nat) : Option String × Document → Option (String × Json)
  | (name, v) => do return (← name, ← v.toJson? depth)

end

/-- How many arrays and objects may be nested in a value. -/
def maxDepth : Nat := 127

def read? (s : String) : Option Json := (Document.read? s).bind (Document.toJson? maxDepth)

/-- The object that the whole text spells, and no other value. -/
def Fields.read? (s : String) : Option Fields :=
  match Json.read? s with
  | some (.object members) => some (Fields.ofList members)
  | _ => none

end TickFeed.Json
