import TickFeed.Json.Basic
import TickFeed.Binary64.Shortest

/-! # JSON text

The compact text of a value: no spaces, members in the order of their names. A
string escapes the quote, the backslash and the characters below the space, the
common ones by a letter and the others by four hexadecimal digits. -/

namespace TickFeed.Json

/-- An integer in decimal, a double in its shortest digits. -/
def Number.text : Number → String
  | .integer n _ _ => toString n
  | .double x _ => x.jsonText.getD "null"

def hexDigit (n : Nat) : Char := (Nat.toDigits 16 n).headD '0'

def escape (c : Char) : List Char :=
  match c with
  | '"' => ['\\', '"']
  | '\\' => ['\\', '\\']
  | '\x08' => ['\\', 'b']
  | '\x0c' => ['\\', 'f']
  | '\n' => ['\\', 'n']
  | '\r' => ['\\', 'r']
  | '\t' => ['\\', 't']
  | c =>
    if c.toNat < 0x20 then
      ['\\', 'u', '0', '0', hexDigit (c.toNat / 16), hexDigit (c.toNat % 16)]
    else [c]

def quote (s : String) : String :=
  String.ofList ('"' :: s.toList.flatMap escape ++ ['"'])

mutual

def text : Json → String
  | .null => "null"
  | .bool b => if b then "true" else "false"
  | .number n => n.text
  | .string s => quote s
  | .array items => "[" ++ ",".intercalate (itemTexts items) ++ "]"
  | .object members => "\x7b" ++ ",".intercalate (memberTexts members) ++ "\x7d"

def itemTexts : List Json → List String
  | [] => []
  | v :: rest => v.text :: itemTexts rest

def memberTexts : List (String × Json) → List String
  | [] => []
  | m :: rest => memberText m :: memberTexts rest

def memberText : String × Json → String
  | (name, v) => quote name ++ ":" ++ v.text

end

end TickFeed.Json
