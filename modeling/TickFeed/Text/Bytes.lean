/-! # Text in bytes

Data comes as bytes. Text is the bytes of UTF-8; lines end with a line feed. -/

namespace TickFeed.Text

def ofBytes? (bs : List UInt8) : Option String := String.fromUTF8? ⟨bs.toArray⟩

def bytes (s : String) : List UInt8 := s.toUTF8.toList

def lineFeed : UInt8 := 10

def carriageReturn : UInt8 := 13

/-- The pieces between the line feeds. There is one piece more than there are
line feeds. -/
def splitLines (bs : List UInt8) : List (List UInt8) :=
  bs.foldr (fun b lines =>
    if b = lineFeed then [] :: lines
    else match lines with
      | [] => [[b]]
      | line :: lines => (b :: line) :: lines) [[]]

/-- Space, tab, line feed, form feed and carriage return. -/
def isAsciiBlank (b : UInt8) : Bool := b = 32 || b = 9 || b = 10 || b = 12 || b = 13

end TickFeed.Text
