import TickFeed.Bridge.Basic
import TickFeed.Text.Bytes

/-! # Input

The node reads one raw tick a line and submits it. Blank lines do not count,
lines that are no object count as unparsable, and a line that is no text ends
the reading. -/

namespace TickFeed

structure ReaderSummary where
  lines : Nat := 0
  accepted : Nat := 0
  dropped : Nat := 0
  unparsable : Nat := 0
deriving DecidableEq

structure Reader (β : Type) where
  target : β
  summary : ReaderSummary := {}
  /-- A line was no text, and the rest of the input is left alone. -/
  broken : Bool := false

namespace ReaderSummary

def recordOutcome (s : ReaderSummary) : SubmitOutcome → ReaderSummary
  | .accepted => { s with accepted := s.accepted + 1 }
  | .dropped => { s with dropped := s.dropped + 1 }

end ReaderSummary

namespace Reader

variable {β : Type}

/-- A line of text. -/
def readText (submit : β → RawTick → β × SubmitOutcome) (r : Reader β) (line : String) :
    Reader β :=
  if Text.trim line = "" then r
  else
    let summary := { r.summary with lines := r.summary.lines + 1 }
    match RawTick.read? line with
    | some raw =>
      let (target, outcome) := submit r.target raw
      { r with target, summary := summary.recordOutcome outcome }
    | none => { r with summary := { summary with unparsable := summary.unparsable + 1 } }

def readLine (submit : β → RawTick → β × SubmitOutcome) (r : Reader β) (line : List UInt8) :
    Reader β :=
  if r.broken then r
  else
    match Text.ofBytes? line with
    | some line => r.readText submit line
    | none => { r with broken := true }

end Reader

/-- Submit every line of `data`. -/
def pump {β : Type} (submit : β → RawTick → β × SubmitOutcome) (target : β)
    (data : List UInt8) : Reader β :=
  (Text.splitLines data).foldl (Reader.readLine submit) { target }

end TickFeed
