import TickFeed.Bridge.Simulation

/-! # Subscribers that keep what they get

A recorder keeps the ticks of its calls that succeed. It can be set to take its
time and to fail, with every tick or with those of one symbol. -/

namespace TickFeed

structure Recorder where
  /-- The symbol that it waits for; without one it waits for all. -/
  symbol : Option String
  /-- How many milliseconds a call with such a tick takes. -/
  delay : Nat
  /-- How a call with such a tick ends. -/
  ending : CallEnd
  /-- What it kept, the latest first. -/
  kept : List Tick
deriving DecidableEq

namespace Recorder

def waitsFor (r : Recorder) (tick : Tick) : Bool :=
  match r.symbol with
  | some symbol => tick.symbol = symbol
  | none => true

/-- How long a call takes and how it ends. Other ticks are kept at once. -/
def respond (r : Recorder) (tick : Tick) : Nat × CallEnd :=
  if r.waitsFor tick then (r.delay, r.ending) else (0, .success)

def keep (r : Recorder) (tick : Tick) : Recorder := { r with kept := tick :: r.kept }

def ticks (r : Recorder) : List Tick := r.kept.reverse

instance : Audience (List Recorder) where
  respond rs k tick :=
    match rs[k]? with
    | some r => r.respond tick
    | none => (0, .success)
  accept rs k tick := rs.modify k (·.keep tick)

end Recorder

def Simulation.addRecorder (s : Simulation (List Recorder)) (r : Recorder) :
    Simulation (List Recorder) :=
  { s with bridge := s.bridge.subscribe, audience := s.audience ++ [r] }

end TickFeed
