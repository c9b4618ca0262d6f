import TickFeed.Bridge.Basic

/-! # A bridge on a clock of its own

Time is a number of milliseconds that moves only while the dispatch loop runs. A
call of a subscriber takes as long as the subscriber says, the calls with one
tick begin together, and the next tick is taken when the last of them has ended.
What takes no time happens at once. -/

namespace TickFeed

/-- A number of subscribers, who are numbered from zero. -/
class Audience (σ : Type) where
  /-- How many milliseconds a call of a subscriber with a tick takes, and how it
  ends. -/
  respond : σ → (subscriber : Nat) → Tick → Nat × CallEnd
  /-- What a call that succeeds leaves behind. -/
  accept : σ → (subscriber : Nat) → Tick → σ

structure PendingCall where
  subscriber : Nat
  due : Nat
  settlement : Settlement
deriving DecidableEq

structure Simulation (σ : Type) where
  bridge : Bridge
  audience : σ
  /-- Milliseconds from the beginning. -/
  now : Nat
  /-- When the calls of the latest tick began. -/
  begun : Nat
  /-- The calls that have not ended. -/
  calls : List PendingCall

/-- The length of time in milliseconds; a part of one counts as a whole one. -/
def Duration.milliseconds (d : Duration) : Nat := (d.nanoseconds + 999999) / 1000000

namespace Simulation

variable {σ : Type} [Audience σ]

def ofBridge (bridge : Bridge) (audience : σ) : Simulation σ := ⟨bridge, audience, 0, 0, []⟩

/-- The call of a subscriber that begins now. The bridge gives it up when it takes
longer than the limit. -/
def call (s : Simulation σ) (tick : Tick) (subscriber : Nat) : PendingCall :=
  let (time, how) := Audience.respond s.audience subscriber tick
  match s.bridge.config.subscriberTimeout.map Duration.milliseconds with
  | some limit =>
    if limit < time then ⟨subscriber, s.now + limit, .timedOut⟩
    else ⟨subscriber, s.now + time, .ended how⟩
  | none => ⟨subscriber, s.now + time, .ended how⟩

def settle (session : Nat) (tick : Tick) (s : Simulation σ) (c : PendingCall) : Simulation σ :=
  { s with
    bridge := s.bridge.settle session c.subscriber c.settlement
    audience := if c.settlement = .ended .success
      then Audience.accept s.audience c.subscriber tick else s.audience }

/-- Go on with the tick that is with the subscribers, no longer than until
`limit`. -/
def resume (s : Simulation σ) (session limit : Nat) (tick : Tick) : Simulation σ :=
  let (ready, later) := s.calls.partition (·.due ≤ limit)
  let s := ready.foldl (settle session tick) { s with calls := later }
  if later.isEmpty then
    let now := (ready.map (·.due)).foldl max s.now
    let latency := UInt64.ofNat ((now - s.begun) * 1000000)
    { s with now, bridge := s.bridge.finish session latency }
  else { s with now := limit }

def current? (s : Simulation σ) (session : Nat) : Option Tick :=
  match s.bridge.sessions[session]? with
  | some ⟨_, .fanning tick _, _⟩ => some tick
  | _ => none

/-- Take the next tick, if there is one and the last one is done. -/
def dispatch (s : Simulation σ) (session limit : Nat) : Simulation σ :=
  match s.bridge.receive session with
  | (bridge, some tick) =>
    let calls := (List.range bridge.subscribers).map (s.call tick)
    { s with bridge, begun := s.now, calls }.resume session limit tick
  | (bridge, none) => { s with bridge }

def dispatchMany (session limit : Nat) : (count : Nat) → Simulation σ → Simulation σ
  | 0, s => s
  | count + 1, s => dispatchMany session limit count (s.dispatch session limit)

/-- Let the loop of a session run until `limit`. -/
def runLoop (s : Simulation σ) (session limit : Nat) : Simulation σ :=
  let s := match s.current? session with
    | some tick => s.resume session limit tick
    | none => s
  dispatchMany session limit (s.bridge.depthOf session) s

def runUntil (s : Simulation σ) (limit : Nat) : Simulation σ :=
  let s := match s.bridge.phase with
    | .running session => s.runLoop session limit
    | _ => s
  { s with now := max s.now limit }

/-- Let so many milliseconds pass. Who waits for no time keeps the turn, so the
loop does nothing then. -/
def run (s : Simulation σ) (milliseconds : Nat) : Simulation σ :=
  if milliseconds = 0 then s else s.runUntil (s.now + milliseconds)

def submit (s : Simulation σ) (raw : RawTick) : Simulation σ × SubmitOutcome :=
  let (bridge, outcome) := s.bridge.submit raw
  ({ s with bridge }, outcome)

def start (s : Simulation σ) (runtime : Bool) : Except BridgeError (Simulation σ) :=
  let (bridge, outcome) := s.bridge.start runtime
  outcome.map fun () => { s with bridge }

/-- Wait for the loop of a session whose stop has begun. When the tick that is
with the subscribers takes longer than the bridge waits, it is given up. -/
def awaitStop (s : Simulation σ) (session : Nat) : Simulation σ :=
  let s := match s.current? session with
    | some tick => s.resume session (s.now + s.bridge.config.stopGrace.milliseconds) tick
    | none => s
  match s.current? session with
  | some _ => { s with bridge := s.bridge.abortStop session, calls := [] }
  | none => { s with bridge := (s.bridge.endLoop session).endStop session }

def stop (s : Simulation σ) : Simulation σ :=
  let begun := { s with bridge := s.bridge.beginStop }
  match s.bridge.phase with
  | .running session => begun.awaitStop session
  | _ => begun

end Simulation

end TickFeed
