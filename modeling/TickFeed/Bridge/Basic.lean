import TickFeed.Bridge.Config
import TickFeed.Bridge.Fifo
import TickFeed.Bridge.Metrics

/-! # The bridge

A bridge takes raw ticks from a producer that never waits and hands them, one
after the other, to all who subscribed. Between the two is a queue of fixed
capacity: what does not fit is dropped and counted, and that is all there is
against a slow consumer.

A queue and the dispatch loop that reads it make a session. A bridge begins with
a session whose loop has not been started; starting after a stop opens a new
one. A stop is not one step: it marks the bridge as stopped and signals the
loop, it waits until the loop has ended or the time to wait is over, and only
then it takes the inlet away and counts what is left in the queue. So the
definitions below are single steps of producer, loop and owner, which can follow
on each other in any order. A step whose moment has not come changes nothing. -/

namespace TickFeed

inductive CallEnd where
  | success
  | failure
  | panic
deriving DecidableEq, Inhabited

/-- What comes of a call: it ends, or the bridge gives it up. -/
inductive Settlement where
  | ended (how : CallEnd)
  | timedOut
deriving DecidableEq, Inhabited

inductive LoopState where
  | unstarted
  /-- The loop waits for a tick, or for the signal to end. -/
  | waiting
  /-- A tick is with the subscribers; the calls of `pending` have not ended. -/
  | fanning (tick : Tick) (pending : List Nat)
  | ended

/-- A queue and its dispatch loop. -/
structure Session where
  queue : Fifo RawTick
  loop : LoopState
  /-- A stop has signalled the loop and waits for its end. -/
  stopping : Bool

/-- A session of which nothing is left. -/
def Session.closed : Session := ⟨.empty, .ended, false⟩

/-- Where a bridge is in its life. A session is named by its place in the list of
all sessions. -/
inductive BridgePhase where
  | idle (session : Nat)
  | running (session : Nat)
  | stopped
deriving DecidableEq

inductive BridgeError where
  | invalidCapacity
  /-- The queue or the latency window is larger than memory can be. -/
  | tooLarge
  | alreadyRunning
  /-- There is nothing that could run the dispatch loop. -/
  | noRuntime
deriving DecidableEq

def BridgeError.message : BridgeError → String
  | .invalidCapacity => "queue capacity must be at least 1"
  | .tooLarge => "queue or latency window too large"
  | .alreadyRunning => "bridge is already running"
  | .noRuntime => "no tokio runtime available to run the dispatch loop"

inductive SubmitOutcome where
  | accepted
  | dropped
deriving DecidableEq

structure Bridge where
  config : BridgeConfig
  /-- What resolves the tokens of ticks without a symbol, if anything does. -/
  lookup : Option InstrumentLookup
  metrics : BridgeMetrics
  /-- How many have subscribed; they are numbered from zero. -/
  subscribers : Nat
  /-- The number of the tick that was handed out last. -/
  seq : UInt64
  phase : BridgePhase
  /-- The session whose queue takes what is submitted. -/
  inlet : Option Nat
  sessions : List Session

namespace Bridge

/-- The capacity from which on a queue is too large. -/
def capacityLimit : Nat := 2 ^ 61

/-- A bridge that accepts ticks and dispatches none yet. -/
def create (config : BridgeConfig) (lookup : Option InstrumentLookup) :
    Except BridgeError Bridge :=
  if config.queueCapacity = 0 then .error .invalidCapacity
  else
    match BridgeMetrics.ofWindow? config.latencyWindow with
    | some metrics =>
      if config.queueCapacity < capacityLimit then
        .ok {
          config, lookup, metrics
          subscribers := 0
          seq := 0
          phase := .idle 0
          inlet := some 0
          sessions := [⟨.empty, .unstarted, false⟩]
        }
      else .error .tooLarge
    | none => .error .tooLarge

def modifySession (b : Bridge) (id : Nat) (f : Session → Session) : Bridge :=
  { b with sessions := b.sessions.modify id f }

def depthOf (b : Bridge) (id : Nat) : Nat :=
  match b.sessions[id]? with
  | some s => s.queue.size
  | none => 0

/-- How many ticks are in the queue that takes what is submitted. -/
def depth (b : Bridge) : Nat :=
  match b.inlet with
  | some id => b.depthOf id
  | none => 0

def isRunning (b : Bridge) : Bool :=
  match b.phase with
  | .running _ => true
  | _ => false

def stats (b : Bridge) : BridgeStats :=
  let capacity := b.config.queueCapacity
  b.metrics.snapshot b.depth capacity (b.config.thresholds.classify b.depth capacity)

def counters (b : Bridge) : List (String × UInt64) :=
  [("queue_capacity", .ofNat b.config.queueCapacity), ("queue_depth", .ofNat b.depth)] ++
    b.metrics.counters

/-! ## The producer and the subscribers -/

/-- A tick is queued if there is room, and lost otherwise. -/
def submit (b : Bridge) (raw : RawTick) : Bridge × SubmitOutcome :=
  match b.inlet with
  | some id =>
    if b.depthOf id < b.config.queueCapacity then
      ({ b.modifySession id fun s => { s with queue := s.queue.push raw } with
          metrics := b.metrics.recordAccepted }, .accepted)
    else ({ b with metrics := b.metrics.recordDropped }, .dropped)
  | none => ({ b with metrics := b.metrics.recordDropped }, .dropped)

/-- One more subscriber, from the next tick on. -/
def subscribe (b : Bridge) : Bridge := { b with subscribers := b.subscribers + 1 }

/-! ## The dispatch loop -/

def normalize (b : Bridge) (raw : RawTick) : Except TickRejection Tick :=
  match b.lookup with
  | some lookup => raw.normalizeWith lookup
  | none => raw.normalize

/-- The loop of a session takes the next tick from its queue. A valid one gets the
next number and goes to all subscribers; it is the answer. -/
def receive (b : Bridge) (id : Nat) : Bridge × Option Tick :=
  match b.sessions[id]? with
  | some ⟨queue, .waiting, false⟩ =>
    match queue.pop? with
    | some (raw, queue) =>
      match b.normalize raw with
      | .ok tick =>
        let seq := b.seq + 1
        let tick := { tick with seq }
        let loop := .fanning tick (List.range b.subscribers)
        ({ b.modifySession id fun s => { s with queue, loop } with seq }, some tick)
      | .error reason =>
        ({ b.modifySession id fun s => { s with queue } with
            metrics := b.metrics.recordInvalid reason }, none)
    | none => (b, none)
  | _ => (b, none)

def recordSettlement (m : BridgeMetrics) : Settlement → BridgeMetrics
  | .ended .success => m
  | .ended .failure | .ended .panic => m.recordFailure
  | .timedOut => m.recordTimeout

/-- Whether a call can come to this: calls are given up only if there is a limit. -/
def allows (b : Bridge) : Settlement → Bool
  | .ended _ => true
  | .timedOut => b.config.subscriberTimeout.isSome

/-- The call of a subscriber with the tick that is with all of them comes to an
end. -/
def settle (b : Bridge) (id subscriber : Nat) (settlement : Settlement) : Bridge :=
  match b.sessions[id]? with
  | some ⟨_, .fanning tick pending, _⟩ =>
    if subscriber ∈ pending ∧ b.allows settlement then
      let loop := .fanning tick (pending.erase subscriber)
      { b.modifySession id fun s => { s with loop } with
        metrics := recordSettlement b.metrics settlement }
    else b
  | _ => b

/-- All calls with a tick have ended, so many nanoseconds after they began. -/
def finish (b : Bridge) (id : Nat) (latency : UInt64) : Bridge :=
  match b.sessions[id]? with
  | some ⟨_, .fanning _ [], _⟩ =>
    { b.modifySession id fun s => { s with loop := .waiting } with
      metrics := b.metrics.recordBroadcast latency }
  | _ => b

/-- The loop ends when it is signalled, and also when its queue is empty and
nothing feeds it any more. -/
def endLoop (b : Bridge) (id : Nat) : Bridge :=
  match b.sessions[id]? with
  | some ⟨queue, .waiting, stopping⟩ =>
    if stopping ∨ (queue.size = 0 ∧ b.inlet ≠ some id) then
      b.modifySession id fun s => { s with loop := .ended }
    else b
  | _ => b

/-! ## The owner -/

/-- Start the dispatch loop. Ticks that wait in a bridge that was never started
are dispatched first; after a stop the queue is a new one. -/
def start (b : Bridge) (runtime : Bool) : Bridge × Except BridgeError Unit :=
  if ¬runtime then (b, .error .noRuntime)
  else
    -- the phase is moved out of the bridge, and each case has to put one back
    let taken := { b with phase := .stopped }
    match b.phase with
    | .idle id =>
      ({ taken.modifySession id fun s => { s with loop := .waiting } with
          phase := .running id }, .ok ())
    | .running id => ({ taken with phase := .running id }, .error .alreadyRunning)
    | .stopped =>
      let id := taken.sessions.length
      ({ taken with
          phase := .running id
          inlet := some id
          sessions := taken.sessions ++ [⟨.empty, .waiting, false⟩] }, .ok ())

/-- A stop begins. Without a loop it is also at its end. -/
def beginStop (b : Bridge) : Bridge :=
  match b.phase with
  | .stopped => b
  | .idle id =>
    { b.modifySession id fun _ => .closed with
      phase := .stopped
      inlet := none
      metrics := b.metrics.recordDiscarded (b.depthOf id) }
  | .running id =>
    { b.modifySession id fun s => { s with stopping := true } with phase := .stopped }

/-- The stop of a session ends, now that its loop has: nothing is taken any more,
and what is left in its queue is discarded. -/
def endStop (b : Bridge) (id : Nat) : Bridge :=
  match b.sessions[id]? with
  | some ⟨queue, .ended, true⟩ =>
    { b.modifySession id fun _ => .closed with
      inlet := none
      metrics := b.metrics.recordDiscarded queue.size }
  | _ => b

/-- The stop of a session ends although its loop has not: it waits no longer. The
loop is aborted with the tick it is at, and what is in the queue that takes
ticks is discarded. -/
def abortStop (b : Bridge) (id : Nat) : Bridge :=
  match b.sessions[id]? with
  | some ⟨_, .ended, _⟩ => b
  | some ⟨_, _, true⟩ =>
    { b.modifySession id fun _ => .closed with
      inlet := none
      metrics := b.metrics.recordDiscarded b.depth }
  | _ => b

end Bridge

end TickFeed
