import TickFeed.Bridge.Basic

/-! # Runs of a bridge

A run is a list of steps in the order in which they happen, whoever takes them.
The steps of loop and owner name the session that they are about. -/

namespace TickFeed

/-- One step of the producer, of a dispatch loop or of the owner. -/
inductive BridgeStep where
  | submit (raw : RawTick)
  | subscribe
  | start (runtime : Bool)
  | receive (session : Nat)
  | settle (session subscriber : Nat) (settlement : Settlement)
  | finish (session : Nat) (latency : UInt64)
  | endLoop (session : Nat)
  | beginStop
  | endStop (session : Nat)
  | abortStop (session : Nat)

namespace Bridge

def step (b : Bridge) : BridgeStep → Bridge
  | .submit raw => (b.submit raw).1
  | .subscribe => b.subscribe
  | .start runtime => (b.start runtime).1
  | .receive session => (b.receive session).1
  | .settle session subscriber settlement => b.settle session subscriber settlement
  | .finish session latency => b.finish session latency
  | .endLoop session => b.endLoop session
  | .beginStop => b.beginStop
  | .endStop session => b.endStop session
  | .abortStop session => b.abortStop session

def run (b : Bridge) (steps : List BridgeStep) : Bridge := steps.foldl step b

/-- The tick that a step hands out, and how many subscribers get it. -/
def handedBy (b : Bridge) : BridgeStep → Option (Tick × Nat)
  | .receive session => (b.receive session).2.map (·, b.subscribers)
  | _ => none

/-- The ticks that a subscriber is handed in a run, in order. -/
def handedTo (subscriber : Nat) (b : Bridge) : List BridgeStep → List Tick
  | [] => []
  | s :: steps =>
    let rest := handedTo subscriber (b.step s) steps
    match b.handedBy s with
    | some (tick, count) => if subscriber < count then tick :: rest else rest
    | none => rest

end Bridge

end TickFeed
