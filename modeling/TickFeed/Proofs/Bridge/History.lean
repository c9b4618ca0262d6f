import TickFeed.Bridge.Run

/-! # The history of a run

What the single steps of a run show, each as a function of the bridge before the
step, and `trace`, which puts together what the steps of a run show in their
order. So a statement about a whole run is one about lists: of the raw ticks that
were accepted, of those that the loops took, of the ticks that were handed out,
of the calls that ended and of the loops that a stop gave up. -/

namespace TickFeed

def LoopState.isLive : LoopState → Bool
  | .ended => false
  | _ => true

def LoopState.isFanning : LoopState → Bool
  | .fanning .. => true
  | _ => false

def LoopState.tick? : LoopState → Option Tick
  | .fanning tick _ => some tick
  | _ => none

def LoopState.pending : LoopState → List Nat
  | .fanning _ pending => pending
  | _ => []

structure EndedCall where
  session : Nat
  subscriber : Nat
  settlement : Settlement
deriving DecidableEq

namespace Bridge

/-- The raw tick that a step puts into a queue. -/
def acceptedBy (b : Bridge) : BridgeStep → Option RawTick
  | .submit raw => if (b.submit raw).2 = .accepted then some raw else none
  | _ => none

/-- The raw tick that a step takes from its queue. -/
def takenBy (b : Bridge) : BridgeStep → Option RawTick
  | .receive id =>
    match b.sessions[id]? with
    | some ⟨queue, .waiting, false⟩ => queue.pop?.map (·.1)
    | _ => none
  | _ => none

def endedBy (b : Bridge) : BridgeStep → Option EndedCall
  | .settle id k x =>
    match b.sessions[id]? with
    | some ⟨_, .fanning _ pending, _⟩ =>
      if k ∈ pending ∧ b.allows x then some ⟨id, k, x⟩ else none
    | _ => none
  | _ => none

/-- The loop that a step, the end of a stop that waits no longer, gives up. -/
def givenUpBy (b : Bridge) : BridgeStep → Option LoopState
  | .abortStop id =>
    match b.sessions[id]? with
    | some ⟨_, loop, true⟩ => if loop.isLive then some loop else none
    | _ => none
  | _ => none

/-- What `f` sees of the steps of a run, in their order. -/
def trace {α : Type} (f : Bridge → BridgeStep → Option α) (b : Bridge) : List BridgeStep → List α
  | [] => []
  | step :: steps => (f b step).toList ++ trace f (b.step step) steps

def accepted (b : Bridge) (steps : List BridgeStep) : List RawTick := b.trace acceptedBy steps

/-- The raw ticks that the loops take in a run, valid or not. -/
def dispatched (b : Bridge) (steps : List BridgeStep) : List RawTick := b.trace takenBy steps

/-- The ticks that a run hands out, whoever gets them. -/
def handedOut (b : Bridge) (steps : List BridgeStep) : List Tick :=
  b.trace (fun b step => (b.handedBy step).map (·.1)) steps

def endedCalls (b : Bridge) (steps : List BridgeStep) : List EndedCall := b.trace endedBy steps

def givenUp (b : Bridge) (steps : List BridgeStep) : List LoopState := b.trace givenUpBy steps

theorem run_nil (b : Bridge) : b.run [] = b := rfl

theorem run_cons (b : Bridge) (step : BridgeStep) (steps : List BridgeStep) :
    b.run (step :: steps) = (b.step step).run steps := rfl

theorem run_append (b : Bridge) (before after : List BridgeStep) :
    b.run (before ++ after) = (b.run before).run after := List.foldl_append

theorem trace_cons {α : Type} (f : Bridge → BridgeStep → Option α) (b : Bridge)
    (step : BridgeStep) (steps : List BridgeStep) :
    b.trace f (step :: steps) = (f b step).toList ++ (b.step step).trace f steps := rfl

theorem endedCalls_cons (b : Bridge) (step : BridgeStep) (steps : List BridgeStep) :
    b.endedCalls (step :: steps) = (b.endedBy step).toList ++ (b.step step).endedCalls steps := rfl

/-- What a run shows after a moment is what the rest of it shows by itself. -/
theorem trace_append {α : Type} (f : Bridge → BridgeStep → Option α) (b : Bridge)
    (before after : List BridgeStep) :
    b.trace f (before ++ after) = b.trace f before ++ (b.run before).trace f after := by
  induction before generalizing b with
  | nil => rfl
  | cons step before ih =>
    rw [List.cons_append, trace_cons, trace_cons, ih, run_cons, List.append_assoc]

/-- What a run shows, one of its steps shows at its moment. -/
theorem exists_of_mem_trace {α : Type} {f : Bridge → BridgeStep → Option α} {b : Bridge}
    {steps : List BridgeStep} {a : α} (h : a ∈ b.trace f steps) :
    ∃ step ∈ steps, ∃ now, f now step = some a := by
  induction steps generalizing b with
  | nil => cases h
  | cons step steps ih =>
    rw [trace_cons, List.mem_append, Option.mem_toList] at h
    rcases h with h | h
    · exact ⟨step, List.mem_cons_self, b, h⟩
    · obtain ⟨later, hmem, hlater⟩ := ih h
      exact ⟨later, List.mem_cons_of_mem _ hmem, hlater⟩

/-- A subscriber is handed what it sees of the steps. -/
theorem handedTo_eq_trace (k : Nat) (b : Bridge) (steps : List BridgeStep) :
    handedTo k b steps = b.trace (fun b step =>
      (b.handedBy step).bind fun t => if k < t.2 then some t.1 else none) steps := by
  induction steps generalizing b with
  | nil => rfl
  | cons step steps ih =>
    rw [handedTo, trace_cons, ih]
    cases b.handedBy step with
    | none => rfl
    | some t =>
      obtain ⟨tick, count⟩ := t
      by_cases h : k < count <;> simp [h]

theorem handedTo_append (k : Nat) (b : Bridge) (before after : List BridgeStep) :
    handedTo k b (before ++ after) = handedTo k b before ++ handedTo k (b.run before) after := by
  simp only [handedTo_eq_trace, trace_append]

end Bridge

end TickFeed
