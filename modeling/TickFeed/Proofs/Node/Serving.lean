import TickFeed.Proofs.Node.Accounting

/-! # Serving is one of the interleavings

A node that serves lets its loop catch up after each tick, until nothing is queued. The
subscribers take no time, so whatever the loop does at one moment is a list of its single
steps: first for the tick that is taken (`Follows.dispatch`), then for all that wait
(`Follows.runUntil`), and, line by line, for all that is read. -/

namespace TickFeed

namespace Simulation

variable {s : Simulation FeedSinks} {b : Bridge} {steps : List BridgeStep} {loop : LoopState}

theorem now_loopStep (s : Simulation FeedSinks) (session : Nat) (step : LoopStep) :
    (s.loopStep session step).now = s.now := by
  cases step with
  | receive =>
    rw [loopStep, take]
    split <;> rfl
  | settle k =>
    rw [loopStep, settleOne]
    split <;> rfl
  | finish latency => rfl

theorem now_loopSteps (s : Simulation FeedSinks) (session : Nat) (turn : List LoopStep) :
    (turn.foldl (loopStep session) s).now = s.now :=
  List.foldlRecOn (motive := fun after => after.now = s.now) turn _ rfl
    fun after h step _ => (now_loopStep after session step).trans h

theorem subscribers_loopSteps (hb : (b.run steps).Coherent) (turn : List LoopStep) :
    (b.run (steps ++ turn.map (LoopStep.toBridge 0))).subscribers =
      (b.run steps).subscribers := by
  rw [Bridge.run_append]
  refine Bridge.subscribers_run hb fun hmem => ?_
  obtain ⟨step, -, hstep⟩ := List.mem_map.mp hmem
  cases step <;> cases hstep

/-- To dispatch is to take the next tick, and to go on with it at once. -/
theorem dispatch_eq (s : Simulation FeedSinks) (session limit : Nat) :
    s.dispatch session limit = match (s.bridge.receive session).2 with
      | some tick => (s.take session).resume session limit tick
      | none => s.take session := by
  unfold dispatch take
  cases s.bridge.receive session with
  | mk bridge handed => cases handed <;> rfl

/-- A loop that waits takes the next tick and has done with it at the same moment. -/
theorem Follows.dispatch (h : s.Follows b steps .waiting) (hb : b.Coherent)
    (h2 : (b.run steps).subscribers = 2) :
    ∃ turn : List LoopStep, s.dispatch 0 s.now = turn.foldl (Simulation.loopStep 0) s ∧
      (s.dispatch 0 s.now).Follows b (steps ++ turn.map (LoopStep.toBridge 0)) .waiting := by
  have htake := h.take hb h2
  rw [dispatch_eq]
  cases hr : (s.bridge.receive 0).2 with
  | none =>
    rw [hr] at htake
    exact ⟨[.receive], rfl, htake⟩
  | some tick =>
    rw [hr] at htake
    obtain ⟨latency, hresume, hdone⟩ := htake.resume (now_loopStep s 0 .receive).le
    refine ⟨[.receive, .settle 0, .settle 1, .finish latency], hresume, ?_⟩
    rw [List.append_assoc, List.append_assoc] at hdone
    exact hdone

/-- A loop that waits takes as many ticks as it may. -/
theorem Follows.dispatchMany (h : s.Follows b steps .waiting) (hb : b.Coherent)
    (h2 : (b.run steps).subscribers = 2) (count : Nat) :
    ∃ turn : List LoopStep,
      Simulation.dispatchMany 0 s.now count s = turn.foldl (Simulation.loopStep 0) s ∧
      (Simulation.dispatchMany 0 s.now count s).Follows b
        (steps ++ turn.map (LoopStep.toBridge 0)) .waiting := by
  induction count generalizing s steps with
  | zero => exact ⟨[], rfl, (List.append_nil steps).symm ▸ h⟩
  | succ count ih =>
    obtain ⟨turn, heq, hone⟩ := h.dispatch hb h2
    have hnow : (s.dispatch 0 s.now).now = s.now := by
      rw [heq]
      exact now_loopSteps s 0 turn
    obtain ⟨more, hmany, hrest⟩ :=
      ih hone ((subscribers_loopSteps (hb.run steps) turn).trans h2)
    rw [hnow] at hmany hrest
    refine ⟨turn ++ more, ?_, ?_⟩
    · rw [List.foldl_append, ← heq]
      exact hmany
    · rw [List.map_append, ← List.append_assoc]
      exact hrest

/-- A loop that waits catches up at the present moment. -/
theorem Follows.runUntil (h : s.Follows b steps .waiting) (hb : b.Coherent)
    (h2 : (b.run steps).subscribers = 2) (hp : (b.run steps).phase = .running 0) :
    ∃ turn : List LoopStep, s.runUntil s.now = turn.foldl (Simulation.loopStep 0) s ∧
      (s.runUntil s.now).Follows b (steps ++ turn.map (LoopStep.toBridge 0)) .waiting := by
  obtain ⟨turn, heq, hmany⟩ := h.dispatchMany hb h2 (s.bridge.depthOf 0)
  have hrun : s.runUntil s.now = turn.foldl (Simulation.loopStep 0) s := by
    have hnone : s.current? 0 = none := h.current?
    have hloop : s.runLoop 0 s.now = turn.foldl (Simulation.loopStep 0) s := by
      rw [Simulation.runLoop, hnone]
      exact heq
    rw [Simulation.runUntil, show s.bridge.phase = .running 0 from h.bridge ▸ hp]
    dsimp only
    rw [hloop, now_loopSteps, Nat.max_self]
    exact now_loopSteps s 0 turn ▸ rfl
  exact ⟨turn, hrun, hrun ▸ heq ▸ hmany⟩

end Simulation

namespace Feed

variable {f : Feed} {b : Bridge} {summary : ReaderSummary} {lookup : InstrumentLookup}

structure Rests (f : Feed) (b : Bridge) (summary : ReaderSummary) : Prop
    extends f.Accounts b summary where
  waiting : f.node.feed.Follows b f.history .waiting

/-- The loop catches up when it gets a turn of the right steps. -/
theorem Rests.catchUp (h : f.Rests b summary) (hb : b.Fresh lookup) :
    ∃ turn, f.node.catchUp = (f.goOn turn).node ∧ (f.goOn turn).Rests b summary := by
  have hcoherent := hb.orderly.coherent
  have h2 := (h.subscribers hcoherent).trans hb.subscribers
  obtain ⟨turn, heq, hwaiting⟩ := h.waiting.runUntil hcoherent h2 (h.running hb).1
  refine ⟨turn, congrArg (fun feed => { f.node with feed }) heq,
    h.goOn hcoherent hb.subscribers turn, ?_⟩
  rw [heq] at hwaiting
  exact hwaiting

theorem Rests.submitted (h : f.Rests b summary) (hb : b.Coherent) (raw : RawTick)
    (turns : List (List LoopStep)) :
    Rests ⟨(f.node.submit raw).1, turns, f.history ++ [.submit raw]⟩ b
      ({ summary with lines := summary.lines + 1 }.recordOutcome (f.node.submit raw).2) :=
  ⟨h.toAccounts.submitted hb raw turns, h.waiting.submit hb raw⟩

/-- Where the loop catches up after each tick, it has had turns of the right steps. -/
theorem Rests.readLines (hb : b.Fresh lookup) (lines : List (List UInt8)) {turn : List LoopStep}
    (h : (f.goOn turn).Rests b summary) (broken : Bool) :
    ∃ turns last,
      let read := lines.foldl (Reader.readLine submit) ⟨{ f with turns }, summary, broken⟩
      lines.foldl (Reader.readLine Node.submitLive) ⟨(f.goOn turn).node, summary, broken⟩ =
        ⟨(read.target.goOn last).node, read.summary, read.broken⟩ := by
  induction lines generalizing f turn summary broken with
  | nil => exact ⟨[], turn, rfl⟩
  | cons line lines ih =>
    simp only [List.foldl_cons, Reader.readLine_eq]
    cases broken with
    | true => exact ih h true
    | false =>
      cases LineContent.of line with
      | blank => exact ih h false
      | noText => exact ih h true
      | unparsable => exact ih ⟨h.toAccounts.unparsable, h.waiting⟩ false
      | tick raw =>
        -- what the loop does after this line is its turn before the next tick
        have hsubmitted := h.submitted hb.orderly.coherent raw []
        obtain ⟨turn', hcaught, hrests⟩ := hsubmitted.catchUp hb
        obtain ⟨turns, last, hread⟩ := ih hrests false
        refine ⟨turn :: turns, last, ?_⟩
        rw [← hcaught] at hread
        exact hread

end Feed

namespace Node

/-- What a started node serves is one of the interleavings: the loop has its turns when it
catches up. -/
theorem serve_interleaves {config : NodeConfig} {node : Node} (h : create config = .ok node)
    (catalog : Catalog) :
    ∃ started, (node.replaceCatalog catalog).start = .ok started ∧ ∀ data, ∃ turns last,
      let read := pump Feed.submit ⟨started, turns, []⟩ data
      started.serve data = ((read.target.goOn last).node.stop, read.summary) := by
  obtain ⟨started, hstart, hfresh, hcounts, hcalls⟩ := start_of_create h catalog
  refine ⟨started, hstart, fun data => ?_⟩
  have hrests : (Feed.goOn ⟨started, [], []⟩ []).Rests started.bridge {} :=
    ⟨.start hfresh hcounts hcalls [], Feed.follows_start hfresh hcounts hcalls⟩
  obtain ⟨turns, last, hread⟩ := hrests.readLines hfresh (Text.splitLines data) false
  refine ⟨turns, last, ?_⟩
  exact congrArg (fun r : Reader Node => (r.target.stop, r.summary)) hread

end Node

end TickFeed
