import TickFeed.Node.Basic
import TickFeed.Proofs.Node.Tally

/-! # The loop of a node, step by step

The clock of a node lets its loop finish what it can at every moment. Here the loop takes
single steps instead, whenever it likes (`LoopStep`): it takes the next tick, the call of
one subscriber ends, or the tick is done. `Follows` says that the node is where the steps
of its bridge lead, that its counts tally with them, and which calls are open. Each step
keeps that, and so does a stop, which finishes the tick that is with the subscribers. -/

namespace TickFeed

/-- A single step of the dispatch loop: it takes the next tick, the call of a subscriber
ends, or all of them have and their time is taken. A loop that is fed and not told to
stop takes no other steps. -/
inductive LoopStep where
  | receive
  | settle (subscriber : Nat)
  | finish (latency : UInt64)

/-- What that is to the bridge when the subscriber does not fail. -/
def LoopStep.toBridge (session : Nat) : LoopStep → BridgeStep
  | .receive => .receive session
  | .settle subscriber => .settle session subscriber (.ended .success)
  | .finish latency => .finish session latency

namespace Simulation

variable {σ : Type} [Audience σ]

def take (s : Simulation σ) (session : Nat) : Simulation σ :=
  match s.bridge.receive session with
  | (bridge, some tick) =>
    { s with bridge, begun := s.now, calls := (List.range bridge.subscribers).map (s.call tick) }
  | (bridge, none) => { s with bridge }

/-- The call of one subscriber ends, whichever calls are over before. -/
def settleOne (s : Simulation σ) (session subscriber : Nat) : Simulation σ :=
  match s.current? session, s.calls.find? (·.subscriber = subscriber) with
  | some tick, some c =>
    settle session tick { s with calls := s.calls.eraseP (·.subscriber = subscriber) } c
  | _, _ => s

def loopStep (session : Nat) (s : Simulation σ) : LoopStep → Simulation σ
  | .receive => s.take session
  | .settle subscriber => s.settleOne session subscriber
  | .finish latency => { s with bridge := s.bridge.finish session latency }

end Simulation

/-- The step can be part of a stop that has the time for it: no tick is taken or given
up, and no call fails. -/
def BridgeStep.isClosing : BridgeStep → Bool
  | .settle _ _ x => x = .ended .success
  | .finish _ _ | .beginStop | .endLoop _ | .endStop _ => true
  | _ => false

/-! ## The subscribers of a node -/

/-- The call of a subscriber of a node, which is due when it begins and succeeds. -/
def FeedSinks.call (due subscriber : Nat) : PendingCall := ⟨subscriber, due, .ended .success⟩

/-- No time limit ends a call that takes no time. -/
theorem FeedSinks.call_eq (s : Simulation FeedSinks) (tick : Tick) :
    s.call tick = FeedSinks.call s.now := by
  funext k
  show s.call tick k = ⟨k, s.now + 0, .ended .success⟩
  unfold Simulation.call
  dsimp only [Audience.respond]
  split
  · rw [if_neg (Nat.not_lt_zero _)]
  · rfl

theorem FeedSinks.accept_counts (sinks : FeedSinks) (k : Nat) (tick : Tick) :
    (Audience.accept sinks k tick).counts =
      if k = 1 then sinks.counts.count tick else sinks.counts := by
  match k with
  | 0 | 1 => rfl
  | k + 2 => exact (if_neg (by omega)).symm

theorem FeedSinks.find?_call {due k : Nat} {pending : List Nat} (h : k ∈ pending) :
    (pending.map (call due)).find? (·.subscriber = k) = some (call due k) := by
  have hfound : (pending.find? (· = k)).isSome := List.find?_isSome.mpr ⟨k, h, by simp⟩
  obtain ⟨j, hj⟩ := Option.isSome_iff_exists.mp hfound
  have he : decide (j = k) = true := List.find?_some (p := (· = k)) hj
  rw [List.find?_map]
  show (pending.find? (· = k)).map (call due) = _
  rw [hj, of_decide_eq_true he]
  rfl

theorem FeedSinks.eraseP_call (due k : Nat) (pending : List Nat) :
    (pending.map (call due)).eraseP (·.subscriber = k) = (pending.erase k).map (call due) := by
  rw [List.eraseP_map, List.erase_eq_eraseP]
  congr 2
  funext j
  exact decide_eq_decide.mpr ⟨Eq.symm, Eq.symm⟩

namespace Simulation

/-- The loop of the node is where these steps brought the bridge, with the calls that
have not ended, and its counts tally. -/
structure Follows (s : Simulation FeedSinks) (b : Bridge) (steps : List BridgeStep)
    (loop : LoopState) : Prop where
  bridge : s.bridge = b.run steps
  tallied : b.Tallied steps s.audience.counts loop
  serving : loop = .waiting ∨ ∃ tick pending, loop = .fanning tick pending
  calls : ∃ due ≤ s.now, s.calls = loop.pending.map (FeedSinks.call due)

variable {s : Simulation FeedSinks} {b : Bridge} {steps : List BridgeStep} {loop : LoopState}

theorem Follows.current? (h : s.Follows b steps loop) : s.current? 0 = loop.tick? := by
  obtain ⟨queue, stopping, hs⟩ := h.tallied.session
  rw [← h.bridge] at hs
  rw [Simulation.current?, hs]
  cases loop <;> rfl

theorem Follows.submit (h : s.Follows b steps loop) (hb : b.Coherent) (raw : RawTick) :
    (s.submit raw).1.Follows b (steps ++ [.submit raw]) loop := by
  refine ⟨?_, h.tallied.submit hb raw, h.serving, h.calls⟩
  rw [Bridge.run_append, ← h.bridge]
  rfl

/-- The loop takes the next tick, and both calls with a valid one begin. -/
theorem Follows.take (h : s.Follows b steps loop) (hb : b.Coherent)
    (h2 : (b.run steps).subscribers = 2) :
    (s.take 0).Follows b (steps ++ [.receive 0]) (match (s.bridge.receive 0).2 with
      | some tick => .fanning tick [0, 1]
      | none => loop) := by
  have hrun : b.run (steps ++ [.receive 0]) = ((b.run steps).receive 0).1 := Bridge.run_append _ _ _
  have htally := h.tallied.receive (by rw [h2]; decide)
  have hkeep := Bridge.subscribers_step (hb.run steps) (nofun : BridgeStep.receive 0 ≠ .subscribe)
  obtain ⟨due, hdue, hcalls⟩ := h.calls
  rw [h2] at htally hkeep
  rw [← h.bridge] at hrun htally hkeep
  unfold Simulation.take
  generalize hr : s.bridge.receive 0 = received at hrun htally ⊢
  obtain ⟨now, handed⟩ := received
  cases handed with
  | none => exact ⟨hrun.symm, htally, h.serving, due, hdue, hcalls⟩
  | some tick =>
    refine ⟨hrun.symm, htally, .inr ⟨_, _, rfl⟩, s.now, Nat.le_refl _, ?_⟩
    have hsubscribers : now.subscribers = 2 :=
      (congrArg (Bridge.subscribers ∘ Prod.fst) hr).symm.trans hkeep
    show (List.range now.subscribers).map (s.call tick) = _
    rw [FeedSinks.call_eq, hsubscribers]
    rfl

theorem Follows.settleOne_eq {tick : Tick} {pending : List Nat}
    (h : s.Follows b steps (.fanning tick pending)) {due k : Nat}
    (hcalls : s.calls = pending.map (FeedSinks.call due)) (hk : k ∈ pending) :
    s.settleOne 0 k =
      settle 0 tick { s with calls := (pending.erase k).map (FeedSinks.call due) }
        (FeedSinks.call due k) := by
  rw [Simulation.settleOne, h.current?, hcalls]
  dsimp only [LoopState.tick?]
  rw [FeedSinks.find?_call hk, FeedSinks.eraseP_call]

/-- A call that is open ends with the tick that is with the subscribers. -/
theorem Follows.settleOne_of_mem {tick : Tick} {pending : List Nat}
    (h : s.Follows b steps (.fanning tick pending)) {k : Nat} (hk : k ∈ pending) :
    (s.settleOne 0 k).Follows b (steps ++ [.settle 0 k (.ended .success)])
      (.fanning tick (pending.erase k)) := by
  obtain ⟨due, hdue, hcalls⟩ := h.calls
  have hcounts : (settle 0 tick { s with calls := (pending.erase k).map (FeedSinks.call due) }
      (FeedSinks.call due k)).audience.counts =
        if k = 1 then s.audience.counts.count tick else s.audience.counts :=
    FeedSinks.accept_counts s.audience k tick
  rw [h.settleOne_eq hcalls hk]
  refine ⟨?_, ?_, .inr ⟨_, _, rfl⟩, due, hdue, rfl⟩
  · rw [Bridge.run_append, ← h.bridge]
    rfl
  · rw [hcounts]
    exact h.tallied.settle hk

theorem Follows.settleOne (h : s.Follows b steps loop) (k : Nat) :
    ∃ loop', (s.settleOne 0 k).Follows b (steps ++ [.settle 0 k (.ended .success)]) loop' := by
  by_cases hk : k ∈ loop.pending
  · obtain rfl | ⟨tick, pending, rfl⟩ := h.serving
    · cases hk
    · exact ⟨_, h.settleOne_of_mem hk⟩
  · -- neither the bridge nor the node has such a call
    obtain ⟨due, hdue, hcalls⟩ := h.calls
    have hstall : (b.run steps).Stalls (.settle 0 k (.ended .success)) := by
      refine (Bridge.settle_moves _ 0 k _).resolve_right fun hm => ?_
      obtain ⟨queue, stopping, hsession⟩ := h.tallied.session
      generalize (b.run steps).step _ = now at hm
      cases hm with
      | settle hs hmem _ =>
        cases hs.symm.trans hsession
        exact hk hmem
    have hs : s.settleOne 0 k = s := by
      have hfind : s.calls.find? (·.subscriber = k) = none := by
        rw [hcalls, List.find?_eq_none]
        intro c hc
        obtain ⟨j, hj, rfl⟩ := List.mem_map.mp hc
        exact fun he => hk (of_decide_eq_true he ▸ hj)
      rw [Simulation.settleOne, hfind]
      split
      · rename_i h
        cases h
      · rfl
    rw [hs]
    refine ⟨loop, ?_, h.tallied.stall hstall, h.serving, due, hdue, hcalls⟩
    rw [Bridge.run_append]
    exact h.bridge.trans hstall.step_eq.symm

theorem Follows.finish_of_done {tick : Tick} (h : s.Follows b steps (.fanning tick []))
    (latency : UInt64) :
    (s.loopStep 0 (.finish latency)).Follows b (steps ++ [.finish 0 latency]) .waiting := by
  refine ⟨?_, h.tallied.finish latency, .inl rfl, h.calls⟩
  rw [Bridge.run_append, ← h.bridge]
  rfl

theorem Follows.finish (h : s.Follows b steps loop) (latency : UInt64) :
    ∃ loop', (s.loopStep 0 (.finish latency)).Follows b (steps ++ [.finish 0 latency]) loop' := by
  rcases Bridge.finish_moves (b.run steps) 0 latency with hs | hm
  · refine ⟨loop, ?_, h.tallied.stall hs, h.serving, h.calls⟩
    rw [Bridge.run_append, ← h.bridge]
    rfl
  · obtain ⟨queue, stopping, hsession⟩ := h.tallied.session
    generalize (b.run steps).step _ = now at hm
    cases hm with
    | finish hs =>
      cases hs.symm.trans hsession
      exact ⟨.waiting, h.finish_of_done latency⟩

/-- One step of the loop is that of the bridge. -/
theorem Follows.loopStep (h : s.Follows b steps loop) (hb : b.Coherent)
    (h2 : (b.run steps).subscribers = 2) (step : LoopStep) :
    ∃ loop', (s.loopStep 0 step).Follows b (steps ++ [step.toBridge 0]) loop' := by
  cases step with
  | receive => exact ⟨_, h.take hb h2⟩
  | settle k => exact h.settleOne k
  | finish latency => exact h.finish latency

/-- All calls with a tick end, one after the other. -/
theorem Follows.settles {tick : Tick} {pending : List Nat}
    (h : s.Follows b steps (.fanning tick pending)) {due : Nat}
    (hcalls : s.calls = pending.map (FeedSinks.call due)) :
    let after := (pending.map .settle).foldl (Simulation.loopStep 0) s
    after.Follows b (steps ++ pending.map fun k => .settle 0 k (.ended .success))
        (.fanning tick []) ∧
      after = s.calls.foldl (settle 0 tick) { s with calls := [] } ∧ after.now = s.now := by
  induction pending generalizing s steps with
  | nil =>
    have hnone : s.calls = [] := hcalls
    simp only [List.map_nil, List.append_nil, List.foldl_nil, hnone, and_true]
    refine ⟨h, ?_⟩
    rw [← hnone]
  | cons k pending ih =>
    have hone := h.settleOne_of_mem List.mem_cons_self
    have heq := h.settleOne_eq hcalls List.mem_cons_self
    rw [List.erase_cons_head] at hone heq
    obtain ⟨hfollows, hsettles, hnow⟩ := ih hone (congrArg Simulation.calls heq)
    rw [List.append_assoc] at hfollows
    refine ⟨hfollows, hsettles.trans ?_, hnow.trans (congrArg Simulation.now heq :)⟩
    rw [heq, hcalls]
    rfl

/-- What is left of a tick is done at once, which is no more than single steps. -/
theorem Follows.resume {tick : Tick} {pending : List Nat}
    (h : s.Follows b steps (.fanning tick pending)) {limit : Nat} (hlimit : s.now ≤ limit) :
    ∃ latency,
      s.resume 0 limit tick =
        (pending.map LoopStep.settle ++ [LoopStep.finish latency]).foldl (Simulation.loopStep 0) s ∧
      (s.resume 0 limit tick).Follows b
        (steps ++ pending.map (fun k => .settle 0 k (.ended .success)) ++ [.finish 0 latency])
        .waiting := by
  obtain ⟨due, hdue, hcalls⟩ := h.calls
  have hmem : ∀ c ∈ s.calls, c.due = due := by
    intro c hc
    rw [hcalls] at hc
    obtain ⟨k, -, rfl⟩ := List.mem_map.mp hc
    rfl
  have hready : s.calls.partition (·.due ≤ limit) = (s.calls, []) := by
    have hall : ∀ c ∈ s.calls, decide (c.due ≤ limit) = true := fun c hc =>
      decide_eq_true (hmem c hc ▸ Nat.le_trans hdue hlimit)
    rw [List.partition_eq_filter_filter, List.filter_eq_self.mpr hall,
      List.filter_eq_nil_iff.mpr fun c hc => by rw [Function.comp_apply, hall c hc]; nofun]
  obtain ⟨hfollows, hsettles, hnow⟩ := h.settles hcalls
  generalize hafter : (pending.map .settle).foldl (Simulation.loopStep 0) s = after at *
  have hlater : (s.calls.map (·.due)).foldl max after.now = after.now :=
    List.foldlRecOn (motive := (· = after.now)) _ _ rfl fun now he d hd => by
      obtain ⟨c, hc, rfl⟩ := List.mem_map.mp hd
      rw [he, hmem c hc, hnow, Nat.max_eq_left hdue]
  have hresume : s.resume 0 limit tick =
      after.loopStep 0 (.finish (.ofNat ((after.now - after.begun) * 1000000))) := by
    rw [Simulation.resume, hready]
    dsimp only
    rw [if_pos List.isEmpty_nil, ← hsettles, hlater]
    rfl
  refine ⟨_, ?_, hresume ▸ hfollows.finish_of_done _⟩
  rw [List.foldl_append, hafter]
  exact hresume

/-- Whoever waits for the loop sees the tick that is with the subscribers done. -/
theorem Follows.awaitStop (h : s.Follows b steps loop) :
    ∃ more done, (∀ step ∈ more, step.isOwners = false ∧ step.isClosing = true) ∧
      Follows done b (steps ++ more) .waiting ∧
      s.awaitStop 0 = { done with bridge := (done.bridge.endLoop 0).endStop 0 } := by
  obtain rfl | ⟨tick, pending, rfl⟩ := h.serving
  · refine ⟨[], s, by nofun, (List.append_nil steps).symm ▸ h, ?_⟩
    have hnone : s.current? 0 = none := h.current?
    rw [Simulation.awaitStop, hnone]
    dsimp only
    rw [hnone]
  · obtain ⟨latency, -, hdone⟩ :=
      h.resume (Nat.le_add_right s.now s.bridge.config.stopGrace.milliseconds)
    rw [List.append_assoc] at hdone
    refine ⟨_, _, ?_, hdone, ?_⟩
    · intro step hstep
      rcases List.mem_append.mp hstep with hstep | hstep
      · obtain ⟨k, -, rfl⟩ := List.mem_map.mp hstep
        exact ⟨rfl, rfl⟩
      · cases List.mem_singleton.mp hstep
        exact ⟨rfl, rfl⟩
    · have hsome : s.current? 0 = some tick := h.current?
      have hnone := hdone.current?
      rw [Simulation.awaitStop, hsome]
      dsimp only
      rw [hnone]
      rfl

/-- A stop takes no more ticks, finishes the one that is with the subscribers, and leaves
nothing open. -/
theorem Follows.stop (h : s.Follows b steps loop) (hb : (b.run steps).Orderly)
    (hp : (b.run steps).phase = .running 0) (hi : (b.run steps).inlet = some 0) :
    ∃ more, (∀ step ∈ more, step.isClosing = true) ∧
      s.stop.bridge = b.run (steps ++ more) ∧
      b.Tallied (steps ++ more) s.stop.audience.counts .ended ∧
      (b.run (steps ++ more)).inlet = none := by
  -- the stop begins, the tick that is with the subscribers is done, and the loop ends
  obtain ⟨queue, stopping, hs⟩ := h.tallied.session
  have hbegin := Bridge.step_of_moves (.stopRunning hp hs)
  have hrun : b.run (steps ++ [.beginStop]) = (b.run steps).step .beginStop :=
    Bridge.run_append _ _ _
  have hbegun : Follows { s with bridge := s.bridge.beginStop } b (steps ++ [.beginStop]) loop := by
    refine ⟨?_, h.tallied.beginStop hp, h.serving, h.calls⟩
    rw [hrun, h.bridge]
    rfl
  obtain ⟨more, done, hmore, hdone, hawait⟩ := hbegun.awaitStop
  have horderly : (b.run (steps ++ [.beginStop])).Orderly := by
    rw [hrun]
    exact hb.step nofun
  obtain ⟨hphase, hinlet⟩ := Bridge.run_of_no_owner horderly.coherent fun step hstep =>
    (hmore step hstep).1
  have hstarts : (b.run (steps ++ [.beginStop])).StartsApart more :=
    Bridge.startsApart_of_no_start fun runtime hmem => nomatch (hmore _ hmem).1
  obtain ⟨htally, hclosed⟩ := hdone.tallied.endStop
    (by rw [Bridge.run_append]; exact horderly.run hstarts)
    (by rw [Bridge.run_append, hphase, hrun, hbegin])
    (by rw [Bridge.run_append, hinlet, hrun, hbegin]; exact hi)
  have hsteps : steps ++ [.beginStop] ++ more ++ [.endLoop 0] ++ [.endStop 0] =
      steps ++ ([.beginStop] ++ more ++ [.endLoop 0, .endStop 0]) := by
    simp only [List.append_assoc, List.singleton_append]
  have hstop : s.stop = { done with bridge := (done.bridge.endLoop 0).endStop 0 } := by
    rw [Simulation.stop, show s.bridge.phase = .running 0 from h.bridge ▸ hp]
    exact hawait
  rw [hsteps] at htally hclosed
  refine ⟨_, ?_, ?_, hstop ▸ htally, hclosed⟩
  · intro step hstep
    simp only [List.mem_append, List.mem_cons, List.not_mem_nil, or_false] at hstep
    rcases hstep with (rfl | hstep) | rfl | rfl
    · rfl
    · exact (hmore step hstep).2
    · rfl
    · rfl
  · rw [hstop, ← hsteps, Bridge.run_append, Bridge.run_append, ← hdone.bridge]
    rfl

end Simulation

end TickFeed
