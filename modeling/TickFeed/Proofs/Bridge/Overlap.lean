import TickFeed.Proofs.Bridge.Isolation
import TickFeed.Proofs.Bridge.Lifecycle

/-! # Calls that overlap

A start can come while the stop of an earlier loop still waits. What it opens is fed for
as long as its loop is the current one and the stop of no other loop ends (`Feeds.run`).
The loop then takes all that was accepted, and for that nothing has to happen but its own
steps and the ends of the calls with its ticks (`exists_drained`). But a stop looks at
nothing when it ends: it takes away whatever queue there is then, also that of a later
start, and the bridge runs on without one (`unfed_after_late_stop`). -/

namespace TickFeed

/-- The step is one of the dispatch loop or of a subscriber that it called. -/
def BridgeStep.isLoops : BridgeStep → Bool
  | .receive _ | .settle .. | .finish .. => true
  | _ => false

namespace Bridge

/-! ## The session of a start -/

/-- While the bridge runs the session, ticks go to it; it is never idle again. -/
structure Feeds (b : Bridge) (id : Nat) : Prop where
  opened : id < b.sessions.length
  started : ∀ j, b.phase ≠ .idle j
  inlet : b.phase = .running id → b.inlet = some id

/-- Every step keeps that but the end of the stop of another loop. -/
theorem Feeds.moves {b b' : Bridge} (hb : b.Coherent) {id : Nat} {step : BridgeStep}
    (h : b.Feeds id) (hm : b.Moves step b')
    (hend : ∀ j, j ≠ id → step ≠ .endStop j ∧ step ≠ .abortStop j) : b'.Feeds id := by
  have hset : ∀ {j : Nat} {s : Session}, id < (b.sessions.set j s).length := by
    intro j s
    rw [List.length_set]
    exact h.opened
  -- a stop of the loop itself waits only when the bridge does not run it any more
  have hleft : ∀ {j : Nat} {s : Session}, b.sessions[j]? = some s → s.stopping = true →
      j = id → b.phase ≠ .running id := by
    rintro j s hs ht rfl hp
    cases (hb.running_session hp hs).2.symm.trans ht
  cases hm with
  | drop _ | subscribe => exact ⟨h.opened, h.started, h.inlet⟩
  | accept _ _ _ | hand _ _ _ | reject _ _ _ | settle _ _ _ | finish _ | endLoop _ _ =>
    exact ⟨hset, h.started, h.inlet⟩
  | startIdle hp _ | stopIdle hp _ => exact absurd hp (h.started _)
  | startStopped _ =>
    refine ⟨?_, nofun, fun hp => ?_⟩
    · simp only [List.length_append, List.length_singleton]
      exact Nat.lt_succ_of_lt h.opened
    · cases hp
      exact absurd h.opened (Nat.lt_irrefl _)
  | stopRunning _ _ => exact ⟨hset, nofun, nofun⟩
  | endStop hs =>
    have hj := not_imp_comm.mp (hend _) fun he => he.1 rfl
    exact ⟨hset, h.started, fun hp => absurd hp (hleft hs rfl hj)⟩
  | abortStop hs _ =>
    have hj := not_imp_comm.mp (hend _) fun he => he.2 rfl
    exact ⟨hset, h.started, fun hp => absurd hp (hleft hs rfl hj)⟩

theorem Feeds.run {b : Bridge} (hb : b.Coherent) {id : Nat} (h : b.Feeds id)
    {steps : List BridgeStep}
    (hend : ∀ j, j ≠ id → .endStop j ∉ steps ∧ .abortStop j ∉ steps) :
    (b.run steps).Feeds id := by
  induction steps generalizing b with
  | nil => exact h
  | cons step steps ih =>
    have hrest : ∀ j, j ≠ id → .endStop j ∉ steps ∧ .abortStop j ∉ steps := fun j hj =>
      ⟨fun hm => (hend j hj).1 (List.mem_cons_of_mem _ hm),
        fun hm => (hend j hj).2 (List.mem_cons_of_mem _ hm)⟩
    have hstep : ∀ j, j ≠ id → step ≠ .endStop j ∧ step ≠ .abortStop j := fun j hj =>
      ⟨fun he => (hend j hj).1 (he ▸ List.mem_cons_self),
        fun he => (hend j hj).2 (he ▸ List.mem_cons_self)⟩
    rw [run_cons]
    rcases step_moves hb step with hm | hm
    · rw [hm.step_eq]
      exact ih hb h hrest
    · exact ih (hb.moves hm) (h.moves hb hm hstep) hrest

/-- As long as a bridge is idle no call of its owner can overlap with another. -/
theorem Orderly.run_of_idle {b : Bridge} (hb : b.Orderly) {steps : List BridgeStep} {id : Nat}
    (hp : (b.run steps).phase = .idle id) : (b.run steps).Orderly := by
  induction steps generalizing b with
  | nil => exact hb
  | cons step steps ih =>
    have hidle := (idle_of_run hb.coherent (step :: steps) hp).1
    refine ih (hb.step fun _ _ hstopped => ?_) hp
    rw [hidle] at hstopped
    cases hstopped

/-- A start that succeeds feeds the session that it starts. -/
theorem feeds_of_start {config : BridgeConfig} {lookup : Option InstrumentLookup} {b : Bridge}
    (h : create config lookup = .ok b) (before : List BridgeStep) {running : Bridge} {id : Nat}
    (hstart : (b.run before).start true = (running, .ok ()))
    (hp : running.phase = .running id) : running.Feeds id := by
  have hb := Orderly.create h
  have hnow := hb.coherent.run before
  have hrunning : running.Coherent := step_of_start hstart ▸ hnow.step (.start true)
  obtain ⟨s, hs, -⟩ := hrunning.running id hp
  refine ⟨(List.getElem?_eq_some_iff.mp hs).1, fun j hj => ?_, fun _ => ?_⟩
  · cases hj.symm.trans hp
  cases hphase : (b.run before).phase with
  | idle j =>
    obtain ⟨started, hstarted, hphase', hin, -⟩ := hnow.start_idle hphase
    cases hstart.symm.trans hstarted
    cases hp.symm.trans hphase'
    rw [hin]
    exact (hb.run_of_idle hphase).inlet_of_phase (congrArg BridgePhase.session? hphase)
  | running j =>
    cases hstart.symm.trans (start_of_running hphase)
  | stopped =>
    obtain ⟨started, hstarted, hphase', hin, -⟩ := start_stopped hphase
    cases hstart.symm.trans hstarted
    cases hp.symm.trans hphase'
    exact hin

/-! ## What the loop can take -/

theorem dispatched_cons (b : Bridge) (step : BridgeStep) (steps : List BridgeStep) :
    b.dispatched (step :: steps) = (b.takenBy step).toList ++ (b.step step).dispatched steps := rfl

theorem dispatched_append (b : Bridge) (steps more : List BridgeStep) :
    b.dispatched (steps ++ more) = b.dispatched steps ++ (b.run steps).dispatched more :=
  trace_append takenBy b steps more

/-- Once all calls with a tick have ended, the loop waits for the next one. -/
theorem exists_waiting {b : Bridge} (hb : b.Coherent) {id : Nat} {queue : Fifo RawTick}
    {tick : Tick} {pending : List Nat}
    (hs : b.sessions[id]? = some ⟨queue, .fanning tick pending, false⟩) :
    ∃ steps, (∀ step ∈ steps, step.isLoops = true) ∧ b.dispatched steps = [] ∧
      (b.run steps).sessions[id]? = some ⟨queue, .waiting, false⟩ := by
  induction pending generalizing b with
  | nil =>
    have hfinish : b.step (.finish id 0) = _ := step_of_moves (.finish hs)
    refine ⟨[.finish id 0], by simp [BridgeStep.isLoops], rfl, ?_⟩
    rw [run_cons, run_nil, hfinish]
    exact session_set_self hs _
  | cons k pending ih =>
    have hs' : (b.step (.settle id k (.ended .success))).sessions[id]? =
        some ⟨queue, .fanning tick pending, false⟩ := by
      rw [← List.erase_cons_head k pending]
      exact session_settle hs List.mem_cons_self rfl
    obtain ⟨steps, hloops, hnone, hwaiting⟩ := ih (hb.step _) hs'
    exact ⟨.settle id k (.ended .success) :: steps, List.forall_mem_cons.mpr ⟨rfl, hloops⟩,
      hnone, hwaiting⟩

/-- A loop that waits can take all that is in its queue. -/
theorem exists_drained_of_waiting {raws : List RawTick} {b : Bridge} (hb : b.Coherent) {id : Nat}
    {queue : Fifo RawTick} (hs : b.sessions[id]? = some ⟨queue, .waiting, false⟩)
    (hq : queue.toList = raws) :
    ∃ steps, (∀ step ∈ steps, step.isLoops = true) ∧ b.dispatched steps = raws := by
  induction raws generalizing b queue with
  | nil => exact ⟨[], nofun, rfl⟩
  | cons raw raws ih =>
    cases hpop : queue.pop? with
    | none =>
      rw [Fifo.toList_of_pop?_none hpop] at hq
      cases hq
    | some taken =>
      obtain ⟨first, rest⟩ := taken
      rw [Fifo.toList_of_pop?_some hpop, List.cons.injEq] at hq
      obtain ⟨rfl, hrest⟩ := hq
      have htaken := takenBy_receive hs hpop
      cases hn : b.normalize first with
      | error reason =>
        have hs' : (b.step (.receive id)).sessions[id]? = some ⟨rest, .waiting, false⟩ := by
          rw [step_of_moves (.reject hs hpop hn)]
          exact session_set_self hs _
        obtain ⟨steps, hloops, hall⟩ := ih (hb.step _) hs' hrest
        refine ⟨.receive id :: steps, List.forall_mem_cons.mpr ⟨rfl, hloops⟩, ?_⟩
        rw [dispatched_cons, htaken, hall]
        rfl
      | ok tick =>
        -- the calls with this tick have to end before the next one is taken
        have hs' : (b.step (.receive id)).sessions[id]? = some ⟨rest,
            .fanning { tick with seq := b.seq + 1 } (List.range b.subscribers), false⟩ := by
          rw [step_of_moves (.hand hs hpop hn)]
          exact session_set_self hs _
        obtain ⟨calls, hcalls, hnone, hwaiting⟩ := exists_waiting (hb.step _) hs'
        obtain ⟨steps, hloops, hall⟩ := ih ((hb.step _).run calls) hwaiting hrest
        refine ⟨.receive id :: (calls ++ steps), List.forall_mem_cons.mpr ⟨rfl, ?_⟩, ?_⟩
        · intro step hm
          exact (List.mem_append.mp hm).elim (hcalls step) (hloops step)
        · rw [dispatched_cons, dispatched_append, htaken, hnone, hall]
          rfl

/-- The loop of a running bridge that has not ended can take all that waits, by its own
steps and the ends of the calls with its ticks. -/
theorem exists_drained {b : Bridge} (hb : b.Coherent) {id : Nat} {s : Session}
    (hp : b.phase = .running id) (hs : b.sessions[id]? = some s) (hl : s.loop.isLive = true) :
    ∃ steps, (∀ step ∈ steps, step.isLoops = true) ∧ b.dispatched steps = b.waiting := by
  obtain ⟨hstarted, hopen⟩ := hb.running_session hp hs
  rw [waiting_eq (congrArg BridgePhase.session? hp) hs]
  obtain ⟨queue, loop, stopping⟩ := s
  cases hopen
  cases loop with
  | unstarted => exact absurd rfl hstarted
  | ended => cases hl
  | waiting => exact exists_drained_of_waiting hb hs rfl
  | fanning tick pending =>
    obtain ⟨calls, hcalls, hnone, hwaiting⟩ := exists_waiting hb hs
    obtain ⟨steps, hloops, hall⟩ := exists_drained_of_waiting (hb.run calls) hwaiting rfl
    refine ⟨calls ++ steps, ?_, ?_⟩
    · intro step hm
      exact (List.mem_append.mp hm).elim (hcalls step) (hloops step)
    · rw [dispatched_append, hnone, hall]
      rfl

/-! ## A start while a stop waits -/

/-- What is accepted waits behind what waits already. -/
theorem submit_of_room {b : Bridge} (hb : b.Coherent) {id : Nat} (hp : b.phase = .running id)
    (hi : b.inlet = some id) (hroom : b.depth < b.config.queueCapacity) (raw : RawTick) :
    (b.submit raw).2 = .accepted ∧ (b.step (.submit raw)).waiting = b.waiting ++ [raw] := by
  have hph : b.phase.session? = some id := congrArg BridgePhase.session? hp
  obtain ⟨⟨s, hs⟩, -⟩ := hb.inlet id hi
  simp only [depth, hi] at hroom
  refine ⟨by simp only [submit, hi, hroom, if_true], ?_⟩
  rw [depthOf_eq hs] at hroom
  have haccept : b.step (.submit raw) = _ := step_of_moves (.accept hi hs hroom)
  rw [waiting_eq hph hs, waiting_replaced hs (congrArg Bridge.sessions haccept)
    ((congrArg (·.phase.session?) haccept).trans hph)]
  exact Fifo.toList_push s.queue raw

/-- From a start that succeeds on, whatever other calls overlap with it: for as long as
its loop is the current one and the stop of no other loop ends, what is submitted goes to
this loop, which has not been signalled and has not ended. It is accepted where there is
room for it and waits behind what waits already. Until the next stop begins the loop
passes over nothing, and it can take all that waits by its own steps and the ends of the
calls with its ticks. -/
theorem start_is_fed {config : BridgeConfig} {lookup : Option InstrumentLookup} {b : Bridge}
    (h : create config lookup = .ok b) (before : List BridgeStep) {running : Bridge} {id : Nat}
    (hstart : (b.run before).start true = (running, .ok ()))
    (hid : running.phase = .running id) {after : List BridgeStep}
    (hend : ∀ j, j ≠ id → .endStop j ∉ after ∧ .abortStop j ∉ after)
    (hcurrent : (running.run after).phase = .running id) :
    let now := running.run after
    (now.inlet = some id ∧
        ∃ s, now.sessions[id]? = some s ∧ s.loop.isLive = true ∧ s.stopping = false) ∧
      (now.depth < config.queueCapacity → ∀ raw,
        (now.submit raw).2 = .accepted ∧
          (now.step (.submit raw)).waiting = now.waiting ++ [raw]) ∧
      (∀ later, .beginStop ∉ later →
        now.dispatched later ++ (now.run later).waiting = now.waiting ++ now.accepted later) ∧
      ∃ steps, (∀ step ∈ steps, step.isLoops = true) ∧ now.dispatched steps = now.waiting := by
  have hb := Coherent.create h
  obtain ⟨_, _, _, hfresh⟩ := create_eq h
  have hgoes : b.GoesOn := by
    rw [hfresh]
    intro j hj
    cases hj
  have hstep := step_of_start hstart
  have hrun : running.run after = b.run (before ++ .start true :: after) := by
    rw [run_append, run_cons, hstep]
  have hrunning : running.Coherent := hstep ▸ (hb.run before).step (.start true)
  have hnow : (running.run after).Coherent := hrunning.run after
  have hin := ((feeds_of_start h before hstart hid).run hrunning hend).inlet hcurrent
  obtain ⟨s, hs, hl⟩ : ∃ s, (running.run after).sessions[id]? = some s ∧ s.loop.isLive = true := by
    rw [hrun] at hcurrent hin ⊢
    exact hgoes.run hb _ id hcurrent hin
  have hconfig : (running.run after).config = config := by
    rw [hrun, (run_fixed hb _).1, hfresh]
  intro now
  refine ⟨⟨hin, s, hs, hl, (hnow.running_session hcurrent hs).2⟩, fun hroom raw => ?_,
    fun later hl => waiting_run hnow later (by simp [hcurrent]) hl,
    exists_drained hnow hcurrent hs hl⟩
  exact submit_of_room hnow hcurrent hin (hconfig.symm ▸ hroom) raw

/-- The stop of the first loop still waits, and the second one gets its tick. -/
theorem start_is_fed_early :
    ∃ b, create {} none = .ok b ∧
      ∃ running, (b.run [.subscribe, .start true, .beginStop]).start true = (running, .ok ()) ∧
        running.phase = .running 1 ∧ (running.run [.endLoop 0]).phase = .running 1 ∧
        ((running.run [.endLoop 0]).submit .empty).2 = .accepted ∧
        ((running.run [.endLoop 0]).step (.submit .empty)).waiting.length = 1 := by
  refine ⟨_, rfl, _, rfl, rfl, rfl, ?_⟩
  have hend : ∀ j, j ≠ 1 →
      .endStop j ∉ [BridgeStep.endLoop 0] ∧ .abortStop j ∉ [BridgeStep.endLoop 0] := by simp
  have hfed := (start_is_fed (rfl : create {} none = .ok _) [.subscribe, .start true, .beginStop]
    rfl rfl hend rfl).2.1 (by decide) .empty
  exact ⟨hfed.1, by rw [hfed.2]; rfl⟩

/-! ## A stop that ends late -/

/-- A bridge that was started and has no queue gets none until it is stopped. -/
theorem unfed_run {b : Bridge} (hb : b.Coherent) {steps : List BridgeStep}
    (hp : b.phase ≠ .stopped) (hi : b.inlet = none) (hs : .beginStop ∉ steps) :
    (b.run steps).phase ≠ .stopped ∧ (b.run steps).inlet = none ∧
      (b.run steps).metrics.accepted = b.metrics.accepted := by
  induction steps generalizing b with
  | nil => exact ⟨hp, hi, rfl⟩
  | cons step steps ih =>
    rw [List.mem_cons, not_or] at hs
    rw [run_cons]
    rcases step_moves hb step with hm | hm
    · rw [hm.step_eq]
      exact ih hb hp hi hs.2
    · obtain ⟨hi', haccepted⟩ := silent_moves hb hm hi fun h => absurd h hp
      rw [← haccepted]
      exact ih (hb.moves hm) (stays_open hm hp (Ne.symm hs.1)) hi' hs.2

/-- What the end of a stop does to a bridge that was started again while it waited: until
the next stop begins the bridge is not stopped, and all that is submitted is dropped. -/
theorem unfed_after_late_stop {config : BridgeConfig} {lookup : Option InstrumentLookup}
    {b : Bridge} (h : create config lookup = .ok b) (before : List BridgeStep) {j : Nat}
    {queue : Fifo RawTick} (hp : (b.run before).phase ≠ .stopped)
    (hs : (b.run before).sessions[j]? = some ⟨queue, .ended, true⟩) {after : List BridgeStep}
    (hafter : .beginStop ∉ after) :
    let ended := (b.run before).step (.endStop j)
    let now := ended.run after
    now.phase ≠ .stopped ∧ (∀ raw, (now.submit raw).2 = .dropped) ∧
      now.metrics.accepted = ended.metrics.accepted ∧
      now.metrics.dropped = ended.metrics.dropped + after.countP (·.isSubmit) := by
  have hb := (Coherent.create h).run before
  have hmoves := step_of_moves (.endStop hs)
  have hphase : ((b.run before).step (.endStop j)).phase ≠ .stopped := by
    rw [hmoves]
    exact hp
  have hin : ((b.run before).step (.endStop j)).inlet = none := by rw [hmoves]
  obtain ⟨hphase', hin', haccepted⟩ := unfed_run (hb.step _) hphase hin hafter
  exact ⟨hphase', submit_of_none hin', haccepted, dropped_of_accepted_eq (hb.step _) haccepted⟩

/-- A stop ends after the next start: the bridge runs, no stop is left to wait for and the
queue is empty, and still the tick is dropped. -/
theorem not_fed_after_late_stop :
    ∃ b, create {} none = .ok b ∧
      let now := b.run [.start true, .beginStop, .start true, .endLoop 0, .endStop 0]
      now.phase = .running 1 ∧ now.sessions.any (·.stopping) = false ∧
        now.depth < now.config.queueCapacity ∧ (now.submit .empty).2 = .dropped :=
  ⟨_, rfl, rfl, rfl, by decide, rfl⟩

end Bridge

end TickFeed
