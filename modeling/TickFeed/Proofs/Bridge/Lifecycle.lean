import TickFeed.Proofs.Bridge.Conservation
import TickFeed.Proofs.Bridge.Delivery

/-! # The life of a bridge

What its owner's calls do to a bridge when each waits for the one before. A start that
fails changes nothing; one that succeeds keeps the queue of a bridge that was never
started and gives one that was stopped a new one. From the moment at which a stop begins
nothing leaves the queue but by being discarded (`discarded_moves`), so a stop discards
what it finds. After a stop nothing takes ticks until the next start (`silent_moves`). -/

namespace TickFeed.Bridge

/-! ## A start -/

theorem step_of_start {b after : Bridge} {runtime : Bool} {outcome : Except BridgeError Unit}
    (h : b.start runtime = (after, outcome)) : b.step (.start runtime) = after :=
  congrArg Prod.fst h

/-- A start that fails changes nothing at all. -/
theorem Coherent.start_error {b : Bridge} (hb : b.Coherent) {runtime : Bool}
    {error : BridgeError} (h : (b.start runtime).2 = .error error) :
    (b.start runtime).1 = b := by
  cases runtime with
  | false => rfl
  | true =>
    cases hp : b.phase with
    | idle id =>
      obtain ⟨queue, hs⟩ := hb.idle id hp
      rw [start_of_idle hp hs] at h
      cases h
    | running id => rw [start_of_running hp]
    | stopped =>
      rw [start_of_stopped hp] at h
      cases h

theorem start_noRuntime_iff (b : Bridge) (runtime : Bool) :
    (b.start runtime).2 = .error .noRuntime ↔ runtime = false := by
  cases runtime with
  | false => exact iff_of_true rfl rfl
  | true =>
    simp only [start, not_true_eq_false, if_false]
    cases b.phase <;> simp

theorem start_alreadyRunning_iff (b : Bridge) (runtime : Bool) :
    (b.start runtime).2 = .error .alreadyRunning ↔ runtime = true ∧ b.isRunning = true := by
  cases runtime with
  | false => exact iff_of_false nofun nofun
  | true =>
    simp only [start, isRunning, not_true_eq_false, if_false, true_and]
    cases b.phase <;> simp

/-- The first start keeps the queue and every counter. -/
theorem Coherent.start_idle {b : Bridge} (hb : b.Coherent) {id : Nat} (hp : b.phase = .idle id) :
    ∃ started, b.start true = (started, .ok ()) ∧ started.phase = .running id ∧
      started.inlet = b.inlet ∧ started.waiting = b.waiting ∧ started.metrics = b.metrics := by
  obtain ⟨queue, hs⟩ := hb.idle id hp
  refine ⟨_, start_of_idle hp hs, rfl, rfl, ?_, rfl⟩
  rw [waiting_eq (congrArg BridgePhase.session? hp) hs]
  exact @waiting_replaced b _ id _ ⟨queue, .waiting, false⟩ hs rfl rfl

/-- A later start opens a new queue and keeps every counter. -/
theorem start_stopped {b : Bridge} (hp : b.phase = .stopped) :
    ∃ started, b.start true = (started, .ok ()) ∧ started.phase = .running b.sessions.length ∧
      started.inlet = some b.sessions.length ∧ started.waiting = [] ∧ started.depth = 0 ∧
      started.metrics = b.metrics := by
  have hnew : (b.sessions ++ [(⟨.empty, .waiting, false⟩ : Session)])[b.sessions.length]? =
      some ⟨.empty, .waiting, false⟩ := List.getElem?_concat_length
  refine ⟨_, start_of_stopped hp, rfl, rfl, ?_, ?_, rfl⟩
  · rw [waiting_eq rfl hnew]
    rfl
  · simp only [depth, depthOf, hnew]
    rfl

/-! ## A stop -/

/-- From the beginning of a stop on nothing leaves the queue but by being discarded. -/
theorem Orderly.discarded_moves {b b' : Bridge} {step : BridgeStep} (hb : b.Orderly)
    (hb' : b'.Orderly) (h : b.Moves step b') (hp : b'.phase = .stopped) :
    b'.metrics.discarded + b'.depth =
      b.metrics.discarded + b.depth + (b.acceptedBy step).toList.length := by
  cases h with
  | accept hi hs hroom =>
    rw [acceptedBy_of_room hi hs hroom, (hb.at_inlet hi hs).1, (hb'.at_replaced hi hs rfl).1,
      Fifo.size_push]
    exact (Nat.add_assoc _ _ _).symm
  | drop hfull =>
    rw [acceptedBy_of_full hfull]
    rfl
  | subscribe => rfl
  | startIdle _ _ | startStopped _ => cases hp
  | hand hs _ _ | reject hs _ _ => cases hp.symm.trans (hb.coherent.running_of_waiting hs)
  | @settle _ _ x _ _ _ _ hs _ _ =>
    have hi := hb.inlet_of_open hs nofun
    rw [(hb.at_inlet hi hs).1, (hb'.at_replaced hi hs rfl).1]
    show (recordSettlement b.metrics x).discarded + _ = _
    rw [(recordSettlement_counters b.metrics x).2.2.2]
    rfl
  | finish hs | endLoop hs _ =>
    have hi := hb.inlet_of_open hs nofun
    rw [(hb.at_inlet hi hs).1, (hb'.at_replaced hi hs rfl).1]
    rfl
  | stopIdle hph hs =>
    have hi := hb.inlet_of_phase (congrArg BridgePhase.session? hph)
    rw [(hb.at_inlet hi hs).1, (hb'.at_none rfl).1]
    rfl
  | stopRunning hph hs =>
    have hi := hb.inlet_of_phase (congrArg BridgePhase.session? hph)
    rw [(hb.at_inlet hi hs).1, (hb'.at_replaced hi hs rfl).1]
    rfl
  | endStop hs =>
    rw [(hb.at_inlet (hb.inlet_of_open hs nofun) hs).1, (hb'.at_none rfl).1]
    rfl
  | abortStop _ _ =>
    rw [(hb'.at_none rfl).1]
    rfl

/-- Only a start that succeeds can overtake a stop. -/
theorem Orderly.moves_of_ne {b b' : Bridge} {step : BridgeStep} (hb : b.Orderly)
    (h : b.Moves step b') (hs : step ≠ .start true) : b'.Orderly := by
  refine hb.moves h fun runtime he => ?_
  subst he
  cases h <;> exact absurd rfl hs

theorem phase_of_stopped {b b' : Bridge} {step : BridgeStep} (h : b.Moves step b')
    (hp : b.phase = .stopped) (hs : step ≠ .start true) : b'.phase = .stopped := by
  cases h with
  | startIdle _ _ | startStopped _ => exact absurd rfl hs
  | stopIdle _ _ | stopRunning _ _ => rfl
  | _ => exact hp

/-- What a stop finds and what is accepted from then on is discarded or in the queue. -/
theorem Orderly.stopped_run {b : Bridge} (hb : b.Orderly) {steps : List BridgeStep}
    (hp : b.phase = .stopped) (h : .start true ∉ steps) :
    (b.run steps).phase = .stopped ∧
      (b.run steps).metrics.discarded + (b.run steps).depth =
        b.metrics.discarded + b.depth + (b.accepted steps).length := by
  induction steps generalizing b with
  | nil => exact ⟨hp, rfl⟩
  | cons step steps ih =>
    rw [List.mem_cons, not_or] at h
    rw [accepted, trace_cons, List.length_append, run_cons]
    rcases step_moves hb.coherent step with hm | hm
    · rw [hm.step_eq, hm.acceptedBy, Option.toList_none, List.length_nil, Nat.zero_add]
      exact ih hb hp h.2
    · have hp' := phase_of_stopped hm hp (Ne.symm h.1)
      have hb' := hb.moves_of_ne hm (Ne.symm h.1)
      obtain ⟨hstopped, hrest⟩ := ih hb' hp' h.2
      have hstep := hb.discarded_moves hb' hm hp'
      rw [accepted] at hrest
      exact ⟨hstopped, by omega⟩

theorem stepsOf_stop (b : Bridge) (meanwhile : List {step : BridgeStep // step.isOwners = false}) :
    ∃ rest, b.stepsOf (.stop meanwhile) = .beginStop :: rest ∧ .start true ∉ rest := by
  cases hp : b.phase with
  | running id =>
    refine ⟨meanwhile.map (·.1) ++ [.endStop id, .abortStop id], by simp only [stepsOf, hp], ?_⟩
    intro hmem
    rcases List.mem_append.mp hmem with hmem | hmem
    · obtain ⟨⟨step, hs⟩, -, rfl⟩ := List.mem_map.mp hmem
      cases hs
    · simp at hmem
  | idle _ | stopped => exact ⟨[], by simp only [stepsOf, hp], List.not_mem_nil⟩

/-- A stop discards all that was queued, with what was accepted while it waited. -/
theorem Orderly.stop {b : Bridge} (hb : b.Orderly) (hrest : b.phase = .stopped → b.inlet = none)
    (meanwhile : List {step : BridgeStep // step.isOwners = false}) :
    let steps := b.stepsOf (.stop meanwhile)
    (b.run steps).phase = .stopped ∧
      (b.run steps).metrics.discarded =
        b.metrics.discarded + b.depth + (b.accepted steps).length := by
  intro steps
  obtain ⟨hapart, hend⟩ := hb.stepsOf hrest (.stop meanwhile)
  obtain ⟨rest, hsteps, hstart⟩ := b.stepsOf_stop meanwhile
  have hbegun : (b.step .beginStop).Orderly := hb.step nofun
  have hphase := phase_beginStop b
  have hfirst : (b.step .beginStop).metrics.discarded + (b.step .beginStop).depth =
      b.metrics.discarded + b.depth := by
    rcases beginStop_moves hb.coherent with hm | hm
    · rw [hm.step_eq]
    · exact hb.discarded_moves hbegun hm hphase
  obtain ⟨hp, hdiscarded⟩ := hbegun.stopped_run hphase hstart
  have hrun : b.run steps = (b.step .beginStop).run rest := by rw [← run_cons, ← hsteps]
  have haccepted : b.accepted steps = (b.step .beginStop).accepted rest := by
    show b.accepted (b.stepsOf (.stop meanwhile)) = _
    rw [hsteps]
    rfl
  have hempty := ((hb.run hapart).at_none (hend (hrun ▸ hp))).1
  have hdepth : ((b.step .beginStop).run rest).depth = 0 := by rw [← hrun]; exact hempty
  rw [hrun, haccepted]
  exact ⟨hp, by omega⟩

/-- A second stop changes nothing at all. -/
theorem run_stop_of_stopped {b : Bridge} (hp : b.phase = .stopped)
    (meanwhile : List {step : BridgeStep // step.isOwners = false}) :
    b.run (b.stepsOf (.stop meanwhile)) = b := by
  simp only [stepsOf, hp, run_cons, run_nil, Bridge.step, beginStop]

/-! ## After a stop -/

/-- Once nothing takes ticks, only a start after a stop changes that. -/
theorem silent_moves {b b' : Bridge} {step : BridgeStep} (hb : b.Coherent) (h : b.Moves step b')
    (hi : b.inlet = none) (hs : b.phase = .stopped → step ≠ .start true) :
    b'.inlet = none ∧ b'.metrics.accepted = b.metrics.accepted := by
  refine ⟨?_, ?_⟩
  · cases h with
    | startStopped hp => exact absurd rfl (hs hp)
    | stopIdle _ _ | endStop _ | abortStop _ _ => rfl
    | _ => exact hi
  · cases hsubmit : step.isSubmit with
    | false => exact step_of_moves h ▸ (counters_of_no_submit hb hsubmit).1
    | true =>
      cases h with
      | accept hi' _ _ => cases hi.symm.trans hi'
      | drop _ => rfl
      | _ => cases hsubmit

theorem shut_run {b : Bridge} (hb : b.Coherent) {steps : List BridgeStep}
    (hp : b.phase = .stopped) (hi : b.inlet = none) (hs : .start true ∉ steps) :
    (b.run steps).phase = .stopped ∧ (b.run steps).inlet = none ∧
      (b.run steps).metrics.accepted = b.metrics.accepted := by
  induction steps generalizing b with
  | nil => exact ⟨hp, hi, rfl⟩
  | cons step steps ih =>
    rw [List.mem_cons, not_or] at hs
    rw [run_cons]
    rcases step_moves hb step with hm | hm
    · rw [hm.step_eq]
      exact ih hb hp hi hs.2
    · obtain ⟨hi', haccepted⟩ := silent_moves hb hm hi fun _ => Ne.symm hs.1
      rw [← haccepted]
      exact ih (hb.moves hm) (phase_of_stopped hm hp (Ne.symm hs.1)) hi' hs.2

/-- What is not accepted is dropped. -/
theorem dropped_of_accepted_eq {b : Bridge} (hb : b.Coherent) {steps : List BridgeStep}
    (h : (b.run steps).metrics.accepted = b.metrics.accepted) :
    (b.run steps).metrics.dropped = b.metrics.dropped + steps.countP (·.isSubmit) := by
  have hreceived := received_run hb steps
  simp only [BridgeMetrics.received] at hreceived
  omega

theorem submit_of_none {b : Bridge} (hi : b.inlet = none) (raw : RawTick) :
    (b.submit raw).2 = .dropped :=
  submit_of_full (fun id hid => by cases hi.symm.trans hid) raw

/-! ## The life of a bridge whose owner waits -/

/-- A new session takes as many ticks as its queue has places. -/
theorem Orderly.accepted_of_submits {b : Bridge} (hb : b.Orderly) {id : Nat}
    (hi : b.inlet = some id) (hd : b.depth = 0) (raws : List RawTick) :
    (b.run (raws.map .submit)).metrics.accepted =
      b.metrics.accepted + min raws.length b.config.queueCapacity := by
  have hdropped := hb.dropped_of_submits hi raws
  have hreceived := received_run hb.coherent (raws.map .submit)
  have hall : (raws.map BridgeStep.submit).countP (·.isSubmit) = raws.length := by
    rw [List.countP_map]
    exact List.countP_eq_length.mpr fun _ _ => rfl
  rw [hall] at hreceived
  simp only [BridgeMetrics.received] at hreceived
  omega

/-- What each call does to a bridge whose owner waits for its calls. A start fails without
a runtime and when the bridge runs, and then nothing is changed. Otherwise it keeps what
waits in an idle bridge, and gives a stopped one a queue that takes as many ticks as ever.
A stop discards exactly what is queued, and a second one changes nothing. Ticks are taken
for the session of the phase, so from a stop to the next start all are dropped. -/
theorem lifecycle {config : BridgeConfig} {lookup : Option InstrumentLookup} {b : Bridge}
    (h : create config lookup = .ok b) (calls : List BridgeCall) :
    let now := b.run (b.stepsOfAll calls)
    (∀ runtime,
        ((now.start runtime).2 = .error .noRuntime ↔ runtime = false) ∧
        ((now.start runtime).2 = .error .alreadyRunning ↔
          runtime = true ∧ now.isRunning = true) ∧
        ∀ error, (now.start runtime).2 = .error error → (now.start runtime).1 = now) ∧
      (∀ id, now.phase = .idle id → ∃ started, now.start true = (started, .ok ()) ∧
        started.isRunning = true ∧ started.waiting = now.waiting ∧
        started.inlet = now.inlet ∧ started.metrics = now.metrics) ∧
      (now.phase = .stopped → ∃ started, now.start true = (started, .ok ()) ∧
        started.isRunning = true ∧ started.waiting = [] ∧ started.metrics = now.metrics ∧
        ∀ raws : List RawTick, (started.run (raws.map .submit)).metrics.accepted =
          now.metrics.accepted + min raws.length config.queueCapacity) ∧
      (∀ meanwhile,
        let steps := now.stepsOf (.stop meanwhile)
        let stopped := now.run steps
        (stopped.phase = .stopped ∧
          stopped.metrics.discarded =
            now.metrics.discarded + now.depth + (now.accepted steps).length) ∧
        ∀ again, stopped.run (stopped.stepsOf (.stop again)) = stopped) ∧
      now.inlet = now.phase.session? ∧
      (now.phase = .stopped → ∀ later : List BridgeStep, .start true ∉ later →
        (now.run later).phase = .stopped ∧ (∀ raw, ((now.run later).submit raw).2 = .dropped) ∧
          (now.run later).metrics.accepted = now.metrics.accepted ∧
          (now.run later).metrics.dropped =
            now.metrics.dropped + later.countP (·.isSubmit)) := by
  have hcreated := Orderly.create h
  obtain ⟨_, _, _, hfresh⟩ := create_eq h
  have hrest : b.phase = .stopped → b.inlet = none := by rw [hfresh]; nofun
  obtain ⟨hapart, hend⟩ := hcreated.stepsOfAll hrest calls
  have hnow := hcreated.run hapart
  have hcapacity : (b.run (b.stepsOfAll calls)).config.queueCapacity = config.queueCapacity := by
    rw [(run_fixed hcreated.coherent _).1, hfresh]
  intro now
  refine ⟨fun runtime => ⟨start_noRuntime_iff now runtime, start_alreadyRunning_iff now runtime,
    fun error he => hnow.coherent.start_error he⟩, fun id hp => ?_, fun hp => ?_, fun meanwhile => ?_,
    ?_, fun hp later hl => ?_⟩
  · obtain ⟨started, hstart, hphase, hin, hw, hm⟩ := hnow.coherent.start_idle hp
    exact ⟨started, hstart, by rw [isRunning, hphase], hw, hin, hm⟩
  · obtain ⟨started, hstart, hphase, hin, hw, hd, hm⟩ := start_stopped hp
    refine ⟨started, hstart, by rw [isRunning, hphase], hw, hm, fun raws => ?_⟩
    have hstep := step_of_start hstart
    have horderly : started.Orderly := hstep ▸ hnow.step fun _ _ => hend
    have hconfig : started.config = now.config :=
      hstep ▸ (run_fixed hnow.coherent [.start true]).1
    rw [horderly.accepted_of_submits hin hd raws, hm, hconfig, hcapacity]
  · intro steps stopped
    have hstop := hnow.stop hend meanwhile
    exact ⟨hstop, run_stop_of_stopped hstop.1⟩
  · by_cases hp : now.phase = .stopped
    · rw [hp]
      exact hend hp
    · exact hnow.inlet hp
  · obtain ⟨hphase, hin, haccepted⟩ := shut_run hnow.coherent hp (hend hp) hl
    exact ⟨hphase, submit_of_none hin, haccepted,
      dropped_of_accepted_eq hnow.coherent haccepted⟩

/-- Of the three ticks of an idle bridge two wait, and the first stop discards them. -/
theorem lifecycle_of_idle :
    ∃ b, create { queueCapacity := 2 } none = .ok b ∧
      let now := b.run (b.stepsOfAll
        [.other ⟨.submit .empty, rfl⟩, .other ⟨.submit .empty, rfl⟩, .other ⟨.submit .empty, rfl⟩])
      let stopped := now.run (now.stepsOf (.stop []))
      stopped.metrics.discarded = 2 ∧
        stopped.run (stopped.stepsOf (.stop [])) = stopped := by
  refine ⟨_, rfl, ?_⟩
  have hstop := (lifecycle (rfl : create { queueCapacity := 2 } none = .ok _)
    [.other ⟨.submit .empty, rfl⟩, .other ⟨.submit .empty, rfl⟩,
      .other ⟨.submit .empty, rfl⟩]).2.2.2.1 []
  exact ⟨hstop.1.2.trans rfl, hstop.2 []⟩

end TickFeed.Bridge
