import TickFeed.Proofs.Bridge.Calls

/-! # Conservation

Every tick that is submitted ends in exactly one counter. `balance_moves` is the
account of one step, with one case for each move: what a step accepts stays in the
queue, and what leaves the queue is with the subscribers or in a counter. Only a stop
that gives a loop up loses something, and that is the tick that its loop is at. The
account of a run is the sum of those of its steps, and it holds at each of its
moments as long as the owner waits for its calls. -/

namespace TickFeed

def BridgeStep.isSubmit : BridgeStep → Bool
  | .submit _ => true
  | _ => false

namespace Bridge

def isFanning (b : Bridge) : Bool := b.sessions.any (·.loop.isFanning)

/-- The ticks that were with the subscribers when a stop gave their loop up. -/
def lost (b : Bridge) (steps : List BridgeStep) : List Tick :=
  (b.givenUp steps).filterMap LoopState.tick?

/-- The accepted ticks of which it is known where they are. -/
def accountedFor (b : Bridge) : Nat :=
  b.metrics.broadcast + b.metrics.invalid + b.metrics.discarded + b.depth + b.isFanning.toNat

/-! ## Where a tick can be -/

/-- All that has not been counted is at the session that takes ticks. -/
theorem Orderly.at_inlet {b : Bridge} (hb : b.Orderly) {id : Nat} {s : Session}
    (hi : b.inlet = some id) (hs : b.sessions[id]? = some s) :
    b.depth = s.queue.size ∧ b.isFanning = s.loop.isFanning := by
  refine ⟨by simp only [depth, hi, depthOf_eq hs], ?_⟩
  cases hf : s.loop.isFanning with
  | true => exact List.any_eq_true.mpr ⟨s, List.mem_of_getElem? hs, hf⟩
  | false =>
    refine List.any_eq_false.mpr fun t ht => ?_
    obtain ⟨j, hj⟩ := List.getElem?_of_mem ht
    by_cases he : b.inlet = some j
    · cases hi.symm.trans he
      cases hs.symm.trans hj
      rw [hf]
      nofun
    · rw [hb.closed j t hj he]
      nofun

theorem Orderly.at_none {b : Bridge} (hb : b.Orderly) (hi : b.inlet = none) :
    b.depth = 0 ∧ b.isFanning = false := by
  refine ⟨by simp only [depth, hi], List.any_eq_false.mpr fun s hs => ?_⟩
  obtain ⟨j, hj⟩ := List.getElem?_of_mem hs
  rw [hb.closed j s hj (by rw [hi]; nofun)]
  nofun

theorem Orderly.at_replaced {b b' : Bridge} (hb' : b'.Orderly) {id : Nat} {old new : Session}
    (hi : b'.inlet = some id) (hs : b.sessions[id]? = some old)
    (hss : b'.sessions = b.sessions.set id new) :
    b'.depth = new.queue.size ∧ b'.isFanning = new.loop.isFanning :=
  hb'.at_inlet hi (by rw [hss, session_set_self hs])

/-- A call that ends is not the end of its tick. -/
theorem recordSettlement_counters (m : BridgeMetrics) (x : Settlement) :
    (recordSettlement m x).accepted = m.accepted ∧
      (recordSettlement m x).broadcast = m.broadcast ∧
      (recordSettlement m x).invalid = m.invalid ∧
      (recordSettlement m x).discarded = m.discarded := by
  cases x with
  | ended how => cases how <;> exact ⟨rfl, rfl, rfl, rfl⟩
  | timedOut => exact ⟨rfl, rfl, rfl, rfl⟩

theorem recordInvalid_counters (m : BridgeMetrics) (reason : TickRejection) :
    (m.recordInvalid reason).accepted = m.accepted ∧
      (m.recordInvalid reason).broadcast = m.broadcast ∧
      (m.recordInvalid reason).invalid = m.invalid + 1 ∧
      (m.recordInvalid reason).discarded = m.discarded := by
  cases reason with
  | missingSymbol => exact ⟨rfl, rfl, Nat.add_right_comm _ _ _, rfl⟩
  | unresolvedToken _ => exact ⟨rfl, rfl, rfl, rfl⟩

/-- A loop that is given up loses the tick that it is at, and nothing else. -/
theorem length_tick? (loop : LoopState) : loop.tick?.toList.length = loop.isFanning.toNat := by
  cases loop <;> rfl

theorem filterMap_tick? (loop : Option LoopState) :
    loop.toList.filterMap LoopState.tick? = (loop.bind LoopState.tick?).toList := by
  cases loop with
  | none => rfl
  | some loop => cases loop <;> rfl

/-- Nothing is lost as long as no loop is given up. -/
theorem lost_eq_nil {b : Bridge} {steps : List BridgeStep}
    (h : ∀ id, .abortStop id ∉ steps) : b.lost steps = [] := by
  have hnone : b.givenUp steps = [] := by
    refine List.eq_nil_iff_forall_not_mem.mpr fun loop hloop => ?_
    obtain ⟨step, hmem, now, hnow⟩ := exists_of_mem_trace hloop
    cases step with
    | abortStop id => exact h id hmem
    | _ => cases hnow
  rw [lost, hnone, List.filterMap_nil]

/-- What a step accepts is accounted for, but for the tick of a loop that it gives up. -/
theorem balance_moves {b b' : Bridge} {step : BridgeStep} (hb : b.Orderly) (hb' : b'.Orderly)
    (h : b.Moves step b') :
    b'.metrics.accepted + b.accountedFor = b.metrics.accepted + b'.accountedFor +
      ((b.givenUpBy step).bind LoopState.tick?).toList.length := by
  -- the account of one move, from what the queue and the loop are before and after it
  have account : ∀ {depth depth' given : Nat} {fanning fanning' : Bool},
      b.depth = depth ∧ b.isFanning = fanning → b'.depth = depth' ∧ b'.isFanning = fanning' →
      ((b.givenUpBy step).bind LoopState.tick?).toList.length = given →
      b'.metrics.accepted + (b.metrics.broadcast + b.metrics.invalid + b.metrics.discarded +
          depth + fanning.toNat) =
        b.metrics.accepted + (b'.metrics.broadcast + b'.metrics.invalid + b'.metrics.discarded +
          depth' + fanning'.toNat) + given →
      b'.metrics.accepted + b.accountedFor = b.metrics.accepted + b'.accountedFor +
        ((b.givenUpBy step).bind LoopState.tick?).toList.length := by
    rintro _ _ _ _ _ ⟨rfl, rfl⟩ ⟨rfl, rfl⟩ rfl hsum
    exact hsum
  cases h with
  | accept hi hs _ =>
    refine account (hb.at_inlet hi hs) (hb'.at_replaced hi hs rfl) (Eq.refl 0) ?_
    simp only [BridgeMetrics.recordAccepted, BridgeMetrics.invalid, Fifo.size_push]
    omega
  | drop _ | subscribe => exact account ⟨rfl, rfl⟩ ⟨rfl, rfl⟩ rfl rfl
  | startIdle hp hs =>
    have hi := hb'.inlet nofun
    obtain ⟨queue, rfl⟩ := hb.coherent.idle_session hp hs
    exact account (hb.at_inlet hi hs) (hb'.at_replaced hi hs rfl) rfl rfl
  | startStopped hp =>
    have hi : b.inlet = none := by
      cases hi : b.inlet with
      | none => rfl
      | some id =>
        -- a stop would wait for this session, which is closed once ticks go to another
        obtain ⟨⟨s, hs⟩, -⟩ := hb.coherent.inlet id hi
        have hlt := (List.getElem?_eq_some_iff.mp hs).1
        have hclosed := hb'.closed id s (by rw [List.getElem?_append_left hlt]; exact hs)
          fun he => absurd (Option.some.inj he) (Nat.ne_of_gt hlt)
        have hstop := hb.stopping id s hp hi hs
        rw [hclosed] at hstop
        cases hstop
    exact account (hb.at_none hi) (hb'.at_inlet rfl List.getElem?_concat_length) rfl rfl
  | hand hs hq _ =>
    have hi := hb.inlet_of_open hs nofun
    refine account (hb.at_inlet hi hs) (hb'.at_replaced hi hs rfl) (Eq.refl 0) ?_
    simp only [size_of_pop? hq, LoopState.isFanning, Bool.toNat_true, Bool.toNat_false]
    omega
  | @reject _ _ _ _ reason hs hq _ =>
    have hi := hb.inlet_of_open hs nofun
    obtain ⟨ha, hbr, hin, hd⟩ := recordInvalid_counters b.metrics reason
    refine account (hb.at_inlet hi hs) (hb'.at_replaced hi hs rfl) (Eq.refl 0) ?_
    rw [ha, hbr, hin, hd]
    simp only [size_of_pop? hq, LoopState.isFanning, Bool.toNat_false]
    omega
  | @settle _ _ x _ _ _ _ hs _ _ =>
    have hi := hb.inlet_of_open hs nofun
    obtain ⟨ha, hbr, hin, hd⟩ := recordSettlement_counters b.metrics x
    refine account (hb.at_inlet hi hs) (hb'.at_replaced hi hs rfl) (Eq.refl 0) ?_
    rw [ha, hbr, hin, hd]
    rfl
  | finish hs =>
    have hi := hb.inlet_of_open hs nofun
    refine account (hb.at_inlet hi hs) (hb'.at_replaced hi hs rfl) (Eq.refl 0) ?_
    simp only [BridgeMetrics.recordBroadcast, BridgeMetrics.invalid, LoopState.isFanning,
      Bool.toNat_true, Bool.toNat_false]
    omega
  | endLoop hs _ =>
    have hi := hb.inlet_of_open hs nofun
    exact account (hb.at_inlet hi hs) (hb'.at_replaced hi hs rfl) rfl rfl
  | stopIdle hp hs =>
    have hi := hb.inlet_of_phase (congrArg BridgePhase.session? hp)
    obtain ⟨queue, rfl⟩ := hb.coherent.idle_session hp hs
    refine account (hb.at_inlet hi hs) (hb'.at_none rfl) (Eq.refl 0) ?_
    simp only [BridgeMetrics.recordDiscarded, BridgeMetrics.invalid, LoopState.isFanning]
    omega
  | stopRunning hp hs =>
    have hi := hb.inlet_of_phase (congrArg BridgePhase.session? hp)
    exact account (hb.at_inlet hi hs) (hb'.at_replaced hi hs rfl) rfl rfl
  | endStop hs =>
    have hi := hb.inlet_of_open hs nofun
    refine account (hb.at_inlet hi hs) (hb'.at_none rfl) (Eq.refl 0) ?_
    simp only [BridgeMetrics.recordDiscarded, BridgeMetrics.invalid, LoopState.isFanning]
    omega
  | @abortStop id _ loop hs hl =>
    have hi := hb.inlet_of_open hs nofun
    have hgiven : ((b.givenUpBy (.abortStop id)).bind LoopState.tick?).toList.length =
        loop.isFanning.toNat := by
      rw [givenUpBy_abortStop hs hl, Option.bind_some, length_tick?]
    refine account (hb.at_inlet hi hs) (hb'.at_none rfl) hgiven ?_
    simp only [(hb.at_inlet hi hs).1, BridgeMetrics.recordDiscarded, BridgeMetrics.invalid,
      Bool.toNat_false]
    omega

/-- Wherever a run has come to, all that was accepted since is accounted for or lost. -/
theorem balance_run {b : Bridge} (hb : b.Orderly) {steps : List BridgeStep}
    (h : b.StartsApart steps) :
    (b.run steps).metrics.accepted + b.accountedFor =
      b.metrics.accepted + (b.run steps).accountedFor + (b.lost steps).length := by
  induction steps generalizing b with
  | nil => rfl
  | cons step steps ih =>
    have hb' := hb.step h.1
    have hrest := ih hb' h.2
    rw [lost, givenUp, trace_cons, List.filterMap_append, List.length_append, run_cons]
    rcases step_moves hb.coherent step with hm | hm
    · rw [hm.step_eq] at hrest ⊢
      rw [hm.givenUpBy]
      simp only [lost, givenUp] at hrest
      simp only [Option.toList_none, List.filterMap_nil, List.length_nil, Nat.zero_add]
      exact hrest
    · have hstep := balance_moves hb hb' hm
      rw [filterMap_tick?]
      simp only [lost, givenUp] at hrest
      omega

/-! ## What is submitted -/

theorem received_step {b : Bridge} (hb : b.Coherent) (step : BridgeStep) :
    (b.step step).metrics.received =
      b.metrics.received + if step.isSubmit then 1 else 0 := by
  have stays : step.isSubmit = false → (b.step step).metrics.received = b.metrics.received := by
    intro hs
    rcases step_moves hb step with h | h
    · rw [h.step_eq]
    · generalize b.step step = b' at h
      cases h with
      | accept _ _ _ | drop _ => cases hs
      | @reject _ _ _ _ reason _ _ _ => cases reason <;> rfl
      | @settle _ _ x _ _ _ _ _ _ _ =>
        cases x with
        | ended how => cases how <;> rfl
        | timedOut => rfl
      | _ => rfl
  cases step with
  | submit raw =>
    have h := submit_moves hb raw
    generalize b.step (.submit raw) = b' at h
    cases h with
    | accept _ _ _ => exact Nat.add_right_comm _ _ _
    | drop _ => rfl
  | _ => exact stays rfl

theorem received_run {b : Bridge} (hb : b.Coherent) (steps : List BridgeStep) :
    (b.run steps).metrics.received = b.metrics.received + steps.countP (·.isSubmit) := by
  induction steps generalizing b with
  | nil => rfl
  | cons step steps ih =>
    rw [run_cons, ih (hb.step step), received_step hb, List.countP_cons, Nat.add_assoc,
      Nat.add_comm (List.countP _ _)]

/-- Only what is submitted counts as accepted or dropped. -/
theorem counters_of_no_submit {b : Bridge} (hb : b.Coherent) {step : BridgeStep}
    (h : step.isSubmit = false) :
    (b.step step).metrics.accepted = b.metrics.accepted ∧
      (b.step step).metrics.dropped = b.metrics.dropped := by
  rcases step_moves hb step with hs | hm
  · rw [hs.step_eq]
    exact ⟨rfl, rfl⟩
  · generalize b.step step = next at hm
    cases hm with
    | accept _ _ _ | drop _ => cases h
    | @reject _ _ _ _ reason _ _ _ => cases reason <;> exact ⟨rfl, rfl⟩
    | @settle _ _ x _ _ _ _ _ _ _ =>
      cases x with
      | ended how => cases how <;> exact ⟨rfl, rfl⟩
      | timedOut => exact ⟨rfl, rfl⟩
    | _ => exact ⟨rfl, rfl⟩

theorem counters_of_no_submits {b : Bridge} (hb : b.Coherent) {steps : List BridgeStep}
    (h : ∀ step ∈ steps, step.isSubmit = false) :
    (b.run steps).metrics.accepted = b.metrics.accepted ∧
      (b.run steps).metrics.dropped = b.metrics.dropped := by
  induction steps generalizing b with
  | nil => exact ⟨rfl, rfl⟩
  | cons step steps ih =>
    obtain ⟨hstep, hsteps⟩ := List.forall_mem_cons.mp h
    obtain ⟨haccepted, hdropped⟩ := counters_of_no_submit hb hstep
    rw [run_cons, (ih (hb.step step) hsteps).1, (ih (hb.step step) hsteps).2]
    exact ⟨haccepted, hdropped⟩

/-- The bridge counts a tick as it answers. -/
theorem submit_counters (b : Bridge) (raw : RawTick) :
    (b.submit raw).2 = .accepted ∧
        (b.submit raw).1.metrics = b.metrics.recordAccepted ∨
      (b.submit raw).2 = .dropped ∧ (b.submit raw).1.metrics = b.metrics.recordDropped := by
  unfold submit
  split
  · split
    · exact .inl ⟨rfl, rfl⟩
    · exact .inr ⟨rfl, rfl⟩
  · exact .inr ⟨rfl, rfl⟩

theorem Orderly.depth_le {b : Bridge} (hb : b.Orderly) : b.depth ≤ b.config.queueCapacity := by
  cases hi : b.inlet with
  | none =>
    rw [(hb.at_none hi).1]
    exact Nat.zero_le _
  | some id =>
    obtain ⟨⟨s, hs⟩, -⟩ := hb.coherent.inlet id hi
    rw [(hb.at_inlet hi hs).1]
    exact hb.room id s hs

theorem Orderly.inlet_of_not_stopped {b : Bridge} (hb : b.Orderly) (h : b.isStopped = false) :
    ∃ id, b.inlet = some id := by
  cases hi : b.inlet with
  | some id => exact ⟨id, rfl⟩
  | none =>
    have hp : b.phase ≠ .stopped := fun hp => by
      rw [hb.isStopped_iff.mpr ⟨hp, hi⟩] at h
      cases h
    have hin := hb.inlet hp
    rw [hi] at hin
    cases hph : b.phase with
    | stopped => exact absurd hph hp
    | idle id | running id =>
      rw [hph] at hin
      cases hin

/-- A tick is accepted where there is room for it. -/
theorem Orderly.submit_accepted {b : Bridge} (hb : b.Orderly) (raw : RawTick) :
    (b.submit raw).2 = .accepted ↔ b.isStopped = false ∧ b.depth < b.config.queueCapacity := by
  cases hi : b.inlet with
  | some id =>
    have hopen : b.isStopped = false := by
      rw [Bool.eq_false_iff]
      intro h
      have := (hb.isStopped_iff.mp h).2
      rw [hi] at this
      cases this
    simp only [submit, depth, hi, hopen, true_and]
    by_cases hroom : b.depthOf id < b.config.queueCapacity
    · simp only [hroom, if_true]
    · simp only [hroom, if_false, reduceCtorEq]
  | none =>
    have hdropped : (b.submit raw).2 = .dropped := by simp only [submit, hi]
    rw [hdropped]
    constructor
    · intro h
      cases h
    · intro h
      obtain ⟨id, hid⟩ := hb.inlet_of_not_stopped h.1
      rw [hi] at hid
      cases hid

/-- Of many ticks at once those are dropped that the queue has no room for. -/
theorem Orderly.dropped_of_submits {b : Bridge} (hb : b.Orderly) {id : Nat}
    (hi : b.inlet = some id) (raws : List RawTick) :
    (b.run (raws.map .submit)).metrics.dropped =
      b.metrics.dropped + (raws.length - (b.config.queueCapacity - b.depth)) := by
  induction raws generalizing b with
  | nil => simp only [List.map_nil, run_nil, List.length_nil, Nat.zero_sub, Nat.add_zero]
  | cons raw raws ih =>
    obtain ⟨⟨s, hs⟩, -⟩ := hb.coherent.inlet id hi
    have hb' : (b.step (.submit raw)).Orderly := hb.step nofun
    have hd := (hb.at_inlet hi hs).1
    have hle := hb.depth_le
    have hm := submit_moves hb.coherent raw
    rw [List.map_cons, run_cons, List.length_cons]
    generalize b.step (.submit raw) = b' at hb' hm
    cases hm with
    | accept hi' hs' hroom =>
      cases hi.symm.trans hi'
      cases hs.symm.trans hs'
      refine (ih hb' hi).trans ?_
      rw [(hb'.at_replaced hi hs rfl).1, hd]
      show b.metrics.dropped + (raws.length - (b.config.queueCapacity - (s.queue.size + 1))) = _
      omega
    | drop hfull =>
      refine (ih hb' hi).trans ?_
      have hge := hfull id hi
      rw [depthOf_eq hs] at hge
      rw [(hb'.at_inlet hi hs).1, hd]
      show b.metrics.dropped + 1 + (raws.length - (b.config.queueCapacity - s.queue.size)) = _
      omega

/-! ## The account -/

/-- What the statistics and the export have in common is the same in both. -/
theorem counters_agree (b : Bridge) :
    (∀ shared ∈ [("ticks_received", b.stats.received), ("ticks_accepted", b.stats.accepted),
        ("ticks_dropped", b.stats.dropped), ("ticks_broadcast", b.stats.broadcast),
        ("ticks_discarded_on_stop", b.stats.discarded),
        ("subscriber_failures", b.stats.subscriberFailures),
        ("subscriber_timeouts", b.stats.subscriberTimeouts),
        ("queue_depth", b.stats.queueDepth), ("queue_capacity", b.stats.queueCapacity)],
        b.counters.lookup shared.1 = some shared.2) ∧
      ∃ missing unresolved,
        b.counters.lookup "ticks_invalid_missing_symbol" = some missing ∧
        b.counters.lookup "ticks_invalid_unresolved_token" = some unresolved ∧
        b.stats.invalid = missing + unresolved := by
  refine ⟨?_, _, _, rfl, rfl, UInt64.ofNat_add _ _⟩
  simp only [List.forall_mem_cons, List.not_mem_nil, false_implies, implies_true, and_true]
  exact ⟨rfl, rfl, rfl, rfl, rfl, rfl, rfl, rfl, rfl⟩

/-- At every moment in the life of a bridge whose owner waits for its calls, within a
stop as well, every tick that was submitted is in exactly one place. Of the accepted
ones only those are nowhere that were with the subscribers of a loop that a stop gave
up, one for each such loop at most. The queue has never more than its capacity and
takes a tick whenever it has less, until a stop is over, and then it is empty. -/
theorem conservation {config : BridgeConfig} {lookup : Option InstrumentLookup} {b : Bridge}
    (h : create config lookup = .ok b) (calls : List BridgeCall) (n : Nat) :
    let steps := (b.stepsOfAll calls).take n
    let now := b.run steps
    (now.stats.received = now.stats.accepted + now.stats.dropped ∧
        now.stats.received = .ofNat (steps.countP (·.isSubmit)) ∧
        now.metrics.accepted + now.metrics.dropped = steps.countP (·.isSubmit)) ∧
      (now.metrics.accepted = now.metrics.broadcast + now.metrics.invalid +
          now.metrics.discarded + now.depth + now.isFanning.toNat + (b.lost steps).length ∧
        (b.lost steps).length ≤ (b.givenUp steps).length) ∧
      (now.depth ≤ config.queueCapacity ∧ (now.isStopped = true → now.depth = 0)) ∧
      ((∀ raw, (now.submit raw).2 = .accepted ↔
          now.isStopped = false ∧ now.depth < config.queueCapacity) ∧
        (now.isStopped = false → ∀ raws : List RawTick,
          (now.run (raws.map .submit)).metrics.dropped =
            now.metrics.dropped + (raws.length - (config.queueCapacity - now.depth)))) ∧
      (∀ shared ∈ [("ticks_received", now.stats.received), ("ticks_accepted", now.stats.accepted),
          ("ticks_dropped", now.stats.dropped), ("ticks_broadcast", now.stats.broadcast),
          ("ticks_discarded_on_stop", now.stats.discarded),
          ("subscriber_failures", now.stats.subscriberFailures),
          ("subscriber_timeouts", now.stats.subscriberTimeouts),
          ("queue_depth", now.stats.queueDepth), ("queue_capacity", now.stats.queueCapacity)],
          now.counters.lookup shared.1 = some shared.2) ∧
      (∃ missing unresolved,
        now.counters.lookup "ticks_invalid_missing_symbol" = some missing ∧
        now.counters.lookup "ticks_invalid_unresolved_token" = some unresolved ∧
        now.stats.invalid = missing + unresolved) ∧
      ((b.run (b.stepsOfAll calls)).isStopped = true ↔
        (b.run (b.stepsOfAll calls)).phase = .stopped) := by
  have hb := Orderly.create h
  obtain ⟨metrics, hmetrics, -, hfresh⟩ := create_eq h
  have hrest : b.phase = .stopped → b.inlet = none := by rw [hfresh]; nofun
  obtain ⟨hapart, hend⟩ := hb.stepsOfAll hrest calls
  have hsteps := hapart.take n
  have hnow := hb.run hsteps
  have hcapacity : (b.run ((b.stepsOfAll calls).take n)).config.queueCapacity =
      config.queueCapacity := by
    rw [(run_fixed hb.coherent _).1, hfresh]
  have hempty : b.metrics.accepted = 0 ∧ b.metrics.received = 0 ∧ b.accountedFor = 0 := by
    obtain ⟨latencies, -, rfl⟩ := Option.map_eq_some_iff.mp hmetrics
    rw [hfresh]
    exact ⟨rfl, rfl, rfl⟩
  have hbalance := balance_run hb hsteps
  have hreceived := received_run hb.coherent ((b.stepsOfAll calls).take n)
  rw [hempty.2.1, Nat.zero_add] at hreceived
  obtain ⟨hshared, hinvalid⟩ := counters_agree (b.run ((b.stepsOfAll calls).take n))
  refine ⟨⟨UInt64.ofNat_add _ _, congrArg UInt64.ofNat hreceived, hreceived⟩,
    ⟨?_, List.length_filterMap_le _ _⟩, ⟨?_, ?_⟩, ⟨?_, ?_⟩, hshared, hinvalid, ?_⟩
  · rw [hempty.1, hempty.2.2, Nat.zero_add, Nat.add_zero] at hbalance
    exact hbalance
  · exact hcapacity ▸ hnow.depth_le
  · intro hstopped
    exact (hnow.at_none (hnow.isStopped_iff.mp hstopped).2).1
  · intro raw
    exact hcapacity ▸ hnow.submit_accepted raw
  · intro hopen raws
    obtain ⟨id, hi⟩ := hnow.inlet_of_not_stopped hopen
    exact hcapacity ▸ hnow.dropped_of_submits hi raws
  · rw [(hb.run hapart).isStopped_iff]
    exact ⟨And.left, fun hp => ⟨hp, hend hp⟩⟩

/-- Of three ticks one is lost with the loop that the stop gives up, one is discarded,
and one finds the queue full. -/
theorem conservation_given_up :
    ∃ b, create { queueCapacity := 1 } none = .ok b ∧
      let steps := (b.stepsOfAll [.other ⟨.subscribe, rfl⟩, .start true,
        .other ⟨.submit (RawTick.empty.insert "symbol" (.string "NIFTY")), rfl⟩,
        .other ⟨.receive 0, rfl⟩, .other ⟨.submit .empty, rfl⟩, .other ⟨.submit .empty, rfl⟩,
        .stop []]).take 9
      let now := b.run steps
      now.metrics.accepted = now.metrics.broadcast + now.metrics.invalid +
          now.metrics.discarded + now.depth + now.isFanning.toNat + (b.lost steps).length ∧
        (now.metrics.accepted = 2 ∧ now.metrics.dropped = 1 ∧ now.metrics.discarded = 1 ∧
          (b.lost steps).length = 1) := by
  refine ⟨_, rfl, ?_, by decide +kernel⟩
  exact (conservation (rfl : create { queueCapacity := 1 } none = .ok _) _ 9).2.1.1

end Bridge

end TickFeed
