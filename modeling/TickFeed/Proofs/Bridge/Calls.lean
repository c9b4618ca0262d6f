import TickFeed.Proofs.Bridge.Moves

/-! # The calls of an owner

An owner that waits for each of its calls to return starts no loop while a stop
still waits for the last one. `BridgeCall` is what then happens to a bridge: the
steps of producer and loop one by one, and a stop as a whole, with the steps of the
others that fall into it. At every single moment of such a life, also within a stop,
the bridge is `Orderly`: everything that is left of it is in one session, the one
that takes ticks. -/

namespace TickFeed

def BridgeStep.isOwners : BridgeStep → Bool
  | .start _ | .beginStop | .endStop _ | .abortStop _ => true
  | _ => false

/-- What happens to a bridge whose owner waits for its calls. -/
inductive BridgeCall where
  /-- A step of the producer, of the loop or of a new subscriber. -/
  | other (step : {step : BridgeStep // step.isOwners = false})
  | start (runtime : Bool)
  /-- A stop, and what the others do until it no longer waits. -/
  | stop (meanwhile : List {step : BridgeStep // step.isOwners = false})

namespace Bridge

def isStopped (b : Bridge) : Bool := b.phase = .stopped && !b.sessions.any (·.stopping)

/-- The single steps of a call. A stop ends when the loop has ended, and otherwise
gives it up; only one of the last two steps has its moment. -/
def stepsOf (b : Bridge) : BridgeCall → List BridgeStep
  | .other step => [step.1]
  | .start runtime => [.start runtime]
  | .stop meanwhile =>
    match b.phase with
    | .running id => .beginStop :: (meanwhile.map (·.1) ++ [.endStop id, .abortStop id])
    | _ => [.beginStop]

def stepsOfAll (b : Bridge) : List BridgeCall → List BridgeStep
  | [] => []
  | call :: calls => b.stepsOf call ++ (b.run (b.stepsOf call)).stepsOfAll calls

/-! ## One session at a time -/

theorem size_of_pop? {queue rest : Fifo RawTick} {raw : RawTick}
    (h : queue.pop? = some (raw, rest)) : queue.size = rest.size + 1 := by
  rw [← Fifo.length_toList, ← Fifo.length_toList, Fifo.toList_of_pop?_some h, List.length_cons]

/-- What holds at every moment when no start overtakes a stop: all sessions but the
one that takes ticks are closed, and that one is the phase's or waits for its stop. -/
structure Orderly (b : Bridge) : Prop where
  coherent : b.Coherent
  closed : ∀ id (s : Session), b.sessions[id]? = some s → b.inlet ≠ some id → s = .closed
  inlet : b.phase ≠ .stopped → b.inlet = b.phase.session?
  stopping : ∀ id (s : Session), b.phase = .stopped → b.inlet = some id → b.sessions[id]? = some s →
    s.stopping = true
  room : ∀ (id : Nat) (s : Session), b.sessions[id]? = some s → s.queue.size ≤ b.config.queueCapacity

theorem Orderly.create {config : BridgeConfig} {lookup : Option InstrumentLookup} {b : Bridge}
    (h : create config lookup = .ok b) : b.Orderly := by
  have hb := Coherent.create h
  obtain ⟨metrics, -, -, rfl⟩ := create_eq h
  refine ⟨hb, ?_, fun _ => rfl, ?_, ?_⟩
  · intro id s hs hi
    cases id with
    | zero => exact absurd rfl hi
    | succ id => simp at hs
  · intro id s hp
    cases hp
  · intro id s hs
    cases id with
    | zero =>
      cases hs
      exact Nat.zero_le _
    | succ id => simp at hs

/-- A session that is not closed is the one that takes ticks. -/
theorem Orderly.inlet_of_open {b : Bridge} (hb : b.Orderly) {id : Nat} {s : Session}
    (hs : b.sessions[id]? = some s) (hne : s ≠ .closed) : b.inlet = some id := by
  by_cases hi : b.inlet = some id
  · exact hi
  · exact absurd (hb.closed id s hs hi) hne

/-- The session that the phase names takes ticks. -/
theorem Orderly.inlet_of_phase {b : Bridge} (hb : b.Orderly) {id : Nat}
    (hp : b.phase.session? = some id) : b.inlet = some id := by
  have hopen : b.phase ≠ .stopped := by
    intro h
    rw [h] at hp
    cases hp
  rw [hb.inlet hopen, hp]

/-- A stop can only wait when the bridge is marked as stopped. -/
theorem Orderly.stopped_of_stopping {b : Bridge} (hb : b.Orderly) {id : Nat} {s : Session}
    (hs : b.sessions[id]? = some s) (ht : s.stopping = true) : b.phase = .stopped := by
  have hne : s ≠ .closed := by
    rintro rfl
    cases ht
  have hin := hb.inlet_of_open hs hne
  by_cases hp : b.phase = .stopped
  · exact hp
  · have hopen := hb.coherent.session_open ((hb.inlet hp).symm.trans hin) hs
    rw [ht] at hopen
    cases hopen

/-- Another session in the place of the one that takes ticks. -/
theorem Orderly.replace {b b' : Bridge} (hb : b.Orderly) (hb' : b'.Coherent) {id : Nat}
    {old new : Session} (hi : b.inlet = some id) (hs : b.sessions[id]? = some old)
    (hss : b'.sessions = b.sessions.set id new) (hi' : b'.inlet = b.inlet)
    (hp : b'.phase ≠ .stopped → b'.phase.session? = some id)
    (hstop : b'.phase = .stopped → new.stopping = true) (hc : b'.config = b.config)
    (hroom : new.queue.size ≤ b.config.queueCapacity) : b'.Orderly := by
  refine ⟨hb', ?_, ?_, ?_, ?_⟩
  · intro j s hj hne
    rw [hss, session_set hs] at hj
    rw [hi'] at hne
    by_cases he : j = id
    · exact absurd (he ▸ hi) hne
    · rw [if_neg he] at hj
      exact hb.closed j s hj hne
  · intro hopen
    rw [hi', hi, hp hopen]
  · intro j s hstopped hj hsj
    rw [hi', hi] at hj
    cases hj
    rw [hss, session_set_self hs] at hsj
    cases hsj
    exact hstop hstopped
  · intro j s hj
    rw [hss, session_set hs] at hj
    rw [hc]
    by_cases he : j = id
    · rw [if_pos he] at hj
      cases hj
      exact hroom
    · rw [if_neg he] at hj
      exact hb.room j s hj

/-- Nothing is left of a bridge when the session that took ticks is closed. -/
theorem Orderly.close {b b' : Bridge} (hb : b.Orderly) (hb' : b'.Coherent) {id : Nat}
    {old : Session} (hi : b.inlet = some id) (hs : b.sessions[id]? = some old)
    (hss : b'.sessions = b.sessions.set id Session.closed) (hi' : b'.inlet = none)
    (hp : b'.phase = .stopped) : b'.Orderly := by
  have hall : ∀ (j : Nat) (s : Session), b'.sessions[j]? = some s → s = .closed := by
    intro j s hj
    rw [hss, session_set hs] at hj
    by_cases he : j = id
    · rw [if_pos he] at hj
      exact (Option.some.inj hj).symm
    · rw [if_neg he] at hj
      refine hb.closed j s hj fun h => he ?_
      exact Option.some.inj (h.symm.trans hi)
  refine ⟨hb', fun j s hj _ => hall j s hj, fun h => absurd hp h, ?_, ?_⟩
  · intro j s _ hj
    rw [hi'] at hj
    cases hj
  · intro j s hj
    rw [hall j s hj]
    exact Nat.zero_le _

/-- A step keeps that, but a start within a stop would not. -/
theorem Orderly.moves {b b' : Bridge} {step : BridgeStep} (hb : b.Orderly)
    (h : b.Moves step b')
    (hstart : ∀ runtime, step = .start runtime → b.phase = .stopped → b.inlet = none) :
    b'.Orderly := by
  have hb' := hb.coherent.moves h
  -- the moves at a session that stays the one that takes ticks
  have keep : ∀ {id : Nat} {old new : Session}, b.sessions[id]? = some old → old ≠ .closed →
      b'.sessions = b.sessions.set id new → b'.inlet = b.inlet → b'.phase = b.phase →
      new.stopping = old.stopping → b'.config = b.config →
      new.queue.size ≤ old.queue.size → b'.Orderly := by
    intro id old new hs hne hss hi hp hst hc hle
    have hin := hb.inlet_of_open hs hne
    refine hb.replace hb' hin hs hss hi ?_ ?_ hc (Nat.le_trans hle (hb.room id old hs))
    · intro hopen
      rw [hp] at hopen ⊢
      rw [← hb.inlet hopen, hin]
    · intro hstopped
      rw [hst]
      exact hb.stopping id old (hp ▸ hstopped) hin hs
  cases h with
  | @accept _ id s hi hs hroom =>
    have hlt : s.queue.size + 1 ≤ b.config.queueCapacity := hroom
    refine hb.replace hb' hi hs rfl rfl ?_ (fun hp => hb.stopping id s hp hi hs) rfl hlt
    intro hopen
    exact (hb.inlet hopen).symm.trans hi
  | drop _ => exact ⟨hb', hb.closed, hb.inlet, hb.stopping, hb.room⟩
  | subscribe => exact ⟨hb', hb.closed, hb.inlet, hb.stopping, hb.room⟩
  | @startIdle id s hp hs =>
    have hin := hb.inlet_of_phase (congrArg BridgePhase.session? hp)
    exact hb.replace hb' hin hs rfl rfl (fun _ => rfl) (fun h => nomatch h) rfl (hb.room id s hs)
  | startStopped hp =>
    have hnone := hstart true rfl hp
    have hearlier : ∀ (j : Nat) (s : Session), j ≠ b.sessions.length →
        (b.sessions ++ [(⟨.empty, .waiting, false⟩ : Session)])[j]? = some s →
        s = .closed := by
      intro j s hne hj
      have hlt := (List.getElem?_eq_some_iff.mp hj).1
      simp only [List.length_append, List.length_singleton] at hlt
      rw [List.getElem?_append_left (by omega)] at hj
      exact hb.closed j s hj (by rw [hnone]; nofun)
    refine ⟨hb', ?_, fun _ => rfl, ?_, ?_⟩
    · intro j s hj hne
      exact hearlier j s (fun he => hne (congrArg some he.symm)) hj
    · intro _ _ h
      cases h
    · intro j s hj
      by_cases he : j = b.sessions.length
      · subst he
        cases List.getElem?_concat_length.symm.trans hj
        exact Nat.zero_le _
      · rw [hearlier j s he hj]
        exact Nat.zero_le _
  | @hand _ queue rest _ _ hs hq _ | @reject _ queue rest _ _ hs hq _ =>
    have hle : rest.size ≤ queue.size := by
      rw [size_of_pop? hq]
      exact Nat.le_succ _
    exact keep hs nofun rfl rfl rfl rfl rfl hle
  | settle hs _ _ => exact keep hs nofun rfl rfl rfl rfl rfl (Nat.le_refl _)
  | finish hs => exact keep hs nofun rfl rfl rfl rfl rfl (Nat.le_refl _)
  | endLoop hs _ => exact keep hs nofun rfl rfl rfl rfl rfl (Nat.le_refl _)
  | stopIdle hp hs =>
    have hin := hb.inlet_of_phase (congrArg BridgePhase.session? hp)
    exact hb.close hb' hin hs rfl rfl rfl
  | @stopRunning id s hp hs =>
    have hin := hb.inlet_of_phase (congrArg BridgePhase.session? hp)
    exact hb.replace hb' hin hs rfl rfl (fun h => absurd rfl h) (fun _ => rfl) rfl (hb.room id s hs)
  | endStop hs =>
    exact hb.close hb' (hb.inlet_of_open hs nofun) hs rfl rfl (hb.stopped_of_stopping hs rfl)
  | abortStop hs _ =>
    exact hb.close hb' (hb.inlet_of_open hs nofun) hs rfl rfl (hb.stopped_of_stopping hs rfl)

/-- A stop is over when nothing takes ticks any more. -/
theorem Orderly.isStopped_iff {b : Bridge} (hb : b.Orderly) :
    b.isStopped = true ↔ b.phase = .stopped ∧ b.inlet = none := by
  simp only [isStopped, Bool.and_eq_true, decide_eq_true_eq, Bool.not_eq_true']
  refine and_congr_right fun hp => ?_
  constructor
  · intro hnone
    cases hi : b.inlet with
    | none => rfl
    | some id =>
      obtain ⟨⟨s, hs⟩, -⟩ := hb.coherent.inlet id hi
      have ht := List.any_eq_false.mp hnone s (List.mem_of_getElem? hs)
      exact absurd (hb.stopping id s hp hi hs) ht
  · intro hi
    refine List.any_eq_false.mpr fun s hmem => ?_
    obtain ⟨id, hs⟩ := List.getElem?_of_mem hmem
    rw [hb.closed id s hs (by rw [hi]; nofun)]
    nofun

/-! ## The moments of a life -/

/-- No start among the steps overtakes a stop. -/
def StartsApart (b : Bridge) : List BridgeStep → Prop
  | [] => True
  | step :: steps =>
    (∀ runtime, step = .start runtime → b.phase = .stopped → b.inlet = none) ∧
      (b.step step).StartsApart steps

theorem Orderly.step {b : Bridge} (hb : b.Orderly) {step : BridgeStep}
    (hstart : ∀ runtime, step = .start runtime → b.phase = .stopped → b.inlet = none) :
    (b.step step).Orderly := by
  rcases step_moves hb.coherent step with h | h
  · rw [h.step_eq]
    exact hb
  · exact hb.moves h hstart

theorem Orderly.run {b : Bridge} (hb : b.Orderly) {steps : List BridgeStep}
    (h : b.StartsApart steps) : (b.run steps).Orderly := by
  induction steps generalizing b with
  | nil => exact hb
  | cons step steps ih => exact ih (hb.step h.1) h.2

theorem StartsApart.append {b : Bridge} {steps more : List BridgeStep} (h : b.StartsApart steps)
    (hmore : (b.run steps).StartsApart more) : b.StartsApart (steps ++ more) := by
  induction steps generalizing b with
  | nil => exact hmore
  | cons step steps ih => exact ⟨h.1, ih h.2 hmore⟩

theorem StartsApart.take {b : Bridge} {steps : List BridgeStep} (h : b.StartsApart steps)
    (n : Nat) : b.StartsApart (steps.take n) := by
  induction steps generalizing b n with
  | nil => rw [List.take_nil]; trivial
  | cons step steps ih =>
    cases n with
    | zero => trivial
    | succ n => exact ⟨h.1, ih h.2 n⟩

theorem startsApart_of_no_start {b : Bridge} {steps : List BridgeStep}
    (h : ∀ runtime, .start runtime ∉ steps) : b.StartsApart steps := by
  induction steps generalizing b with
  | nil => trivial
  | cons step steps ih =>
    refine ⟨fun runtime he => absurd ?_ (h runtime), ih fun runtime hmem => h runtime ?_⟩
    · rw [he]
      exact List.mem_cons_self
    · exact List.mem_cons_of_mem _ hmem

/-- The others neither move the phase nor the inlet. -/
theorem step_of_other {b : Bridge} (hb : b.Coherent) {step : BridgeStep}
    (h : step.isOwners = false) : (b.step step).phase = b.phase ∧ (b.step step).inlet = b.inlet := by
  rcases step_moves hb step with hm | hm
  · rw [hm.step_eq]
    exact ⟨rfl, rfl⟩
  · generalize b.step step = b' at hm
    cases hm with
    | startIdle _ _ | startStopped _ | stopIdle _ _ | stopRunning _ _ | endStop _ | abortStop _ _ =>
      cases h
    | _ => exact ⟨rfl, rfl⟩

theorem run_of_others {b : Bridge} (hb : b.Coherent)
    (steps : List {step : BridgeStep // step.isOwners = false}) :
    (b.run (steps.map (·.1))).phase = b.phase ∧ (b.run (steps.map (·.1))).inlet = b.inlet := by
  induction steps generalizing b with
  | nil => exact ⟨rfl, rfl⟩
  | cons step steps ih =>
    obtain ⟨hp, hi⟩ := ih (hb.step step.1)
    obtain ⟨hp', hi'⟩ := step_of_other hb step.2
    exact ⟨hp.trans hp', hi.trans hi'⟩

/-- Nobody but the owner moves the phase or the inlet. -/
theorem run_of_no_owner {b : Bridge} (hb : b.Coherent) {steps : List BridgeStep}
    (h : ∀ step ∈ steps, step.isOwners = false) :
    (b.run steps).phase = b.phase ∧ (b.run steps).inlet = b.inlet := by
  have hothers := run_of_others hb (steps.attachWith _ h)
  rwa [List.attachWith_map_subtype_val] at hothers

/-- One of the two ends of a stop has its moment, and then nothing takes ticks. -/
theorem Orderly.end_of_stop {b : Bridge} (hb : b.Orderly) {id : Nat} (hp : b.phase = .stopped)
    (hi : b.inlet = some id) : (b.run [.endStop id, .abortStop id]).inlet = none := by
  obtain ⟨⟨⟨queue, loop, stopping⟩, hs⟩, -⟩ := hb.coherent.inlet id hi
  cases hb.stopping id _ hp hi hs
  rw [run_cons, run_cons]
  cases loop with
  | ended =>
    have hend : (b.step (.endStop id)).inlet = none := by
      simp only [Bridge.step, endStop, hs]
    rcases abortStop_moves (b.step (.endStop id)) id with h | h
    · rw [h.step_eq]
      exact hend
    · generalize (b.step (.endStop id)).step (.abortStop id) = b' at h
      cases h
      rfl
  | _ => simp only [Bridge.step, endStop, abortStop, hs, run_nil]

/-- The owner waits for a stop, so after a call there is none to wait for. -/
theorem Orderly.stepsOf {b : Bridge} (hb : b.Orderly) (hrest : b.phase = .stopped → b.inlet = none)
    (call : BridgeCall) :
    b.StartsApart (b.stepsOf call) ∧
      ((b.run (b.stepsOf call)).phase = .stopped → (b.run (b.stepsOf call)).inlet = none) := by
  cases call with
  | other step =>
    obtain ⟨step, hs⟩ := step
    obtain ⟨hp, hi⟩ := step_of_other hb.coherent hs
    refine ⟨startsApart_of_no_start fun runtime hmem => ?_, fun h => ?_⟩
    · cases List.mem_singleton.mp hmem
      cases hs
    · exact hi.trans (hrest (hp.symm.trans h))
  | start runtime =>
    refine ⟨⟨fun _ _ => hrest, trivial⟩, ?_⟩
    rcases start_moves hb.coherent runtime with h | h
    · show (b.step (.start runtime)).phase = .stopped → (b.step (.start runtime)).inlet = none
      rw [h.step_eq]
      exact hrest
    · show (b.step (.start runtime)).phase = .stopped → (b.step (.start runtime)).inlet = none
      generalize b.step (.start runtime) = b' at h
      cases h <;> exact nofun
  | stop meanwhile =>
    have hbegin : b.StartsApart [.beginStop] := startsApart_of_no_start fun runtime hmem => by
      cases List.mem_singleton.mp hmem
    cases hph : b.phase with
    | running id =>
      have hi := hb.inlet_of_phase (congrArg BridgePhase.session? hph)
      obtain ⟨s, hs, -⟩ := hb.coherent.running id hph
      -- nobody else moves the phase or the inlet, so they are at the end of the stop
      -- what they were at its beginning
      have hb' := hb.run hbegin
      obtain ⟨hp, hi'⟩ := run_of_others hb'.coherent meanwhile
      have hothers : (b.run [.beginStop]).StartsApart (meanwhile.map (·.1)) :=
        startsApart_of_no_start fun runtime hmem => by
          obtain ⟨⟨step, hstep⟩, -, he⟩ := List.mem_map.mp hmem
          cases he
          cases hstep
      have hend : ((b.run [.beginStop]).run (meanwhile.map (·.1))).StartsApart
          [.endStop id, .abortStop id] :=
        startsApart_of_no_start fun runtime hmem => by
          rcases List.mem_cons.mp hmem with he | hmem
          · cases he
          · cases List.mem_singleton.mp hmem
      have hsteps : b.stepsOf (.stop meanwhile) =
          [.beginStop] ++ (meanwhile.map (·.1) ++ [.endStop id, .abortStop id]) := by
        simp only [Bridge.stepsOf, hph, List.singleton_append]
      rw [hsteps, run_append, run_append]
      refine ⟨hbegin.append (hothers.append hend), fun _ => ?_⟩
      refine (hb'.run hothers).end_of_stop (hp.trans (phase_beginStop b)) (hi'.trans ?_)
      simp only [run_cons, run_nil, Bridge.step, beginStop, hph, modifySession]
      exact hi
    | idle id =>
      refine ⟨by simp only [Bridge.stepsOf, hph]; exact hbegin, fun _ => ?_⟩
      simp only [Bridge.stepsOf, hph, run_cons, run_nil, Bridge.step, beginStop]
    | stopped =>
      refine ⟨by simp only [Bridge.stepsOf, hph]; exact hbegin, fun _ => ?_⟩
      simp only [Bridge.stepsOf, hph, run_cons, run_nil, Bridge.step, beginStop]
      exact hrest hph

/-- Every moment in a life of calls, and its end. -/
theorem Orderly.stepsOfAll {b : Bridge} (hb : b.Orderly)
    (hrest : b.phase = .stopped → b.inlet = none) (calls : List BridgeCall) :
    b.StartsApart (b.stepsOfAll calls) ∧
      ((b.run (b.stepsOfAll calls)).phase = .stopped →
        (b.run (b.stepsOfAll calls)).inlet = none) := by
  induction calls generalizing b with
  | nil => exact ⟨trivial, hrest⟩
  | cons call calls ih =>
    obtain ⟨hcall, hrest'⟩ := hb.stepsOf hrest call
    obtain ⟨hcalls, hrest''⟩ := ih (hb.run hcall) hrest'
    rw [Bridge.stepsOfAll, run_append]
    exact ⟨hcall.append hcalls, hrest''⟩

end Bridge

end TickFeed
