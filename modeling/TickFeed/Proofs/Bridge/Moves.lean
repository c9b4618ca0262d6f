import TickFeed.Proofs.Bridge.History

/-! # What a step can do

`Moves` lists once and for all what a step does to a bridge when its moment has
come, with what the bridge looked like then, and `Stalls` is a step that does
nothing and shows nothing. `step_moves` says that every step is one or the other,
at all moments that are `Coherent`, which are those of every run. So an invariant
is one case for each constructor, and no proof after this one unfolds a step. -/

namespace TickFeed

/-- The session that is named, unless the bridge is stopped. -/
def BridgePhase.session? : BridgePhase → Option Nat
  | .idle id | .running id => some id
  | .stopped => none

namespace Bridge

/-- A step whose moment has not come. -/
structure Stalls (b : Bridge) (step : BridgeStep) : Prop where
  step_eq : b.step step = b
  acceptedBy : b.acceptedBy step = none
  takenBy : b.takenBy step = none
  handedBy : b.handedBy step = none
  endedBy : b.endedBy step = none
  givenUpBy : b.givenUpBy step = none

/-- What a step whose moment has come does. -/
inductive Moves (b : Bridge) : BridgeStep → Bridge → Prop where
  | accept {raw : RawTick} {id : Nat} {s : Session} (hi : b.inlet = some id)
      (hs : b.sessions[id]? = some s) (hroom : s.queue.size < b.config.queueCapacity) :
      Moves b (.submit raw)
        { b with
          sessions := b.sessions.set id { s with queue := s.queue.push raw }
          metrics := b.metrics.recordAccepted }
  | drop {raw : RawTick}
      (hfull : ∀ id, b.inlet = some id → b.config.queueCapacity ≤ b.depthOf id) :
      Moves b (.submit raw) { b with metrics := b.metrics.recordDropped }
  | subscribe : Moves b .subscribe { b with subscribers := b.subscribers + 1 }
  | startIdle {id : Nat} {s : Session} (hp : b.phase = .idle id)
      (hs : b.sessions[id]? = some s) :
      Moves b (.start true)
        { b with sessions := b.sessions.set id { s with loop := .waiting }, phase := .running id }
  | startStopped (hp : b.phase = .stopped) :
      Moves b (.start true)
        { b with
          phase := .running b.sessions.length
          inlet := some b.sessions.length
          sessions := b.sessions ++ [⟨.empty, .waiting, false⟩] }
  | hand {id : Nat} {queue rest : Fifo RawTick} {raw : RawTick} {tick : Tick}
      (hs : b.sessions[id]? = some ⟨queue, .waiting, false⟩)
      (hq : queue.pop? = some (raw, rest)) (hn : b.normalize raw = .ok tick) :
      Moves b (.receive id)
        { b with
          sessions := b.sessions.set id
            ⟨rest, .fanning { tick with seq := b.seq + 1 } (List.range b.subscribers), false⟩
          seq := b.seq + 1 }
  | reject {id : Nat} {queue rest : Fifo RawTick} {raw : RawTick} {reason : TickRejection}
      (hs : b.sessions[id]? = some ⟨queue, .waiting, false⟩)
      (hq : queue.pop? = some (raw, rest)) (hn : b.normalize raw = .error reason) :
      Moves b (.receive id)
        { b with
          sessions := b.sessions.set id ⟨rest, .waiting, false⟩
          metrics := b.metrics.recordInvalid reason }
  | settle {id k : Nat} {x : Settlement} {queue : Fifo RawTick} {tick : Tick}
      {pending : List Nat} {stopping : Bool}
      (hs : b.sessions[id]? = some ⟨queue, .fanning tick pending, stopping⟩)
      (hk : k ∈ pending) (hx : b.allows x = true) :
      Moves b (.settle id k x)
        { b with
          sessions := b.sessions.set id ⟨queue, .fanning tick (pending.erase k), stopping⟩
          metrics := recordSettlement b.metrics x }
  | finish {id : Nat} {latency : UInt64} {queue : Fifo RawTick} {tick : Tick} {stopping : Bool}
      (hs : b.sessions[id]? = some ⟨queue, .fanning tick [], stopping⟩) :
      Moves b (.finish id latency)
        { b with
          sessions := b.sessions.set id ⟨queue, .waiting, stopping⟩
          metrics := b.metrics.recordBroadcast latency }
  | endLoop {id : Nat} {queue : Fifo RawTick} {stopping : Bool}
      (hs : b.sessions[id]? = some ⟨queue, .waiting, stopping⟩)
      (he : stopping = true ∨ queue.size = 0 ∧ b.inlet ≠ some id) :
      Moves b (.endLoop id) { b with sessions := b.sessions.set id ⟨queue, .ended, stopping⟩ }
  | stopIdle {id : Nat} {s : Session} (hp : b.phase = .idle id)
      (hs : b.sessions[id]? = some s) :
      Moves b .beginStop
        { b with
          sessions := b.sessions.set id .closed
          phase := .stopped
          inlet := none
          metrics := b.metrics.recordDiscarded s.queue.size }
  | stopRunning {id : Nat} {s : Session} (hp : b.phase = .running id)
      (hs : b.sessions[id]? = some s) :
      Moves b .beginStop
        { b with sessions := b.sessions.set id { s with stopping := true }, phase := .stopped }
  | endStop {id : Nat} {queue : Fifo RawTick}
      (hs : b.sessions[id]? = some ⟨queue, .ended, true⟩) :
      Moves b (.endStop id)
        { b with
          sessions := b.sessions.set id .closed
          inlet := none
          metrics := b.metrics.recordDiscarded queue.size }
  | abortStop {id : Nat} {queue : Fifo RawTick} {loop : LoopState}
      (hs : b.sessions[id]? = some ⟨queue, loop, true⟩) (hl : loop.isLive = true) :
      Moves b (.abortStop id)
        { b with
          sessions := b.sessions.set id .closed
          inlet := none
          metrics := b.metrics.recordDiscarded b.depth }

theorem modifySession_eq {b : Bridge} {id : Nat} {s : Session} (h : b.sessions[id]? = some s)
    (f : Session → Session) :
    b.modifySession id f = { b with sessions := b.sessions.set id (f s) } := by
  obtain ⟨hlt, rfl⟩ := List.getElem?_eq_some_iff.mp h
  have hm : b.sessions.modify id f = b.sessions.set id (f b.sessions[id]) := by
    apply List.ext_getElem?
    intro j
    by_cases hj : id = j
    · subst hj
      simp [hlt]
    · simp [hj]
  simp only [modifySession, hm]

theorem depthOf_eq {b : Bridge} {id : Nat} {s : Session} (h : b.sessions[id]? = some s) :
    b.depthOf id = s.queue.size := by
  simp only [depthOf, h]

/-- Only the session that is set is another one. -/
theorem session_set {sessions : List Session} {id : Nat} {old : Session}
    (h : sessions[id]? = some old) (new : Session) (j : Nat) :
    (sessions.set id new)[j]? = if j = id then some new else sessions[j]? := by
  have hlt := (List.getElem?_eq_some_iff.mp h).1
  by_cases hj : id = j
  · subst hj
    simp [hlt]
  · simp [hj, Ne.symm hj]

theorem session_set_self {sessions : List Session} {id : Nat} {old : Session}
    (h : sessions[id]? = some old) (new : Session) : (sessions.set id new)[id]? = some new :=
  (session_set h new id).trans (if_pos rfl)

theorem exists_session_set {sessions : List Session} {id : Nat} {old : Session}
    (h : sessions[id]? = some old) (new : Session) {j : Nat} (hj : ∃ s, sessions[j]? = some s) :
    ∃ s, (sessions.set id new)[j]? = some s := by
  obtain ⟨s, hs⟩ := hj
  rw [session_set h]
  by_cases he : j = id
  · exact ⟨new, if_pos he⟩
  · exact ⟨s, by rw [if_neg he]; exact hs⟩

/-! ## What holds at every moment -/

/-- What holds at every moment of a run, however the calls of the owner overlap: a
loop that is not about to end is the one that the phase names, and nothing but its
session or one whose stop still waits takes ticks. -/
structure Coherent (b : Bridge) : Prop where
  idle : ∀ id, b.phase = .idle id → ∃ queue, b.sessions[id]? = some ⟨queue, .unstarted, false⟩
  running : ∀ id, b.phase = .running id →
    ∃ s, b.sessions[id]? = some s ∧ s.loop ≠ .unstarted ∧ s.stopping = false
  live : ∀ id s, b.sessions[id]? = some s → s.loop.isLive = true → s.stopping = false →
    b.phase.session? = some id
  inlet : ∀ id, b.inlet = some id →
    (∃ s, b.sessions[id]? = some s) ∧ (b.phase = .stopped ∨ b.phase.session? = some id)

theorem create_eq {config : BridgeConfig} {lookup : Option InstrumentLookup} {b : Bridge}
    (h : create config lookup = .ok b) :
    ∃ metrics, BridgeMetrics.ofWindow? config.latencyWindow = some metrics ∧
      0 < config.queueCapacity ∧
      b = ⟨config, lookup, metrics, 0, 0, .idle 0, some 0, [⟨.empty, .unstarted, false⟩]⟩ := by
  unfold create at h
  split at h
  · cases h
  · rename_i hc
    split at h
    · rename_i metrics hm
      split at h
      · cases h
        exact ⟨metrics, hm, by omega, rfl⟩
      · cases h
    · cases h

theorem Coherent.create {config : BridgeConfig} {lookup : Option InstrumentLookup} {b : Bridge}
    (h : create config lookup = .ok b) : b.Coherent := by
  obtain ⟨metrics, -, -, rfl⟩ := create_eq h
  refine ⟨?_, ?_, ?_, ?_⟩
  · intro id hp
    cases hp
    exact ⟨.empty, rfl⟩
  · intro id hp
    cases hp
  · intro id s hs _ _
    cases id with
    | zero => rfl
    | succ id => simp at hs
  · intro id hi
    cases hi
    exact ⟨⟨_, rfl⟩, .inr rfl⟩

theorem Coherent.idle_session {b : Bridge} (hb : b.Coherent) {id : Nat} {s : Session}
    (hp : b.phase = .idle id) (hs : b.sessions[id]? = some s) :
    ∃ queue, s = ⟨queue, .unstarted, false⟩ := by
  obtain ⟨queue, hold⟩ := hb.idle id hp
  exact ⟨queue, Option.some.inj (hs.symm.trans hold)⟩

theorem Coherent.running_session {b : Bridge} (hb : b.Coherent) {id : Nat} {s : Session}
    (hp : b.phase = .running id) (hs : b.sessions[id]? = some s) :
    s.loop ≠ .unstarted ∧ s.stopping = false := by
  obtain ⟨t, hold, hl, ht⟩ := hb.running id hp
  cases hs.symm.trans hold
  exact ⟨hl, ht⟩

/-- There is one loop at most that is not about to end. -/
theorem Coherent.eq_of_live {b : Bridge} (hb : b.Coherent) {id j : Nat} {s : Session}
    (hp : b.phase.session? = some id) (hs : b.sessions[j]? = some s)
    (hl : s.loop.isLive = true) (ht : s.stopping = false) : j = id :=
  Option.some.inj ((hb.live j s hs hl ht).symm.trans hp)

/-! ## A step moves or stalls

One lemma for each step: it is looked up what the session is like, and then the
definition says what happens. -/

theorem submit_moves {b : Bridge} (hb : b.Coherent) (raw : RawTick) :
    b.Moves (.submit raw) (b.step (.submit raw)) := by
  simp only [Bridge.step, submit]
  split
  · rename_i id hi
    obtain ⟨⟨s, hs⟩, -⟩ := hb.inlet id hi
    rw [depthOf_eq hs, modifySession_eq hs]
    split
    · rename_i hroom
      exact .accept hi hs hroom
    · rename_i hfull
      refine .drop fun j hj => ?_
      cases hi.symm.trans hj
      rw [depthOf_eq hs]
      omega
  · rename_i hi
    exact .drop fun j hj => by cases hi.symm.trans hj

theorem start_of_idle {b : Bridge} {id : Nat} {s : Session} (hp : b.phase = .idle id)
    (hs : b.sessions[id]? = some s) :
    b.start true = ({ b with
      sessions := b.sessions.set id { s with loop := .waiting }
      phase := .running id }, .ok ()) := by
  have htaken : ({ b with phase := .stopped } : Bridge).sessions[id]? = some s := hs
  simp only [start, hp, not_true_eq_false, if_false, modifySession_eq htaken]

/-- What is put back is the phase that was moved out. -/
theorem start_of_running {b : Bridge} {id : Nat} (hp : b.phase = .running id) :
    b.start true = (b, .error .alreadyRunning) := by
  simp only [start, hp, not_true_eq_false, if_false]
  rw [← hp]

theorem start_of_stopped {b : Bridge} (hp : b.phase = .stopped) :
    b.start true = ({ b with
      phase := .running b.sessions.length
      inlet := some b.sessions.length
      sessions := b.sessions ++ [⟨.empty, .waiting, false⟩] }, .ok ()) := by
  simp only [start, hp, not_true_eq_false, if_false]

theorem start_moves {b : Bridge} (hb : b.Coherent) (runtime : Bool) :
    b.Stalls (.start runtime) ∨ b.Moves (.start runtime) (b.step (.start runtime)) := by
  cases runtime with
  | false => exact .inl ⟨rfl, rfl, rfl, rfl, rfl, rfl⟩
  | true =>
    cases hp : b.phase with
    | idle id =>
      obtain ⟨queue, hs⟩ := hb.idle id hp
      rw [Bridge.step, start_of_idle hp hs]
      exact .inr (.startIdle hp hs)
    | running id =>
      refine .inl ⟨?_, rfl, rfl, rfl, rfl, rfl⟩
      rw [Bridge.step, start_of_running hp]
    | stopped =>
      rw [Bridge.step, start_of_stopped hp]
      exact .inr (.startStopped hp)

theorem receive_moves (b : Bridge) (id : Nat) :
    b.Stalls (.receive id) ∨ b.Moves (.receive id) (b.step (.receive id)) := by
  by_cases h : ∃ queue, b.sessions[id]? = some ⟨queue, .waiting, false⟩
  · obtain ⟨queue, hs⟩ := h
    cases hq : queue.pop? with
    | none =>
      exact .inl ⟨by simp [Bridge.step, receive, hs, hq], rfl, by simp [takenBy, hs, hq],
        by simp [handedBy, receive, hs, hq], rfl, rfl⟩
    | some taken =>
      obtain ⟨raw, rest⟩ := taken
      right
      cases hn : b.normalize raw with
      | ok tick =>
        simp only [Bridge.step, receive, hs, hq, hn, modifySession_eq hs]
        exact .hand hs hq hn
      | error reason =>
        simp only [Bridge.step, receive, hs, hq, hn, modifySession_eq hs]
        exact .reject hs hq hn
  · have hr : b.receive id = (b, none) := by
      unfold receive
      split
      · exact absurd ⟨_, ‹_›⟩ h
      · rfl
    refine .inl ⟨by rw [Bridge.step, hr], rfl, ?_, by rw [handedBy, hr]; rfl, rfl, rfl⟩
    unfold takenBy
    dsimp only
    split
    · exact absurd ⟨_, ‹_›⟩ h
    · rfl

/-- The call of the subscriber has not ended, and can end so. -/
def CanSettle (b : Bridge) (id k : Nat) (x : Settlement) : Prop :=
  (∃ queue tick pending stopping,
    b.sessions[id]? = some ⟨queue, .fanning tick pending, stopping⟩ ∧ k ∈ pending) ∧
  b.allows x = true

theorem settle_of_not {b : Bridge} {id k : Nat} {x : Settlement} (h : ¬b.CanSettle id k x) :
    b.settle id k x = b := by
  unfold settle
  split
  · rename_i queue tick pending stopping hs
    exact if_neg fun hk => h ⟨⟨queue, tick, pending, stopping, hs, hk.1⟩, hk.2⟩
  · rfl

theorem settle_moves (b : Bridge) (id k : Nat) (x : Settlement) :
    b.Stalls (.settle id k x) ∨ b.Moves (.settle id k x) (b.step (.settle id k x)) := by
  by_cases h : b.CanSettle id k x
  · obtain ⟨⟨queue, tick, pending, stopping, hs, hk⟩, hx⟩ := h
    simp only [Bridge.step, settle, hs, hk, hx, and_self, if_true, modifySession_eq hs]
    exact .inr (.settle hs hk hx)
  · refine .inl ⟨settle_of_not h, rfl, rfl, rfl, ?_, rfl⟩
    unfold endedBy
    dsimp only
    split
    · rename_i queue tick pending stopping hs
      exact if_neg fun hk => h ⟨⟨queue, tick, pending, stopping, hs, hk.1⟩, hk.2⟩
    · rfl

theorem finish_moves (b : Bridge) (id : Nat) (latency : UInt64) :
    b.Stalls (.finish id latency) ∨
      b.Moves (.finish id latency) (b.step (.finish id latency)) := by
  by_cases h : ∃ queue tick stopping, b.sessions[id]? = some ⟨queue, .fanning tick [], stopping⟩
  · obtain ⟨queue, tick, stopping, hs⟩ := h
    simp only [Bridge.step, finish, hs, modifySession_eq hs]
    exact .inr (.finish hs)
  · refine .inl ⟨?_, rfl, rfl, rfl, rfl, rfl⟩
    simp only [Bridge.step, finish]
    split
    · exact absurd ⟨_, _, _, ‹_›⟩ h
    · rfl

theorem endLoop_moves (b : Bridge) (id : Nat) :
    b.Stalls (.endLoop id) ∨ b.Moves (.endLoop id) (b.step (.endLoop id)) := by
  by_cases h : ∃ queue stopping, b.sessions[id]? = some ⟨queue, .waiting, stopping⟩ ∧
      (stopping = true ∨ queue.size = 0 ∧ b.inlet ≠ some id)
  · obtain ⟨queue, stopping, hs, he⟩ := h
    simp only [Bridge.step, endLoop, hs, he, if_true, modifySession_eq hs]
    exact .inr (.endLoop hs he)
  · refine .inl ⟨?_, rfl, rfl, rfl, rfl, rfl⟩
    simp only [Bridge.step, endLoop]
    split
    · split
      · exact absurd ⟨_, _, ‹_›, ‹_›⟩ h
      · rfl
    · rfl

theorem beginStop_moves {b : Bridge} (hb : b.Coherent) :
    b.Stalls .beginStop ∨ b.Moves .beginStop (b.step .beginStop) := by
  cases hp : b.phase with
  | idle id =>
    obtain ⟨queue, hs⟩ := hb.idle id hp
    simp only [Bridge.step, beginStop, hp, modifySession_eq hs, depthOf_eq hs]
    exact .inr (.stopIdle hp hs)
  | running id =>
    obtain ⟨s, hs, -⟩ := hb.running id hp
    simp only [Bridge.step, beginStop, hp, modifySession_eq hs]
    exact .inr (.stopRunning hp hs)
  | stopped => exact .inl ⟨by simp only [Bridge.step, beginStop, hp], rfl, rfl, rfl, rfl, rfl⟩

theorem endStop_moves (b : Bridge) (id : Nat) :
    b.Stalls (.endStop id) ∨ b.Moves (.endStop id) (b.step (.endStop id)) := by
  by_cases h : ∃ queue, b.sessions[id]? = some ⟨queue, .ended, true⟩
  · obtain ⟨queue, hs⟩ := h
    simp only [Bridge.step, endStop, hs, modifySession_eq hs]
    exact .inr (.endStop hs)
  · refine .inl ⟨?_, rfl, rfl, rfl, rfl, rfl⟩
    simp only [Bridge.step, endStop]
    split
    · exact absurd ⟨_, ‹_›⟩ h
    · rfl

theorem abortStop_moves (b : Bridge) (id : Nat) :
    b.Stalls (.abortStop id) ∨ b.Moves (.abortStop id) (b.step (.abortStop id)) := by
  by_cases h : ∃ queue loop, b.sessions[id]? = some ⟨queue, loop, true⟩ ∧ loop.isLive = true
  · obtain ⟨queue, loop, hs, hl⟩ := h
    right
    cases loop with
    | ended => cases hl
    | _ =>
      simp only [Bridge.step, abortStop, hs, modifySession_eq hs]
      exact .abortStop hs rfl
  · refine .inl ⟨?_, rfl, rfl, rfl, rfl, ?_⟩
    · simp only [Bridge.step, abortStop]
      split
      · rfl
      · rename_i queue loop hne hs
        refine absurd ⟨queue, loop, hs, ?_⟩ h
        cases loop with
        | ended => exact (hne rfl).elim
        | _ => rfl
      · rfl
    · unfold givenUpBy
      dsimp only
      split
      · split
        · exact absurd ⟨_, _, ‹_›, ‹_›⟩ h
        · rfl
      · rfl

/-- The session that the phase names has no stop to wait for. -/
theorem Coherent.session_open {b : Bridge} (hb : b.Coherent) {id : Nat} {s : Session}
    (hp : b.phase.session? = some id) (hs : b.sessions[id]? = some s) : s.stopping = false := by
  cases h : b.phase with
  | idle j =>
    rw [h] at hp
    cases hp
    obtain ⟨queue, rfl⟩ := hb.idle_session h hs
    rfl
  | running j =>
    rw [h] at hp
    cases hp
    exact (hb.running_session h hs).2
  | stopped =>
    rw [h] at hp
    cases hp

/-- A loop that can take a tick is the one of a running bridge. -/
theorem Coherent.running_of_waiting {b : Bridge} (hb : b.Coherent) {id : Nat}
    {queue : Fifo RawTick} (hs : b.sessions[id]? = some ⟨queue, .waiting, false⟩) :
    b.phase = .running id := by
  have hl := hb.live id _ hs rfl rfl
  cases h : b.phase with
  | idle j =>
    rw [h] at hl
    cases hl
    obtain ⟨queue', he⟩ := hb.idle_session h hs
    cases he
  | running j =>
    rw [h] at hl
    cases hl
    rfl
  | stopped =>
    rw [h] at hl
    cases hl

/-- A step does one of the moves or nothing. -/
theorem step_moves {b : Bridge} (hb : b.Coherent) (step : BridgeStep) :
    b.Stalls step ∨ b.Moves step (b.step step) := by
  cases step with
  | submit raw => exact .inr (submit_moves hb raw)
  | subscribe => exact .inr .subscribe
  | start runtime => exact start_moves hb runtime
  | receive id => exact receive_moves b id
  | settle id k x => exact settle_moves b id k x
  | finish id latency => exact finish_moves b id latency
  | endLoop id => exact endLoop_moves b id
  | beginStop => exact beginStop_moves hb
  | endStop id => exact endStop_moves b id
  | abortStop id => exact abortStop_moves b id

/-- A step whose moment has come has no other outcome. -/
theorem step_of_moves {b b' : Bridge} {step : BridgeStep} (h : b.Moves step b') :
    b.step step = b' := by
  cases h with
  | accept hi hs hroom =>
    simp only [Bridge.step, submit, hi, depthOf_eq hs, hroom, if_true, modifySession_eq hs]
  | drop hfull =>
    simp only [Bridge.step, submit]
    split
    · rename_i id hi
      rw [if_neg (Nat.not_lt.mpr (hfull id hi))]
    · rfl
  | subscribe => rfl
  | startIdle hp hs => rw [Bridge.step, start_of_idle hp hs]
  | startStopped hp => rw [Bridge.step, start_of_stopped hp]
  | hand hs hq hn => simp only [Bridge.step, receive, hs, hq, hn, modifySession_eq hs]
  | reject hs hq hn => simp only [Bridge.step, receive, hs, hq, hn, modifySession_eq hs]
  | settle hs hk hx =>
    simp only [Bridge.step, settle, hs, hk, hx, and_self, if_true, modifySession_eq hs]
  | finish hs => simp only [Bridge.step, finish, hs, modifySession_eq hs]
  | endLoop hs he => simp only [Bridge.step, endLoop, hs, he, if_true, modifySession_eq hs]
  | stopIdle hp hs =>
    simp only [Bridge.step, beginStop, hp, depthOf_eq hs, modifySession_eq hs]
  | stopRunning hp hs => simp only [Bridge.step, beginStop, hp, modifySession_eq hs]
  | endStop hs => simp only [Bridge.step, endStop, hs, modifySession_eq hs]
  | @abortStop id queue loop hs hl =>
    cases loop with
    | ended => cases hl
    | _ => simp only [Bridge.step, abortStop, hs, modifySession_eq hs]

theorem session_settle {b : Bridge} {id k : Nat} {x : Settlement} {queue : Fifo RawTick}
    {tick : Tick} {pending : List Nat} {stopping : Bool}
    (hs : b.sessions[id]? = some ⟨queue, .fanning tick pending, stopping⟩) (hk : k ∈ pending)
    (hx : b.allows x = true) :
    (b.settle id k x).sessions[id]? = some ⟨queue, .fanning tick (pending.erase k), stopping⟩ := by
  have hsettle : b.settle id k x = _ := step_of_moves (.settle hs hk hx)
  rw [hsettle]
  exact session_set_self hs _

/-- Another session in the place of one keeps what holds at every moment, when the
phase stays and the loop begins nothing that it did not do before. -/
theorem Coherent.replace {b b' : Bridge} (hb : b.Coherent) {id : Nat} {old new : Session}
    (hs : b.sessions[id]? = some old) (hss : b'.sessions = b.sessions.set id new)
    (hp : b'.phase = b.phase) (hi : b'.inlet = b.inlet ∨ b'.inlet = none)
    (hkeep : old.stopping = false →
      new.stopping = false ∧ (new.loop = .unstarted ↔ old.loop = .unstarted))
    (hlive : new.loop.isLive = true → new.stopping = false →
      old.loop.isLive = true ∧ old.stopping = false) : b'.Coherent := by
  have hget : ∀ j, b'.sessions[j]? = if j = id then some new else b.sessions[j]? := by
    intro j
    rw [hss, session_set hs]
  refine ⟨?_, ?_, ?_, ?_⟩
  · intro j hj
    obtain ⟨queue, hold⟩ := hb.idle j (hp ▸ hj)
    rw [hget]
    by_cases he : j = id
    · subst he
      cases hs.symm.trans hold
      obtain ⟨h1, h2⟩ := hkeep rfl
      rw [if_pos rfl]
      exact ⟨new.queue, by rw [← h1, ← h2.mpr rfl]⟩
    · rw [if_neg he]
      exact ⟨queue, hold⟩
  · intro j hj
    obtain ⟨s, hold, hl, ht⟩ := hb.running j (hp ▸ hj)
    rw [hget]
    by_cases he : j = id
    · subst he
      cases hs.symm.trans hold
      obtain ⟨h1, h2⟩ := hkeep ht
      rw [if_pos rfl]
      exact ⟨new, rfl, fun h => hl (h2.mp h), h1⟩
    · rw [if_neg he]
      exact ⟨s, hold, hl, ht⟩
  · intro j s hj hl ht
    rw [hget] at hj
    rw [hp]
    by_cases he : j = id
    · subst he
      rw [if_pos rfl] at hj
      cases hj
      obtain ⟨h1, h2⟩ := hlive hl ht
      exact hb.live j old hs h1 h2
    · rw [if_neg he] at hj
      exact hb.live j s hj hl ht
  · intro j hj
    rcases hi with hi | hi
    · obtain ⟨hold, hph⟩ := hb.inlet j (hi ▸ hj)
      rw [hss, hp]
      exact ⟨exists_session_set hs new hold, hph⟩
    · rw [hi] at hj
      cases hj

theorem Coherent.moves {b b' : Bridge} {step : BridgeStep} (hb : b.Coherent)
    (h : b.Moves step b') : b'.Coherent := by
  cases h with
  | accept hi hs _ => exact hb.replace hs rfl rfl (.inl rfl) (fun h => ⟨h, .rfl⟩) (fun h1 h2 => ⟨h1, h2⟩)
  | drop _ => exact ⟨hb.idle, hb.running, hb.live, hb.inlet⟩
  | subscribe => exact ⟨hb.idle, hb.running, hb.live, hb.inlet⟩
  | @startIdle id s hp hs =>
    obtain ⟨queue, rfl⟩ := hb.idle_session hp hs
    have hph : b.phase.session? = some id := by rw [hp]; rfl
    refine ⟨nofun, ?_, ?_, ?_⟩
    · rintro j ⟨⟩
      exact ⟨_, session_set_self hs _, nofun, rfl⟩
    · intro j t hj hl ht
      rw [session_set hs] at hj
      by_cases he : j = id
      · exact congrArg some he.symm
      · rw [if_neg he] at hj
        exact congrArg some (hb.eq_of_live hph hj hl ht).symm
    · intro j hj
      obtain ⟨hold, hin⟩ := hb.inlet j hj
      rw [hp] at hin
      exact ⟨exists_session_set hs _ hold, .inr (hin.resolve_left nofun)⟩
  | startStopped hp =>
    refine ⟨nofun, ?_, ?_, ?_⟩
    · rintro j ⟨⟩
      exact ⟨_, List.getElem?_concat_length, nofun, rfl⟩
    · intro j t hj hl ht
      by_cases he : j < b.sessions.length
      · rw [List.getElem?_append_left he] at hj
        have := hb.live j t hj hl ht
        rw [hp] at this
        cases this
      · -- no loop of a stopped bridge is alive, so it is the new one
        have hle := (List.getElem?_eq_some_iff.mp hj).1
        simp only [List.length_append, List.length_singleton] at hle
        have : j = b.sessions.length := by omega
        exact congrArg some this.symm
    · rintro j ⟨⟩
      exact ⟨⟨_, List.getElem?_concat_length⟩, .inr rfl⟩
  | hand hs _ _ =>
    exact hb.replace hs rfl rfl (.inl rfl) (fun _ => ⟨rfl, nofun, nofun⟩) (fun _ _ => ⟨rfl, rfl⟩)
  | reject hs _ _ =>
    exact hb.replace hs rfl rfl (.inl rfl) (fun _ => ⟨rfl, .rfl⟩) (fun _ _ => ⟨rfl, rfl⟩)
  | settle hs _ _ =>
    exact hb.replace hs rfl rfl (.inl rfl) (fun h => ⟨h, nofun, nofun⟩) (fun _ h => ⟨rfl, h⟩)
  | finish hs =>
    exact hb.replace hs rfl rfl (.inl rfl) (fun h => ⟨h, nofun, nofun⟩) (fun _ h => ⟨rfl, h⟩)
  | endLoop hs _ =>
    exact hb.replace hs rfl rfl (.inl rfl) (fun h => ⟨h, nofun, nofun⟩) nofun
  | @stopIdle id s hp hs =>
    have hph : b.phase.session? = some id := by rw [hp]; rfl
    refine ⟨nofun, nofun, ?_, nofun⟩
    intro j t hj hl ht
    rw [session_set hs] at hj
    by_cases he : j = id
    · rw [if_pos he] at hj
      cases hj
      cases hl
    · rw [if_neg he] at hj
      exact absurd (hb.eq_of_live hph hj hl ht) he
  | @stopRunning id s hp hs =>
    have hph : b.phase.session? = some id := by rw [hp]; rfl
    refine ⟨nofun, nofun, ?_, ?_⟩
    · intro j t hj hl ht
      rw [session_set hs] at hj
      by_cases he : j = id
      · rw [if_pos he] at hj
        cases hj
        cases ht
      · rw [if_neg he] at hj
        exact absurd (hb.eq_of_live hph hj hl ht) he
    · intro j hj
      exact ⟨exists_session_set hs _ (hb.inlet j hj).1, .inl rfl⟩
  | endStop hs => exact hb.replace hs rfl rfl (.inr rfl) nofun nofun
  | abortStop hs _ => exact hb.replace hs rfl rfl (.inr rfl) nofun nofun

theorem Coherent.step {b : Bridge} (hb : b.Coherent) (step : BridgeStep) :
    (b.step step).Coherent := by
  rcases step_moves hb step with h | h
  · rw [h.step_eq]
    exact hb
  · exact hb.moves h

theorem Coherent.run {b : Bridge} (hb : b.Coherent) (steps : List BridgeStep) :
    (b.run steps).Coherent := by
  induction steps generalizing b with
  | nil => exact hb
  | cons step steps ih => exact ih (hb.step step)

/-- What every move keeps holds at the end of a run if it does at its beginning. -/
theorem Coherent.run_keeps {P : Bridge → Prop}
    (keeps : ∀ {b b' : Bridge} {step : BridgeStep}, b.Coherent → b.Moves step b' → P b → P b')
    {b : Bridge} (hb : b.Coherent) (h : P b) (steps : List BridgeStep) : P (b.run steps) := by
  induction steps generalizing b with
  | nil => exact h
  | cons step steps ih =>
    rw [run_cons]
    rcases step_moves hb step with hm | hm
    · rw [hm.step_eq]
      exact ih hb h
    · exact ih (hb.moves hm) (keeps hb hm h)

/-! ## What the moves show, and what none of them changes -/

theorem phase_beginStop (b : Bridge) : (b.step .beginStop).phase = .stopped := by
  simp only [Bridge.step, beginStop]
  split
  · assumption
  · rfl
  · rfl

theorem acceptedBy_of_room {b : Bridge} {id : Nat} {s : Session} (hi : b.inlet = some id)
    (hs : b.sessions[id]? = some s) (hroom : s.queue.size < b.config.queueCapacity)
    (raw : RawTick) : b.acceptedBy (.submit raw) = some raw := by
  simp only [acceptedBy, submit, hi, depthOf_eq hs, hroom, if_true]

theorem submit_of_full {b : Bridge}
    (hfull : ∀ id, b.inlet = some id → b.config.queueCapacity ≤ b.depthOf id) (raw : RawTick) :
    (b.submit raw).2 = .dropped := by
  unfold submit
  split
  · rename_i id hi
    rw [if_neg (Nat.not_lt.mpr (hfull id hi))]
  · rfl

theorem acceptedBy_of_full {b : Bridge}
    (hfull : ∀ id, b.inlet = some id → b.config.queueCapacity ≤ b.depthOf id) (raw : RawTick) :
    b.acceptedBy (.submit raw) = none := by
  simp only [acceptedBy, submit_of_full hfull raw, reduceCtorEq, if_false]

theorem takenBy_receive {b : Bridge} {id : Nat} {queue rest : Fifo RawTick} {raw : RawTick}
    (hs : b.sessions[id]? = some ⟨queue, .waiting, false⟩) (hq : queue.pop? = some (raw, rest)) :
    b.takenBy (.receive id) = some raw := by
  simp only [takenBy, hs, hq, Option.map_some]

theorem handedBy_of_ok {b : Bridge} {id : Nat} {queue rest : Fifo RawTick} {raw : RawTick}
    {tick : Tick} (hs : b.sessions[id]? = some ⟨queue, .waiting, false⟩)
    (hq : queue.pop? = some (raw, rest)) (hn : b.normalize raw = .ok tick) :
    b.handedBy (.receive id) = some ({ tick with seq := b.seq + 1 }, b.subscribers) := by
  simp only [handedBy, receive, hs, hq, hn, Option.map_some]

theorem handedBy_of_error {b : Bridge} {id : Nat} {queue rest : Fifo RawTick} {raw : RawTick}
    {reason : TickRejection} (hs : b.sessions[id]? = some ⟨queue, .waiting, false⟩)
    (hq : queue.pop? = some (raw, rest)) (hn : b.normalize raw = .error reason) :
    b.handedBy (.receive id) = none := by
  simp only [handedBy, receive, hs, hq, hn, Option.map_none]

theorem endedBy_settle {b : Bridge} {id k : Nat} {x : Settlement} {queue : Fifo RawTick}
    {tick : Tick} {pending : List Nat} {stopping : Bool}
    (hs : b.sessions[id]? = some ⟨queue, .fanning tick pending, stopping⟩)
    (hk : k ∈ pending) (hx : b.allows x = true) :
    b.endedBy (.settle id k x) = some ⟨id, k, x⟩ := by
  simp only [endedBy, hs, hk, hx, and_self, if_true]

theorem givenUpBy_abortStop {b : Bridge} {id : Nat} {queue : Fifo RawTick} {loop : LoopState}
    (hs : b.sessions[id]? = some ⟨queue, loop, true⟩) (hl : loop.isLive = true) :
    b.givenUpBy (.abortStop id) = some loop := by
  simp only [givenUpBy, hs, hl, if_true]

theorem Moves.fixed {b b' : Bridge} {step : BridgeStep} (h : b.Moves step b') :
    b'.config = b.config ∧ b'.lookup = b.lookup := by
  cases h <;> exact ⟨rfl, rfl⟩

theorem run_fixed {b : Bridge} (hb : b.Coherent) (steps : List BridgeStep) :
    (b.run steps).config = b.config ∧ (b.run steps).lookup = b.lookup := by
  refine hb.run_keeps (P := fun now => now.config = b.config ∧ now.lookup = b.lookup) ?_
    ⟨rfl, rfl⟩ steps
  intro now next step _ hm hnow
  exact ⟨hm.fixed.1.trans hnow.1, hm.fixed.2.trans hnow.2⟩

end Bridge

end TickFeed
