import TickFeed.Proofs.Bridge.Moves

/-! # What comes of the calls

A tick that is handed out is one call for each subscriber, and the call's fate is the
first end of a call of that subscriber with that loop from then on, if there is one.
`countP_ended` says that this gives every end of a call to exactly one call: the
calls that are open at the beginning of a run and those that begin in it have as many
fates of a kind as the run has ends of that kind. So the two counters of calls that
went wrong count calls, no call twice and none in both. -/

namespace TickFeed

def Settlement.isFailure : Settlement → Bool
  | .ended .failure | .ended .panic => true
  | _ => false

def Settlement.isTimeout : Settlement → Bool
  | .timedOut => true
  | _ => false

/-- The call of a subscriber with a tick, and what came of it in a run. -/
structure SubscriberCall where
  tick : Tick
  subscriber : Nat
  fate : Option Settlement
deriving DecidableEq

namespace Bridge

/-- The first end of a call of the subscriber with the loop of the session. -/
def fate (id subscriber : Nat) (ended : List EndedCall) : Option Settlement :=
  (ended.find? fun c => c.session = id ∧ c.subscriber = subscriber).map (·.settlement)

/-- The calls that a step begins, when `ended` are the ends of calls after it. -/
def callsBy (b : Bridge) (step : BridgeStep) (ended : List EndedCall) : List SubscriberCall :=
  match step, b.handedBy step with
  | .receive id, some (tick, count) =>
    (List.range count).map fun k => ⟨tick, k, fate id k ended⟩
  | _, _ => []

def calls (b : Bridge) : List BridgeStep → List SubscriberCall
  | [] => []
  | step :: steps =>
    b.callsBy step ((b.step step).endedCalls steps) ++ (b.step step).calls steps

/-- The calls of the sessions that have not ended. The first session has the number
`first`. -/
def openCalls (first : Nat) : List Session → List (Nat × Nat)
  | [] => []
  | s :: sessions => s.loop.pending.map (first, ·) ++ openCalls (first + 1) sessions

/-! ## Calls that are open -/

theorem mem_openCalls {first : Nat} {sessions : List Session} {c : Nat × Nat}
    (h : c ∈ openCalls first sessions) :
    ∃ id s, c.1 = first + id ∧ sessions[id]? = some s ∧ c.2 ∈ s.loop.pending := by
  induction sessions generalizing first with
  | nil => cases h
  | cons s sessions ih =>
    rcases List.mem_append.mp h with h | h
    · obtain ⟨k, hk, rfl⟩ := List.mem_map.mp h
      exact ⟨0, s, rfl, rfl, hk⟩
    · obtain ⟨id, t, he, ht, hk⟩ := ih h
      exact ⟨id + 1, t, by omega, ht, hk⟩

/-- Another session in the place of one changes the open calls by those of the two. -/
theorem countP_openCalls_set {first id : Nat} {sessions : List Session} {old : Session}
    (hs : sessions[id]? = some old) (new : Session) (p : Nat × Nat → Bool) :
    (openCalls first (sessions.set id new)).countP p +
        old.loop.pending.countP (fun k => p (first + id, k)) =
      (openCalls first sessions).countP p +
        new.loop.pending.countP (fun k => p (first + id, k)) := by
  induction sessions generalizing first id with
  | nil => simp at hs
  | cons s sessions ih =>
    cases id with
    | zero =>
      cases hs
      simp only [List.set_cons_zero, openCalls, List.countP_append, List.countP_map,
        Function.comp_def, Nat.add_zero]
      omega
    | succ id =>
      have hrest := @ih (first + 1) id hs
      rw [show first + 1 + id = first + (id + 1) by omega] at hrest
      simp only [List.set_cons_succ, openCalls, List.countP_append]
      omega

theorem countP_openCalls_append (first : Nat) (sessions : List Session) {s : Session}
    (h : s.loop.pending = []) (p : Nat × Nat → Bool) :
    (openCalls first (sessions ++ [s])).countP p = (openCalls first sessions).countP p := by
  induction sessions generalizing first with
  | nil => simp [openCalls, h]
  | cons t sessions ih =>
    rw [List.cons_append, openCalls, openCalls, List.countP_append, List.countP_append, ih]

def PendingDistinct (b : Bridge) : Prop :=
  ∀ (id : Nat) (s : Session), b.sessions[id]? = some s → s.loop.pending.Nodup

theorem PendingDistinct.set {b b' : Bridge} (h : b.PendingDistinct) {id : Nat}
    {old new : Session} (hs : b.sessions[id]? = some old)
    (hss : b'.sessions = b.sessions.set id new)
    (hnew : old.loop.pending.Nodup → new.loop.pending.Nodup) : b'.PendingDistinct := by
  intro j s hj
  rw [hss, session_set hs] at hj
  by_cases he : j = id
  · rw [if_pos he] at hj
    cases hj
    exact hnew (h id old hs)
  · rw [if_neg he] at hj
    exact h j s hj

theorem PendingDistinct.moves {b b' : Bridge} {step : BridgeStep} (hb : b.PendingDistinct)
    (h : b.Moves step b') : b'.PendingDistinct := by
  cases h with
  | drop _ | subscribe => exact hb
  | startStopped _ =>
    intro j s hj
    rcases List.mem_append.mp (List.mem_of_getElem? hj) with hmem | hmem
    · obtain ⟨i, hi⟩ := List.getElem?_of_mem hmem
      exact hb i s hi
    · cases List.mem_singleton.mp hmem
      exact List.nodup_nil
  | hand hs _ _ => exact hb.set hs rfl fun _ => List.nodup_range
  | settle hs _ _ => exact hb.set hs rfl fun hnodup => hnodup.erase _
  | accept _ hs _ | stopRunning _ hs => exact hb.set hs rfl id
  | startIdle _ hs | reject hs _ _ | finish hs | endLoop hs _ | stopIdle _ hs | endStop hs
  | abortStop hs _ => exact hb.set hs rfl fun _ => List.nodup_nil

/-! ## Ends of calls -/

/-- A loop that has ended stays so. -/
theorem ended_stays {b b' : Bridge} {step : BridgeStep} (hb : b.Coherent) (h : b.Moves step b')
    {id : Nat} {s : Session} (hs : b.sessions[id]? = some s) (he : s.loop = .ended) :
    ∃ t, b'.sessions[id]? = some t ∧ t.loop = .ended := by
  have hset : ∀ {j : Nat} {old new : Session}, b.sessions[j]? = some old →
      (old.loop = .ended → new.loop = .ended) →
      ∃ t, (b.sessions.set j new)[id]? = some t ∧ t.loop = .ended := by
    intro j old new hj hnew
    rw [session_set hj]
    by_cases hid : id = j
    · subst hid
      cases hs.symm.trans hj
      exact ⟨new, if_pos rfl, hnew he⟩
    · exact ⟨s, by rw [if_neg hid]; exact hs, he⟩
  cases h with
  | drop _ | subscribe => exact ⟨s, hs, he⟩
  | startIdle hp hj =>
    obtain ⟨queue, rfl⟩ := hb.idle_session hp hj
    exact hset hj nofun
  | startStopped _ =>
    refine ⟨s, ?_, he⟩
    rw [List.getElem?_append_left (List.getElem?_eq_some_iff.mp hs).1]
    exact hs
  | accept _ hj _ | stopRunning _ hj => exact hset hj fun h => h
  | hand hj _ _ | reject hj _ _ | settle hj _ _ | finish hj => exact hset hj nofun
  | endLoop hj _ | stopIdle _ hj | endStop hj | abortStop hj _ => exact hset hj fun _ => rfl

theorem not_mem_ended {b : Bridge} (hb : b.Coherent) {id : Nat} {s : Session}
    (hs : b.sessions[id]? = some s) (he : s.loop = .ended) (steps : List BridgeStep) :
    ∀ c ∈ b.endedCalls steps, c.session ≠ id := by
  induction steps generalizing b s with
  | nil => nofun
  | cons step steps ih =>
    intro c hc
    rw [endedCalls_cons, List.mem_append] at hc
    rcases step_moves hb step with h | h
    · rw [h.step_eq, h.endedBy] at hc
      exact ih hb hs he c (hc.resolve_left nofun)
    · obtain ⟨t, ht, hte⟩ := ended_stays hb h hs he
      rcases hc with hc | hc
      · generalize b.step step = b' at h
        cases h with
        | settle hj hk hx =>
          rw [endedBy_settle hj hk hx] at hc
          cases List.mem_singleton.mp hc
          rintro rfl
          cases hs.symm.trans hj
          cases he
        | _ => cases hc
      · exact ih (hb.moves h) ht hte c hc

/-! ## Every end is the fate of one call -/

theorem fate_of_end (id k : Nat) (x : Settlement) (ended : List EndedCall) :
    fate id k (⟨id, k, x⟩ :: ended) = some x := by
  simp only [fate, List.find?_cons, and_self, decide_true, Option.map_some]

theorem fate_of_other {id k : Nat} {c : EndedCall} (h : ¬(c.session = id ∧ c.subscriber = k))
    (ended : List EndedCall) : fate id k (c :: ended) = fate id k ended := by
  simp only [fate, List.find?_cons, h, decide_false]

theorem fate_of_none {id : Nat} {ended : List EndedCall} (h : ∀ c ∈ ended, c.session ≠ id)
    (k : Nat) : fate id k ended = none := by
  rw [fate, List.find?_eq_none.mpr, Option.map_none]
  intro c hc
  simp only [h c hc, false_and, decide_false, Bool.false_eq_true, not_false_eq_true]

/-- The open call comes to an end that `p` takes. -/
def endsIn (p : Settlement → Bool) (ended : List EndedCall) (c : Nat × Nat) : Bool :=
  (fate c.1 c.2 ended).any p

/-- A step ends a call that is open, or begins the calls that it opens, and the other
open calls have the same fate before and after it. -/
theorem open_moves {b b' : Bridge} {step : BridgeStep} (hb : b.Coherent)
    (hd : b.PendingDistinct) (h : b.Moves step b') {ended : List EndedCall}
    (hended : ∀ (id : Nat) (s : Session), b'.sessions[id]? = some s → s.loop = .ended →
      ∀ c ∈ ended, c.session ≠ id) (p : Settlement → Bool) :
    (openCalls 0 b'.sessions).countP (endsIn p ended) +
        (b.endedBy step).toList.countP (fun c => p c.settlement) =
      (openCalls 0 b.sessions).countP (endsIn p ((b.endedBy step).toList ++ ended)) +
        (b.callsBy step ended).countP (fun c => c.fate.any p) := by
  -- the moves that leave the calls of their session as they are
  have keep : ∀ {id : Nat} {old new : Session}, b.sessions[id]? = some old →
      b'.sessions = b.sessions.set id new → old.loop.pending = new.loop.pending →
      b.endedBy step = none → b.callsBy step ended = [] →
      (openCalls 0 b'.sessions).countP (endsIn p ended) +
          (b.endedBy step).toList.countP (fun c => p c.settlement) =
        (openCalls 0 b.sessions).countP (endsIn p ((b.endedBy step).toList ++ ended)) +
          (b.callsBy step ended).countP (fun c => c.fate.any p) := by
    intro id old new hs hss hpending he hc
    have hset := @countP_openCalls_set 0 id b.sessions old hs new (endsIn p ended)
    rw [hpending] at hset
    rw [he, hc, hss]
    exact Nat.add_right_cancel hset
  cases h with
  | accept _ hs _ | stopRunning _ hs => exact keep hs rfl rfl rfl rfl
  | drop _ | subscribe => rfl
  | startIdle hp hs | stopIdle hp hs =>
    obtain ⟨queue, rfl⟩ := hb.idle_session hp hs
    exact keep hs rfl rfl rfl rfl
  | startStopped _ =>
    exact countP_openCalls_append 0 b.sessions rfl (endsIn p ended)
  | reject hs hq hn =>
    exact keep hs rfl rfl rfl (by simp only [callsBy, handedBy_of_error hs hq hn])
  | finish hs | endLoop hs _ | endStop hs => exact keep hs rfl rfl rfl rfl
  | @hand id queue rest raw tick hs hq hn =>
    have hset := @countP_openCalls_set 0 id _ _ hs
      ⟨rest, .fanning { tick with seq := b.seq + 1 } (List.range b.subscribers), false⟩
      (endsIn p ended)
    simp only [LoopState.pending, List.countP_nil, Nat.add_zero, Nat.zero_add] at hset
    simp only [callsBy, handedBy_of_ok hs hq hn, List.countP_map, Function.comp_def]
    exact hset
  | @settle id k x queue tick pending stopping hs hk hx =>
    rw [endedBy_settle hs hk hx]
    have hset := @countP_openCalls_set 0 id _ _ hs
      ⟨queue, .fanning tick (pending.erase k), stopping⟩ (endsIn p (⟨id, k, x⟩ :: ended))
    have hperm := (List.perm_cons_erase hk).countP_eq
      (fun j => endsIn p (⟨id, k, x⟩ :: ended) (0 + id, j))
    have hfate : endsIn p (⟨id, k, x⟩ :: ended) (0 + id, k) = p x := by
      rw [Nat.zero_add, endsIn, fate_of_end, Option.any_some]
    -- the one that ends is no longer open, and the end is nothing to the others
    have hothers : (openCalls 0 (b.sessions.set id
          ⟨queue, .fanning tick (pending.erase k), stopping⟩)).countP (endsIn p ended) =
        (openCalls 0 (b.sessions.set id
          ⟨queue, .fanning tick (pending.erase k), stopping⟩)).countP
            (endsIn p (⟨id, k, x⟩ :: ended)) := by
      refine List.countP_congr fun c hc => ?_
      obtain ⟨j, s, hj, hsj, hmem⟩ := mem_openCalls hc
      have hne : ¬(id = c.1 ∧ k = c.2) := by
        rintro ⟨rfl, rfl⟩
        rw [Nat.zero_add] at hj
        subst hj
        rw [session_set_self hs] at hsj
        cases hsj
        exact (hd _ _ hs).not_mem_erase hmem
      rw [endsIn, endsIn, @fate_of_other _ _ ⟨id, k, x⟩ hne]
    rw [List.countP_cons, hfate] at hperm
    simp only [LoopState.pending] at hset
    simp only [hothers, Option.toList_some, List.countP_singleton, List.singleton_append]
    show _ = _ + 0
    omega
  | @abortStop id queue loop hs hl =>
    have hset := @countP_openCalls_set 0 id _ _ hs .closed (endsIn p ended)
    have hclosed := hended id .closed (by rw [session_set_self hs]) rfl
    -- an aborted loop has ended for good, so its calls never come to an end
    have hnone : loop.pending.countP (fun k => endsIn p ended (0 + id, k)) = 0 := by
      refine List.countP_eq_zero.mpr fun k _ => ?_
      rw [Nat.zero_add, endsIn, fate_of_none hclosed, Option.any_none]
      nofun
    rw [hnone] at hset
    exact hset

/-- The ends of calls in a run, of one kind, are as many as the fates of that kind. -/
theorem countP_ended {b : Bridge} (hb : b.Coherent) (hd : b.PendingDistinct)
    (p : Settlement → Bool) (steps : List BridgeStep) :
    (b.endedCalls steps).countP (fun c => p c.settlement) =
      (openCalls 0 b.sessions).countP (endsIn p (b.endedCalls steps)) +
        (b.calls steps).countP (fun c => c.fate.any p) := by
  induction steps generalizing b with
  | nil =>
    have hnone : (openCalls 0 b.sessions).countP (endsIn p []) = 0 :=
      List.countP_eq_zero.mpr fun c _ => nofun
    exact (congrArg (· + 0) hnone).symm
  | cons step steps ih =>
    rw [endedCalls_cons, calls, List.countP_append, List.countP_append]
    rcases step_moves hb step with h | h
    · have hcalls : b.callsBy step ((b.step step).endedCalls steps) = [] := by
        simp only [callsBy, h.handedBy]
      rw [hcalls, h.endedBy, h.step_eq, ih hb hd]
      simp only [Option.toList_none, List.countP_nil, List.nil_append, Nat.zero_add]
    · have hrest := ih (hb.moves h) (hd.moves h)
      have hstep := open_moves hb hd h
        (fun id s hs he => not_mem_ended (hb.moves h) hs he steps) p
      omega

/-! ## The counters -/

/-- Each end of a call is in one counter at most, in that of its kind. -/
theorem settled_moves {b b' : Bridge} {step : BridgeStep} (h : b.Moves step b') :
    b'.metrics.subscriberFailures = b.metrics.subscriberFailures +
        (b.endedBy step).toList.countP (·.settlement.isFailure) ∧
      b'.metrics.subscriberTimeouts = b.metrics.subscriberTimeouts +
        (b.endedBy step).toList.countP (·.settlement.isTimeout) := by
  cases h with
  | @settle id k x _ _ _ _ hs hk hx =>
    rw [endedBy_settle hs hk hx]
    cases x with
    | ended how => cases how <;> exact ⟨rfl, rfl⟩
    | timedOut => exact ⟨rfl, rfl⟩
  | @reject _ _ _ _ reason _ _ _ => cases reason <;> exact ⟨rfl, rfl⟩
  | _ => exact ⟨rfl, rfl⟩

theorem settled_run {b : Bridge} (hb : b.Coherent) (steps : List BridgeStep) :
    (b.run steps).metrics.subscriberFailures = b.metrics.subscriberFailures +
        (b.endedCalls steps).countP (·.settlement.isFailure) ∧
      (b.run steps).metrics.subscriberTimeouts = b.metrics.subscriberTimeouts +
        (b.endedCalls steps).countP (·.settlement.isTimeout) := by
  induction steps generalizing b with
  | nil => exact ⟨rfl, rfl⟩
  | cons step steps ih =>
    obtain ⟨hf, ht⟩ := ih (hb.step step)
    rw [run_cons, hf, ht, endedCalls_cons, List.countP_append, List.countP_append]
    rcases step_moves hb step with h | h
    · rw [h.step_eq, h.endedBy]
      simp only [Option.toList_none, List.countP_nil, Nat.zero_add, and_self]
    · obtain ⟨hf', ht'⟩ := settled_moves h
      rw [hf', ht', Nat.add_assoc, Nat.add_assoc]
      exact ⟨rfl, rfl⟩

/-- No call fails whose end is a success. -/
theorem failures_eq {b : Bridge} (hb : b.Coherent) {steps : List BridgeStep}
    (h : ∀ id k x, .settle id k x ∈ steps → x = .ended .success) :
    (b.run steps).metrics.subscriberFailures = b.metrics.subscriberFailures := by
  have hnone : (b.endedCalls steps).countP (·.settlement.isFailure) = 0 := by
    refine List.countP_eq_zero.mpr fun c hc => ?_
    obtain ⟨step, hmem, now, hnow⟩ := exists_of_mem_trace hc
    cases step with
    | settle id k x =>
      obtain rfl := h id k x hmem
      rw [endedBy] at hnow
      split at hnow
      · split at hnow
        · cases hnow
          exact Bool.false_ne_true
        · cases hnow
      · cases hnow
    | _ => cases hnow
  rw [(settled_run hb steps).1, hnone, Nat.add_zero]

/-- The two counters of a bridge count the calls that failed and those that were given
up for their time, of all calls since it was made. -/
theorem counted_calls {config : BridgeConfig} {lookup : Option InstrumentLookup} {b : Bridge}
    (h : create config lookup = .ok b) (steps : List BridgeStep) :
    (b.run steps).metrics.subscriberFailures =
        (b.calls steps).countP (fun c => c.fate.any Settlement.isFailure) ∧
      (b.run steps).metrics.subscriberTimeouts =
        (b.calls steps).countP (fun c => c.fate.any Settlement.isTimeout) := by
  have hb := Coherent.create h
  obtain ⟨hf, ht⟩ := settled_run hb steps
  obtain ⟨metrics, hmetrics, -, rfl⟩ := create_eq h
  obtain ⟨latencies, -, rfl⟩ := Option.map_eq_some_iff.mp hmetrics
  have hd : PendingDistinct ⟨config, lookup, { latencies }, 0, 0, .idle 0, some 0,
      [⟨.empty, .unstarted, false⟩]⟩ := by
    intro id s hs
    cases List.mem_singleton.mp (List.mem_of_getElem? hs)
    exact List.nodup_nil
  rw [hf, ht, countP_ended hb hd Settlement.isFailure, countP_ended hb hd Settlement.isTimeout]
  simp only [openCalls, LoopState.pending, List.map_nil, List.append_nil, List.countP_nil,
    Nat.zero_add, and_self]

/-- A tick that is handed out is a call for each subscriber, and there are no others. -/
theorem calls_eq (b : Bridge) (steps : List BridgeStep) :
    (b.calls steps).map (fun c => (c.tick, c.subscriber)) =
      (b.trace handedBy steps).flatMap fun t => (List.range t.2).map (t.1, ·) := by
  induction steps generalizing b with
  | nil => rfl
  | cons step steps ih =>
    rw [calls, List.map_append, ih, trace_cons, List.flatMap_append]
    congr 1
    cases step with
    | receive id =>
      cases hh : b.handedBy (.receive id) with
      | none => simp only [callsBy, hh, List.map_nil, Option.toList_none, List.flatMap_nil]
      | some handed =>
        simp only [callsBy, hh, List.map_map, Function.comp_def, Option.toList_some,
          List.flatMap_cons, List.flatMap_nil, List.append_nil]
    | _ => rfl

end Bridge

end TickFeed
