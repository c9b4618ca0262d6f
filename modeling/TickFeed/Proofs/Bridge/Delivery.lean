import TickFeed.Proofs.Bridge.Moves

/-! # Delivery

Ticks go through the bridge in the order in which they were accepted. `waiting` is
the queue that the loop can still take from. `waiting_moves` compares it before and
after a step: as long as no stop begins, what is accepted is added behind and what
is taken leaves in front, and a stop empties it for good. By induction on the run
this is a law about its whole history (`waiting_run`, `dispatched_sublist`). The
ticks that are handed out are the valid ones among those taken, numbered from one
on without a gap (`handedOut_eq`), and each subscriber gets all of them from the
moment of its registration on. -/

namespace TickFeed.Bridge

/-- The raw ticks that the loop of the current phase can still take, the next one
first. -/
def waiting (b : Bridge) : List RawTick :=
  match b.phase.session?.bind (b.sessions[·]?) with
  | some s => s.queue.toList
  | none => []

/-- The ticks that raw ones are, without those that are none. -/
def valid (b : Bridge) (raws : List RawTick) : List Tick :=
  raws.filterMap fun raw => (b.normalize raw).toOption

/-- The ticks with the numbers that follow on `n`, whatever numbers they came with. -/
def numbered (n : Nat) (ticks : List Tick) : List Tick :=
  ticks.mapIdx fun i tick => { tick with seq := .ofNat (n + i + 1) }

/-! ## The queue that can be taken from -/

theorem waiting_eq {b : Bridge} {id : Nat} {s : Session} (hp : b.phase.session? = some id)
    (hs : b.sessions[id]? = some s) : b.waiting = s.queue.toList := by
  simp only [waiting, hp, Option.bind_some, hs]

theorem waiting_of_stopped {b : Bridge} (hp : b.phase = .stopped) : b.waiting = [] := by
  simp only [waiting, hp, BridgePhase.session?, Option.bind_none]

theorem waiting_replaced {b b' : Bridge} {id : Nat} {old new : Session}
    (hs : b.sessions[id]? = some old) (hss : b'.sessions = b.sessions.set id new)
    (hp : b'.phase.session? = some id) : b'.waiting = new.queue.toList :=
  waiting_eq hp (by rw [hss, session_set_self hs])

/-- A step at another session than that of the phase does not touch the queue. -/
theorem waiting_of_ne {b b' : Bridge} {id : Nat} {old new : Session}
    (hs : b.sessions[id]? = some old) (hss : b'.sessions = b.sessions.set id new)
    (hp : b'.phase = b.phase) (hne : b.phase.session? ≠ some id) : b'.waiting = b.waiting := by
  unfold waiting
  rw [hp, hss]
  cases hq : b.phase.session? with
  | none => rfl
  | some j =>
    have hj : j ≠ id := fun he => hne (he ▸ hq)
    simp only [Option.bind_some, session_set hs, hj, if_false]

/-- Nor does one that leaves the queue of its session as it is. -/
theorem waiting_of_queue_eq {b b' : Bridge} {id : Nat} {old new : Session}
    (hs : b.sessions[id]? = some old) (hss : b'.sessions = b.sessions.set id new)
    (hp : b'.phase = b.phase) (hq : new.queue = old.queue) : b'.waiting = b.waiting := by
  by_cases hph : b.phase.session? = some id
  · rw [waiting_eq hph hs, waiting_replaced hs hss (hp ▸ hph), hq]
  · exact waiting_of_ne hs hss hp hph

/-- What is accepted is added behind, and what is taken leaves in front. -/
theorem waiting_moves {b b' : Bridge} {step : BridgeStep} (hb : b.Coherent)
    (h : b.Moves step b') (hp : b.phase ≠ .stopped) (hp' : b'.phase ≠ .stopped) :
    b.waiting ++ (b.acceptedBy step).toList = (b.takenBy step).toList ++ b'.waiting := by
  -- the law of one move, from what each of its four parts is
  have law : ∀ {old new accepted taken}, b.waiting = old → b.acceptedBy step = accepted →
      b.takenBy step = taken → b'.waiting = new →
      old ++ accepted.toList = taken.toList ++ new →
      b.waiting ++ (b.acceptedBy step).toList = (b.takenBy step).toList ++ b'.waiting := by
    rintro _ _ _ _ rfl rfl rfl rfl h
    exact h
  have keep : b'.waiting = b.waiting → b.acceptedBy step = none → b.takenBy step = none →
      b.waiting ++ (b.acceptedBy step).toList = (b.takenBy step).toList ++ b'.waiting :=
    fun hw ha ht => law rfl ha ht hw (List.append_nil _)
  cases h with
  | accept hi hs hroom =>
    have hph := (hb.inlet _ hi).2.resolve_left hp
    refine law (waiting_eq hph hs) (acceptedBy_of_room hi hs hroom _) (Eq.refl none)
      (waiting_replaced hs rfl hph) ?_
    simp only [Fifo.toList_push, Option.toList_some, Option.toList_none, List.nil_append]
  | drop hfull => exact keep rfl (acceptedBy_of_full hfull _) rfl
  | subscribe => exact keep rfl rfl rfl
  | startIdle hph hs =>
    exact law (waiting_eq (by rw [hph]; rfl) hs) rfl rfl (waiting_replaced hs rfl rfl)
      (List.append_nil _)
  | startStopped hph => exact absurd hph hp
  | hand hs hq _ | reject hs hq _ =>
    have hph := hb.live _ _ hs rfl rfl
    refine law (waiting_eq hph hs) (Eq.refl none) (takenBy_receive hs hq)
      (waiting_replaced hs rfl hph) ?_
    rw [Fifo.toList_of_pop?_some hq]
    exact List.append_nil _
  | settle hs _ _ | finish hs | endLoop hs _ => exact keep (waiting_of_queue_eq hs rfl rfl rfl) rfl rfl
  | stopIdle _ _ | stopRunning _ _ => exact absurd rfl hp'
  | endStop hs | abortStop hs _ =>
    exact keep (waiting_of_ne hs rfl rfl fun he => nomatch hb.session_open he hs) rfl rfl

/-- Before a start and from the beginning of a stop on nothing can be taken. -/
theorem nothing_waiting {b b' : Bridge} {step : BridgeStep} (hb : b.Coherent)
    (h : b.Moves step b') (hp : b.phase = .stopped ∨ b'.phase = .stopped) :
    b.takenBy step = none ∧ b'.waiting = [] := by
  cases h with
  | startStopped hph =>
    refine ⟨rfl, ?_⟩
    rw [waiting_eq (s := ⟨.empty, .waiting, false⟩) rfl (by simp)]
    rfl
  | startIdle hph _ => rw [hph] at hp; rcases hp with hp | hp <;> cases hp
  | hand hs _ _ | reject hs _ _ =>
    have hph := hb.running_of_waiting hs
    rcases hp with hp | hp <;> cases hph.symm.trans hp
  | stopIdle _ _ | stopRunning _ _ => exact ⟨rfl, waiting_of_stopped rfl⟩
  | _ =>
    exact ⟨rfl, waiting_of_stopped (hp.elim id id)⟩

/-! ## The order of a whole run -/

theorem stays_open {b b' : Bridge} {step : BridgeStep} (h : b.Moves step b')
    (hp : b.phase ≠ .stopped) (hs : step ≠ .beginStop) : b'.phase ≠ .stopped := by
  cases h with
  | startIdle _ _ | startStopped _ => nofun
  | stopIdle _ _ | stopRunning _ _ => exact absurd rfl hs
  | _ => exact hp

theorem waiting_sublist {b b' : Bridge} {step : BridgeStep} (hb : b.Coherent)
    (h : b.Moves step b') :
    ((b.takenBy step).toList ++ b'.waiting).Sublist (b.waiting ++ (b.acceptedBy step).toList) := by
  by_cases hp : b.phase = .stopped ∨ b'.phase = .stopped
  · obtain ⟨ht, hw⟩ := nothing_waiting hb h hp
    rw [ht, hw]
    exact List.nil_sublist _
  · rw [not_or] at hp
    simp only [waiting_moves hb h hp.1 hp.2, List.Sublist.refl]

/-- While no stop begins, the loop takes what waited and then what is accepted, and
the rest waits. -/
theorem waiting_run {b : Bridge} (hb : b.Coherent) (steps : List BridgeStep)
    (hp : b.phase ≠ .stopped) (hs : .beginStop ∉ steps) :
    b.dispatched steps ++ (b.run steps).waiting = b.waiting ++ b.accepted steps := by
  induction steps generalizing b with
  | nil => exact (List.append_nil _).symm
  | cons step steps ih =>
    rw [List.mem_cons, not_or] at hs
    rw [dispatched, accepted, trace_cons, trace_cons, run_cons]
    rcases step_moves hb step with h | h
    · rw [h.step_eq, h.takenBy, h.acceptedBy]
      exact ih hb hp hs.2
    · have hp' := stays_open h hp (Ne.symm hs.1)
      have hrest := ih (hb.moves h) hp' hs.2
      rw [List.append_assoc, ← List.append_assoc b.waiting, waiting_moves hb h hp hp',
        List.append_assoc]
      exact congrArg _ hrest

/-- Whatever happens, nothing is taken that did not wait or was accepted since, or
twice, or out of its turn. -/
theorem dispatched_sublist {b : Bridge} (hb : b.Coherent) (steps : List BridgeStep) :
    (b.dispatched steps).Sublist (b.waiting ++ b.accepted steps) := by
  induction steps generalizing b with
  | nil => exact List.nil_sublist _
  | cons step steps ih =>
    rw [dispatched, accepted, trace_cons, trace_cons]
    rcases step_moves hb step with h | h
    · rw [h.step_eq, h.takenBy, h.acceptedBy]
      exact ih hb
    · have hrest := ih (hb.moves h)
      have hstep := (waiting_sublist hb h).append_right (trace acceptedBy (b.step step) steps)
      rw [List.append_assoc, List.append_assoc] at hstep
      exact (hrest.append_left _).trans hstep

theorem idle_of_moves {b b' : Bridge} {step : BridgeStep} {id : Nat} (h : b.Moves step b')
    (hp : b'.phase = .idle id) : b.phase = .idle id := by
  cases h with
  | startIdle _ _ | startStopped _ | stopIdle _ _ | stopRunning _ _ => cases hp
  | _ => exact hp

theorem takenBy_of_idle {b b' : Bridge} {step : BridgeStep} {id : Nat} (hb : b.Coherent)
    (h : b.Moves step b') (hp : b.phase = .idle id) : b.takenBy step = none := by
  cases h with
  | hand hs _ _ | reject hs _ _ => cases hp.symm.trans (hb.running_of_waiting hs)
  | _ => rfl

/-- A bridge that is idle always was, and has taken nothing. -/
theorem idle_of_run {b : Bridge} (hb : b.Coherent) (steps : List BridgeStep) {id : Nat}
    (hp : (b.run steps).phase = .idle id) :
    b.phase = .idle id ∧ .beginStop ∉ steps ∧ b.dispatched steps = [] := by
  induction steps generalizing b with
  | nil => exact ⟨hp, List.not_mem_nil, rfl⟩
  | cons step steps ih =>
    rw [dispatched, trace_cons, List.mem_cons, not_or]
    rcases step_moves hb step with h | h
    · rw [run_cons, h.step_eq] at hp
      obtain ⟨hp', hs, hd⟩ := ih hb hp
      rw [h.step_eq, h.takenBy]
      refine ⟨hp', ⟨?_, hs⟩, hd⟩
      -- a stop of an idle bridge moves it
      rintro rfl
      have := congrArg Bridge.phase h.step_eq
      simp only [Bridge.step, beginStop, hp'] at this
      cases this
    · obtain ⟨hp', hs, hd⟩ := ih (hb.moves h) hp
      have hid := idle_of_moves h hp'
      refine ⟨hid, ⟨?_, hs⟩, ?_⟩
      · rintro rfl
        simp only [Bridge.step, beginStop, hid] at hp'
        cases hp'
      · rw [takenBy_of_idle hb h hid]
        exact hd

/-! ## The numbers -/

theorem numbered_nil (n : Nat) : numbered n [] = [] := rfl

theorem numbered_cons (n : Nat) (tick : Tick) (ticks : List Tick) :
    numbered n (tick :: ticks) = { tick with seq := .ofNat (n + 1) } :: numbered (n + 1) ticks := by
  simp only [numbered, List.mapIdx_cons, Nat.add_zero]
  congr 2
  funext i t
  rw [show n + (i + 1) + 1 = n + 1 + i + 1 by omega]

theorem numbered_append (n : Nat) (ticks more : List Tick) :
    numbered n (ticks ++ more) = numbered n ticks ++ numbered (n + ticks.length) more := by
  induction ticks generalizing n with
  | nil => rfl
  | cons tick ticks ih =>
    rw [List.cons_append, numbered_cons, numbered_cons, ih, List.cons_append, List.length_cons,
      show n + 1 + ticks.length = n + (ticks.length + 1) by omega]

theorem valid_append (b : Bridge) (raws more : List RawTick) :
    b.valid (raws ++ more) = b.valid raws ++ b.valid more := List.filterMap_append

theorem valid_of_lookup {b b' : Bridge} (h : b'.lookup = b.lookup) : b'.valid = b.valid := by
  funext raws
  simp only [valid, normalize, h]

theorem uint64_succ (n : Nat) : UInt64.ofNat n + 1 = UInt64.ofNat (n + 1) :=
  (UInt64.ofNat_add n 1).symm

/-- What a step hands out is the tick that the raw one it takes is, with the next
number, and only then is a number used. -/
theorem handed_moves {b b' : Bridge} {step : BridgeStep} (h : b.Moves step b') {n : Nat}
    (hn : b.seq = .ofNat n) :
    ((b.handedBy step).map (·.1)).toList = numbered n (b.valid (b.takenBy step).toList) ∧
      b'.seq = .ofNat (n + (b.valid (b.takenBy step).toList).length) := by
  cases h with
  | hand hs hq hv =>
    have hvalid : ∀ raw tick, b.normalize raw = .ok tick → b.valid [raw] = [tick] := by
      intro raw tick h
      simp [valid, h, Except.toOption]
    rw [handedBy_of_ok hs hq hv, takenBy_receive hs hq, Option.toList_some, hvalid _ _ hv,
      numbered_cons, numbered_nil, hn, uint64_succ]
    exact ⟨rfl, rfl⟩
  | reject hs hq hv =>
    have hvalid : ∀ raw reason, b.normalize raw = .error reason → b.valid [raw] = [] := by
      intro raw reason h
      simp [valid, h, Except.toOption]
    rw [handedBy_of_error hs hq hv, takenBy_receive hs hq, Option.toList_some, hvalid _ _ hv]
    exact ⟨rfl, hn⟩
  | _ => exact ⟨rfl, hn⟩

/-- The ticks that are handed out are the valid ones of those taken, numbered on
from the last number before. -/
theorem handedOut_eq {b : Bridge} (hb : b.Coherent) (steps : List BridgeStep) {n : Nat}
    (hn : b.seq = .ofNat n) :
    b.handedOut steps = numbered n (b.valid (b.dispatched steps)) ∧
      (b.run steps).seq = .ofNat (n + (b.valid (b.dispatched steps)).length) := by
  induction steps generalizing b n with
  | nil => exact ⟨rfl, hn⟩
  | cons step steps ih =>
    rw [handedOut, dispatched, trace_cons, trace_cons, run_cons]
    rcases step_moves hb step with h | h
    · rw [h.step_eq, h.takenBy, h.handedBy]
      exact ih hb hn
    · obtain ⟨hd, hseq⟩ := handed_moves h hn
      obtain ⟨hds, hseqs⟩ := ih (hb.moves h) hseq
      rw [valid_of_lookup h.fixed.2] at hds hseqs
      rw [hd, valid_append, numbered_append, List.length_append, ← Nat.add_assoc]
      exact ⟨congrArg _ hds, hseqs⟩

/-! ## Who gets them -/

theorem subscribers_le_moves {b b' : Bridge} {step : BridgeStep} (h : b.Moves step b') :
    b.subscribers ≤ b'.subscribers := by
  cases h with
  | subscribe => exact Nat.le_succ _
  | _ => exact Nat.le_refl _

/-- Who has subscribed stays so. -/
theorem subscribers_le_run {b : Bridge} (hb : b.Coherent) (steps : List BridgeStep) :
    b.subscribers ≤ (b.run steps).subscribers := by
  refine hb.run_keeps (P := fun now => b.subscribers ≤ now.subscribers) ?_ (Nat.le_refl _) steps
  intro now next step _ hm hnow
  exact Nat.le_trans hnow (subscribers_le_moves hm)

/-- A tick goes to all who have subscribed by then. -/
theorem handedBy_count {b : Bridge} {step : BridgeStep} {tick : Tick} {n : Nat}
    (h : b.handedBy step = some (tick, n)) : n = b.subscribers := by
  cases step with
  | receive id =>
    rw [handedBy, Option.map_eq_some_iff] at h
    obtain ⟨_, -, h⟩ := h
    cases h
    rfl
  | _ => cases h

/-- A subscriber gets all that is handed out from then on. -/
theorem handedTo_of_lt {b : Bridge} (hb : b.Coherent) (steps : List BridgeStep) {k : Nat}
    (hk : k < b.subscribers) : handedTo k b steps = b.handedOut steps := by
  induction steps generalizing b with
  | nil => rfl
  | cons step steps ih =>
    have hrest := ih (hb.step step) (Nat.lt_of_lt_of_le hk (subscribers_le_run hb [step]))
    have hout : b.handedOut (step :: steps) =
        ((b.handedBy step).map (·.1)).toList ++ (b.step step).handedOut steps := rfl
    rw [handedTo, hrest, hout]
    cases h : b.handedBy step with
    | none => rfl
    | some handed =>
      obtain ⟨tick, n⟩ := handed
      cases handedBy_count h
      exact if_pos hk

/-- And nothing of what was handed out before. -/
theorem handedTo_of_ge {b : Bridge} (hb : b.Coherent) (steps : List BridgeStep) {k : Nat}
    (hk : (b.run steps).subscribers ≤ k) : handedTo k b steps = [] := by
  induction steps generalizing b with
  | nil => rfl
  | cons step steps ih =>
    have hle := Nat.le_trans (subscribers_le_run hb (step :: steps)) hk
    rw [handedTo, ih (hb.step step) hk]
    cases h : b.handedBy step with
    | none => rfl
    | some handed =>
      obtain ⟨tick, n⟩ := handed
      cases handedBy_count h
      exact if_neg (Nat.not_lt.mpr hle)

/-- Who subscribes is handed the valid ones of the ticks that are taken from then on. -/
theorem handedTo_subscriber {b : Bridge} (hb : b.Coherent) (hn : b.seq = .ofNat 0)
    (before after : List BridgeStep) :
    handedTo (b.run before).subscribers b (before ++ .subscribe :: after) =
      numbered (b.valid (b.dispatched before)).length
        (b.valid ((b.run before).subscribe.dispatched after)) := by
  have hnow := hb.run before
  have hseq := (handedOut_eq hb before hn).2
  rw [Nat.zero_add] at hseq
  rw [handedTo_append, handedTo_of_ge hb before (Nat.le_refl _), List.nil_append]
  have hout := (handedOut_eq (hnow.step .subscribe) after hseq).1
  have hvalid : ((b.run before).step .subscribe).valid = b.valid :=
    valid_of_lookup (run_fixed hb before).2
  rw [hvalid] at hout
  exact (handedTo_of_lt (hnow.step .subscribe) after (Nat.lt_succ_self _)).trans hout

/-- The ticks go through a bridge in the order of their acceptance, each at most
once. Whoever subscribes gets, from then on, all that are dispatched and valid,
with the numbers that follow on those before; the numbers begin with one and go on
over every stop. Between two stops nothing is passed over: what was accepted before
the first start comes first. A stop is the end of all that was accepted before it,
and of what is accepted until the next start. -/
theorem delivery_in_order {config : BridgeConfig} {lookup : Option InstrumentLookup} {b : Bridge}
    (h : create config lookup = .ok b) (before after : List BridgeStep) :
    let now := b.run before
    handedTo now.subscribers b (before ++ .subscribe :: after) =
        numbered (b.valid (b.dispatched before)).length (b.valid (now.subscribe.dispatched after)) ∧
      b.handedOut before = numbered 0 (b.valid (b.dispatched before)) ∧
      (b.dispatched before).Sublist (b.accepted before) ∧
      (now.phase ≠ .stopped → .beginStop ∉ after →
        now.dispatched after ++ (now.run after).waiting = now.waiting ++ now.accepted after) ∧
      (∀ id, now.phase = .idle id → b.dispatched before = [] ∧ now.waiting = b.accepted before) ∧
      (now.step .beginStop).phase = .stopped ∧
      (now.phase = .stopped → (now.dispatched after).Sublist (now.accepted after)) ∧
      (∀ step tick n, now.handedBy step = some (tick, n) → n = now.subscribers ∧
        ∀ k, handedTo k b (before ++ [step]) =
          handedTo k b before ++ if k < now.subscribers then [tick] else []) := by
  have hb := Coherent.create h
  have hnow := hb.run before
  obtain ⟨_, _, _, hfresh⟩ := create_eq h
  have hn : b.seq = .ofNat 0 := by rw [hfresh]; rfl
  have hw : b.waiting = [] := by rw [hfresh]; rfl
  have hp : b.phase ≠ .stopped := by rw [hfresh]; nofun
  refine ⟨handedTo_subscriber hb hn before after, (handedOut_eq hb before hn).1, ?_,
    waiting_run hnow after, ?_, phase_beginStop _, ?_, ?_⟩
  · have hsub := dispatched_sublist hb before
    rwa [hw] at hsub
  · intro id hid
    obtain ⟨-, hs, hd⟩ := idle_of_run hb before hid
    have hrun := waiting_run hb before hp hs
    rw [hd, hw] at hrun
    exact ⟨hd, hrun⟩
  · intro hstopped
    have hsub := dispatched_sublist hnow after
    rwa [waiting_of_stopped hstopped] at hsub
  · intro step tick n hhanded
    cases handedBy_count hhanded
    refine ⟨rfl, fun k => ?_⟩
    rw [handedTo_append]
    simp only [handedTo, hhanded]

/-- The loop passes over a tick that is none and uses no number for it. -/
theorem delivery_in_order_default :
    let raw := RawTick.empty.insert "symbol" (.string "NIFTY")
    ∃ b, create {} none = .ok b ∧
      handedTo 0 b ([.submit .empty, .submit raw] ++
          .subscribe :: [.start true, .receive 0, .receive 0]) =
        [{ raw.toTick "NIFTY" with seq := 1 }] := by
  intro raw
  refine ⟨_, rfl, ?_⟩
  have h := delivery_in_order (rfl : create {} none = .ok _) [.submit .empty, .submit raw]
    [.start true, .receive 0, .receive 0]
  exact h.1.trans rfl

end TickFeed.Bridge
