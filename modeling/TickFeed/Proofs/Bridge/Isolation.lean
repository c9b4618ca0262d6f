import TickFeed.Proofs.Bridge.Outcomes
import Mathlib.Data.List.Forall2
import Mathlib.Data.List.Nodup

/-! # Subscribers apart

What comes of the calls of the others is nothing that a subscriber could notice. Two
runs that differ in nothing else are `Alike` at every moment: the bridges have the
same queues, loops, numbers and counters, but for those that count how calls ended
and how long they took. And the calls with one tick can end in any order: two ends of
calls commute (`settle_comm`), so a list of them leaves the same bridge behind in
whatever order it is taken (`run_of_ends_perm`). -/

namespace TickFeed.Bridge

/-- The same step, but for what comes of a call of another subscriber and how long a
tick took. -/
inductive SameBut (b : Bridge) (subscriber : Nat) : BridgeStep → BridgeStep → Prop where
  | same (step : BridgeStep) : SameBut b subscriber step step
  | settle {id k : Nat} {x y : Settlement} (hk : k ≠ subscriber) (hx : b.allows x = true)
      (hy : b.allows y = true) : SameBut b subscriber (.settle id k x) (.settle id k y)
  | finish {id : Nat} {latency other : UInt64} :
      SameBut b subscriber (.finish id latency) (.finish id other)

/-- The counters that say where ticks are. -/
structure AlikeMetrics (m m' : BridgeMetrics) : Prop where
  accepted : m'.accepted = m.accepted
  dropped : m'.dropped = m.dropped
  broadcast : m'.broadcast = m.broadcast
  missingSymbol : m'.missingSymbol = m.missingSymbol
  unresolvedToken : m'.unresolvedToken = m.unresolvedToken
  discarded : m'.discarded = m.discarded

/-- All is the same but what tells how calls ended and how long they took. -/
structure Alike (b b' : Bridge) : Prop where
  same : b' = { b with metrics := b'.metrics }
  metrics : AlikeMetrics b.metrics b'.metrics

theorem AlikeMetrics.recordInvalid {m m' : BridgeMetrics} (h : AlikeMetrics m m')
    (reason : TickRejection) : AlikeMetrics (m.recordInvalid reason) (m'.recordInvalid reason) := by
  obtain ⟨ha, hdr, hb, hm, hu, hd⟩ := h
  cases reason with
  | missingSymbol => exact ⟨ha, hdr, hb, congrArg (· + 1) hm, hu, hd⟩
  | unresolvedToken _ => exact ⟨ha, hdr, hb, hm, congrArg (· + 1) hu, hd⟩

theorem AlikeMetrics.recordSettlement {m m' : BridgeMetrics} (h : AlikeMetrics m m')
    (x y : Settlement) : AlikeMetrics (recordSettlement m x) (recordSettlement m' y) := by
  have hx : ∀ m x, AlikeMetrics m (Bridge.recordSettlement m x) := by
    intro m x
    cases x with
    | ended how => cases how <;> exact ⟨rfl, rfl, rfl, rfl, rfl, rfl⟩
    | timedOut => exact ⟨rfl, rfl, rfl, rfl, rfl, rfl⟩
  obtain ⟨ha, hdr, hb, hm, hu, hd⟩ := hx m x
  obtain ⟨ha', hdr', hb', hm', hu', hd'⟩ := hx m' y
  exact ⟨ha'.trans (h.accepted.trans ha.symm), hdr'.trans (h.dropped.trans hdr.symm),
    hb'.trans (h.broadcast.trans hb.symm), hm'.trans (h.missingSymbol.trans hm.symm),
    hu'.trans (h.unresolvedToken.trans hu.symm), hd'.trans (h.discarded.trans hd.symm)⟩

theorem AlikeMetrics.recordDiscarded {m m' : BridgeMetrics} (h : AlikeMetrics m m') (n : Nat) :
    AlikeMetrics (m.recordDiscarded n) (m'.recordDiscarded n) :=
  ⟨h.accepted, h.dropped, h.broadcast, h.missingSymbol, h.unresolvedToken,
    congrArg (· + n) h.discarded⟩

/-- What moves one of two bridges that are alike moves the other in the same way, and
hands out the same. -/
theorem Moves.alike {b b' : Bridge} {m : BridgeMetrics} {subscriber : Nat}
    {step step' : BridgeStep} (hm : AlikeMetrics b.metrics m)
    (hs : b.SameBut subscriber step step') (h : b.Moves step b') :
    ∃ b'', Moves { b with metrics := m } step' b'' ∧ Alike b' b'' ∧
      handedBy { b with metrics := m } step' = b.handedBy step := by
  obtain ⟨ha, hdr, hbr, hmi, hun, hdi⟩ := id hm
  cases hs with
  | settle _ _ hy =>
    cases h with
    | settle hs hk _ => exact ⟨_, .settle hs hk hy, ⟨rfl, hm.recordSettlement _ _⟩, rfl⟩
  | finish =>
    cases h with
    | finish hs => exact ⟨_, .finish hs, ⟨rfl, ha, hdr, congrArg (· + 1) hbr, hmi, hun, hdi⟩, rfl⟩
  | same =>
    cases h with
    | accept hi hs hroom =>
      exact ⟨_, .accept hi hs hroom, ⟨rfl, congrArg (· + 1) ha, hdr, hbr, hmi, hun, hdi⟩, rfl⟩
    | drop hfull => exact ⟨_, .drop hfull, ⟨rfl, ha, congrArg (· + 1) hdr, hbr, hmi, hun, hdi⟩, rfl⟩
    | subscribe => exact ⟨_, .subscribe, ⟨rfl, hm⟩, rfl⟩
    | startIdle hp hs => exact ⟨_, .startIdle hp hs, ⟨rfl, hm⟩, rfl⟩
    | startStopped hp => exact ⟨_, .startStopped hp, ⟨rfl, hm⟩, rfl⟩
    | hand hs hq hn =>
      have hother := @handedBy_of_ok { b with metrics := m } _ _ _ _ _ hs hq hn
      exact ⟨_, .hand hs hq hn, ⟨rfl, hm⟩, hother.trans (handedBy_of_ok hs hq hn).symm⟩
    | reject hs hq hn =>
      have hother := @handedBy_of_error { b with metrics := m } _ _ _ _ _ hs hq hn
      exact ⟨_, .reject hs hq hn, ⟨rfl, hm.recordInvalid _⟩,
        hother.trans (handedBy_of_error hs hq hn).symm⟩
    | settle hs hk hx => exact ⟨_, .settle hs hk hx, ⟨rfl, hm.recordSettlement _ _⟩, rfl⟩
    | finish hs => exact ⟨_, .finish hs, ⟨rfl, ha, hdr, congrArg (· + 1) hbr, hmi, hun, hdi⟩, rfl⟩
    | endLoop hs he => exact ⟨_, .endLoop hs he, ⟨rfl, hm⟩, rfl⟩
    | stopIdle hp hs => exact ⟨_, .stopIdle hp hs, ⟨rfl, hm.recordDiscarded _⟩, rfl⟩
    | stopRunning hp hs => exact ⟨_, .stopRunning hp hs, ⟨rfl, hm⟩, rfl⟩
    | endStop hs => exact ⟨_, .endStop hs, ⟨rfl, hm.recordDiscarded _⟩, rfl⟩
    | abortStop hs hl => exact ⟨_, .abortStop hs hl, ⟨rfl, hm.recordDiscarded _⟩, rfl⟩

/-! ## Two runs -/

theorem SameBut.symm {b : Bridge} {subscriber : Nat} {step step' : BridgeStep}
    (h : b.SameBut subscriber step step') : b.SameBut subscriber step' step := by
  cases h with
  | same => exact .same _
  | settle hk hx hy => exact .settle hk hy hx
  | finish => exact .finish

/-- Which calls may be given up is a setting. -/
theorem SameBut.of_config {b b' : Bridge} {subscriber : Nat} {step step' : BridgeStep}
    (hc : b'.config = b.config) (h : b.SameBut subscriber step step') :
    b'.SameBut subscriber step step' := by
  have hallows : b'.allows = b.allows := by
    funext x
    cases x with
    | ended _ => rfl
    | timedOut => simp only [allows, hc]
  cases h with
  | same => exact .same _
  | settle hk hx hy => exact .settle hk (hallows ▸ hx) (hallows ▸ hy)
  | finish => exact .finish

theorem Alike.symm {b b' : Bridge} (h : Alike b b') : Alike b' b := by
  obtain ⟨hsame, ha, hdr, hbr, hmi, hun, hdi⟩ := h
  exact ⟨by rw [hsame], ha.symm, hdr.symm, hbr.symm, hmi.symm, hun.symm, hdi.symm⟩

theorem Alike.step {b b' : Bridge} (hb : b.Coherent) (h : Alike b b') {subscriber : Nat}
    {step step' : BridgeStep} (hs : b.SameBut subscriber step step') :
    Alike (b.step step) (b'.step step') ∧ b'.handedBy step' = b.handedBy step := by
  have hb' : b'.Coherent := by
    rw [h.same]
    exact ⟨hb.idle, hb.running, hb.live, hb.inlet⟩
  have hconfig : b'.config = b.config := by rw [h.same]
  rcases step_moves hb step with hm | hm
  · rcases step_moves hb' step' with hm' | hm'
    · rw [hm.step_eq, hm'.step_eq, hm.handedBy, hm'.handedBy]
      exact ⟨h, rfl⟩
    · -- what moves the second bridge would have moved the first one
      obtain ⟨b'', hmoves, halike, hhanded⟩ :=
        hm'.alike h.symm.metrics (hs.symm.of_config hconfig)
      rw [← h.symm.same] at hmoves hhanded
      rw [step_of_moves hmoves]
      exact ⟨halike.symm, hhanded.symm⟩
  · obtain ⟨b'', hmoves, halike, hhanded⟩ := hm.alike h.metrics hs
    rw [← h.same] at hmoves hhanded
    rw [step_of_moves hmoves]
    exact ⟨halike, hhanded⟩

/-- Alike bridges stay alike, and hand out the same to everyone. -/
theorem Alike.run {b b' : Bridge} (hb : b.Coherent) (h : Alike b b') {subscriber : Nat}
    {steps steps' : List BridgeStep} (hs : List.Forall₂ (b.SameBut subscriber) steps steps') :
    Alike (b.run steps) (b'.run steps') ∧ ∀ k, handedTo k b' steps' = handedTo k b steps := by
  induction steps generalizing b b' steps' with
  | nil =>
    cases hs
    exact ⟨h, fun _ => rfl⟩
  | cons step steps ih =>
    cases hs with
    | cons hstep hrest =>
      obtain ⟨halike, hhanded⟩ := h.step hb hstep
      have hconfig := (run_fixed hb [step]).1
      obtain ⟨hend, hto⟩ := ih (hb.step step) halike
        (hrest.imp fun _ _ hsame => hsame.of_config hconfig)
      refine ⟨hend, fun k => ?_⟩
      rw [handedTo, handedTo, hto k, hhanded]

/-! ## The loop goes on -/

/-- The loop of a running bridge that takes ticks has not ended, whatever came of the
calls. -/
def GoesOn (b : Bridge) : Prop :=
  ∀ id, b.phase = .running id → b.inlet = some id →
    ∃ s, b.sessions[id]? = some s ∧ s.loop.isLive = true

theorem GoesOn.set {b b' : Bridge} (h : b.GoesOn) {id : Nat} {old new : Session}
    (hs : b.sessions[id]? = some old) (hss : b'.sessions = b.sessions.set id new)
    (hp : b'.phase = b.phase) (hi : b'.inlet = b.inlet)
    (hl : b.phase = .running id → b.inlet = some id → old.loop.isLive = true →
      new.loop.isLive = true) : b'.GoesOn := by
  intro j hpj hij
  rw [hp] at hpj
  rw [hi] at hij
  obtain ⟨s, hsj, hlive⟩ := h j hpj hij
  rw [hss, session_set hs]
  by_cases he : j = id
  · subst he
    cases hs.symm.trans hsj
    exact ⟨new, if_pos rfl, hl hpj hij hlive⟩
  · exact ⟨s, by rw [if_neg he]; exact hsj, hlive⟩

theorem GoesOn.moves {b b' : Bridge} {step : BridgeStep} (h : b.GoesOn) (hb : b.Coherent)
    (hm : b.Moves step b') : b'.GoesOn := by
  cases hm with
  | drop _ | subscribe => exact h
  | accept _ hs _ => exact h.set hs rfl rfl rfl fun _ _ hl => hl
  | hand hs _ _ | reject hs _ _ | settle hs _ _ | finish hs =>
    exact h.set hs rfl rfl rfl fun _ _ _ => rfl
  | startIdle _ hs =>
    rintro j ⟨⟩ _
    exact ⟨_, session_set_self hs _, rfl⟩
  | startStopped _ =>
    rintro j ⟨⟩ _
    exact ⟨⟨.empty, .waiting, false⟩, by simp, rfl⟩
  | endLoop hs he =>
    refine h.set hs rfl rfl rfl fun hp hi _ => ?_
    have hopen := hb.session_open (by rw [hp]; rfl) hs
    rcases he with hstop | ⟨_, hne⟩
    · cases hopen.symm.trans hstop
    · exact absurd hi hne
  | stopIdle _ _ | stopRunning _ _ => nofun
  | endStop _ | abortStop _ _ => nofun

theorem GoesOn.run {b : Bridge} (h : b.GoesOn) (hb : b.Coherent) (steps : List BridgeStep) :
    (b.run steps).GoesOn :=
  hb.run_keeps (fun hnow hm hgoes => hgoes.moves hnow hm) h steps

/-- Two runs that differ in nothing but what comes of the calls of others: a subscriber
is handed the same ticks with the same numbers in both. At every moment the loops are
at the same point, and each goes on, and the counters of ticks are equal. The two
counters of calls are in each run the numbers of those calls, of a tick that was handed
out with one who had subscribed, that failed or that were given up for their time. -/
theorem isolation {config : BridgeConfig} {lookup : Option InstrumentLookup} {b : Bridge}
    (h : create config lookup = .ok b) {subscriber : Nat} {steps steps' : List BridgeStep}
    (hs : List.Forall₂ (b.SameBut subscriber) steps steps') (n : Nat) :
    let one := b.run (steps.take n)
    let other := b.run (steps'.take n)
    handedTo subscriber b (steps'.take n) = handedTo subscriber b (steps.take n) ∧
      (other.phase = one.phase ∧ other.inlet = one.inlet ∧ other.sessions = one.sessions ∧
        one.GoesOn ∧ other.GoesOn) ∧
      (other.metrics.received = one.metrics.received ∧
        other.metrics.accepted = one.metrics.accepted ∧
        other.metrics.dropped = one.metrics.dropped ∧
        other.metrics.broadcast = one.metrics.broadcast ∧
        other.metrics.invalid = one.metrics.invalid ∧
        other.metrics.discarded = one.metrics.discarded) ∧
      ∀ moments ∈ [steps.take n, steps'.take n],
        (b.run moments).metrics.subscriberFailures =
            (b.calls moments).countP (fun c => c.fate.any Settlement.isFailure) ∧
          (b.run moments).metrics.subscriberTimeouts =
            (b.calls moments).countP (fun c => c.fate.any Settlement.isTimeout) ∧
          (∀ c ∈ b.calls moments,
            ¬(c.fate.any Settlement.isFailure = true ∧ c.fate.any Settlement.isTimeout = true)) ∧
          (b.calls moments).map (fun c => (c.tick, c.subscriber)) =
            (b.trace handedBy moments).flatMap fun t => (List.range t.2).map (t.1, ·) := by
  have hb := Coherent.create h
  have hgoes : b.GoesOn := by
    obtain ⟨_, _, _, hfresh⟩ := create_eq h
    rw [hfresh]
    nofun
  have htake := List.forall₂_take n hs
  have hself : Alike b b := ⟨rfl, rfl, rfl, rfl, rfl, rfl, rfl⟩
  obtain ⟨⟨hsame, ha, hdr, hbr, hmi, hun, hdi⟩, hto⟩ := hself.run hb htake
  refine ⟨hto subscriber, ⟨by rw [hsame], by rw [hsame], by rw [hsame],
    hgoes.run hb _, hgoes.run hb _⟩, ⟨?_, ha, hdr, hbr, ?_, hdi⟩, ?_⟩
  · rw [BridgeMetrics.received, BridgeMetrics.received, ha, hdr]
  · rw [BridgeMetrics.invalid, BridgeMetrics.invalid, hmi, hun]
  · intro moments _
    obtain ⟨hfailures, htimeouts⟩ := counted_calls h moments
    refine ⟨hfailures, htimeouts, ?_, calls_eq b moments⟩
    intro c _ ⟨hf, ht⟩
    cases hfate : c.fate with
    | none =>
      rw [hfate] at hf
      cases hf
    | some x =>
      rw [hfate] at hf ht
      cases x with
      | ended how => cases ht
      | timedOut => cases hf

/-- One subscriber panics in one run and not in the other, and the second one is handed the
tick in both. -/
theorem isolation_of_panic :
    ∃ b, create {} none = .ok b ∧
      let panics : List BridgeStep := [.subscribe, .subscribe, .start true,
        .submit (RawTick.empty.insert "symbol" (.string "NIFTY")), .receive 0,
        .settle 0 1 (.ended .panic), .settle 0 0 (.ended .success), .finish 0 90]
      let ends : List BridgeStep := [.subscribe, .subscribe, .start true,
        .submit (RawTick.empty.insert "symbol" (.string "NIFTY")), .receive 0,
        .settle 0 1 (.ended .success), .settle 0 0 (.ended .success), .finish 0 70]
      handedTo 0 b (ends.take 8) = handedTo 0 b (panics.take 8) ∧
        (handedTo 0 b (panics.take 8)).map (fun tick => (tick.seq, tick.symbol)) =
          [(1, "NIFTY")] := by
  refine ⟨_, rfl, ?_⟩
  intro panics ends
  refine ⟨(isolation (rfl : create {} none = .ok _) ?_ 8).1, by decide +kernel⟩
  refine .cons (.same _) (.cons (.same _) (.cons (.same _) (.cons (.same _) (.cons (.same _) ?_))))
  exact .cons (.settle (by decide) rfl rfl) (.cons (.same _) (.cons .finish .nil))

/-! ## The order in which calls end -/

theorem recordSettlement_comm (m : BridgeMetrics) (x y : Settlement) :
    recordSettlement (recordSettlement m x) y = recordSettlement (recordSettlement m y) x := by
  rcases x with (_ | _ | _) | _ <;> rcases y with (_ | _ | _) | _ <;> rfl

theorem allows_settle (b : Bridge) (id k : Nat) (x y : Settlement) :
    (b.settle id k x).allows y = b.allows y := by
  have hconfig : (b.settle id k x).config = b.config := by
    rcases settle_moves b id k x with hm | hm
    · exact congrArg Bridge.config hm.step_eq
    · exact hm.fixed.1
  cases y with
  | ended how => rfl
  | timedOut => rw [allows, hconfig, allows]

/-- The end of one call says nothing about another one. -/
theorem canSettle_settle {b : Bridge} {id i j : Nat} (hij : i ≠ j) (x y : Settlement) :
    (b.settle id i x).CanSettle id j y ↔ b.CanSettle id j y := by
  by_cases hi : b.CanSettle id i x
  · obtain ⟨⟨queue, tick, pending, stopping, hs, hk⟩, hx⟩ := hi
    rw [CanSettle, CanSettle, allows_settle, hs, session_settle hs hk hx]
    simp [List.mem_erase_of_ne hij.symm]
  · rw [settle_of_not hi]

theorem settle_settle {b : Bridge} {id i j : Nat} {queue : Fifo RawTick} {tick : Tick}
    {pending : List Nat} {stopping : Bool} {x y : Settlement}
    (hs : b.sessions[id]? = some ⟨queue, .fanning tick pending, stopping⟩)
    (hi : i ∈ pending) (hj : j ∈ pending) (hij : i ≠ j) (hx : b.allows x = true)
    (hy : b.allows y = true) :
    (b.settle id i x).settle id j y = { b with
      sessions := b.sessions.set id
        ⟨queue, .fanning tick ((pending.erase i).erase j), stopping⟩
      metrics := recordSettlement (recordSettlement b.metrics x) y } := by
  have hone : b.settle id i x = _ := step_of_moves (.settle hs hi hx)
  have htwo : (b.settle id i x).settle id j y = _ :=
    step_of_moves (.settle (session_settle hs hi hx) ((List.mem_erase_of_ne hij.symm).mpr hj)
      (b.allows_settle id i x y ▸ hy))
  rw [htwo, hone, List.set_set]

/-- The calls of two subscribers with one tick can end in either order. -/
theorem settle_comm (b : Bridge) (id : Nat) {i j : Nat} (hij : i ≠ j) (x y : Settlement) :
    (b.settle id i x).settle id j y = (b.settle id j y).settle id i x := by
  by_cases hi : b.CanSettle id i x
  · by_cases hj : b.CanSettle id j y
    · obtain ⟨⟨queue, tick, pending, stopping, hs, hmem⟩, hx⟩ := hi
      obtain ⟨⟨_, _, _, _, hsame, hmem'⟩, hy⟩ := hj
      cases hs.symm.trans hsame
      rw [settle_settle hs hmem hmem' hij hx hy, settle_settle hs hmem' hmem hij.symm hy hx,
        List.erase_comm, recordSettlement_comm]
    · rw [settle_of_not hj, settle_of_not fun h => hj ((canSettle_settle hij x y).mp h)]
  · rw [settle_of_not hi, settle_of_not fun h => hi ((canSettle_settle hij.symm y x).mp h)]

def endsOf (id : Nat) (ends : List (Nat × Settlement)) : List BridgeStep :=
  ends.map fun e => .settle id e.1 e.2

theorem run_endsOf (b : Bridge) (id : Nat) (ends : List (Nat × Settlement)) :
    b.run (endsOf id ends) = ends.foldl (fun b e => b.settle id e.1 e.2) b :=
  List.foldl_map

/-- No end of a call hands anything out. -/
theorem handedTo_endsOf (k : Nat) (b : Bridge) (id : Nat) (ends : List (Nat × Settlement)) :
    handedTo k b (endsOf id ends) = [] := by
  induction ends generalizing b with
  | nil => rfl
  | cons e ends ih => exact ih (b.settle id e.1 e.2)

theorem run_endsOf_perm {ends ends' : List (Nat × Settlement)} (hperm : ends.Perm ends')
    (hnodup : (ends.map (·.1)).Nodup) (b : Bridge) (id : Nat) :
    b.run (endsOf id ends) = b.run (endsOf id ends') := by
  rw [run_endsOf, run_endsOf]
  refine hperm.foldl_eq' (fun e he e' he' now => ?_) b
  by_cases hsame : e.1 = e'.1
  · rw [List.inj_on_of_nodup_map hnodup he he' hsame]
  · exact settle_comm now id hsame e.2 e'.2

/-- **The order in which calls end does not matter**: when the calls of different
subscribers with a tick end in another order, the bridge is the same after them, counters
included, whatever came before and comes after, and everyone is handed the same. -/
theorem run_of_ends_perm {ends ends' : List (Nat × Settlement)} (hperm : ends.Perm ends')
    (hnodup : (ends.map (·.1)).Nodup) (b : Bridge) (id : Nat) (before after : List BridgeStep) :
    b.run (before ++ endsOf id ends ++ after) = b.run (before ++ endsOf id ends' ++ after) ∧
      ∀ k, handedTo k b (before ++ endsOf id ends ++ after) =
        handedTo k b (before ++ endsOf id ends' ++ after) := by
  have hends := run_endsOf_perm hperm hnodup (b.run before) id
  refine ⟨by simp only [run_append, hends], fun k => ?_⟩
  simp only [handedTo_append, handedTo_endsOf, run_append, hends]

end TickFeed.Bridge
