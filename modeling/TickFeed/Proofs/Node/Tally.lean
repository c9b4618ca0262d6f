import TickFeed.Proofs.Bridge.Calls
import TickFeed.Proofs.Bridge.Delivery
import TickFeed.Proofs.Node.SymbolCounts

/-! # Counting what is handed out

The counts of a node are its second subscriber. Whatever the loop of the first session
does, the ticks that it handed out are those that were counted and the one whose call
has not ended (`Tallied`), and those that went to all subscribers and the one that is
with them. Each kind of step has its lemma, and all of them go through `Tallied.next`,
which asks only for what the step changes. -/

namespace TickFeed

/-- The tick with which the call of a subscriber has not ended. -/
def LoopState.awaiting (loop : LoopState) (subscriber : Nat) : List Tick :=
  if subscriber ∈ loop.pending then loop.tick?.toList else []

namespace Bridge

/-- The loop of the first session is this one, and the counts are those of the ticks that
were handed out in the run and have been counted. -/
structure Tallied (b : Bridge) (steps : List BridgeStep) (counts : SymbolCounts)
    (loop : LoopState) : Prop where
  session : ∃ queue stopping, (b.run steps).sessions[0]? = some ⟨queue, loop, stopping⟩
  nodup : loop.pending.Nodup
  counted : ∃ ticks, counts.Tallies ticks ∧ b.handedOut steps = ticks ++ loop.awaiting 1
  broadcast : (b.run steps).metrics.broadcast + loop.isFanning.toNat = (b.handedOut steps).length

variable {b : Bridge} {steps : List BridgeStep} {counts : SymbolCounts} {loop : LoopState}

/-- One more step, from what it hands out, counts and changes. -/
theorem Tallied.next (h : b.Tallied steps counts loop) {step : BridgeStep} {handed : List Tick}
    {counts' : SymbolCounts} {loop' : LoopState}
    (hhanded : (((b.run steps).handedBy step).map (·.1)).toList = handed)
    (hsession : ∃ queue stopping,
      ((b.run steps).step step).sessions[0]? = some ⟨queue, loop', stopping⟩)
    (hnodup : loop'.pending.Nodup)
    (hcounted : ∀ ticks, counts.Tallies ticks → ∃ ticks', counts'.Tallies ticks' ∧
      ticks ++ loop.awaiting 1 ++ handed = ticks' ++ loop'.awaiting 1)
    (hbroadcast : ((b.run steps).step step).metrics.broadcast + loop'.isFanning.toNat =
      (b.run steps).metrics.broadcast + loop.isFanning.toNat + handed.length) :
    b.Tallied (steps ++ [step]) counts' loop' := by
  have hrun : b.run (steps ++ [step]) = (b.run steps).step step := run_append _ _ _
  have hout : b.handedOut (steps ++ [step]) = b.handedOut steps ++ handed := by
    rw [handedOut, trace_append, trace_cons, hhanded]
    exact congrArg _ (List.append_nil _)
  refine ⟨hrun ▸ hsession, hnodup, ?_, ?_⟩
  · obtain ⟨ticks, hticks, htally⟩ := h.counted
    rw [hout, htally]
    exact hcounted ticks hticks
  · rw [hrun, hout, hbroadcast, List.length_append, h.broadcast]

/-- A step that hands nothing out and leaves the loop where it is. -/
theorem Tallied.keep (h : b.Tallied steps counts loop) {step : BridgeStep}
    (hhanded : (b.run steps).handedBy step = none)
    (hsession : ∃ queue stopping,
      ((b.run steps).step step).sessions[0]? = some ⟨queue, loop, stopping⟩)
    (hbroadcast : ((b.run steps).step step).metrics.broadcast = (b.run steps).metrics.broadcast) :
    b.Tallied (steps ++ [step]) counts loop := by
  have hnone : (((b.run steps).handedBy step).map (·.1)).toList = [] := by
    rw [hhanded]
    rfl
  refine h.next hnone hsession h.nodup ?_ (by rw [hbroadcast]; rfl)
  intro ticks hticks
  exact ⟨ticks, hticks, List.append_nil _⟩

theorem Tallied.stall (h : b.Tallied steps counts loop) {step : BridgeStep}
    (hs : (b.run steps).Stalls step) : b.Tallied (steps ++ [step]) counts loop :=
  h.keep hs.handedBy (hs.step_eq.symm ▸ h.session) (by rw [hs.step_eq])

/-- The first session stays as it is when another one changes, or its loop does when it
changes itself. -/
theorem session_of_set {now : Bridge} {id : Nat} {old new : Session}
    (h : ∃ queue stopping, now.sessions[0]? = some ⟨queue, loop, stopping⟩)
    (hs : now.sessions[id]? = some old) (hloop : new.loop = old.loop) :
    ∃ queue stopping, (now.sessions.set id new)[0]? = some ⟨queue, loop, stopping⟩ := by
  obtain ⟨queue, stopping, h⟩ := h
  rw [session_set hs]
  by_cases he : 0 = id
  · subst he
    cases hs.symm.trans h
    obtain ⟨queue', loop', stopping'⟩ := new
    cases hloop
    exact ⟨queue', stopping', if_pos rfl⟩
  · exact ⟨queue, stopping, (if_neg he).trans h⟩

theorem subscribers_step {now : Bridge} (hb : now.Coherent) {step : BridgeStep}
    (h : step ≠ .subscribe) : (now.step step).subscribers = now.subscribers := by
  rcases step_moves hb step with hs | hm
  · rw [hs.step_eq]
  · generalize now.step step = next at hm
    cases hm with
    | subscribe => exact absurd rfl h
    | _ => rfl

theorem subscribers_run {now : Bridge} (hb : now.Coherent) {steps : List BridgeStep}
    (h : .subscribe ∉ steps) : (now.run steps).subscribers = now.subscribers := by
  induction steps generalizing now with
  | nil => rfl
  | cons step steps ih =>
    rw [List.mem_cons, not_or] at h
    rw [run_cons, ih (hb.step step) h.2, subscribers_step hb (Ne.symm h.1)]

theorem Tallied.submit (h : b.Tallied steps counts loop) (hb : b.Coherent) (raw : RawTick) :
    b.Tallied (steps ++ [.submit raw]) counts loop := by
  have hm := submit_moves (hb.run steps) raw
  refine h.keep rfl ?_ ?_
  · generalize (b.run steps).step (.submit raw) = now at hm
    cases hm with
    | accept _ hs _ => exact session_of_set h.session hs rfl
    | drop _ => exact h.session
  · generalize (b.run steps).step (.submit raw) = now at hm
    cases hm <;> rfl

/-- The loop takes a tick: a valid one is with all subscribers, the second of them
included. -/
theorem Tallied.receive (h : b.Tallied steps counts loop) (h2 : 1 < (b.run steps).subscribers) :
    b.Tallied (steps ++ [.receive 0]) counts (match ((b.run steps).receive 0).2 with
      | some tick => .fanning tick (List.range (b.run steps).subscribers)
      | none => loop) := by
  have hhanded : (b.run steps).handedBy (.receive 0) =
      ((b.run steps).receive 0).2.map (·, (b.run steps).subscribers) := rfl
  obtain ⟨queue, stopping, hsession⟩ := h.session
  rcases receive_moves (b.run steps) 0 with hs | hm
  · rw [Option.map_eq_none_iff.mp (hhanded.symm.trans hs.handedBy)]
    exact h.stall hs
  · generalize hnow : (b.run steps).step (.receive 0) = now at hm
    cases hm with
    | @hand _ _ rest raw tick hs hq hn =>
      -- the tick is handed out, and its call with the second subscriber is open
      cases hs.symm.trans hsession
      have hout := handedBy_of_ok hs hq hn
      obtain ⟨tick', htick, he⟩ := Option.map_eq_some_iff.mp (hhanded.symm.trans hout)
      obtain ⟨rfl, -⟩ := Prod.mk.inj he
      rw [htick]
      refine h.next (congrArg (fun t => (t.map (·.1)).toList) hout) ?_ ?_ ?_ ?_
      · rw [hnow]
        exact ⟨rest, false, session_set_self hs _⟩
      · exact List.nodup_range
      · intro ticks hticks
        refine ⟨ticks, hticks, ?_⟩
        simp only [LoopState.awaiting, LoopState.pending, LoopState.tick?, List.mem_range, h2,
          List.not_mem_nil, if_true, if_false, List.append_nil]
        rfl
      · rw [hnow]
        rfl
    | @reject _ _ rest raw reason hs hq hn =>
      cases hs.symm.trans hsession
      have hout := handedBy_of_error hs hq hn
      rw [Option.map_eq_none_iff.mp (hhanded.symm.trans hout)]
      refine h.keep hout ?_ ?_
      · rw [hnow]
        exact ⟨rest, false, session_set_self hs _⟩
      · rw [hnow]
        cases reason <;> rfl

/-- A call with the tick ends, and the second subscriber has counted it then. -/
theorem Tallied.settle {tick : Tick} {pending : List Nat}
    (h : b.Tallied steps counts (.fanning tick pending)) {k : Nat} (hk : k ∈ pending) :
    b.Tallied (steps ++ [.settle 0 k (.ended .success)])
      (if k = 1 then counts.count tick else counts) (.fanning tick (pending.erase k)) := by
  obtain ⟨queue, stopping, hs⟩ := h.session
  have hstep := step_of_moves (.settle hs hk (rfl : (b.run steps).allows (.ended .success) = true))
  have hnodup : pending.Nodup := h.nodup
  refine h.next rfl ?_ (hnodup.erase k) ?_ (by rw [hstep]; rfl)
  · rw [hstep]
    exact ⟨queue, stopping, session_set_self hs _⟩
  · intro ticks hticks
    by_cases he : k = 1
    · subst he
      refine ⟨ticks ++ [tick], by rw [if_pos rfl]; exact hticks.count tick, ?_⟩
      rw [LoopState.awaiting, LoopState.awaiting,
        if_pos (show 1 ∈ LoopState.pending (.fanning tick pending) from hk),
        if_neg (show 1 ∉ LoopState.pending (.fanning tick (pending.erase 1)) from
          hnodup.not_mem_erase)]
      rfl
    · refine ⟨ticks, by rw [if_neg he]; exact hticks, ?_⟩
      have hmem : 1 ∈ pending.erase k ↔ 1 ∈ pending := List.mem_erase_of_ne (Ne.symm he)
      simp only [LoopState.awaiting, LoopState.pending, LoopState.tick?, hmem]
      exact List.append_nil _

theorem Tallied.finish {tick : Tick} (h : b.Tallied steps counts (.fanning tick []))
    (latency : UInt64) : b.Tallied (steps ++ [.finish 0 latency]) counts .waiting := by
  obtain ⟨queue, stopping, hs⟩ := h.session
  have hmoves : (b.run steps).Moves (.finish 0 latency) _ := .finish hs
  have hstep := step_of_moves hmoves
  refine h.next rfl ?_ List.nodup_nil ?_ (by rw [hstep]; rfl)
  · rw [hstep]
    exact ⟨queue, stopping, session_set_self hs _⟩
  · intro ticks hticks
    exact ⟨ticks, hticks, List.append_nil _⟩

theorem Tallied.beginStop (h : b.Tallied steps counts loop)
    (hp : (b.run steps).phase = .running 0) : b.Tallied (steps ++ [.beginStop]) counts loop := by
  obtain ⟨queue, stopping, hs⟩ := h.session
  have hstep := step_of_moves (.stopRunning hp hs)
  refine h.keep rfl ?_ (by rw [hstep])
  rw [hstep]
  exact session_of_set h.session hs rfl

/-- The loop has ended and what is left is discarded. -/
theorem Tallied.endStop (h : b.Tallied steps counts .waiting) (hb : (b.run steps).Orderly)
    (hp : (b.run steps).phase = .stopped) (hi : (b.run steps).inlet = some 0) :
    b.Tallied (steps ++ [.endLoop 0] ++ [.endStop 0]) counts .ended ∧
      (b.run (steps ++ [.endLoop 0] ++ [.endStop 0])).inlet = none := by
  obtain ⟨queue, stopping, hs⟩ := h.session
  cases hb.stopping 0 _ hp hi hs
  have hend := step_of_moves (.endLoop hs (.inl rfl))
  have hended : ((b.run steps).step (.endLoop 0)).sessions[0]? = some ⟨queue, .ended, true⟩ := by
    rw [hend]
    exact session_set_self hs _
  have hrun : b.run (steps ++ [.endLoop 0]) = (b.run steps).step (.endLoop 0) := run_append _ _ _
  have h' : b.Tallied (steps ++ [.endLoop 0]) counts .ended := by
    refine h.next rfl ⟨queue, true, hended⟩ List.nodup_nil ?_ (by rw [hend]; rfl)
    intro ticks hticks
    exact ⟨ticks, hticks, List.append_nil _⟩
  have hs' : (b.run (steps ++ [.endLoop 0])).sessions[0]? = some ⟨queue, .ended, true⟩ :=
    hrun ▸ hended
  have hclose := step_of_moves (.endStop hs')
  refine ⟨h'.keep rfl ?_ (by rw [hclose]; rfl), ?_⟩
  · rw [hclose]
    exact session_of_set h'.session hs' rfl
  · rw [run_append]
    exact congrArg Bridge.inlet hclose

end Bridge

end TickFeed
