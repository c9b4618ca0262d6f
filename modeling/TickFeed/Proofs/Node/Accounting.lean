import TickFeed.Proofs.Bridge.Conservation
import TickFeed.Proofs.Bridge.Outcomes
import TickFeed.Proofs.Catalog.Row
import TickFeed.Proofs.Node.Input
import TickFeed.Proofs.Node.Interleaving

/-! # The account of a node

The reader of a node and its dispatch loop take turns in any way: before each tick that is
submitted, and after the last one, the loop takes any number of its steps. A `Feed` is a
node between two such turns, with the steps that its bridge has taken. What the reader
counts is compared with what the bridge counts line by line (`Accounts`), and after a stop
the balance of the bridge gives each line its place. -/

namespace TickFeed

/-- A node that is fed while its loop goes on. -/
structure Feed where
  node : Node
  /-- What the loop does before each of the next ticks is submitted. -/
  turns : List (List LoopStep)
  /-- The steps that the bridge has taken. -/
  history : List BridgeStep := []

namespace Feed

def goOn (f : Feed) (turn : List LoopStep) : Feed :=
  { f with
    node := { f.node with feed := turn.foldl (Simulation.loopStep 0) f.node.feed }
    history := f.history ++ turn.map (LoopStep.toBridge 0) }

/-- The loop has its turn, and then a tick is submitted. -/
def submit (f : Feed) (raw : RawTick) : Feed × SubmitOutcome :=
  let gone := f.goOn (f.turns.headD [])
  let (node, outcome) := gone.node.submit raw
  (⟨node, f.turns.tail, gone.history ++ [.submit raw]⟩, outcome)

end Feed

/-- The step is the reader's or the loop's, and no call fails. -/
def BridgeStep.isServing : BridgeStep → Bool
  | .submit _ | .receive _ | .finish _ _ => true
  | .settle _ _ x => x = .ended .success
  | _ => false

theorem BridgeStep.isSubmit_of_isClosing {step : BridgeStep} (h : step.isClosing = true) :
    step.isSubmit = false := by
  cases step <;> first | rfl | cases h

/-! ## The reader -/

namespace Feed

/-- What the reader counted is what the bridge counted since it was started. -/
structure Accounts (f : Feed) (b : Bridge) (summary : ReaderSummary) : Prop where
  follows : ∃ loop, f.node.feed.Follows b f.history loop
  serving : ∀ step ∈ f.history, step.isServing = true
  lines : summary.lines = summary.unparsable + f.history.countP (·.isSubmit)
  accepted : summary.accepted = (b.run f.history).metrics.accepted
  dropped : summary.dropped = (b.run f.history).metrics.dropped

variable {f : Feed} {b : Bridge} {summary : ReaderSummary}

theorem goOn_cons (f : Feed) (step : LoopStep) (turn : List LoopStep) :
    f.goOn (step :: turn) = (f.goOn [step]).goOn turn := by
  simp only [goOn, List.foldl_cons, List.foldl_nil, List.map_cons, List.map_nil,
    List.append_assoc, List.singleton_append]

theorem Accounts.subscribers (h : f.Accounts b summary) (hb : b.Coherent) :
    (b.run f.history).subscribers = b.subscribers :=
  Bridge.subscribers_run hb fun hmem => nomatch h.serving _ hmem

/-- A turn of the loop is not seen by the reader. -/
theorem Accounts.goOn (h : f.Accounts b summary) (hb : b.Coherent) (h2 : b.subscribers = 2)
    (turn : List LoopStep) : (f.goOn turn).Accounts b summary := by
  induction turn generalizing f with
  | nil =>
    have hsame : f.goOn [] = f := by
      rw [Feed.goOn, List.map_nil, List.append_nil]
      rfl
    rwa [hsame]
  | cons step turn ih =>
    rw [goOn_cons]
    refine ih ?_
    obtain ⟨loop, hfollows⟩ := h.follows
    have hsubmit : (step.toBridge 0).isSubmit = false := by cases step <;> rfl
    have hserving : (step.toBridge 0).isServing = true := by cases step <;> rfl
    obtain ⟨haccepted, hdropped⟩ := Bridge.counters_of_no_submit (hb.run f.history) hsubmit
    have hrun : b.run (f.history ++ [step.toBridge 0]) =
        (b.run f.history).step (step.toBridge 0) := Bridge.run_append _ _ _
    refine ⟨hfollows.loopStep hb ((h.subscribers hb).trans h2) step, ?_, ?_, ?_, ?_⟩
    · intro other hmem
      rcases List.mem_append.mp hmem with hmem | hmem
      · exact h.serving other hmem
      · rw [List.mem_singleton.mp hmem]
        exact hserving
    · show summary.lines = summary.unparsable + (f.history ++ [step.toBridge 0]).countP _
      rw [List.countP_append, List.countP_singleton, hsubmit, h.lines]
      rfl
    · exact h.accepted.trans (haccepted.symm.trans (by rw [← hrun]; rfl))
    · exact h.dropped.trans (hdropped.symm.trans (by rw [← hrun]; rfl))

theorem Accounts.submitted (h : f.Accounts b summary) (hb : b.Coherent) (raw : RawTick)
    (turns : List (List LoopStep)) :
    Accounts ⟨(f.node.submit raw).1, turns, f.history ++ [.submit raw]⟩ b
      ({ summary with lines := summary.lines + 1 }.recordOutcome (f.node.submit raw).2) := by
  obtain ⟨loop, hfollows⟩ := h.follows
  have hrun : b.run (f.history ++ [.submit raw]) = ((b.run f.history).submit raw).1 :=
    Bridge.run_append _ _ _
  have houtcome : (f.node.submit raw).2 = ((b.run f.history).submit raw).2 := by
    rw [← hfollows.bridge]
    rfl
  refine ⟨⟨loop, hfollows.submit hb raw⟩, ?_, ?_, ?_, ?_⟩
  · intro other hmem
    rcases List.mem_append.mp hmem with hmem | hmem
    · exact h.serving other hmem
    · rw [List.mem_singleton.mp hmem]
      rfl
  · show _ = _ + List.countP _ (f.history ++ [BridgeStep.submit raw])
    rw [List.countP_append, List.countP_singleton]
    have hlines := h.lines
    cases (f.node.submit raw).2 <;> exact congrArg (· + 1) hlines
  · show _ = (b.run (f.history ++ [.submit raw])).metrics.accepted
    rw [hrun, houtcome]
    rcases Bridge.submit_counters (b.run f.history) raw with ⟨ho, hm⟩ | ⟨ho, hm⟩
    · rw [ho, hm]
      exact congrArg (· + 1) h.accepted
    · rw [ho, hm]
      exact h.accepted
  · show _ = (b.run (f.history ++ [.submit raw])).metrics.dropped
    rw [hrun, houtcome]
    rcases Bridge.submit_counters (b.run f.history) raw with ⟨ho, hm⟩ | ⟨ho, hm⟩
    · rw [ho, hm]
      exact h.dropped
    · rw [ho, hm]
      exact congrArg (· + 1) h.dropped

theorem Accounts.unparsable (h : f.Accounts b summary) :
    f.Accounts b
      { summary with lines := summary.lines + 1, unparsable := summary.unparsable + 1 } :=
  ⟨h.follows, h.serving, (congrArg (· + 1) h.lines).trans (Nat.add_right_comm _ _ _),
    h.accepted, h.dropped⟩

theorem Accounts.readLine {r : Reader Feed} (h : r.target.Accounts b r.summary)
    (hb : b.Coherent) (h2 : b.subscribers = 2) (line : List UInt8) :
    (r.readLine Feed.submit line).target.Accounts b (r.readLine Feed.submit line).summary := by
  rw [Reader.readLine_eq]
  split
  · exact h
  · cases LineContent.of line with
    | blank | noText => exact h
    | unparsable => exact h.unparsable
    | tick raw => exact (h.goOn hb h2 _).submitted hb raw _

theorem Accounts.pump (h : f.Accounts b {}) (hb : b.Coherent) (h2 : b.subscribers = 2)
    (data : List UInt8) :
    (pump Feed.submit f data).target.Accounts b (pump Feed.submit f data).summary := by
  refine List.foldlRecOn (motive := fun r : Reader Feed => r.target.Accounts b r.summary)
    (Text.splitLines data) _ h ?_
  intro r hr line _
  exact hr.readLine hb h2 line

end Feed

/-! ## From the beginning to the end -/

namespace Bridge

structure Fresh (b : Bridge) (lookup : InstrumentLookup) : Prop where
  orderly : b.Orderly
  phase : b.phase = .running 0
  inlet : b.inlet = some 0
  sessions : b.sessions = [⟨.empty, .waiting, false⟩]
  subscribers : b.subscribers = 2
  seq : b.seq = 0
  lookup : b.lookup = some lookup
  metrics : ∃ latencies, b.metrics = { latencies }

theorem create_lookup {config : BridgeConfig} {lookup : Option InstrumentLookup} {b : Bridge}
    (h : create config lookup = .ok b) (lookup' : Option InstrumentLookup) :
    create config lookup' = .ok { b with lookup := lookup' } := by
  unfold create at h ⊢
  split at h
  · cases h
  · rename_i hcapacity
    rw [if_neg hcapacity]
    cases hm : BridgeMetrics.ofWindow? config.latencyWindow with
    | none =>
      rw [hm] at h
      cases h
    | some metrics =>
      rw [hm] at h
      dsimp only at h ⊢
      split at h
      · rename_i hlimit
        rw [if_pos hlimit]
        cases h
        rfl
      · cases h

/-- Two subscribers and a start make a bridge that was just made fresh. -/
theorem fresh_of_create {config : BridgeConfig} {lookup : InstrumentLookup} {b : Bridge}
    (h : create config (some lookup) = .ok b) :
    ∃ started, b.subscribe.subscribe.start true = (started, .ok ()) ∧
      started.Fresh lookup := by
  have horderly := Orderly.create h
  obtain ⟨metrics, hmetrics, -, rfl⟩ := create_eq h
  obtain ⟨latencies, -, rfl⟩ := Option.map_eq_some_iff.mp hmetrics
  have hidle : BridgePhase.idle 0 ≠ .stopped := nofun
  refine ⟨_, rfl, horderly.run (?_ : StartsApart _ [.subscribe, .subscribe, .start true]),
    rfl, rfl, rfl, rfl, rfl, rfl, latencies, rfl⟩
  exact ⟨nofun, nofun, fun _ _ hp => absurd hp hidle, trivial⟩

theorem countOf_numbered (n : Nat) (ticks : List Tick) (symbol : String) :
    Tick.countOf (numbered n ticks) symbol = Tick.countOf ticks symbol := by
  have hsymbols : (numbered n ticks).map Tick.symbol = ticks.map Tick.symbol := by
    induction ticks generalizing n with
    | nil => rfl
    | cons tick ticks ih => rw [numbered_cons, List.map_cons, List.map_cons, ih]
  rw [Tick.countOf, hsymbols, Tick.countOf]

/-- The ticks of a symbol among those that raw ones are. -/
theorem countOf_valid (b : Bridge) (raws : List RawTick) (symbol : String) :
    Tick.countOf (b.valid raws) symbol =
      raws.countP fun raw => (b.normalize raw).toOption.any (·.symbol = symbol) := by
  induction raws with
  | nil => rfl
  | cons raw raws ih =>
    rw [List.countP_cons, ← ih, valid, valid]
    cases hn : b.normalize raw with
    | error e =>
      rw [List.filterMap_cons_none (by rw [hn]; rfl)]
      rfl
    | ok tick =>
      rw [List.filterMap_cons_some (by rw [hn]; rfl), Tick.countOf, List.map_cons, List.count_cons]
      rfl

/-- A stop takes no ticks. -/
theorem dispatched_of_closing {b : Bridge} {steps more : List BridgeStep}
    (h : ∀ step ∈ more, step.isClosing = true) :
    b.dispatched (steps ++ more) = b.dispatched steps := by
  have hnone : (b.run steps).dispatched more = [] := by
    refine List.eq_nil_iff_forall_not_mem.mpr fun raw hraw => ?_
    obtain ⟨step, hmem, now, hnow⟩ := exists_of_mem_trace hraw
    have hclosing := h step hmem
    cases step <;> first | cases hnow | cases hclosing
  rw [dispatched, trace_append]
  exact (congrArg _ hnone).trans (List.append_nil _)

variable {b : Bridge} {lookup : InstrumentLookup}

/-- The balance of a bridge that was fresh and takes no ticks any more: no queue holds a
tick, no tick is with the subscribers, and none was given up. -/
theorem Fresh.accepted_eq (hb : b.Fresh lookup) {steps : List BridgeStep}
    (hsteps : ∀ step ∈ steps, step.isServing = true ∨ step.isClosing = true)
    (hclosed : (b.run steps).inlet = none) :
    let m := (b.run steps).metrics
    m.accepted = m.broadcast + m.invalid + m.discarded := by
  obtain ⟨latencies, hmetrics⟩ := hb.metrics
  have hapart : b.StartsApart steps := startsApart_of_no_start fun runtime hmem => by
    rcases hsteps _ hmem with hs | hs <;> cases hs
  have hbalance := balance_run hb.orderly hapart
  have hlost : b.lost steps = [] := lost_eq_nil fun id hmem => by
    rcases hsteps _ hmem with hs | hs <;> cases hs
  obtain ⟨hdepth, hfanning⟩ := (hb.orderly.run hapart).at_none hclosed
  have hbefore : b.accountedFor = 0 := by
    simp only [accountedFor, depth, depthOf, isFanning, hmetrics, hb.inlet, hb.sessions]
    rfl
  rw [hlost, hbefore, accountedFor, hdepth, hfanning, hmetrics] at hbalance
  simpa using hbalance

/-- Once its loop has ended, the counts are those of all ticks that it took. -/
theorem Fresh.counted (hb : b.Fresh lookup) {steps : List BridgeStep} {counts : SymbolCounts}
    (h : b.Tallied steps counts .ended) :
    ∃ ticks, counts.Tallies ticks ∧ ticks.length = (b.run steps).metrics.broadcast ∧
      ∀ symbol, Tick.countOf ticks symbol = (b.dispatched steps).countP
        fun raw => (raw.normalizeWith lookup).toOption.any (·.symbol = symbol) := by
  obtain ⟨ticks, hticks, hout⟩ := h.counted
  have hall : b.handedOut steps = ticks := hout.trans (List.append_nil ticks)
  refine ⟨ticks, hticks, ?_, fun symbol => ?_⟩
  · rw [← hall, ← h.broadcast]
    rfl
  · have hvalid := (handedOut_eq hb.orderly.coherent steps (n := 0) hb.seq).1
    rw [← hall, hvalid, countOf_numbered, countOf_valid]
    simp only [normalize, hb.lookup]

end Bridge

theorem Simulation.start_of_ok {σ : Type} [Audience σ] {s : Simulation σ} {started : Bridge}
    {runtime : Bool} (h : s.bridge.start runtime = (started, .ok ())) :
    s.start runtime = .ok { s with bridge := started } := by
  rw [Simulation.start, h]
  rfl

/-- A node that was just made starts, with whatever catalog there is. -/
theorem Node.start_of_create {config : NodeConfig} {node : Node}
    (h : Node.create config = .ok node) (catalog : Catalog) :
    ∃ started, (node.replaceCatalog catalog).start = .ok started ∧
      started.bridge.Fresh catalog.lookup ∧
      started.feed.audience.counts = .empty ∧ started.feed.calls = [] := by
  unfold Node.create at h
  obtain ⟨limits, -, h⟩ := ok_of_bind h
  obtain ⟨bridge, hbridge, h⟩ := ok_of_bind h
  cases hcreate : Bridge.create config.bridge (some (Catalog.unloaded config.catalog).lookup) with
  | error e =>
    rw [hcreate] at hbridge
    cases hbridge
  | ok made =>
    rw [hcreate] at hbridge
    cases hbridge
    split at h
    · rename_i ui _
      obtain ⟨started, hstart, hfresh⟩ :=
        Bridge.fresh_of_create (Bridge.create_lookup hcreate (some catalog.lookup))
      have hnode := Except.ok.inj h
      refine ⟨⟨catalog, limits, ⟨started, ⟨ui, .empty⟩, 0, 0, []⟩, config.catalogPath⟩, ?_, hfresh,
        rfl, rfl⟩
      rw [← hnode]
      exact congrArg (Except.map _) (Simulation.start_of_ok hstart)
    · cases h

namespace Feed

variable {f : Feed} {b : Bridge} {summary : ReaderSummary} {lookup : InstrumentLookup}

theorem follows_start {node : Node} (hb : node.bridge.Fresh lookup)
    (hcounts : node.feed.audience.counts = .empty) (hcalls : node.feed.calls = []) :
    node.feed.Follows node.bridge [] .waiting := by
  obtain ⟨latencies, hmetrics⟩ := hb.metrics
  refine ⟨rfl, ⟨?_, List.nodup_nil, ?_, ?_⟩, .inl rfl, 0, Nat.zero_le _, hcalls⟩
  · exact ⟨.empty, false, by rw [Bridge.run_nil, hb.sessions]; rfl⟩
  · exact ⟨[], hcounts ▸ SymbolCounts.Tallies.empty, rfl⟩
  · rw [Bridge.run_nil, hmetrics]
    rfl

theorem Accounts.start {node : Node} (hb : node.bridge.Fresh lookup)
    (hcounts : node.feed.audience.counts = .empty) (hcalls : node.feed.calls = [])
    (turns : List (List LoopStep)) : (⟨node, turns, []⟩ : Feed).Accounts node.bridge {} := by
  obtain ⟨latencies, hmetrics⟩ := hb.metrics
  refine ⟨⟨.waiting, follows_start hb hcounts hcalls⟩, nofun, rfl, ?_, ?_⟩
  · rw [Bridge.run_nil, hmetrics]
  · rw [Bridge.run_nil, hmetrics]

/-- The reader and the loop leave the phase and the inlet as the start made them. -/
theorem Accounts.running (h : f.Accounts b summary) (hb : b.Fresh lookup) :
    (b.run f.history).phase = .running 0 ∧ (b.run f.history).inlet = some 0 := by
  obtain ⟨hphase, hinlet⟩ := Bridge.run_of_no_owner hb.orderly.coherent fun step hmem => by
    have hserving := h.serving step hmem
    cases step <;> first | rfl | cases hserving
  exact ⟨hphase.trans hb.phase, hinlet.trans hb.inlet⟩

/-- When the node has stopped, every accepted tick has its place in one counter, and the
counts by symbol are those of the ticks that the loop took. -/
theorem Accounts.stop (h : f.Accounts b summary) (hb : b.Fresh lookup) :
    let m := f.node.stop.bridge.metrics
    (m.accepted = summary.accepted ∧ m.dropped = summary.dropped ∧ m.subscriberFailures = 0) ∧
      m.accepted = m.broadcast + m.invalid + m.discarded ∧
      summary.lines = summary.unparsable + m.accepted + m.dropped ∧
      ∃ ticks, f.node.stop.feed.audience.counts.Tallies ticks ∧ ticks.length = m.broadcast ∧
        ∀ symbol, Tick.countOf ticks symbol = (b.dispatched f.history).countP
          fun raw => (raw.normalizeWith lookup).toOption.any (·.symbol = symbol) := by
  have hcoherent := hb.orderly.coherent
  obtain ⟨latencies, hmetrics⟩ := hb.metrics
  obtain ⟨loop, hfollows⟩ := h.follows
  obtain ⟨hphase, hinlet⟩ := h.running hb
  have horderly : (b.run f.history).Orderly :=
    hb.orderly.run (Bridge.startsApart_of_no_start fun runtime hmem => nomatch h.serving _ hmem)
  obtain ⟨more, hclosing, hstop, htally, hclosed⟩ := hfollows.stop horderly hphase hinlet
  have hm : f.node.stop.bridge.metrics = (b.run (f.history ++ more)).metrics :=
    congrArg Bridge.metrics hstop
  have hsteps : ∀ step ∈ f.history ++ more, step.isServing = true ∨ step.isClosing = true :=
    fun step hmem => (List.mem_append.mp hmem).imp (h.serving step) (hclosing step)
  -- nothing is submitted any more, so the reader's counters are those of the end
  obtain ⟨haccepted, hdropped⟩ := Bridge.counters_of_no_submits horderly.coherent fun step hmem =>
    BridgeStep.isSubmit_of_isClosing (hclosing step hmem)
  rw [← Bridge.run_append] at haccepted hdropped
  rw [hm]
  refine ⟨⟨haccepted.trans h.accepted.symm, hdropped.trans h.dropped.symm, ?_⟩,
    hb.accepted_eq hsteps hclosed, ?_, ?_⟩
  · rw [Bridge.failures_eq hcoherent, hmetrics]
    intro id k x hmem
    exact (hsteps _ hmem).elim of_decide_eq_true of_decide_eq_true
  · have hreceived := Bridge.received_run hcoherent f.history
    rw [hmetrics, BridgeMetrics.received, BridgeMetrics.received, Nat.zero_add] at hreceived
    rw [h.lines, haccepted, hdropped, Nat.add_assoc, hreceived, Nat.zero_add]
  · rw [← Bridge.dispatched_of_closing hclosing]
    exact hb.counted htally

end Feed

namespace Node

/-- **Every line has its place.** A node that was just made is started with any catalog,
fed with any data while its loop takes its steps whenever it likes, and stopped when all
is read. Each line that is not blank is unparsable, was dropped, went to all subscribers,
was none, or was discarded by the stop; reader and bridge agree on what was accepted and
dropped; no call of a subscriber failed. The counts by symbol add up to the broadcast
ticks, and each is the number of the ticks of its symbol among those that the loop
took. -/
theorem accounts_for_every_line {config : NodeConfig} {node : Node}
    (h : create config = .ok node) (catalog : Catalog) :
    ∃ started, (node.replaceCatalog catalog).start = .ok started ∧
      ∀ (data : List UInt8) (turns : List (List LoopStep)) (last : List LoopStep),
        let read := pump Feed.submit ⟨started, turns, []⟩ data
        let fed := read.target.goOn last
        let stats := fed.node.stop.bridge.stats
        let m := fed.node.stop.bridge.metrics
        let counts := fed.node.stop.feed.audience.counts
        let dispatched := started.bridge.dispatched fed.history
        fed.node.bridge = started.bridge.run fed.history ∧
        (read.summary.lines = read.summary.unparsable + m.dropped + m.broadcast + m.invalid +
            m.discarded ∧
          .ofNat read.summary.lines = .ofNat read.summary.unparsable + stats.dropped +
            stats.broadcast + stats.invalid + stats.discarded) ∧
        (read.summary.accepted = m.accepted ∧ .ofNat read.summary.accepted = stats.accepted) ∧
        (read.summary.dropped = m.dropped ∧ .ofNat read.summary.dropped = stats.dropped) ∧
        (m.subscriberFailures = 0 ∧ stats.subscriberFailures = 0) ∧
        ∀ n, counts.counts.size ≤ n →
          ((counts.top n).map (·.2)).sum = m.broadcast ∧
          ∀ symbol k, (symbol, k) ∈ counts.top n ↔ 0 < k ∧ k = dispatched.countP
            fun raw => (raw.normalizeWith catalog.lookup).toOption.any (·.symbol = symbol) := by
  obtain ⟨started, hstart, hfresh, hcounts, hcalls⟩ := start_of_create h catalog
  refine ⟨started, hstart, fun data turns last => ?_⟩
  intro read fed stats m counts dispatched
  have hcoherent := hfresh.orderly.coherent
  have hfed : fed.Accounts started.bridge read.summary :=
    ((Feed.Accounts.start hfresh hcounts hcalls turns).pump hcoherent hfresh.subscribers
      data).goOn hcoherent hfresh.subscribers last
  obtain ⟨⟨haccepted, hdropped, hfailures⟩, hplaces, hlines, ticks, htallies, hlength, hcount⟩ :=
    hfed.stop hfresh
  have hall : read.summary.lines = read.summary.unparsable + m.dropped + m.broadcast +
      m.invalid + m.discarded := by
    have hplaces : m.accepted = m.broadcast + m.invalid + m.discarded := hplaces
    have hlines : read.summary.lines = read.summary.unparsable + m.accepted + m.dropped := hlines
    omega
  obtain ⟨loop, hfollows⟩ := hfed.follows
  refine ⟨hfollows.bridge, ⟨hall, ?_⟩, ⟨haccepted.symm, ?_⟩, ⟨hdropped.symm, ?_⟩,
    ⟨hfailures, ?_⟩, fun n hn => ?_⟩
  · rw [hall]
    simp only [UInt64.ofNat_add]
    rfl
  · rw [← haccepted]
    rfl
  · rw [← hdropped]
    rfl
  · exact congrArg UInt64.ofNat hfailures
  · refine ⟨(htallies.sum_top hn).trans hlength, fun symbol k => ?_⟩
    rw [htallies.mem_top hn, hcount]

/-- Four lines and a queue for one tick: the first line is with the subscribers when the
second one is queued and the third one dropped, the last one is no object, and the stop
finishes the first and discards the second. -/
theorem accounts_for_every_line_four :
    let config : NodeConfig :=
      ⟨none, { queueCapacity := 1 }, {}, .default, .ofSeconds 86400, .ofSeconds 10, 1⟩
    let data := "\x7b\"symbol\":\"A\"\x7d\n\x7b\x7d\n\x7b\x7d\n[]\n".toUTF8.data.toList
    ∃ node started, create config = .ok node ∧
      (node.replaceCatalog (.unloaded {})).start = .ok started ∧
      let read := pump Feed.submit ⟨started, [[], [.receive, .settle 1]], []⟩ data
      let stopped := (read.target.goOn []).node.stop
      read.summary = ⟨4, 2, 1, 1⟩ ∧ stopped.bridge.metrics.broadcast = 1 ∧
        stopped.bridge.metrics.discarded = 1 ∧
        ((stopped.feed.audience.counts.top stopped.feed.audience.counts.counts.size).map
          (·.2)).sum = 1 := by
  intro config data
  have hruns : ((create config).toOption.bind fun node =>
      (node.replaceCatalog (.unloaded {})).start.toOption.map fun started =>
        let read := pump Feed.submit ⟨started, [[], [.receive, .settle 1]], []⟩ data
        let m := (read.target.goOn []).node.stop.bridge.metrics
        (read.summary, m.broadcast, m.discarded)) = some (⟨4, 2, 1, 1⟩, 1, 1) := by
    decide +kernel
  obtain ⟨node, hnode, hruns⟩ := Option.bind_eq_some_iff.mp hruns
  obtain ⟨started, hstart, hruns⟩ := Option.map_eq_some_iff.mp hruns
  cases hcreate : create config with
  | error e =>
    rw [hcreate] at hnode
    cases hnode
  | ok made =>
    rw [hcreate] at hnode
    cases hnode
    obtain ⟨started', hstart', hfed⟩ := accounts_for_every_line hcreate (.unloaded {})
    rw [hstart'] at hstart
    cases hstart
    simp only [Prod.mk.injEq] at hruns
    obtain ⟨-, -, -, -, -, hcounts⟩ := hfed data [[], [.receive, .settle 1]] []
    refine ⟨node, started, rfl, hstart', hruns.1, hruns.2.1, hruns.2.2, ?_⟩
    exact (hcounts _ (Nat.le_refl _)).1.trans hruns.2.1

end Node

end TickFeed
