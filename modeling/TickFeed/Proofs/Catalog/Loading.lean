import TickFeed.Catalog.Basic
import TickFeed.Proofs.Catalog.Indices

/-! # Loads

A load reads its rows, looks at the signal to give up at the moments that `looks`
counts, and either ends before it is complete or serves what its rows are. `load_eq`
says which: the answer is settled by the rows and by whether the signal comes in time,
and the catalog is another one only when the answer is a report. A history of loads is
one such step after the other, so between its calls a catalog is `Settled`, and
`load_all_or_nothing` puts the two together. -/

namespace TickFeed

/-! ## The signal -/

def CancelSignal.seenIn (signal : CancelSignal) (looks : Nat) : Bool :=
  match signal with
  | some n => n < looks
  | none => false

theorem CancelSignal.seenBy_eq (signal : CancelSignal) (look : Nat) :
    signal.seenBy look = signal.seenIn (look + 1) := by
  cases signal with
  | none => rfl
  | some n => exact decide_eq_decide.mpr Nat.lt_succ_iff.symm

theorem CancelSignal.seenIn_mono {signal : CancelSignal} {few many : Nat} (h : few ≤ many)
    (hseen : signal.seenIn few = true) : signal.seenIn many = true := by
  cases signal with
  | none => cases hseen
  | some n => exact decide_eq_true (Nat.lt_of_lt_of_le (of_decide_eq_true hseen) h)

/-- How often a load of so many rows looks at the signal: before the first row, before
each row whose number the interval divides, and after the last row. -/
def CatalogConfig.looks (c : CatalogConfig) (rows : Nat) : Nat :=
  1 + (List.range rows).countP (· % max 1 c.cancelCheckEvery = 0) + 1

/-! ## The rows -/

def SourceRow.instruments (rows : List SourceRow) : List Instrument :=
  rows.filterMap fun row => (row.bind Row.toInstrument).toOption

theorem SourceRow.instruments_cons_ok {row : SourceRow} {i : Instrument}
    (h : row.bind Row.toInstrument = .ok i) (rows : List SourceRow) :
    instruments (row :: rows) = i :: instruments rows :=
  List.filterMap_cons_some (congrArg Except.toOption h)

theorem SourceRow.instruments_cons_error {row : SourceRow} {e : RowError}
    (h : row.bind Row.toInstrument = .error e) (rows : List SourceRow) :
    instruments (row :: rows) = instruments rows :=
  List.filterMap_cons_none (congrArg Except.toOption h)

namespace LoadProgress

/-- A load of all these rows, without a look at the signal. -/
def ofRows (generation : Nat) (rows : List SourceRow) : LoadProgress :=
  rows.foldl addRow ⟨.start generation, 0, 0, 0⟩

def withLooks (p : LoadProgress) (looks : Nat) : LoadProgress := { p with looks }

/-- A load that has come this far with so many looks, unless one of them saw the
signal. -/
def unlessSeen (p : LoadProgress) (signal : CancelSignal) (looks : Nat) :
    Except CatalogError LoadProgress :=
  if signal.seenIn looks then .error .cancelled else .ok (p.withLooks looks)

/-- What goes on with more looks until none of them has seen the signal. -/
theorem unlessSeen_bind {p q : LoadProgress} {signal : CancelSignal} {few many : Nat}
    {next : LoadProgress → Except CatalogError LoadProgress} (h : few ≤ many)
    (hnext : signal.seenIn few = false → next (p.withLooks few) = q.unlessSeen signal many) :
    (p.unlessSeen signal few >>= next) = q.unlessSeen signal many := by
  unfold unlessSeen at hnext ⊢
  cases hs : signal.seenIn few with
  | true =>
    rw [CancelSignal.seenIn_mono h hs]
    rfl
  | false => exact hnext hs

theorem look_eq (p : LoadProgress) (signal : CancelSignal) :
    p.look signal = p.unlessSeen signal (p.looks + 1) := by
  rw [look, CancelSignal.seenBy_eq]
  rfl

theorem addRow_withLooks (p : LoadProgress) (row : SourceRow) (n : Nat) :
    (p.withLooks n).addRow row = (p.addRow row).withLooks n := by
  unfold addRow withLooks
  split
  · dsimp only
    split <;> rfl
  · rfl

theorem addRows_withLooks (p : LoadProgress) (rows : List SourceRow) (n : Nat) :
    rows.foldl addRow (p.withLooks n) = (rows.foldl addRow p).withLooks n := by
  induction rows generalizing p with
  | nil => rfl
  | cons row rows ih => rw [List.foldl_cons, List.foldl_cons, addRow_withLooks, ih]

theorem looks_addRow (p : LoadProgress) (row : SourceRow) : (p.addRow row).looks = p.looks := by
  unfold addRow
  split
  · split <;> rfl
  · rfl

/-- The rows are added, unless one of the looks on the way sees the signal. -/
theorem addRows_eq {p : LoadProgress} {every : Nat} {signal : CancelSignal} {index : Nat}
    {rows : List SourceRow} (h : signal.seenIn p.looks = false) :
    p.addRows every signal index rows = (rows.foldl addRow p).unlessSeen signal
      (p.looks + (List.range' index rows.length).countP (· % every = 0)) := by
  -- by induction on the rows: each look on the way adds one to those of the load so far
  induction rows generalizing p index with
  | nil =>
    show Except.ok p = unlessSeen p signal p.looks
    rw [unlessSeen, h]
    rfl
  | cons row rows ih =>
    rw [addRows, List.length_cons, List.range'_succ, List.countP_cons]
    by_cases hi : index % every = 0
    · rw [if_pos hi, if_pos (decide_eq_true hi), look_eq]
      refine unlessSeen_bind (by omega) fun hs => ?_
      have hrest := @ih ((p.withLooks (p.looks + 1)).addRow row) (index + 1)
        (by rw [looks_addRow]; exact hs)
      rw [looks_addRow, addRow_withLooks, addRows_withLooks] at hrest
      show addRows (addRow (p.withLooks (p.looks + 1)) row) every signal (index + 1) rows = _
      rw [addRow_withLooks, hrest, Nat.add_comm (List.countP _ _), ← Nat.add_assoc]
      rfl
    · rw [if_neg hi, if_neg (by simpa using hi), Nat.add_zero]
      have hrest := @ih (p.addRow row) (index + 1) (by rw [looks_addRow]; exact h)
      rw [looks_addRow] at hrest
      exact hrest

/-- What the rows leave behind is what their instruments do: a duplicate adds nothing. -/
theorem builder_addRows (p : LoadProgress) (rows : List SourceRow) :
    (rows.foldl addRow p).builder =
      (SourceRow.instruments rows).foldl SnapshotBuilder.insert p.builder := by
  induction rows generalizing p with
  | nil => rfl
  | cons row rows ih =>
    rw [List.foldl_cons, ih]
    cases hrow : row.bind Row.toInstrument with
    | error e =>
      rw [SourceRow.instruments_cons_error hrow]
      simp only [addRow, hrow]
    | ok i =>
      rw [SourceRow.instruments_cons_ok hrow]
      simp only [addRow, hrow, List.foldl_cons]
      cases hd : p.builder.isDuplicate i with
      | true => rw [if_pos rfl, SnapshotBuilder.insert_of_duplicate hd]
      | false => rfl

end LoadProgress

/-! ## What is served -/

/-- The snapshot of these rows, whatever the number of its load. -/
def Snapshot.ofRows (rows : List SourceRow) : Snapshot :=
  ((SourceRow.instruments rows).foldl SnapshotBuilder.insert (.start 0)).finish

/-- The number of a load is a mark on the snapshot and nothing else. -/
theorem SnapshotBuilder.insert_generation (b : SnapshotBuilder) (i : Instrument) (n : Nat) :
    insert ⟨{ b.draft with generation := n }⟩ i =
      ⟨{ (b.insert i).draft with generation := n }⟩ := by
  unfold insert
  by_cases hd : b.isDuplicate i = true
  · rw [if_pos hd, if_pos (show isDuplicate ⟨{ b.draft with generation := n }⟩ i = true from hd)]
  · rw [if_neg hd, if_neg (show ¬isDuplicate ⟨{ b.draft with generation := n }⟩ i = true from hd)]
    rfl

theorem SnapshotBuilder.inserts_generation (b : SnapshotBuilder) (offered : List Instrument)
    (n : Nat) : offered.foldl insert ⟨{ b.draft with generation := n }⟩ =
      ⟨{ (offered.foldl insert b).draft with generation := n }⟩ := by
  induction offered generalizing b with
  | nil => rfl
  | cons i offered ih => rw [List.foldl_cons, List.foldl_cons, insert_generation, ih]

theorem Snapshot.ofRows_nil : ofRows [] = empty 0 := by
  show SnapshotBuilder.finish ⟨empty 0⟩ = empty 0
  rw [SnapshotBuilder.finish, empty, List.mergeSort_nil]
  rfl

theorem Snapshot.ofRows_indexed (rows : List SourceRow) :
    (ofRows rows).Indexed ∧
      (ofRows rows).toList = Instrument.firstOfEach (SourceRow.instruments rows) := by
  obtain ⟨hindexed, hlist⟩ := SnapshotBuilder.indexed_inserts
    (b := .start 0) (.empty 0) (SourceRow.instruments rows)
  exact ⟨SnapshotBuilder.indexed_finish hindexed, hlist⟩

theorem LoadProgress.finish_ofRows (generation : Nat) (rows : List SourceRow) :
    (ofRows generation rows).builder.finish = { Snapshot.ofRows rows with generation } := by
  rw [ofRows, builder_addRows]
  exact congrArg SnapshotBuilder.finish
    (SnapshotBuilder.inserts_generation (.start 0) _ generation)

structure LoadCall where
  source : CatalogSource
  signal : CancelSignal

namespace Catalog

def reportOn (c : Catalog) (rows : List SourceRow) : LoadReport :=
  (LoadProgress.ofRows (c.generation + 1) rows).report

def serve (c : Catalog) (rows : List SourceRow) : Catalog :=
  { c with
    served := { Snapshot.ofRows rows with generation := c.generation + 1 }
    state := .ready
    generation := c.generation + 1 }

theorem build_eq (c : Catalog) (rows : List SourceRow) (signal : CancelSignal) :
    c.build (.ok rows) signal = if signal.seenIn (c.config.looks rows.length)
      then .error .cancelled
      else .ok ({ Snapshot.ofRows rows with generation := c.generation + 1 }, c.reportOn rows) := by
  let start : LoadProgress := ⟨.start (c.generation + 1), 0, 0, 0⟩
  -- the three parts of a load, each of which looks at the signal
  have hlooks : (start.look signal >>= fun p =>
      p.addRows (max 1 c.config.cancelCheckEvery) signal 0 rows >>= fun p => p.look signal) =
      (LoadProgress.ofRows (c.generation + 1) rows).unlessSeen signal
        (c.config.looks rows.length) := by
    rw [LoadProgress.look_eq]
    refine LoadProgress.unlessSeen_bind (Nat.le_add_left _ _) fun hs => ?_
    rw [LoadProgress.addRows_eq hs, ← List.range_eq_range', LoadProgress.addRows_withLooks]
    refine LoadProgress.unlessSeen_bind (Nat.le_succ _) fun _ => ?_
    rw [LoadProgress.look_eq]
    rfl
  have hbuild : c.build (.ok rows) signal = ((start.look signal >>= fun p =>
      p.addRows (max 1 c.config.cancelCheckEvery) signal 0 rows >>= fun p => p.look signal) >>=
        fun p => .ok (p.builder.finish, p.report)) := by
    simp only [bind_assoc]
    rfl
  rw [hbuild, hlooks, LoadProgress.unlessSeen]
  split
  · rfl
  · show Except.ok ((LoadProgress.ofRows (c.generation + 1) rows).builder.finish, _) = _
    rw [LoadProgress.finish_ofRows]
    rfl

/-! ## Histories -/

/-- What holds between loads: the state says whether there has been one, and what is
served are the rows of the last one, with its number. -/
structure Settled (c : Catalog) : Prop where
  state : c.state = if c.generation = 0 then .unloaded else .ready
  served : ∃ rows, c.served = { Snapshot.ofRows rows with generation := c.generation }

theorem Settled.unloaded (config : CatalogConfig) : (unloaded config).Settled where
  state := rfl
  served := ⟨[], by rw [Snapshot.ofRows_nil]; rfl⟩

theorem Settled.serve {c : Catalog} (rows : List SourceRow) : (c.serve rows).Settled where
  state := rfl
  served := ⟨rows, rfl⟩

/-- Once a load has begun, the state tells which one it was before. -/
theorem Settled.beginLoad {c : Catalog} (h : c.Settled) :
    ∃ busy, c.beginLoad = .ok { c with state := busy } ∧
      ∀ rows signal e, build { c with state := busy } rows signal = .error e →
        endLoad { c with state := busy } rows signal = (c, .error e) := by
  obtain ⟨config, served, state, generation⟩ := c
  obtain rfl | rfl : state = .unloaded ∨ state = .ready := by
    rw [show state = _ from h.state]
    split
    · exact .inl rfl
    · exact .inr rfl
  · exact ⟨.loading, rfl, fun rows signal e he => by rw [endLoad, he]⟩
  · exact ⟨.refreshing, rfl, fun rows signal e he => by rw [endLoad, he]⟩

theorem reportOn_serve (c : Catalog) (rows : List SourceRow) :
    (c.serve rows).served.size = (c.reportOn rows).loaded ∧
      (c.reportOn rows).generation = c.generation + 1 := by
  have hfinish := LoadProgress.finish_ofRows (c.generation + 1) rows
  exact ⟨(congrArg Snapshot.size hfinish).symm, congrArg Snapshot.generation hfinish⟩

/-- A load either ends before it is complete, and the catalog is the one before it, or
serves its rows. -/
theorem load_eq {c : Catalog} (h : c.Settled) (source : CatalogSource) (signal : CancelSignal) :
    c.load source signal =
      match source.rows with
      | .error e => (c, .error e)
      | .ok rows => if signal.seenIn (c.config.looks rows.length) then (c, .error .cancelled)
        else (c.serve rows, .ok (c.reportOn rows)) := by
  obtain ⟨busy, hbegin, hrestore⟩ := h.beginLoad
  rw [load, hbegin]
  dsimp only
  cases hrows : source.rows with
  | error e => exact hrestore _ _ e rfl
  | ok rows =>
    dsimp only
    have hbuild := build_eq { c with state := busy } rows signal
    split
    next hs => exact hrestore _ _ .cancelled (hbuild.trans (if_pos hs))
    next hs => rw [endLoad, hbuild, if_neg hs]; rfl

def after (c : Catalog) (calls : List LoadCall) : Catalog :=
  calls.foldl (fun c call => (c.load call.source call.signal).1) c

def answers (c : Catalog) : List LoadCall → List (Except CatalogError LoadReport)
  | [] => []
  | call :: calls =>
    (c.load call.source call.signal).2 :: (c.load call.source call.signal).1.answers calls

theorem Settled.load {c : Catalog} (h : c.Settled) (source : CatalogSource)
    (signal : CancelSignal) :
    (c.load source signal).1.Settled ∧
      (c.load source signal).1.config = c.config ∧
      (c.load source signal).1.generation =
        c.generation + (c.load source signal).2.isOk.toNat := by
  rw [load_eq h]
  split
  · exact ⟨h, rfl, rfl⟩
  · split
    · exact ⟨h, rfl, rfl⟩
    · exact ⟨.serve _, rfl, rfl⟩

/-- The number of a catalog is that of the loads that succeeded. -/
theorem Settled.after {c : Catalog} (h : c.Settled) (calls : List LoadCall) :
    (c.after calls).Settled ∧ (c.after calls).config = c.config ∧
      (c.after calls).generation = c.generation + (c.answers calls).countP Except.isOk := by
  induction calls generalizing c with
  | nil => exact ⟨h, rfl, rfl⟩
  | cons call calls ih =>
    obtain ⟨hload, hconfig, hgeneration⟩ := h.load call.source call.signal
    obtain ⟨hafter, hconfig', hgeneration'⟩ := ih hload
    refine ⟨hafter, hconfig'.trans hconfig, hgeneration'.trans ?_⟩
    rw [hgeneration, answers, List.countP_cons, Nat.add_assoc]
    cases (c.load call.source call.signal).2.isOk <;> simp [Nat.add_comm]

theorem Settled.standing {c : Catalog} (h : c.Settled) :
    c.state = (if c.generation = 0 then .unloaded else .ready) ∧
      c.served.generation = c.generation := by
  obtain ⟨rows, hserved⟩ := h.served
  exact ⟨h.state, hserved ▸ rfl⟩

/-- **Loads are all or nothing**, whatever came before them. Between loads a catalog is
ready exactly if one of them succeeded, and what it serves bears their number. A load
that fails leaves the catalog as it is; either its source cannot be read, or it is given
up. A load that succeeds serves the snapshot of its own rows, of the size and with the
number in its report. The signal counts if one of the looks sees it, and a source that
cannot be read fails before there is a look; otherwise it makes no difference. -/
theorem load_all_or_nothing (config : CatalogConfig) (calls : List LoadCall)
    (source : CatalogSource) (signal : CancelSignal) :
    let c := (unloaded config).after calls
    let succeeded := ((unloaded config).answers calls).countP Except.isOk
    let next := (c.load source signal).1
    let answer := (c.load source signal).2
    (c.state = (if succeeded = 0 then .unloaded else .ready) ∧
      c.served.generation = succeeded) ∧
    (∀ e, answer = .error e → next = c ∧ (source.rows = .error e ∨ e = .cancelled)) ∧
    (∀ report, answer = .ok report → next.state = .ready ∧
      next.served.size = report.loaded ∧ next.served.generation = report.generation ∧
      report.generation = 1 + succeeded ∧
      ∃ rows, source.rows = .ok rows ∧
        next.served = { Snapshot.ofRows rows with generation := report.generation }) ∧
    (∀ e, source.rows = .error e → answer = .error e) ∧
    (∀ rows, source.rows = .ok rows →
      (signal.seenIn (config.looks rows.length) = true → answer = .error .cancelled) ∧
      (signal.seenIn (config.looks rows.length) = false →
        c.load source signal = c.load source none ∧ ∃ report, answer = .ok report)) := by
  intro c succeeded next answer
  obtain ⟨hsettled, hconfig, hgeneration⟩ := (Settled.unloaded config).after calls
  have hsucceeded : c.generation = succeeded := hgeneration.trans (Nat.zero_add _)
  have hc : c.config = config := hconfig
  have hload := load_eq hsettled source signal
  refine ⟨hsucceeded ▸ hsettled.standing, ?_⟩
  cases hrows : source.rows with
  | error e =>
    rw [hrows] at hload
    have hanswer : answer = .error e := congrArg Prod.snd hload
    refine ⟨fun e' he => ⟨congrArg Prod.fst hload, .inl ?_⟩, fun report hr => ?_,
      fun e' he => ?_, fun rows hr => nomatch hr⟩
    · rw [Except.error.inj (hanswer.symm.trans he)]
    · exact nomatch hanswer.symm.trans hr
    · rw [hanswer, Except.error.inj he]
  | ok rows =>
    rw [hrows] at hload
    dsimp only at hload
    cases hseen : signal.seenIn (c.config.looks rows.length) with
    | true =>
      rw [if_pos hseen] at hload
      have hanswer : answer = .error .cancelled := congrArg Prod.snd hload
      refine ⟨fun e' he => ⟨congrArg Prod.fst hload, .inr ?_⟩, fun report hr => ?_,
        fun e' he => (nomatch he), fun rows' hr => ?_⟩
      · exact Except.error.inj (he.symm.trans hanswer)
      · exact nomatch hanswer.symm.trans hr
      · obtain rfl := Except.ok.inj hr
        exact ⟨fun _ => hanswer, fun hs => absurd (hc ▸ hseen) (by rw [hs]; decide)⟩
    | false =>
      rw [if_neg (by rw [hseen]; decide)] at hload
      have hanswer : answer = .ok (c.reportOn rows) := congrArg Prod.snd hload
      have hnext : next = c.serve rows := congrArg Prod.fst hload
      refine ⟨fun e' he => (nomatch hanswer.symm.trans he), fun report hr => ?_,
        fun e' he => (nomatch he), fun rows' hr => ?_⟩
      · obtain rfl := Except.ok.inj (hanswer.symm.trans hr)
        obtain ⟨hsize, hnumber⟩ := c.reportOn_serve rows
        rw [hnext]
        exact ⟨rfl, hsize, hnumber.symm, by rw [hnumber, hsucceeded, Nat.add_comm], rows, rfl,
          by rw [hnumber]; rfl⟩
      · obtain rfl := Except.ok.inj hr
        refine ⟨fun hs => absurd (hc ▸ hs) (by rw [hseen]; decide), fun _ => ⟨?_, _, hanswer⟩⟩
        have hnone := load_eq hsettled source none
        rw [hrows] at hnone
        exact hload.trans hnone.symm

/-- With an interval of zero every row has its look: the second load of one row is given
up at the look after it, and the catalog goes on to serve what the first one left. -/
theorem load_all_or_nothing_last_look :
    let config : CatalogConfig := { cancelCheckEvery := 0 }
    let source : CatalogSource := .ofMemory .jsonLines [0x7b, 0x7d]
    let c := (unloaded config).after [⟨source, none⟩]
    c.state = .ready ∧ c.load source (some 2) = (c, .error .cancelled) ∧
      c.load source (some 3) = c.load source none := by
  intro config source c
  have hrows : source.rows = .ok [.ok (.ofList [])] := rfl
  have hanswers : ((unloaded config).answers [⟨source, none⟩]).countP Except.isOk = 1 := rfl
  obtain ⟨hstanding, herror, -, -, hlooks⟩ :=
    load_all_or_nothing config [⟨source, none⟩] source (some 2)
  have hcancelled := (hlooks _ hrows).1 (by decide)
  obtain ⟨-, -, -, -, hlate⟩ := load_all_or_nothing config [⟨source, none⟩] source (some 3)
  refine ⟨?_, Prod.ext (herror _ hcancelled).1 hcancelled, ((hlate _ hrows).2 (by decide)).1⟩
  rw [hstanding.1, hanswers]
  rfl

end Catalog

end TickFeed
