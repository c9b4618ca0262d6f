import TickFeed.Proofs.Catalog.Loading

/-! # The first row wins

Each row of a load counts once, as an instrument that is served, as a duplicate or as a row
that is skipped (`addRow_total`), and which of them it is depends on the instruments that
the rows before it left. A row that leaves none could as well not be there. `first_row_wins`
says this of the load as a whole. -/

namespace TickFeed

/-- The row could not be read, or it describes no instrument. -/
def SourceRow.isBad : SourceRow → Bool
  | .ok row => !row.toInstrument.isOk
  | .error _ => true

namespace SourceRow

theorem isBad_eq (row : SourceRow) : row.isBad = !(row.bind Row.toInstrument).isOk := by
  cases row <;> rfl

theorem instruments_append (rows rows' : List SourceRow) :
    instruments (rows ++ rows') = instruments rows ++ instruments rows' :=
  List.filterMap_append

/-- Bad rows have no part in the instruments. -/
theorem instruments_filter (rows : List SourceRow) :
    instruments (rows.filter (!·.isBad)) = instruments rows := by
  induction rows with
  | nil => rfl
  | cons row rows ih =>
    cases hrow : row.bind Row.toInstrument with
    | error e =>
      rw [List.filter_cons_of_neg (by simp [isBad_eq, hrow, Except.isOk, Except.toBool]), ih,
        instruments_cons_error hrow]
    | ok i =>
      rw [List.filter_cons_of_pos (by simp [isBad_eq, hrow, Except.isOk, Except.toBool]),
        instruments_cons_ok hrow, instruments_cons_ok hrow, ih]

end SourceRow

/-! ## The scan -/

namespace Instrument

theorem keeps_append (kept offered offered' : List Instrument) :
    (offered ++ offered').foldl keep kept = offered'.foldl keep (offered.foldl keep kept) :=
  List.foldl_append

/-- What is kept keeps the order of the offers. -/
theorem keeps_sublist (kept offered : List Instrument) :
    (offered.foldl keep kept).Sublist (kept ++ offered) := by
  induction offered generalizing kept with
  | nil => simp
  | cons i offered ih =>
    have hkeep : (keep kept i).Sublist (kept ++ [i]) := by
      rw [keep]
      split
      · exact List.sublist_append_left kept [i]
      · exact List.Sublist.refl _
    have hall : ((keep kept i) ++ offered).Sublist (kept ++ [i] ++ offered) :=
      hkeep.append_right offered
    rw [List.append_assoc, List.singleton_append] at hall
    exact (ih (keep kept i)).trans hall

/-- An offer that clashes with one that was kept before it could as well not be made. -/
theorem firstOfEach_of_clash {before : List Instrument} {i : Instrument}
    (h : (firstOfEach before).any i.clashes = true) (after : List Instrument) :
    firstOfEach (before ++ i :: after) = firstOfEach (before ++ after) := by
  have hkeep : keep (firstOfEach before) i = firstOfEach before := if_pos h
  rw [firstOfEach, keeps_append, List.foldl_cons, firstOfEach, keeps_append]
  exact congrArg (after.foldl keep) hkeep

end Instrument

/-! ## The counters -/

namespace LoadProgress

/-- A row counts once. -/
theorem addRow_total (p : LoadProgress) (row : SourceRow) :
    (p.addRow row).builder.size + (p.addRow row).skipped + (p.addRow row).duplicates =
      p.builder.size + p.skipped + p.duplicates + 1 := by
  cases hrow : row.bind Row.toInstrument with
  | error e =>
    simp only [addRow, hrow]
    omega
  | ok i =>
    simp only [addRow, hrow]
    cases hd : p.builder.isDuplicate i with
    | true =>
      rw [if_pos rfl]
      exact (Nat.add_assoc _ _ _).symm
    | false =>
      have hsize : (p.builder.insert i).size = p.builder.size + 1 := by
        rw [SnapshotBuilder.size, SnapshotBuilder.insert_of_new hd]
        exact Array.size_push _
      rw [if_neg Bool.false_ne_true]
      dsimp only
      omega

theorem skipped_addRow (p : LoadProgress) (row : SourceRow) :
    (p.addRow row).skipped = p.skipped + row.isBad.toNat := by
  rw [SourceRow.isBad_eq]
  cases hrow : row.bind Row.toInstrument with
  | error e =>
    simp only [addRow, hrow]
    rfl
  | ok i =>
    simp only [addRow, hrow]
    split <;> rfl

theorem counts_addRows (p : LoadProgress) (rows : List SourceRow) :
    (rows.foldl addRow p).builder.size + (rows.foldl addRow p).skipped +
        (rows.foldl addRow p).duplicates =
      p.builder.size + p.skipped + p.duplicates + rows.length ∧
    (rows.foldl addRow p).skipped = p.skipped + rows.countP SourceRow.isBad := by
  induction rows generalizing p with
  | nil => exact ⟨rfl, rfl⟩
  | cons row rows ih =>
    obtain ⟨htotal, hskipped⟩ := ih (p.addRow row)
    rw [List.foldl_cons, htotal, hskipped, addRow_total, skipped_addRow, List.countP_cons,
      List.length_cons]
    refine ⟨by omega, ?_⟩
    cases row.isBad <;> simp [Nat.add_comm, Nat.add_left_comm]

end LoadProgress

/-- The rows without the bad ones are as many as their instruments. -/
theorem SourceRow.length_instruments (rows : List SourceRow) :
    (instruments rows).length + rows.countP isBad = rows.length := by
  induction rows with
  | nil => rfl
  | cons row rows ih =>
    cases hrow : row.bind Row.toInstrument with
    | error e =>
      have hbad : row.isBad = true := by rw [isBad_eq, hrow]; rfl
      rw [instruments_cons_error hrow, List.countP_cons_of_pos hbad, List.length_cons]
      omega
    | ok i =>
      have hgood : ¬row.isBad = true := by rw [isBad_eq, hrow]; nofun
      rw [instruments_cons_ok hrow, List.countP_cons_of_neg hgood, List.length_cons,
        List.length_cons]
      omega

/-- A row whose instrument clashes with one that the rows before it keep leaves no trace in
the snapshot. -/
theorem Snapshot.ofRows_of_clash {before : List SourceRow} {row : SourceRow} {i : Instrument}
    (hi : row.bind Row.toInstrument = .ok i)
    (h : (Instrument.firstOfEach (SourceRow.instruments before)).any i.clashes = true)
    (after : List SourceRow) : ofRows (before ++ row :: after) = ofRows (before ++ after) := by
  obtain ⟨hindexed, hlist⟩ := SnapshotBuilder.indexed_inserts
    (b := .start 0) (.empty 0) (SourceRow.instruments before)
  have hduplicate := SnapshotBuilder.isDuplicate_eq hindexed i
  rw [hlist] at hduplicate
  have hinsert := SnapshotBuilder.insert_of_duplicate (hduplicate.trans h)
  rw [ofRows, ofRows, SourceRow.instruments_append, SourceRow.instruments_append,
    SourceRow.instruments_cons_ok hi, List.foldl_append, List.foldl_append, List.foldl_cons,
    hinsert]

namespace Catalog

/-- The report counts what the scan of the instruments keeps, what it turns away, and the
bad rows. -/
theorem reportOn_eq (c : Catalog) (rows : List SourceRow) :
    c.reportOn rows =
      let offered := SourceRow.instruments rows
      let kept := Instrument.firstOfEach offered
      ⟨kept.length, rows.countP SourceRow.isBad, offered.length - kept.length,
        c.generation + 1⟩ := by
  have hfinish := LoadProgress.finish_ofRows (c.generation + 1) rows
  have hkept := (Snapshot.ofRows_indexed rows).2
  have hloaded : (LoadProgress.ofRows (c.generation + 1) rows).builder.size =
      (Instrument.firstOfEach (SourceRow.instruments rows)).length := by
    rw [← hkept]
    exact (congrArg Snapshot.size hfinish).trans Array.length_toList.symm
  obtain ⟨htotal, hskipped⟩ :=
    LoadProgress.counts_addRows ⟨.start (c.generation + 1), 0, 0, 0⟩ rows
  have hempty : (SnapshotBuilder.start (c.generation + 1)).size = 0 := rfl
  have hrows := SourceRow.length_instruments rows
  rw [← LoadProgress.ofRows] at htotal hskipped
  have hgeneration := (c.reportOn_serve rows).2
  rw [reportOn, LoadProgress.report] at hgeneration ⊢
  dsimp only at *
  rw [hgeneration]
  congr 1
  · omega
  · omega

theorem load_none {c : Catalog} (h : c.Settled) {source : CatalogSource} {rows : List SourceRow}
    (hrows : source.rows = .ok rows) :
    c.load source none = (c.serve rows, .ok (c.reportOn rows)) := by
  rw [load_eq h, hrows]
  rfl

/-- Rows that were read are loaded, unless the load is given up. -/
theorem exists_report {source : CatalogSource} {rows : List SourceRow}
    (hrows : source.rows = .ok rows) (config : CatalogConfig) (calls : List LoadCall) :
    ∃ report, (((unloaded config).after calls).load source none).2 = .ok report :=
  ⟨_, congrArg Prod.snd (load_none ((Settled.unloaded config).after calls).1 hrows)⟩

/-- **The first row wins.** A load of rows that could be read succeeds. Each row is an
instrument that is loaded, a duplicate, or skipped, and skipped are those that were not read
or describe no instrument. What is served is what a scan of the other rows keeps, in their
order: an instrument is kept unless one that is kept already has its symbol or its token on
the same exchange, and the duplicates are those that are turned away. So a duplicate could
as well not be there, and neither bad rows that are put in anywhere nor ones that are taken
out change more than the number of those that are skipped. -/
theorem first_row_wins (config : CatalogConfig) (calls : List LoadCall) {source : CatalogSource}
    {rows : List SourceRow} (hrows : source.rows = .ok rows) :
    let c := (unloaded config).after calls
    let next := (c.load source none).1
    let offered := SourceRow.instruments rows
    ∃ report, (c.load source none).2 = .ok report ∧
      (∀ signal, signal.seenIn (config.looks rows.length) = false →
        c.load source signal = c.load source none) ∧
      report.loaded + report.skipped + report.duplicates = rows.length ∧
      report.skipped = rows.countP SourceRow.isBad ∧
      next.served.toList = Instrument.firstOfEach offered ∧
      next.served.toList.Sublist offered ∧
      report.loaded = next.served.toList.length ∧
      report.duplicates = offered.length - next.served.toList.length ∧
      (∀ before row after i, rows = before ++ row :: after →
        row.bind Row.toInstrument = .ok i →
        (Instrument.firstOfEach (SourceRow.instruments before)).any i.clashes = true →
        ∀ other : CatalogSource, other.rows = .ok (before ++ after) →
          c.load other none = (next, .ok { report with duplicates := report.duplicates - 1 })) ∧
      (∀ (other : CatalogSource) rows', other.rows = .ok rows' →
        rows'.filter (!·.isBad) = rows.filter (!·.isBad) →
          c.load other none =
            (next, .ok { report with skipped := rows'.countP SourceRow.isBad })) := by
  intro c next offered
  obtain ⟨hsettled, hconfig, -⟩ := (Settled.unloaded config).after calls
  have hload : c.load source none = (c.serve rows, .ok (c.reportOn rows)) :=
    load_none hsettled hrows
  have hnext : next = c.serve rows := congrArg Prod.fst hload
  have hserved : next.served.toList = Instrument.firstOfEach offered := by
    rw [hnext]
    exact (Snapshot.ofRows_indexed rows).2
  have hsublist : next.served.toList.Sublist offered := by
    rw [hserved]
    exact Instrument.keeps_sublist [] offered
  -- two lists of rows with the same instruments leave the same catalog
  have hsame : ∀ {other : CatalogSource} {rows'}, other.rows = .ok rows' →
      Snapshot.ofRows rows' = Snapshot.ofRows rows →
      c.load other none = (next, .ok (c.reportOn rows')) := by
    intro other rows' hother heq
    rw [load_none hsettled hother, hnext, serve, heq, serve]
  have hreport : c.reportOn rows = ⟨(Instrument.firstOfEach offered).length,
      rows.countP SourceRow.isBad, offered.length - (Instrument.firstOfEach offered).length,
      c.generation + 1⟩ := c.reportOn_eq rows
  refine ⟨c.reportOn rows, congrArg Prod.snd hload, fun signal hseen => ?_, ?_, ?_, hserved,
    hsublist, ?_, ?_, fun before row after i hsplit hi hclash other hother => ?_,
    fun other rows' hother hfilter => ?_⟩
  · have hc : c.config = config := hconfig
    rw [load_eq hsettled, hrows, hload, hc]
    exact if_neg (by rw [hseen]; nofun)
  · have hlength : offered.length + rows.countP SourceRow.isBad = rows.length :=
      SourceRow.length_instruments rows
    have hle := hsublist.length_le
    rw [hserved] at hle
    rw [hreport]
    dsimp only
    omega
  · rw [hreport]
  · rw [hserved, hreport]
  · rw [hserved, hreport]
  · have hoffered : offered =
        SourceRow.instruments before ++ i :: SourceRow.instruments after := by
      rw [← SourceRow.instruments_cons_ok hi, ← SourceRow.instruments_append, ← hsplit]
    have hkept : Instrument.firstOfEach (SourceRow.instruments (before ++ after)) =
        Instrument.firstOfEach offered := by
      rw [SourceRow.instruments_append, hoffered, Instrument.firstOfEach_of_clash hclash]
    have hlength : (SourceRow.instruments (before ++ after)).length = offered.length - 1 := by
      rw [SourceRow.instruments_append, hoffered, List.length_append, List.length_append,
        List.length_cons]
      rfl
    have hbad : (before ++ after).countP SourceRow.isBad = rows.countP SourceRow.isBad := by
      have hgood : ¬row.isBad = true := by rw [SourceRow.isBad_eq, hi]; nofun
      rw [hsplit, List.countP_append, List.countP_append, List.countP_cons_of_neg hgood]
    rw [hsame hother (by rw [hsplit, Snapshot.ofRows_of_clash hi hclash]), reportOn_eq, hreport]
    dsimp only
    rw [hkept, hbad, hlength, Nat.sub_right_comm]
  · have hinstruments : SourceRow.instruments rows' = SourceRow.instruments rows := by
      rw [← SourceRow.instruments_filter, hfilter, SourceRow.instruments_filter]
    rw [hsame hother (by rw [Snapshot.ofRows, hinstruments, Snapshot.ofRows]), reportOn_eq,
      reportOn_eq, hinstruments]

set_option maxRecDepth 4000 in
/-- The second row is turned away for its symbol and keeps no later row from its token; the
third one is a field short. -/
theorem first_row_wins_free_token :
    let table :=
      "token,symbol,exch_seg\n11,SBIN,NSE\n12,SBIN,NSE\n13,TCS\n12,INFY,NSE\n11,SBIN,BSE\n"
    let source : CatalogSource := .ofMemory .csv table.toUTF8.data.toList
    let loaded := (unloaded {}).load source none
    loaded.1.served.toList.map (fun i => (i.symbol, i.token.text, i.exchange)) =
        [("SBIN", "11", .nse), ("INFY", "12", .nse), ("SBIN", "11", .bse)] ∧
      ∃ report, loaded.2 = .ok report ∧
        report.loaded = 3 ∧ report.skipped = 1 ∧ report.duplicates = 1 := by
  intro table source loaded
  let row := fun (token symbol exchange : String) => (Except.ok (.ofList [("token", .string token),
    ("symbol", .string symbol), ("exch_seg", .string exchange)]) : SourceRow)
  let rows := [row "11" "SBIN" "NSE", row "12" "SBIN" "NSE", .error (.unparsable 4),
    row "12" "INFY" "NSE", row "11" "SBIN" "BSE"]
  have hrows : source.rows = .ok rows := by rfl
  obtain ⟨report, hreport, -, -, hskipped, hserved, -, hloaded, hduplicates, -⟩ :=
    first_row_wins {} [] hrows
  have hkept : (Instrument.firstOfEach (SourceRow.instruments rows)).map
      (fun i => (i.symbol, i.token.text, i.exchange)) =
        [("SBIN", "11", .nse), ("INFY", "12", .nse), ("SBIN", "11", .bse)] := by rfl
  have hlength := congrArg List.length hkept
  rw [List.length_map] at hlength
  rw [hserved, hlength] at hloaded
  rw [hserved, hlength] at hduplicates
  exact ⟨(congrArg (List.map _) hserved).trans hkept, report, hreport, hloaded, hskipped,
    hduplicates⟩

end Catalog

end TickFeed
