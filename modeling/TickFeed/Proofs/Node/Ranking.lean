import Mathlib.Data.Finset.Card
import TickFeed.Proofs.Node.SymbolCounts

/-! # The busiest symbols

The ticks are counted one by one, and the counts always tally with them (`tallies_ofTicks`).
A table gives its entries in no order that can be relied on, so what is said here holds of all
lists of them (`Lists`). The ranking lists each symbol once, no two places are tied, and there
is one way only to put the symbols in order (`Lists.ranking_eq`): what is listed depends on how
often each symbol occurs, and neither on when nor on how the table is read. The first places
are a part of the ranking, and what they leave out comes after them (`busiest_first`). -/

namespace TickFeed

def Tick.symbolsOf (ticks : List Tick) : Finset String := (ticks.map Tick.symbol).toFinset

theorem Tick.countOf_pos_iff {ticks : List Tick} {symbol : String} :
    0 < countOf ticks symbol ↔ symbol ∈ symbolsOf ticks := by
  rw [countOf, List.count_pos_iff, symbolsOf, List.mem_toFinset]

namespace SymbolCounts

/-- The counts after these ticks. -/
def ofTicks (ticks : List Tick) : SymbolCounts := ticks.foldl count empty

/-- One symbol ranks before another one: by the count, the highest first, and among equal
counts by the symbol. -/
def Precedes (a b : String × Nat) : Prop := b.2 < a.2 ∨ a.2 = b.2 ∧ a.1 < b.1

/-- The entries are the counts of the ticks, in any order. -/
structure Lists (entries : List (String × Nat)) (ticks : List Tick) : Prop where
  nodup : (entries.map (·.1)).Nodup
  mem_iff : ∀ p, p ∈ entries ↔ p.1 ∈ Tick.symbolsOf ticks ∧ p.2 = Tick.countOf ticks p.1

variable {c : SymbolCounts} {entries entries' : List (String × Nat)} {ticks ticks' : List Tick}
  {n : Nat}

/-! ## The counts -/

theorem tallies_foldl (h : c.Tallies ticks) (more : List Tick) :
    (more.foldl count c).Tallies (ticks ++ more) := by
  induction more generalizing c ticks with
  | nil =>
    rw [List.append_nil]
    exact h
  | cons tick more ih =>
    have hmore := ih (h.count tick)
    rwa [List.append_assoc, List.singleton_append] at hmore

theorem tallies_ofTicks (ticks : List Tick) : (ofTicks ticks).Tallies ticks := by
  have h := tallies_foldl .empty ticks
  rwa [List.nil_append] at h

/-- However a table is read, it lists the ticks that it tallies with. -/
theorem Tallies.lists (h : c.Tallies ticks) (hperm : entries.Perm c.counts.toList) :
    Lists entries ticks := by
  refine ⟨?_, fun p => ?_⟩
  · refine (hperm.map _).nodup_iff.mpr ?_
    rw [Std.TreeMap.map_fst_toList_eq_keys]
    exact Std.TreeMap.nodup_keys
  · rw [hperm.mem_iff, Std.TreeMap.mem_toList_iff_getElem?_eq_some, h p.1 p.2,
      ← Tick.countOf_pos_iff]
    constructor
    · rintro ⟨hpos, heq⟩
      exact ⟨heq ▸ hpos, heq⟩
    · rintro ⟨hpos, heq⟩
      exact ⟨heq ▸ hpos, heq⟩

/-- Entries in another order, of ticks in another order. -/
theorem Lists.perm (h : Lists entries ticks) (hentries : entries'.Perm entries)
    (hticks : ticks'.Perm ticks) : Lists entries' ticks' := by
  have hsymbols : Tick.symbolsOf ticks' = Tick.symbolsOf ticks :=
    List.toFinset_eq_of_perm _ _ (hticks.map Tick.symbol)
  refine ⟨(hentries.map _).nodup_iff.mpr h.nodup, fun p => ?_⟩
  have hcount : Tick.countOf ticks' p.1 = Tick.countOf ticks p.1 :=
    (hticks.map Tick.symbol).count_eq p.1
  rw [hentries.mem_iff, h.mem_iff, hsymbols, hcount]

/-! ## The ranking -/

def ranking (entries : List (String × Nat)) : List (String × Nat) := entries.mergeSort rankLe

theorem topOf_eq (entries : List (String × Nat)) (n : Nat) :
    topOf entries n = (ranking entries).take n := rfl

theorem rankLe_iff {a b : String × Nat} :
    rankLe a b = true ↔ b.2 < a.2 ∨ a.2 = b.2 ∧ a.1 ≤ b.1 := by
  simp only [rankLe, Bool.or_eq_true, decide_eq_true_eq, Bool.and_eq_true]

theorem rankLe_antisymm {a b : String × Nat} (h : rankLe a b = true) (h' : rankLe b a = true) :
    a = b := by
  rcases rankLe_iff.mp h with hlt | ⟨heq, hle⟩ <;> rcases rankLe_iff.mp h' with hlt' | ⟨heq', hle'⟩
  · omega
  · omega
  · omega
  · exact Prod.ext (String.le_antisymm hle hle') heq

theorem precedes_of_rankLe {a b : String × Nat} (h : rankLe a b = true) (hne : a.1 ≠ b.1) :
    Precedes a b := by
  rcases rankLe_iff.mp h with hlt | ⟨heq, hle⟩
  · exact .inl hlt
  · exact .inr ⟨heq, String.not_le.mp fun hge => hne (String.le_antisymm hle hge)⟩

theorem ranking_pairwise_rankLe (entries : List (String × Nat)) :
    (ranking entries).Pairwise fun a b => rankLe a b = true :=
  List.pairwise_mergeSort rankLe_trans rankLe_total _

/-- The ranking is one of the orders in which the entries can be listed. -/
theorem Lists.ranking (h : Lists entries ticks) : Lists (ranking entries) ticks :=
  h.perm (List.mergeSort_perm _ _) (.refl _)

theorem Lists.ranking_pairwise (h : Lists entries ticks) :
    (SymbolCounts.ranking entries).Pairwise Precedes := by
  have hdistinct := List.pairwise_map.mp h.ranking.nodup
  exact (ranking_pairwise_rankLe entries).imp₂ (fun _ _ => precedes_of_rankLe) hdistinct

theorem Lists.map_fst (h : Lists entries ticks) :
    (entries.map (·.1)).toFinset = Tick.symbolsOf ticks := by
  ext symbol
  rw [List.mem_toFinset, List.mem_map]
  constructor
  · rintro ⟨p, hp, rfl⟩
    exact ((h.mem_iff p).mp hp).1
  · intro hs
    exact ⟨(symbol, Tick.countOf ticks symbol), (h.mem_iff _).mpr ⟨hs, rfl⟩, rfl⟩

theorem Lists.length_eq (h : Lists entries ticks) :
    entries.length = (Tick.symbolsOf ticks).card := by
  rw [← h.map_fst, List.toFinset_card_of_nodup h.nodup, List.length_map]

/-- What lists the same ticks has one ranking. -/
theorem Lists.ranking_eq (h : Lists entries ticks) (h' : Lists entries' ticks) :
    SymbolCounts.ranking entries = SymbolCounts.ranking entries' := by
  refine List.Perm.eq_of_pairwise (fun _ _ _ _ => rankLe_antisymm)
    (ranking_pairwise_rankLe entries) (ranking_pairwise_rankLe entries') ?_
  refine (List.perm_ext_iff_of_nodup h.ranking.nodup.of_map h'.ranking.nodup.of_map).mpr ?_
  intro p
  rw [h.ranking.mem_iff, h'.ranking.mem_iff]

/-! ## The first places -/

theorem Lists.mem_topOf (h : Lists entries ticks) {p : String × Nat} (hp : p ∈ topOf entries n) :
    p.1 ∈ Tick.symbolsOf ticks ∧ p.2 = Tick.countOf ticks p.1 :=
  (h.ranking.mem_iff p).mp (List.mem_of_mem_take hp)

/-- A symbol that is not among the first comes after each of them. -/
theorem Lists.precedes_of_not_mem (h : Lists entries ticks) {p : String × Nat} {symbol : String}
    (hp : p ∈ topOf entries n) (hs : symbol ∈ Tick.symbolsOf ticks)
    (hout : symbol ∉ (topOf entries n).map (·.1)) :
    Precedes p (symbol, Tick.countOf ticks symbol) := by
  have hmem : (symbol, Tick.countOf ticks symbol) ∈ SymbolCounts.ranking entries :=
    (h.ranking.mem_iff _).mpr ⟨hs, rfl⟩
  have hsplit := h.ranking_pairwise
  rw [← List.take_append_drop n (SymbolCounts.ranking entries)] at hmem hsplit
  rcases List.mem_append.mp hmem with hfirst | hrest
  · exact absurd (List.mem_map_of_mem hfirst) hout
  · exact (List.pairwise_append.mp hsplit).2.2 p hp _ hrest

/-- **The busiest symbols come first**: of any ticks, in whatever order the table of their
counts lists its entries, the first `n` places are those of `n` different symbols, or of all
when there are fewer, each with the number of its ticks. Each place precedes those behind it,
by the count and then by the symbol, and precedes every symbol that is left out. One place more
adds one at the end, the counts of all places add up to the number of ticks, and the same ticks
in another order, with the entries listed in another order, give the same places. -/
theorem busiest_first (ticks : List Tick) {entries : List (String × Nat)}
    (hentries : entries.Perm (ofTicks ticks).counts.toList) :
    (∀ n, (topOf entries n).length = min n (Tick.symbolsOf ticks).card) ∧
    (∀ n, ∀ p ∈ topOf entries n,
      p.1 ∈ Tick.symbolsOf ticks ∧ p.2 = Tick.countOf ticks p.1) ∧
    (∀ n, (topOf entries n).Pairwise Precedes) ∧
    (∀ n, ∀ p ∈ topOf entries n, ∀ symbol ∈ Tick.symbolsOf ticks,
      symbol ∉ (topOf entries n).map (·.1) →
        Precedes p (symbol, Tick.countOf ticks symbol)) ∧
    (∀ n, topOf entries n <+: topOf entries (n + 1)) ∧
    (∀ n, (Tick.symbolsOf ticks).card ≤ n →
      ((topOf entries n).map (·.2)).sum = ticks.length) ∧
    (∀ n, (ofTicks ticks).top n = topOf entries n) ∧
    ∀ ticks' entries', ticks'.Perm ticks → entries'.Perm (ofTicks ticks').counts.toList →
      ∀ n, topOf entries' n = topOf entries n := by
  have htallies := tallies_ofTicks ticks
  have h := htallies.lists hentries
  have hall := htallies.lists (.refl _)
  have htop : ∀ n, (ofTicks ticks).top n = topOf entries n := fun n => by
    rw [top, topOf_eq, topOf_eq, hall.ranking_eq h]
  refine ⟨fun n => ?_, fun n p hp => h.mem_topOf hp, fun n => ?_,
    fun n p hp symbol hs hout => h.precedes_of_not_mem hp hs hout, fun n => ?_, fun n hn => ?_,
    htop, fun ticks' entries' hticks hentries' n => ?_⟩
  · rw [topOf_eq, List.length_take, h.ranking.length_eq]
  · exact h.ranking_pairwise.sublist (List.take_sublist _ _)
  · exact List.take_prefix_take_left (Nat.le_succ n)
  · rw [← htop]
    exact htallies.sum_top (by rwa [← Std.TreeMap.length_toList, hall.length_eq])
  · have h' := ((tallies_ofTicks ticks').lists hentries').perm (.refl _) hticks.symm
    rw [topOf_eq, topOf_eq, h'.ranking_eq h]

/-- Two symbols have as many ticks as each other and the table lists the later one first; a
third one, with fewer ticks, is left out. -/
theorem busiest_first_tied :
    let ticks := ["TCS", "SBIN", "TCS", "INFY", "SBIN"].map fun symbol =>
      (⟨symbol, .nse, 0, 0, 0, 0, 0, 0, 0, 1⟩ : Tick)
    let entries := [("TCS", 2), ("INFY", 1), ("SBIN", 2)]
    entries.Perm (ofTicks ticks).counts.toList ∧
      topOf entries 2 = [("SBIN", 2), ("TCS", 2)] ∧
      Precedes ("TCS", 2) ("INFY", Tick.countOf ticks "INFY") := by
  intro ticks entries
  have hentries : entries.Perm (ofTicks ticks).counts.toList := by
    have hcounts : (ofTicks ticks).counts.toList = [("INFY", 1), ("SBIN", 2), ("TCS", 2)] := by
      decide +kernel
    rw [hcounts]
    decide
  have hranking : ranking entries = [("SBIN", 2), ("TCS", 2), ("INFY", 1)] := by
    refine List.Perm.eq_of_pairwise (fun _ _ _ _ => rankLe_antisymm) (ranking_pairwise_rankLe _)
      (by decide) ((List.mergeSort_perm _ _).trans (by decide))
  have htop : topOf entries 2 = [("SBIN", 2), ("TCS", 2)] := by
    rw [topOf_eq, hranking]
    rfl
  have hlisted : ("TCS", 2) ∈ topOf entries 2 := by
    rw [htop]
    decide
  have hout : "INFY" ∉ (topOf entries 2).map (·.1) := by
    rw [htop]
    decide
  obtain ⟨-, -, -, hlast, -⟩ := busiest_first ticks hentries
  exact ⟨hentries, htop, hlast 2 _ hlisted "INFY" (by decide +kernel) hout⟩

end SymbolCounts

end TickFeed
