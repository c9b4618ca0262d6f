import Mathlib.Algebra.BigOperators.Group.List.Lemmas
import Mathlib.Algebra.GroupWithZero.Nat
import TickFeed.Node.SymbolCounts

/-! # The ticks that were counted

Counts tally with the ticks that were counted one by one (`Tallies`): a symbol is there
from its first tick on, with the number of its ticks. When no symbol is left out, the
ranking is just another order of the counts, so it lists each symbol with that number,
and the numbers add up to the number of ticks. -/

namespace TickFeed

def Tick.countOf (ticks : List Tick) (symbol : String) : Nat :=
  (ticks.map Tick.symbol).count symbol

theorem Tick.countOf_concat (ticks : List Tick) (tick : Tick) (symbol : String) :
    countOf (ticks ++ [tick]) symbol =
      countOf ticks symbol + if tick.symbol = symbol then 1 else 0 := by
  rw [countOf, List.map_append, List.count_append, List.map_singleton, List.count_singleton]
  simp only [beq_iff_eq, countOf]

namespace SymbolCounts

/-- The counts are those of these ticks. -/
def Tallies (c : SymbolCounts) (ticks : List Tick) : Prop :=
  ∀ symbol n, c.counts[symbol]? = some n ↔ 0 < n ∧ n = Tick.countOf ticks symbol

theorem Tallies.empty : SymbolCounts.empty.Tallies [] := by
  intro symbol n
  show (∅ : Std.TreeMap String Nat)[symbol]? = some n ↔ 0 < n ∧ n = 0
  simp
  omega

variable {c : SymbolCounts} {ticks : List Tick}

theorem Tallies.getD (h : c.Tallies ticks) (symbol : String) :
    c.counts[symbol]?.getD 0 = Tick.countOf ticks symbol := by
  cases hs : c.counts[symbol]? with
  | some n => exact ((h symbol n).mp hs).2
  | none =>
    by_contra hne
    have hpos : 0 < Tick.countOf ticks symbol := Nat.pos_of_ne_zero (Ne.symm hne)
    rw [(h symbol _).mpr ⟨hpos, rfl⟩] at hs
    cases hs

theorem Tallies.count (h : c.Tallies ticks) (tick : Tick) :
    (c.count tick).Tallies (ticks ++ [tick]) := by
  intro symbol n
  have hold := h symbol n
  rw [SymbolCounts.count, h.getD, Std.TreeMap.getElem?_insert, Tick.countOf_concat]
  simp only [Std.LawfulEqCmp.compare_eq_iff_eq]
  by_cases hs : tick.symbol = symbol
  · subst hs
    rw [if_pos rfl, if_pos rfl, Option.some.injEq]
    omega
  · rw [if_neg hs, if_neg hs, hold, Nat.add_zero]

theorem top_perm {n : Nat} (h : c.counts.size ≤ n) : (c.top n).Perm c.counts.toList := by
  have hlength : (c.counts.toList.mergeSort rankLe).length ≤ n := by
    rw [List.length_mergeSort, Std.TreeMap.length_toList]
    exact h
  rw [top, topOf, List.take_of_length_le hlength]
  exact List.mergeSort_perm _ _

/-- Every symbol is listed with the number of its ticks. -/
theorem Tallies.mem_top (h : c.Tallies ticks) {n : Nat} (hn : c.counts.size ≤ n)
    (symbol : String) (k : Nat) :
    (symbol, k) ∈ c.top n ↔ 0 < k ∧ k = Tick.countOf ticks symbol := by
  rw [(top_perm hn).mem_iff, Std.TreeMap.mem_toList_iff_getElem?_eq_some]
  exact h symbol k

/-- The counts add up to the number of ticks. -/
theorem Tallies.sum_top (h : c.Tallies ticks) {n : Nat} (hn : c.counts.size ≤ n) :
    ((c.top n).map (·.2)).sum = ticks.length := by
  have hvalues : c.counts.toList.map (·.2) = c.counts.keys.map (Tick.countOf ticks) := by
    rw [← Std.TreeMap.map_fst_toList_eq_keys, List.map_map]
    refine List.map_congr_left fun p hp => ?_
    exact ((h p.1 p.2).mp (Std.TreeMap.mem_toList_iff_getElem?_eq_some.mp hp)).2
  have hkeys : c.counts.keys.Perm (ticks.map Tick.symbol).dedup := by
    refine (List.perm_ext_iff_of_nodup Std.TreeMap.nodup_keys (List.nodup_dedup _)).mpr ?_
    intro symbol
    rw [Std.TreeMap.mem_keys, Std.TreeMap.mem_iff_isSome_getElem?, Option.isSome_iff_exists,
      List.mem_dedup, ← List.count_pos_iff]
    constructor
    · rintro ⟨k, hk⟩
      obtain ⟨hpos, rfl⟩ := (h symbol k).mp hk
      exact hpos
    · intro hpos
      exact ⟨_, (h symbol _).mpr ⟨hpos, rfl⟩⟩
  calc ((c.top n).map (·.2)).sum
      = (c.counts.toList.map (·.2)).sum := ((top_perm hn).map _).sum_nat
    _ = (c.counts.keys.map (Tick.countOf ticks)).sum := by rw [hvalues]
    _ = ((ticks.map Tick.symbol).dedup.map (Tick.countOf ticks)).sum := (hkeys.map _).sum_nat
    _ = (ticks.map Tick.symbol).length := List.sum_map_count_dedup_eq_length _
    _ = ticks.length := List.length_map _

end SymbolCounts

end TickFeed
