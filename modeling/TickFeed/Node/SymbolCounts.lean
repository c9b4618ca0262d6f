import Std.Data.TreeMap
import TickFeed.Tick.Basic

/-! # Ticks by symbol

How many ticks there were of each symbol, and which symbols have the most. -/

namespace TickFeed

structure SymbolCounts where
  counts : Std.TreeMap String Nat

namespace SymbolCounts

def name : String := "metrics-sink"

def empty : SymbolCounts := ⟨∅⟩

def count (c : SymbolCounts) (tick : Tick) : SymbolCounts :=
  ⟨c.counts.insert tick.symbol (c.counts[tick.symbol]?.getD 0 + 1)⟩

/-- Whether one symbol ranks before another, or is the same: by the count, the
highest first, and then by the symbol. -/
def rankLe (a b : String × Nat) : Bool := b.2 < a.2 || (a.2 = b.2 && a.1 ≤ b.1)

/-- The first `n` of the entries of a table, which can be listed in any order. -/
def topOf (entries : List (String × Nat)) (n : Nat) : List (String × Nat) :=
  (entries.mergeSort rankLe).take n

/-- The `n` symbols with the most ticks, and how many each has. -/
def top (c : SymbolCounts) (n : Nat) : List (String × Nat) := topOf c.counts.toList n

theorem rankLe_total (a b : String × Nat) : rankLe a b || rankLe b a := by
  obtain ⟨s, m⟩ := a
  obtain ⟨t, n⟩ := b
  simp only [rankLe, Bool.or_eq_true, decide_eq_true_eq, Bool.and_eq_true]
  rcases Nat.lt_trichotomy m n with h | h | h
  · exact .inr (.inl h)
  · rcases String.le_total s t with hs | hs
    · exact .inl (.inr ⟨h, hs⟩)
    · exact .inr (.inr ⟨h.symm, hs⟩)
  · exact .inl (.inl h)

theorem rankLe_trans (a b c : String × Nat) : rankLe a b → rankLe b c → rankLe a c := by
  simp only [rankLe, Bool.or_eq_true, decide_eq_true_eq, Bool.and_eq_true]
  rintro (h | ⟨h, hs⟩) (h' | ⟨h', hs'⟩)
  · exact .inl (by omega)
  · exact .inl (by omega)
  · exact .inl (by omega)
  · exact .inr ⟨by omega, String.le_trans hs hs'⟩

end SymbolCounts

end TickFeed
