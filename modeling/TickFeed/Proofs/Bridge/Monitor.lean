import Mathlib.Data.Nat.Count
import TickFeed.Bridge.Pressure

/-! # Monitors of queue pressure

A monitor is shown a queue again and again. What it knows after some looks is what these
looks were: the band that it has is that of the last one, and it has counted those that found
the queue critical after one that did not (`Follows`). One more look keeps this
(`Follows.observe`), so it holds all along a run, in which exactly the looks that find another
band than the one before are answered with it (`follows_queue`). -/

namespace TickFeed

namespace BandThresholds

variable (t : BandThresholds) (looks : List (Nat × Nat))

/-- The band at a look, counted from one, by the lengths and capacities that the looks find.
A queue that was not looked at yet counts as normal. -/
def bandAt : Nat → PressureBand
  | 0 => .normal
  | k + 1 => looks[k]?.elim .normal fun look => t.classify look.1 look.2

/-- The look after the `k`-th one finds the queue critical, and the `k`-th one did not. -/
def Enters (k : Nat) : Prop :=
  t.bandAt looks (k + 1) = .critical ∧ t.bandAt looks k ≠ .critical

instance : DecidablePred (t.Enters looks) := fun _ => inferInstanceAs (Decidable (_ ∧ _))

/-- The band at the look after the `k`-th one, if it is another than at the `k`-th one. -/
def change? (k : Nat) : Option PressureBand :=
  if t.bandAt looks (k + 1) = t.bandAt looks k then none else some (t.bandAt looks (k + 1))

end BandThresholds

namespace BandMonitor

def start (t : BandThresholds) : BandMonitor := { thresholds := t }

def after (m : BandMonitor) (looks : List (Nat × Nat)) : BandMonitor :=
  looks.foldl (fun m look => (m.observe look.1 look.2).1) m

/-- The answers to some looks, in their order. -/
def answers (m : BandMonitor) : List (Nat × Nat) → List (Option PressureBand)
  | [] => []
  | look :: looks => (m.observe look.1 look.2).2 :: (m.observe look.1 look.2).1.answers looks

variable {m : BandMonitor} {t : BandThresholds} {looks : List (Nat × Nat)} {k : Nat}

/-! ## One look -/

/-- A monitor is at the `k`-th of the looks. -/
structure Follows (m : BandMonitor) (t : BandThresholds) (looks : List (Nat × Nat)) (k : Nat) :
    Prop where
  thresholds : m.thresholds = t
  current : m.current = t.bandAt looks k
  episodes : m.criticalEpisodes = Nat.count (t.Enters looks) k

theorem follows_start (t : BandThresholds) (looks : List (Nat × Nat)) :
    (start t).Follows t looks 0 := ⟨rfl, rfl, (Nat.count_zero _).symm⟩

/-- One more look is answered with what it changes, and the monitor is at it then. -/
theorem Follows.observe {look : Nat × Nat} (h : m.Follows t looks k)
    (hlook : looks[k]? = some look) :
    (m.observe look.1 look.2).1.Follows t looks (k + 1) ∧
      (m.observe look.1 look.2).2 = t.change? looks k := by
  have hband : m.thresholds.classify look.1 look.2 = t.bandAt looks (k + 1) := by
    rw [h.thresholds, BandThresholds.bandAt, hlook, Option.elim_some]
  by_cases hsame : t.bandAt looks (k + 1) = t.bandAt looks k
  · have hobserve : m.observe look.1 look.2 = (m, none) := by
      rw [BandMonitor.observe, hband, h.current, if_pos hsame]
    have hstays : ¬ t.Enters looks k := fun henters => henters.2 (hsame ▸ henters.1)
    rw [hobserve, BandThresholds.change?, if_pos hsame]
    refine ⟨⟨h.thresholds, h.current.trans hsame.symm, ?_⟩, rfl⟩
    rw [h.episodes, Nat.count_succ, if_neg hstays, Nat.add_zero]
  · -- a look that changes the band to critical did not find the queue critical before
    have henters : t.Enters looks k ↔ t.bandAt looks (k + 1) = .critical :=
      ⟨And.left, fun hcritical => ⟨hcritical, fun hbefore => hsame (hcritical.trans hbefore.symm)⟩⟩
    have hobserve : m.observe look.1 look.2 =
        ({ m with
            current := t.bandAt looks (k + 1)
            criticalEpisodes := m.criticalEpisodes +
              if t.bandAt looks (k + 1) = .critical then 1 else 0 },
          some (t.bandAt looks (k + 1))) := by
      rw [BandMonitor.observe, hband, h.current, if_neg hsame]
    rw [hobserve, BandThresholds.change?, if_neg hsame]
    refine ⟨⟨h.thresholds, rfl, ?_⟩, rfl⟩
    simp only [h.episodes, Nat.count_succ, henters]

/-! ## Runs -/

theorem after_append (m : BandMonitor) (before looks : List (Nat × Nat)) :
    m.after (before ++ looks) = (m.after before).after looks := List.foldl_append

/-- Each look is answered by the monitor as the looks before it have left it. -/
theorem getElem?_answers (m : BandMonitor) (looks : List (Nat × Nat)) (k : Nat) :
    (m.answers looks)[k]? =
      looks[k]?.map fun look => ((m.after (looks.take k)).observe look.1 look.2).2 := by
  induction looks generalizing m k with
  | nil => rfl
  | cons look looks ih =>
    cases k with
    | zero => rfl
    | succ k => exact ih _ k

/-- All along a run of looks the monitor is at the last of them. -/
theorem follows_after (t : BandThresholds) (hk : k ≤ looks.length) :
    ((start t).after (looks.take k)).Follows t looks k := by
  induction k with
  | zero => exact follows_start t looks
  | succ k ih =>
    rw [← List.take_append_getElem hk, after_append]
    exact ((ih (Nat.le_of_lt hk)).observe (List.getElem?_eq_getElem hk)).1

theorem answers_start (t : BandThresholds) (looks : List (Nat × Nat)) :
    (start t).answers looks = (List.range looks.length).map (t.change? looks) := by
  refine List.ext_getElem? fun k => ?_
  rw [getElem?_answers, List.getElem?_map]
  by_cases hk : k < looks.length
  · have hlook := List.getElem?_eq_getElem hk
    rw [hlook, List.getElem?_range hk, Option.map_some, Option.map_some,
      ((follows_after t (Nat.le_of_lt hk)).observe hlook).2]
  · rw [List.getElem?_eq_none (Nat.le_of_not_lt hk), List.getElem?_eq_none]
    · rfl
    · rw [List.length_range]
      exact Nat.le_of_not_lt hk

/-- **A monitor follows its queue**: whatever the thresholds and the looks, each look is
answered with its band if this is another one than at the look before (normal, before the
first one) and with nothing otherwise. After `k` looks the monitor has the band of the `k`-th
one, and its critical episodes are as many as those of them that find the queue critical where
the look before did not. -/
theorem follows_queue (t : BandThresholds) (looks : List (Nat × Nat)) :
    (start t).answers looks = (List.range looks.length).map (fun k =>
      if t.bandAt looks (k + 1) = t.bandAt looks k then none
      else some (t.bandAt looks (k + 1))) ∧
    ∀ k ≤ looks.length,
      ((start t).after (looks.take k)).current = t.bandAt looks k ∧
      ((start t).after (looks.take k)).criticalEpisodes = Nat.count (t.Enters looks) k := by
  refine ⟨answers_start t looks, fun k hk => ?_⟩
  have hfollows := follows_after t hk
  exact ⟨hfollows.current, hfollows.episodes⟩

/-- The queue becomes critical from normal, stays so, and does again after a warning. -/
theorem follows_queue_twice_critical :
    ((start {}).after ([(99, 100), (100, 100), (90, 100), (96, 100)].take 4)).criticalEpisodes =
      2 :=
  ((follows_queue {} [(99, 100), (100, 100), (90, 100), (96, 100)]).2 4
    (by decide)).2.trans (by decide +kernel)

end BandMonitor

end TickFeed
