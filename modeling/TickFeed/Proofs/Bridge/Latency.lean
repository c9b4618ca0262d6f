import TickFeed.Bridge.Latency
import TickFeed.Proofs.Binary64.Order

/-! # Percentiles of the latest samples

A window holds the latest of the samples that were recorded, as many as it has room for
(`Holds`); one more sample keeps this, so it holds after all of them. What a percentile answers
is found in any sorted list of these samples (`Holds.percentile_eq`), at a place that is rounded
several times but grows with the percentage (`rank_mono`). The place is exact at the ends and in
the middle as long as it is a double, which up to `2 ^ 53` is every place. -/

namespace TickFeed.LatencyWindow

open Binary64 (unitsPerOne unitsPerOne_pos Fits wholeUnits fits_one fits_hundred hundred_eq
  hundred_pos)

def recordAll (w : LatencyWindow) (samples : List UInt64) : LatencyWindow :=
  samples.foldl record w

/-- The latest of the samples, as many as a window of this size has room for; there is room for
one at least. -/
def latest (size : ℕ) (samples : List UInt64) : List UInt64 :=
  samples.drop (samples.length - max size 1)

variable {w start : LatencyWindow} {size : ℕ} {samples l : List UInt64}

/-! ## What a window holds -/

/-- The window has room for as many samples as its size says, and holds the latest of these, the
last one first. -/
structure Holds (w : LatencyWindow) (size : ℕ) (samples : List UInt64) : Prop where
  size_lt : size < sizeLimit
  room : w.size = max size 1
  held : w.samples = (latest size samples).reverse

theorem reverse_latest (size : ℕ) (samples : List UInt64) :
    (latest size samples).reverse = samples.reverse.take (max size 1) := by
  rw [latest, List.take_reverse]

theorem holds_of_ofSize? (h : ofSize? size = some start) : start.Holds size [] := by
  unfold ofSize? at h
  split at h
  · next hlt =>
    obtain rfl := Option.some.inj h
    exact ⟨hlt, rfl, by rw [reverse_latest, List.reverse_nil, List.take_nil]⟩
  · cases h

theorem Holds.record (h : w.Holds size samples) (sample : UInt64) :
    (w.record sample).Holds size (samples ++ [sample]) := by
  obtain ⟨others, hroom⟩ : ∃ others, max size 1 = others + 1 :=
    Nat.exists_eq_add_of_le' (Nat.le_max_right size 1)
  refine ⟨h.size_lt, h.room, ?_⟩
  rw [LatencyWindow.record, h.room, h.held, reverse_latest, reverse_latest, List.reverse_append,
    List.reverse_singleton, List.singleton_append, hroom, List.take_succ_cons,
    List.take_succ_cons, List.take_take, Nat.min_eq_left (Nat.le_succ others)]

theorem Holds.recordAll (h : w.Holds size samples) (more : List UInt64) :
    (w.recordAll more).Holds size (samples ++ more) := by
  induction more generalizing w samples with
  | nil =>
    rw [List.append_nil]
    exact h
  | cons sample more ih =>
    have hmore := ih (h.record sample)
    rwa [List.append_assoc, List.singleton_append] at hmore

theorem holds_recordAll (h : ofSize? size = some start) (samples : List UInt64) :
    (start.recordAll samples).Holds size samples := by
  have hall := (holds_of_ofSize? h).recordAll samples
  rwa [List.nil_append] at hall

theorem length_latest (size : ℕ) (samples : List UInt64) :
    (latest size samples).length = min samples.length (max size 1) := by
  rw [latest, List.length_drop]
  omega

theorem Holds.length_le (h : w.Holds size samples) : (latest size samples).length ≤ 2 ^ 60 := by
  have hsize : size < 2 ^ 60 := h.size_lt
  rw [length_latest]
  omega

theorem latest_eq_nil_iff : latest size samples = [] ↔ samples = [] := by
  rw [← List.length_eq_zero_iff, length_latest, ← List.length_eq_zero_iff]
  omega

/-! ## Sorted samples -/

theorem mergeSort_sorted (samples : List UInt64) :
    (samples.mergeSort (· ≤ ·)).Perm samples ∧ (samples.mergeSort (· ≤ ·)).Pairwise (· ≤ ·) := by
  refine ⟨List.mergeSort_perm _ _, ?_⟩
  have hsorted := @List.pairwise_mergeSort UInt64 (fun a b => decide (a ≤ b))
    (by simpa using fun _ _ _ => UInt64.le_trans) (by simpa using UInt64.le_total) samples
  simpa using hsorted

theorem exists_least (hl : l.Perm samples) (hsorted : l.Pairwise (· ≤ ·)) (hne : samples ≠ []) :
    ∃ s ∈ samples, (∀ other ∈ samples, s ≤ other) ∧ l[0]? = some s := by
  cases l with
  | nil => exact absurd hl.nil_eq.symm hne
  | cons least l =>
    refine ⟨least, hl.subset List.mem_cons_self, fun other hother => ?_, rfl⟩
    rcases List.mem_cons.mp (hl.mem_iff.mpr hother) with rfl | hother
    · exact UInt64.le_refl _
    · exact List.rel_of_pairwise_cons hsorted hother

theorem exists_greatest (hl : l.Perm samples) (hsorted : l.Pairwise (· ≤ ·))
    (hne : samples ≠ []) :
    ∃ s ∈ samples, (∀ other ∈ samples, other ≤ s) ∧ l[l.length - 1]? = some s := by
  rcases List.eq_nil_or_concat' l with rfl | ⟨l, greatest, rfl⟩
  · exact absurd hl.nil_eq.symm hne
  · have hlast := List.mem_singleton_self greatest
    refine ⟨greatest, hl.subset (List.mem_append_right l hlast), fun other hother => ?_, by simp⟩
    rcases List.mem_append.mp (hl.mem_iff.mpr hother) with hother | hother
    · exact (List.pairwise_append.mp hsorted).2.2 other hother greatest hlast
    · rw [List.mem_singleton.mp hother]
      exact UInt64.le_refl _

theorem getElem?_le_of_sorted {i j : ℕ} {a b : UInt64} (hsorted : l.Pairwise (· ≤ ·))
    (h : i ≤ j) (ha : l[i]? = some a) (hb : l[j]? = some b) : a ≤ b := by
  obtain ⟨hi, rfl⟩ := List.getElem?_eq_some_iff.mp ha
  obtain ⟨hj, rfl⟩ := List.getElem?_eq_some_iff.mp hb
  rcases Nat.eq_or_lt_of_le h with rfl | hlt
  · exact UInt64.le_refl _
  · exact List.pairwise_iff_getElem.mp hsorted i j hi hj hlt

/-! ## Places of percentages -/

variable {p q count : ℕ}

/-- The place before it is cut to a whole number. -/
def place (percent count : ℕ) : Binary64 := Binary64.ofNat percent / 100 * .ofNat (count - 1)

theorem rank_eq (p count : ℕ) :
    rank p count = min ((place p count).truncate (2 ^ 64 - 1)) (count - 1) := rfl

theorem exists_ofNat_pred (hlarge : 1 < count) (hsmall : count ≤ 2 ^ 64) : ∃ v fits,
    Binary64.ofNat (count - 1) = .finite false v fits ∧ 0 < v := by
  obtain ⟨fits, hv, -⟩ := @Binary64.exists_ofNat_eq (count - 1) (by omega)
  exact ⟨_, fits, hv, unitsPerOne_pos.trans_le (Binary64.unitsPerOne_le_wholeUnits (by omega))⟩

/-- The place grows with the percentage. -/
theorem rank_mono (hcount : count ≤ 2 ^ 64) (h : p ≤ q) : rank p count ≤ rank q count := by
  rcases Nat.lt_or_ge 1 count with hlarge | hone
  · obtain ⟨v, fits, hv, hpos⟩ := exists_ofNat_pred hlarge hcount
    have hpercent := (Binary64.unsigned_ofNat p).div_le_div (Binary64.unsigned_ofNat q)
      fits_hundred hundred_pos (Binary64.ofNat_le_ofNat h)
    have hp := (Binary64.unsigned_ofNat p).div fits_hundred hundred_pos
    have hq := (Binary64.unsigned_ofNat q).div fits_hundred hundred_pos
    have hplace : (place p count).truncate (2 ^ 64 - 1) ≤
        (place q count).truncate (2 ^ 64 - 1) := by
      rw [place, place, hv, hundred_eq]
      exact (hp.mul fits hpos).truncate_le_truncate (hq.mul fits hpos) _
        (hp.mul_le_mul hq fits hpos hpercent)
    rw [rank_eq, rank_eq]
    exact min_le_min_right _ hplace
  · have hle := rank_le p count
    omega

/-- A percentage whose hundredth is a double, where its product with the last place is one. -/
theorem rank_eq_of_fits {u v w : ℕ} (hp : p ≤ 2 ^ 53) (hu : Fits u) (hv : Fits v) (hw : Fits w)
    (hhundredth : p * unitsPerOne = u * 100)
    (hlast : Binary64.ofNat (count - 1) = .finite false v hv)
    (hproduct : u * v = w * unitsPerOne) :
    rank p count = min (min (2 ^ 64 - 1) (w / unitsPerOne)) (count - 1) := by
  have hquotient : Binary64.ofNat p / 100 = .finite false u hu := by
    have hexact : p * unitsPerOne * unitsPerOne = u * (100 * unitsPerOne) := by
      rw [hhundredth, Nat.mul_assoc]
    rw [Binary64.ofNat_eq hp, hundred_eq, Binary64.div_eq _ _ hundred_pos.ne', hexact,
      Binary64.ofUnits_of_fits false hundred_pos hu]
  rw [rank_eq, place, hquotient, hlast, Binary64.mul_eq, hproduct,
    Binary64.ofUnits_of_fits false unitsPerOne_pos hw, Binary64.truncate_eq]

theorem rank_zero (hcount : count ≤ 2 ^ 64) : rank 0 count = 0 := by
  rcases Nat.eq_zero_or_pos count with rfl | hpos
  · exact Nat.le_zero.mp (rank_le 0 0)
  · obtain ⟨fits, hlast, -⟩ := @Binary64.exists_ofNat_eq (count - 1) (by omega)
    have hrank := rank_eq_of_fits (Nat.zero_le _) Binary64.fits_zero fits Binary64.fits_zero
      (by rw [Nat.zero_mul, Nat.zero_mul]) hlast (by rw [Nat.zero_mul, Nat.zero_mul])
    rw [hrank, Nat.zero_div, Nat.min_zero, Nat.zero_min]

/-- Half way between the ends, or just below. -/
theorem rank_fifty (hcount : count ≤ 2 ^ 53 + 1) : rank 50 count = (count - 1) / 2 := by
  have hplaces : count - 1 ≤ 2 ^ 53 := by omega
  obtain ⟨u, hu, hhalf⟩ := Binary64.exists_quotient (by decide : 1 ≤ 2 ^ 53)
    (by decide : 1073 + 1 = 1074)
  obtain ⟨w, hw, hmiddle⟩ := Binary64.exists_quotient hplaces (by decide : 1073 + 1 = 1074)
  rw [Nat.pow_one] at hhalf hmiddle
  have hproduct : u * ((count - 1) * unitsPerOne) = w * unitsPerOne := by
    refine Nat.eq_of_mul_eq_mul_right Nat.two_pos ?_
    rw [Nat.mul_right_comm, Nat.mul_right_comm w, hhalf, hmiddle, Nat.one_mul, Nat.mul_comm]
  have hquotient : w / unitsPerOne = (count - 1) / 2 := by
    rw [← Nat.mul_div_mul_right w unitsPerOne Nat.two_pos, hmiddle, Nat.mul_comm unitsPerOne 2,
      Nat.mul_div_mul_right _ _ unitsPerOne_pos]
  rw [rank_eq_of_fits (by decide) hu (Binary64.fits_whole hplaces) hw (by omega)
    (Binary64.ofNat_eq hplaces) hproduct, hquotient]
  omega

/-- From a hundred percent on the place is the last one. -/
theorem rank_of_hundred_le (hcount : count ≤ 2 ^ 53 + 1) (h : 100 ≤ p) :
    rank p count = count - 1 := by
  have hplaces : count - 1 ≤ 2 ^ 53 := by omega
  have hhundred : rank 100 count = count - 1 := by
    rw [rank_eq_of_fits (by decide) fits_one (Binary64.fits_whole hplaces)
      (Binary64.fits_whole hplaces) (Nat.mul_comm _ _) (Binary64.ofNat_eq hplaces)
      (Nat.mul_comm _ _), Nat.mul_div_cancel _ unitsPerOne_pos]
    omega
  refine Nat.le_antisymm (rank_le p count) ?_
  rw [← hhundred]
  exact rank_mono (by omega) h

/-! ## Percentiles -/

/-- A percentile is found at its place in the samples that the window holds, once they are
sorted. -/
theorem Holds.percentile_eq (h : w.Holds size samples) (hl : l.Perm (latest size samples))
    (hsorted : l.Pairwise (· ≤ ·)) (p : ℕ) :
    w.percentile p = l[rank p (latest size samples).length]? := by
  obtain ⟨hperm, hheld⟩ := mergeSort_sorted w.samples
  have hsame : (w.samples.mergeSort (· ≤ ·)).Perm l := by
    refine hperm.trans ?_
    rw [h.held]
    exact (List.reverse_perm _).trans hl.symm
  have heq : w.samples.mergeSort (· ≤ ·) = l :=
    hsame.eq_of_pairwise (fun _ _ _ _ => UInt64.le_antisymm) hheld hsorted
  rw [percentile, heq, h.held, List.length_reverse]

/-- A place is always below the number of samples. -/
theorem Holds.percentile_eq_none_iff (h : w.Holds size samples) :
    w.percentile p = none ↔ samples = [] := by
  obtain ⟨hperm, hsorted⟩ := mergeSort_sorted (latest size samples)
  rw [h.percentile_eq hperm hsorted, List.getElem?_eq_none_iff, hperm.length_eq,
    ← @latest_eq_nil_iff size, ← List.length_eq_zero_iff]
  have hle := rank_le p (latest size samples).length
  omega

theorem Holds.mem_of_percentile {s : UInt64} (h : w.Holds size samples)
    (hs : w.percentile p = some s) : s ∈ latest size samples := by
  obtain ⟨hperm, hsorted⟩ := mergeSort_sorted (latest size samples)
  rw [h.percentile_eq hperm hsorted] at hs
  exact hperm.subset (List.mem_of_getElem? hs)

theorem Holds.percentile_le {a b : UInt64} (h : w.Holds size samples) (hpq : p ≤ q)
    (ha : w.percentile p = some a) (hb : w.percentile q = some b) : a ≤ b := by
  obtain ⟨hperm, hsorted⟩ := mergeSort_sorted (latest size samples)
  rw [h.percentile_eq hperm hsorted] at ha hb
  exact getElem?_le_of_sorted hsorted (rank_mono (h.length_le.trans (by decide)) hpq) ha hb

theorem Holds.percentile_zero (h : w.Holds size samples) (hne : samples ≠ []) :
    ∃ s ∈ latest size samples, (∀ other ∈ latest size samples, s ≤ other) ∧
      w.percentile 0 = some s := by
  obtain ⟨hperm, hsorted⟩ := mergeSort_sorted (latest size samples)
  obtain ⟨s, hs, hleast, hfirst⟩ := exists_least hperm hsorted (latest_eq_nil_iff.not.mpr hne)
  refine ⟨s, hs, hleast, ?_⟩
  rw [h.percentile_eq hperm hsorted, rank_zero (h.length_le.trans (by decide)), hfirst]

/-- The samples, of eight bytes each, fit the address space of a program, which has 56 bits.
Beyond that a place is no double any more. -/
def Addressable (samples : List UInt64) : Prop := 8 * samples.length ≤ 2 ^ 56

instance (samples : List UInt64) : Decidable (Addressable samples) := Nat.decLe _ _

theorem Addressable.length_le (h : Addressable samples) : samples.length ≤ 2 ^ 53 + 1 := by
  unfold Addressable at h
  omega

theorem Holds.percentile_of_hundred_le (h : w.Holds size samples) (hne : samples ≠ [])
    (hfits : Addressable (latest size samples)) :
    ∃ s ∈ latest size samples, (∀ other ∈ latest size samples, other ≤ s) ∧
      ∀ p, 100 ≤ p → w.percentile p = some s := by
  obtain ⟨hperm, hsorted⟩ := mergeSort_sorted (latest size samples)
  obtain ⟨s, hs, hgreatest, hlast⟩ :=
    exists_greatest hperm hsorted (latest_eq_nil_iff.not.mpr hne)
  refine ⟨s, hs, hgreatest, fun p hp => ?_⟩
  rw [h.percentile_eq hperm hsorted, rank_of_hundred_le hfits.length_le hp, ← hperm.length_eq,
    hlast]

theorem Holds.percentile_fifty (h : w.Holds size samples)
    (hfits : Addressable (latest size samples)) (hl : l.Perm (latest size samples))
    (hsorted : l.Pairwise (· ≤ ·)) : w.percentile 50 = l[(l.length - 1) / 2]? := by
  rw [h.percentile_eq hl hsorted, rank_fifty hfits.length_le, hl.length_eq]

/-- The order in which the samples came does not count. -/
theorem Holds.percentile_congr {w' : LatencyWindow} {size' : ℕ} {samples' : List UInt64}
    (h : w.Holds size samples) (h' : w'.Holds size' samples')
    (hsame : (latest size' samples').Perm (latest size samples)) (p : ℕ) :
    w'.percentile p = w.percentile p := by
  obtain ⟨hperm, hsorted⟩ := mergeSort_sorted (latest size samples)
  rw [h.percentile_eq hperm hsorted, h'.percentile_eq (hperm.trans hsame.symm) hsorted,
    hsame.length_eq]

/-- **Percentiles are those of the latest samples**, as many as the window has room for, whatever
its size and however many were recorded. Without samples there is none; otherwise each percentage
answers one of them, zero percent the least, and a larger percentage no smaller one. As long as
the samples are no more than a program can address, a hundred percent and more answer the
greatest, and fifty percent the lower one of the middle. The order of the samples does not count:
windows that hold the same ones, each as often, have the same percentiles. -/
theorem percentile_of_latest (hsize : ofSize? size = some start) (samples : List UInt64) :
    let w := start.recordAll samples
    let held := latest size samples
    held <:+ samples ∧ held.length = min samples.length (max size 1) ∧
    (∀ p, w.percentile p = none ↔ samples = []) ∧
    (∀ p s, w.percentile p = some s → s ∈ held) ∧
    (samples ≠ [] → ∃ s ∈ held, (∀ other ∈ held, s ≤ other) ∧ w.percentile 0 = some s) ∧
    (∀ p q a b, p ≤ q → w.percentile p = some a → w.percentile q = some b → a ≤ b) ∧
    (Addressable held →
      (samples ≠ [] → ∃ s ∈ held, (∀ other ∈ held, other ≤ s) ∧
        ∀ p, 100 ≤ p → w.percentile p = some s) ∧
      ∀ l : List UInt64, l.Perm held → l.Pairwise (· ≤ ·) →
        w.percentile 50 = l[(l.length - 1) / 2]?) ∧
    ∀ size' start' samples', ofSize? size' = some start' → (latest size' samples').Perm held →
      ∀ p, (start'.recordAll samples').percentile p = w.percentile p := by
  intro w held
  have h : w.Holds size samples := holds_recordAll hsize samples
  refine ⟨List.drop_suffix _ _, length_latest size samples, fun p => h.percentile_eq_none_iff,
    fun p s => h.mem_of_percentile, h.percentile_zero, fun p q a b => h.percentile_le,
    fun hfits => ⟨fun hne => h.percentile_of_hundred_le hne hfits, fun l hl hsorted => ?_⟩,
    fun size' start' samples' hsize' hsame p => ?_⟩
  · exact h.percentile_fifty hfits hl hsorted
  · exact h.percentile_congr (holds_recordAll hsize' samples') hsame p

/-- The first sample has left the window when the fourth one came. -/
theorem percentile_of_latest_three :
    ((⟨3, []⟩ : LatencyWindow).recordAll [10, 40, 20, 30]).percentile 50 = some 30 := by
  obtain ⟨-, -, -, -, -, -, hmiddle, -⟩ :=
    @percentile_of_latest ⟨3, []⟩ 3 (by decide) [10, 40, 20, 30]
  exact (hmiddle (by decide)).2 [20, 30, 40] (by decide) (by decide)

end TickFeed.LatencyWindow
