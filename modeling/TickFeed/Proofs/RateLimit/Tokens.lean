import TickFeed.Proofs.Binary64.Rounding
import TickFeed.RateLimit.Run

/-! # Tokens without rounding

The tokens of a bucket are counted in units of a double, as a natural number. Taking a
whole number of them is exact: below `2 ^ 53` tokens every whole number is on the grid
of every double, so a granted attempt deducts what was asked for and no bit more.
`Takes` lists what can come of an attempt, and after `Sound.attempt_takes` no proof
unfolds one. Only a refill rounds, once, and its result is between what the bucket held
before and what it can hold (`Sound.refill`). -/

namespace TickFeed

/-- How many units a finite double is, whatever its sign. -/
def Binary64.units : Binary64 → Nat
  | .finite _ u _ => u
  | .infinite _ | .nan => 0

def tokenUnits (n : UInt32) : Nat := Binary64.unitsPerOne * n.toNat

theorem tokenUnits_mono {m n : UInt32} (h : m ≤ n) : tokenUnits m ≤ tokenUnits n :=
  Nat.mul_le_mul_left _ (UInt32.le_iff_toNat_le.mp h)

theorem tokenUnits_eq (n : UInt32) : tokenUnits n = n.toNat * Binary64.unitsPerOne :=
  Nat.mul_comm _ _

theorem tokenUnits_lt (n : UInt32) : tokenUnits n < 2 ^ 32 * Binary64.unitsPerOne := by
  rw [tokenUnits_eq]
  exact Nat.mul_lt_mul_of_pos_right n.toNat_lt Binary64.unitsPerOne_pos

theorem fits_tokenUnits (n : UInt32) : Binary64.Fits (tokenUnits n) := by
  rw [tokenUnits_eq]
  exact Binary64.fits_whole (Nat.le_of_lt (Nat.lt_trans n.toNat_lt (by decide)))

namespace Binary64

/-- What can come in: a finite amount that is not negative, or more than any bucket
holds. -/
theorem arrival_cases {x : Binary64} (h : le 0 x = true) :
    (∃ neg u hu, x = .finite neg u hu ∧ signed neg u = u) ∨ x = .infinite false := by
  rw [zero_eq] at h
  cases x with
  | finite neg u hu =>
    refine .inl ⟨neg, u, hu, rfl, ?_⟩
    cases neg with
    | false => rfl
    | true =>
      have hz : u = 0 := by simpa [le, lt, signed] using h
      rw [hz]
      rfl
  | infinite neg =>
    cases neg with
    | false => exact .inr rfl
    | true => cases h
  | nan => cases h

theorem add_arrival {u v : Nat} {neg : Bool} (hu : Fits u) (hv : Fits v) (h : signed neg v = v) :
    (.finite false u hu + .finite neg v hv : Binary64) = ofUnits false (u + v) 1 := by
  show add _ _ = _
  rw [add]
  split
  · rename_i h0
    have hz := ofUnits_of_fits false Nat.one_pos fits_zero
    rw [h0.1, h0.2]
    exact hz.symm
  · rw [h, ofSignedUnits]
    rfl

/-- The smaller of a double and a rounded sum; a sum that is too large is not it. -/
theorem min_ofUnits {c : Nat} (hc : Fits c) (num : Nat) :
    ∃ fits, Binary64.min (.finite false c hc) (ofUnits false num 1) =
      .finite false (Min.min c (roundUnits num 1)) fits := by
  by_cases h : (roundUnits num 1).log2 < 2098
  · have hlt : lt (.finite false (roundUnits num 1) (fits_roundUnits h)) (.finite false c hc) =
        decide (roundUnits num 1 < c) := by
      simp only [lt, signed, Bool.false_eq_true, if_false, Int.ofNat_lt]
    simp only [ofUnits_of_lt h, Binary64.min, hlt, decide_eq_true_eq]
    split
    · rename_i hless
      simp only [Nat.min_eq_right (Nat.le_of_lt hless)]
      exact ⟨fits_roundUnits h, trivial⟩
    · rename_i hmore
      simp only [Nat.min_eq_left (Nat.not_lt.mp hmore)]
      exact ⟨hc, trivial⟩
  · have hle : c ≤ roundUnits num 1 := by
      refine Nat.le_of_not_le fun hless => h ?_
      exact Nat.lt_of_le_of_lt (log2_mono hless) hc.1
    simp only [ofUnits, dif_neg h, Nat.min_eq_left hle]
    exact ⟨hc, rfl⟩

end Binary64

namespace Bucket

open Binary64 (unitsPerOne)

/-- The tokens in units. -/
def level (b : Bucket) : Nat := b.tokens.units

/-- What holds of a bucket from its beginning on. -/
structure Sound (b : Bucket) : Prop where
  rate : ∃ v fits, 0 < v ∧ b.rate = .finite false v fits
  capacity : 0 < b.capacity.toNat
  tokens : ∃ fits, b.tokens = .finite false b.level fits
  level_le : b.level ≤ tokenUnits b.capacity

theorem count_eq (n : UInt32) : count n = .finite false (tokenUnits n) (fits_tokenUnits n) := by
  simp only [tokenUnits_eq]
  exact Binary64.ofNat_eq (Nat.le_of_lt (Nat.lt_trans n.toNat_lt (by decide)))

theorem rate_cases {rate : Binary64} (hf : rate.isFinite = true)
    (h : Binary64.lt 0 rate = true) : ∃ v fits, 0 < v ∧ rate = .finite false v fits := by
  rw [Binary64.zero_eq] at h
  cases rate with
  | finite neg v fits =>
    cases neg with
    | false => exact ⟨v, fits, by simpa [Binary64.lt, Binary64.signed] using h, rfl⟩
    | true => exact absurd h (by simp [Binary64.lt, Binary64.signed])
  | infinite _ | nan => cases hf

theorem level_eq {b : Bucket} {u : Nat} {fits : Binary64.Fits u}
    (h : b.tokens = .finite false u fits) : b.level = u := congrArg Binary64.units h

theorem sound_of_tokens {b : Bucket} {u : Nat} {fits : Binary64.Fits u}
    (hr : ∃ v fits, 0 < v ∧ b.rate = .finite false v fits) (hc : b.capacity ≠ 0)
    (h : b.tokens = .finite false u fits) (hu : u ≤ tokenUnits b.capacity) : b.Sound := by
  have hlevel := level_eq h
  subst hlevel
  exact ⟨hr, Nat.pos_of_ne_zero fun h0 => hc (UInt32.toNat.inj h0), ⟨fits, h⟩, hu⟩

/-- A new bucket is full. -/
theorem full_eq {rate : Binary64} {capacity : UInt32} {b : Bucket}
    (h : full rate capacity = .ok b) :
    b = ⟨rate, capacity, count capacity⟩ ∧ b.Sound ∧ b.level = tokenUnits capacity := by
  unfold full at h
  split at h
  · cases h
  · rename_i hr
    rw [not_or, Decidable.not_not, Decidable.not_not] at hr
    split at h
    · cases h
    · rename_i hc
      cases h
      exact ⟨rfl, sound_of_tokens (rate_cases hr.1 hr.2) hc (count_eq capacity) (Nat.le_refl _),
        level_eq (count_eq capacity)⟩

theorem Sound.level_lt {b : Bucket} (hb : b.Sound) : b.level < 2 ^ 32 * unitsPerOne :=
  Nat.lt_of_le_of_lt hb.level_le (tokenUnits_lt b.capacity)

/-- The tokens of a bucket are compared as numbers of units. -/
theorem Sound.le_tokens {b : Bucket} (hb : b.Sound) (n : UInt32) :
    Binary64.le (count n) b.tokens = decide (tokenUnits n ≤ b.level) := by
  obtain ⟨fits, ht⟩ := hb.tokens
  rw [ht, count_eq, Binary64.le_eq]

/-- There are never less than none and never more than the capacity. -/
theorem Sound.bounds {b : Bucket} (hb : b.Sound) :
    Binary64.le 0 b.tokens = true ∧ Binary64.le b.tokens (count b.capacity) = true := by
  obtain ⟨fits, ht⟩ := hb.tokens
  rw [ht, Binary64.zero_eq, count_eq, Binary64.le_eq, Binary64.le_eq]
  exact ⟨decide_eq_true (Nat.zero_le _), decide_eq_true hb.level_le⟩

/-- Whole tokens are on the grid of what the bucket holds. -/
theorem Sound.spacing_dvd {b : Bucket} (hb : b.Sound) (n : UInt32) :
    Binary64.spacing b.level ∣ tokenUnits n := by
  rw [tokenUnits_eq]
  exact Binary64.spacing_dvd_whole (Nat.lt_trans hb.level_lt
    (Nat.mul_lt_mul_of_pos_right (by decide) Binary64.unitsPerOne_pos)) n.toNat

/-! ## An attempt -/

def withLevel (b : Bucket) (u : Nat) (fits : Binary64.Fits u) : Bucket :=
  { b with tokens := .finite false u fits }

@[simp] theorem level_withLevel (b : Bucket) (u : Nat) (fits : Binary64.Fits u) :
    (b.withLevel u fits).level = u := rfl

theorem Sound.withLevel {b : Bucket} (hb : b.Sound) {u : Nat} (fits : Binary64.Fits u)
    (h : u ≤ tokenUnits b.capacity) : (b.withLevel u fits).Sound :=
  ⟨hb.rate, hb.capacity, ⟨fits, rfl⟩, h⟩

/-- What can come of an attempt to take tokens from a bucket. -/
inductive Takes (b : Bucket) (n : UInt32) : Bucket × BucketAnswer → Prop where
  /-- They are there, and exactly they are taken. -/
  | granted (enough : Binary64.le (count n) b.tokens = true)
      (fits : Binary64.Fits (b.level - tokenUnits n)) :
      Takes b n (b.withLevel (b.level - tokenUnits n) fits, .granted n)
  | refused (short : Binary64.le (count n) b.tokens = false) : Takes b n (b, .refused)
  | endless (short : Binary64.le (count n) b.tokens = false) : Takes b n (b, .endless)

/-- What is there can be taken, and the rest is exact. -/
theorem Sound.acquire_of_le {b : Bucket} (hb : b.Sound) {n : UInt32}
    (h : tokenUnits n ≤ b.level) :
    ∃ fits, b.acquire n = .granted (b.withLevel (b.level - tokenUnits n) fits) := by
  obtain ⟨fits, ht⟩ := hb.tokens
  have hrest : Binary64.Fits (b.level - tokenUnits n) :=
    Binary64.fits_of_spacing_dvd fits (Nat.sub_le _ _) (Nat.dvd_sub fits.2 (hb.spacing_dvd n))
  have hsub : b.tokens - count n = .finite false (b.level - tokenUnits n) hrest := by
    have hexact := Binary64.ofUnits_of_fits false Nat.one_pos hrest
    rw [Nat.mul_one] at hexact
    rw [ht, count_eq, Binary64.sub_eq _ _ h, hexact]
  refine ⟨hrest, ?_⟩
  rw [acquire, take, hb.le_tokens, if_pos (decide_eq_true h), hsub, Bucket.withLevel]

theorem Sound.acquire_of_lt {b : Bucket} (hb : b.Sound) {n : UInt32}
    (h : b.level < tokenUnits n) :
    (∃ wait, b.acquire n = .refused wait) ∨ b.acquire n = .endless := by
  rw [acquire, take, hb.le_tokens,
    if_neg (by rw [decide_eq_true_iff]; exact Nat.not_le.mpr h)]
  cases b.wait? (count n - b.tokens) with
  | none => exact .inr rfl
  | some wait => exact .inl ⟨wait, rfl⟩

theorem Sound.attempt_takes {b : Bucket} (hb : b.Sound) (n : UInt32) :
    b.Takes n (b.conclude n (b.acquire n)) := by
  by_cases h : tokenUnits n ≤ b.level
  · obtain ⟨fits, hgranted⟩ := hb.acquire_of_le h
    rw [hgranted]
    exact .granted ((hb.le_tokens n).trans (decide_eq_true h)) fits
  · have hshort := (hb.le_tokens n).trans (decide_eq_false h)
    rcases hb.acquire_of_lt (Nat.lt_of_not_le h) with ⟨wait, hrefused⟩ | hendless
    · rw [hrefused]
      exact .refused hshort
    · rw [hendless]
      exact .endless hshort

theorem Takes.granted_iff {b : Bucket} {n : UInt32} {outcome : Bucket × BucketAnswer}
    (h : b.Takes n outcome) :
    outcome.2 = .granted n ↔ Binary64.le (count n) b.tokens = true := by
  cases h with
  | granted enough _ => exact iff_of_true rfl enough
  | refused short | endless short =>
    rw [short]
    exact iff_of_false nofun nofun

/-- An attempt of a call that waits asks for no more than the capacity. -/
theorem acquireWaiting_eq (b : Bucket) (n : UInt32) :
    b.acquireWaiting n = b.acquire (min n b.capacity) := rfl

theorem Sound.takes {b : Bucket} (hb : b.Sound) {n : UInt32} {outcome : Bucket × BucketAnswer}
    (h : b.Takes n outcome) : outcome.1.Sound := by
  cases h with
  | granted _ fits => exact hb.withLevel fits (Nat.le_trans (Nat.sub_le _ _) hb.level_le)
  | refused _ | endless _ => exact hb

/-! ## An attempt without an answer -/

/-- What has no length in time is `2 ^ 64` seconds after rounding, or more. -/
theorem ofBinary64?_eq_none {num den : Nat} :
    Duration.ofBinary64? (Binary64.ofUnits false num den) = none ↔
      2 ^ 64 * unitsPerOne ≤ Binary64.roundUnits num den := by
  by_cases h : (Binary64.roundUnits num den).log2 < 2098
  · rw [Binary64.ofUnits_of_lt h, Duration.ofBinary64?, if_neg (fun hneg => Bool.false_ne_true hneg.1)]
    split
    · rename_i hlong
      exact iff_of_true rfl hlong
    · rename_i hshort
      exact iff_of_false (Option.some_ne_none _) hshort
  · rw [Binary64.ofUnits, dif_neg h]
    refine iff_of_true rfl ?_
    have hne : Binary64.roundUnits num den ≠ 0 := fun h0 => h (by rw [h0]; decide)
    calc 2 ^ 64 * unitsPerOne ≤ 2 ^ 2098 := Binary64.two_pow_mul_unitsPerOne_le (by decide)
      _ ≤ Binary64.roundUnits num den := (Nat.le_log2 hne).mp (Nat.le_of_not_lt h)

/-- An attempt has no answer when the missing tokens, over the rate, are `2 ^ 64` seconds
or more. -/
theorem Sound.acquire_endless_iff {b : Bucket} (hb : b.Sound) {v : Nat} {hv : Binary64.Fits v}
    (hr : b.rate = .finite false v hv) (hpos : 0 < v) (n : UInt32) :
    b.acquire n = .endless ↔
      b.level < tokenUnits n ∧
        2 ^ 64 * unitsPerOne ≤
          Binary64.roundUnits (Binary64.roundUnits (tokenUnits n - b.level) 1 * unitsPerOne) v := by
  obtain ⟨fits, ht⟩ := hb.tokens
  by_cases henough : tokenUnits n ≤ b.level
  · obtain ⟨_, hgranted⟩ := hb.acquire_of_le henough
    rw [hgranted]
    exact iff_of_false nofun fun h => absurd h.1 (Nat.not_lt.mpr henough)
  · rw [acquire, take, hb.le_tokens, if_neg (by rw [decide_eq_true_iff]; exact henough)]
    have hlt := Nat.lt_of_not_le henough
    have hmissing : (Binary64.roundUnits (tokenUnits n - b.level) 1).log2 < 2098 := by
      refine Nat.lt_of_le_of_lt (Binary64.log2_mono ?_) (fits_tokenUnits n).1
      exact Binary64.roundUnits_le Nat.one_pos (fits_tokenUnits n).2 (by omega)
    have hwait : b.wait? (count n - b.tokens) = none ↔ 2 ^ 64 * unitsPerOne ≤
        Binary64.roundUnits (Binary64.roundUnits (tokenUnits n - b.level) 1 * unitsPerOne) v := by
      rw [wait?, Option.map_eq_none_iff, hr, ht, count_eq, Binary64.sub_eq _ _ (Nat.le_of_lt hlt),
        Binary64.ofUnits_of_lt hmissing, Binary64.div_eq _ _ (Nat.ne_of_gt hpos),
        ofBinary64?_eq_none]
    cases h : b.wait? (count n - b.tokens) with
    | none => exact iff_of_true rfl ⟨hlt, hwait.mp h⟩
    | some wait => exact iff_of_false nofun fun hno => nomatch h.symm.trans (hwait.mpr hno.2)

/-! ## A refill -/

theorem refill_capacity (b : Bucket) (amount : Binary64) :
    (b.refill amount).capacity = b.capacity := by rw [Bucket.refill]

theorem refill_rate (b : Bucket) (amount : Binary64) :
    (b.refill amount).rate = b.rate := by rw [Bucket.refill]

theorem Sound.refill_eq {b : Bucket} (hb : b.Sound) {amount : Binary64}
    (h : Binary64.le 0 amount = true) :
    ∃ u fits, b.refill amount = b.withLevel u fits ∧
      (amount = .infinite false ∧ u = tokenUnits b.capacity ∨
        u = min (tokenUnits b.capacity) (Binary64.roundUnits (b.level + amount.units) 1)) := by
  obtain ⟨fits, ht⟩ := hb.tokens
  rcases Binary64.arrival_cases h with ⟨neg, v, hv, rfl, hs⟩ | rfl
  · obtain ⟨fits', hmin⟩ := Binary64.min_ofUnits (fits_tokenUnits b.capacity) (b.level + v)
    refine ⟨_, fits', ?_, .inr rfl⟩
    simp only [Bucket.refill, ht, Binary64.add_arrival _ _ hs, count_eq, hmin, Bucket.withLevel]
  · refine ⟨_, fits_tokenUnits b.capacity, ?_, .inl ⟨rfl, rfl⟩⟩
    simp only [Bucket.refill, ht, count_eq, Bucket.withLevel]
    exact congrArg _ rfl

/-- A finite amount is added and the sum rounded, and what is beyond the capacity is lost. -/
theorem Sound.level_refill {b : Bucket} (hb : b.Sound) {amount : Binary64}
    (h : Binary64.le 0 amount = true) (hf : amount.isFinite = true) :
    (b.refill amount).level =
      min (tokenUnits b.capacity) (Binary64.roundUnits (b.level + amount.units) 1) := by
  obtain ⟨u, fits, he, ⟨hinf, -⟩ | hu⟩ := hb.refill_eq h
  · rw [hinf] at hf
    cases hf
  · rw [he, level_withLevel, hu]

/-- A refill adds tokens up to the capacity. -/
theorem Sound.refill {b : Bucket} (hb : b.Sound) {amount : Binary64}
    (h : Binary64.le 0 amount = true) :
    (b.refill amount).Sound ∧ b.level ≤ (b.refill amount).level := by
  obtain ⟨fits, -⟩ := hb.tokens
  obtain ⟨u, fits', he, hu⟩ := hb.refill_eq h
  have hbounds : b.level ≤ u ∧ u ≤ tokenUnits b.capacity := by
    rcases hu with ⟨-, hu⟩ | hu
    · rw [hu]
      exact ⟨hb.level_le, Nat.le_refl _⟩
    · rw [hu]
      refine ⟨Nat.le_min.mpr ⟨hb.level_le, ?_⟩, Nat.min_le_left _ _⟩
      exact Binary64.le_roundUnits Nat.one_pos fits.2 (by omega)
  rw [he]
  exact ⟨hb.withLevel fits' hbounds.2, hbounds.1⟩

/-- Nothing comes in while time stands still. -/
theorem Sound.refill_zero {b : Bucket} (hb : b.Sound) : b.refill 0 = b := by
  obtain ⟨fits, ht⟩ := hb.tokens
  obtain ⟨fits', hmin⟩ := Binary64.min_ofUnits (fits_tokenUnits b.capacity) (b.level + 0)
  have hround : Binary64.roundUnits (b.level + 0) 1 = b.level := by
    have hexact := Binary64.roundUnits_of_dvd Nat.one_pos fits.2
    rwa [Nat.mul_one] at hexact
  simp only [hround, Nat.min_eq_right hb.level_le] at hmin
  rw [Bucket.refill, Binary64.zero_eq, ht, Binary64.add_eq, count_eq, hmin, ← ht]

/-- A refill brings in what comes, and more only for the rounding of the sum: nothing
where the sum is a double, and never more than `2 ^ -22` of a token. -/
theorem Sound.level_refill_le {b : Bucket} (hb : b.Sound) {amount : Binary64}
    (h : Binary64.le 0 amount = true) (hf : amount.isFinite = true) :
    (Binary64.Fits (b.level + amount.units) →
        (b.refill amount).level ≤ b.level + amount.units) ∧
      2 ^ 22 * (b.refill amount).level ≤ 2 ^ 22 * (b.level + amount.units) + unitsPerOne := by
  rw [hb.level_refill h hf]
  refine ⟨fun hfits => ?_, ?_⟩
  · refine Nat.le_trans (Nat.min_le_right _ _) ?_
    exact Binary64.roundUnits_le Nat.one_pos hfits.2 (by omega)
  · by_cases hcap : tokenUnits b.capacity ≤ b.level + amount.units
    · -- the capacity cuts off what rounding could add
      have := Nat.le_trans (Nat.min_le_left _ (Binary64.roundUnits (b.level + amount.units) 1)) hcap
      omega
    · have hspacing := Binary64.two_pow_mul_spacing_le (rfl : 32 + 21 = 53)
        (rfl : 21 + 1053 = 1074) (Nat.lt_trans (Nat.not_le.mp hcap) (tokenUnits_lt b.capacity))
      have hround := Binary64.two_mul_roundUnits_le (b.level + amount.units)
      have := Nat.min_le_right (tokenUnits b.capacity)
        (Binary64.roundUnits (b.level + amount.units) 1)
      omega

end Bucket

end TickFeed
