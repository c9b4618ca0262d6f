import TickFeed.Proofs.RateLimit.Accounting

/-! # Attempts that have an answer

The wait for the missing tokens may be longer than a length of time can be. A bucket
whose callers ask for `m` tokens at most is safe from that exactly when it fills faster
than by `m` tokens in `2 ^ 64` seconds (`answered_iff`). Every positive rate makes a
bucket, so there are buckets that are slower. -/

namespace TickFeed.Bucket

open Binary64 (unitsPerOne)

/-- The rate of `m` tokens in `2 ^ 64` seconds. -/
def slowest (m : UInt32) : Binary64 := .ofRatio false m.toNat (2 ^ 64)

theorem slowest_eq (m : UInt32) :
    ∃ s fits, slowest m = .finite false s fits ∧ s * 2 ^ 64 = tokenUnits m := by
  obtain ⟨s, fits, hs⟩ := Binary64.exists_quotient
    (Nat.le_of_lt (Nat.lt_trans m.toNat_lt (by decide))) (rfl : 1010 + 64 = 1074)
  refine ⟨s, fits, ?_, hs.trans (tokenUnits_eq m).symm⟩
  rw [slowest, Binary64.ofRatio, ← hs]
  exact Binary64.ofUnits_of_fits false (Nat.two_pow_pos 64) fits

/-! ## One attempt -/

/-- Of a bucket that is fast enough no attempt is without an answer. -/
theorem Sound.acquire_ne_endless {b : Bucket} (hb : b.Sound) {m n : UInt32} (hn : n ≤ m)
    (hfast : Binary64.lt (slowest m) b.rate = true) : b.acquire n ≠ .endless := by
  obtain ⟨v, hv, hpos, hr⟩ := hb.rate
  obtain ⟨s, hs, hslowest, hunits⟩ := slowest_eq m
  have hlt : s < v := by
    rw [hslowest, hr, Binary64.lt_eq] at hfast
    exact of_decide_eq_true hfast
  have hmissing : Binary64.roundUnits (tokenUnits n - b.level) 1 ≤ s * 2 ^ 64 := by
    rw [hunits]
    have hmono := tokenUnits_mono hn
    exact Binary64.roundUnits_le Nat.one_pos (fits_tokenUnits m).2 (by omega)
  have hshort : Binary64.roundUnits
      (Binary64.roundUnits (tokenUnits n - b.level) 1 * unitsPerOne) v < 2 ^ 64 * unitsPerOne :=
    calc Binary64.roundUnits (Binary64.roundUnits (tokenUnits n - b.level) 1 * unitsPerOne) v
        ≤ Binary64.roundUnits (s * 2 ^ 64 * unitsPerOne) v :=
          Binary64.roundUnits_mono hpos (Nat.mul_le_mul_right _ hmissing)
      _ < 2 ^ 64 * unitsPerOne := by
        rw [Nat.mul_assoc]
        exact Binary64.roundUnits_lt (e := 1085) rfl hs hv hlt
  rw [Ne, hb.acquire_endless_iff hr hpos]
  exact fun h => absurd h.2 (Nat.not_le.mpr hshort)

/-- Of an empty bucket that is too slow one attempt is without an answer. -/
theorem Sound.acquire_eq_endless {b : Bucket} (hb : b.Sound) {m : UInt32}
    (hempty : b.level = 0) (hm : 0 < m.toNat)
    (hslow : Binary64.lt (slowest m) b.rate = false) : b.acquire m = .endless := by
  obtain ⟨v, hv, hpos, hr⟩ := hb.rate
  obtain ⟨s, hs, hslowest, hunits⟩ := slowest_eq m
  have hle : v ≤ s := by
    rw [hslowest, hr, Binary64.lt_eq] at hslow
    exact Nat.not_lt.mp (of_decide_eq_false hslow)
  have hround := Binary64.roundUnits_of_dvd Nat.one_pos (fits_tokenUnits m).2
  rw [Nat.mul_one] at hround
  rw [hb.acquire_endless_iff hr hpos, hempty, Nat.sub_zero, hround]
  refine ⟨Nat.mul_pos Binary64.unitsPerOne_pos hm, ?_⟩
  refine Binary64.le_roundUnits hpos (Binary64.spacing_dvd_two_pow_mul 64) ?_
  calc 2 ^ 64 * unitsPerOne * v ≤ 2 ^ 64 * unitsPerOne * s := Nat.mul_le_mul_left _ hle
    _ = s * 2 ^ 64 * unitsPerOne := by rw [Nat.mul_comm, Nat.mul_assoc]
    _ = tokenUnits m * unitsPerOne := by rw [hunits]

/-! ## All attempts of a run -/

theorem conclude_endless_iff {b : Bucket} {n : UInt32} {outcome : Attempt} :
    (b.conclude n outcome).2 = .endless ↔ outcome = .endless := by
  cases outcome with
  | granted _ | refused _ => exact iff_of_false nofun nofun
  | endless => exact iff_of_true rfl rfl

theorem asked_congr {b after : Bucket} (h : after.capacity = b.capacity)
    (request : BucketRequest) : after.asked request = b.asked request := by
  cases request with
  | acquire _ | available => rfl
  | wait n _ => rw [asked, asked, h]

theorem Sound.serve_ne_endless {b : Bucket} (hb : b.Sound) {call : BucketCall}
    (h : ∀ amount ∈ call.arrivals, Binary64.le 0 amount = true) {m : UInt32}
    (hm : b.asked call.request ≤ m) (hfast : Binary64.lt (slowest m) b.rate = true) :
    (Bucket.serve b call).2 ≠ .endless := by
  rcases serve_cases b call with ⟨-, hserve⟩ | hserve
  · rw [hserve]
    nofun
  · rw [hserve, Ne, conclude_endless_iff]
    exact (hb.serve h).1.acquire_ne_endless hm ((refillAll_rate b _).symm ▸ hfast)

theorem Sound.endless_notMem {b : Bucket} (hb : b.Sound) {calls : List BucketCall}
    (h : ∀ call ∈ calls, ∀ amount ∈ call.arrivals, Binary64.le 0 amount = true) {m : UInt32}
    (hm : ∀ call ∈ calls, b.asked call.request ≤ m)
    (hfast : Binary64.lt (slowest m) b.rate = true) : .endless ∉ b.answers calls := by
  induction calls generalizing b with
  | nil => exact List.not_mem_nil
  | cons call calls ih =>
    obtain ⟨hfirst, hrest⟩ := List.forall_mem_cons.mp h
    obtain ⟨hasked, hlater⟩ := List.forall_mem_cons.mp hm
    obtain ⟨hserved, hrate, hcapacity⟩ := hb.served hfirst
    rw [answers, List.mem_cons, not_or]
    refine ⟨(hb.serve_ne_endless hfirst hasked hfast).symm, ih hserved hrest ?_ ?_⟩
    · intro later hl
      rw [asked_congr hcapacity]
      exact hlater later hl
    · rw [hrate]
      exact hfast

/-- A full bucket gives away everything, and then `m` tokens would take too long. -/
theorem Sound.answers_of_slow {b : Bucket} (hb : b.Sound)
    (hfull : b.level = tokenUnits b.capacity) {m : UInt32} (hm : 0 < m.toNat)
    (hslow : Binary64.lt (slowest m) b.rate = false) :
    b.answers [⟨0, .acquire b.capacity⟩, ⟨0, .acquire m⟩] =
      [.granted b.capacity, .endless] := by
  obtain ⟨rest, hgranted, hrest, hempty, hrate⟩ : ∃ rest, b.acquire b.capacity = .granted rest ∧
      rest.Sound ∧ rest.level = 0 ∧ rest.rate = b.rate := by
    obtain ⟨fits, hgranted⟩ := hb.acquire_of_le (Nat.le_of_eq hfull.symm)
    exact ⟨_, hgranted, hb.withLevel fits (by omega), by rw [level_withLevel, hfull, Nat.sub_self],
      rfl⟩
  have hendless := hrest.acquire_eq_endless hempty hm (hrate ▸ hslow)
  have hfirst : Bucket.serve b ⟨0, .acquire b.capacity⟩ = (rest, .granted b.capacity) := by
    rw [serve_acquire, hb.refill_zero, hgranted, conclude]
  have hsecond : (Bucket.serve rest ⟨0, .acquire m⟩).2 = .endless := by
    rw [serve_acquire, hrest.refill_zero, hendless, conclude]
  rw [answers, answers, answers, hfirst, hsecond]

/-- Exactly of the buckets that fill faster than by `m` tokens in `2 ^ 64` seconds every
attempt to take `m` tokens or fewer has an answer, whatever the calls before. -/
theorem answered_iff {rate : Binary64} {capacity : UInt32} {b : Bucket}
    (h : full rate capacity = .ok b) {m : UInt32} (hm : capacity ≤ m) :
    (∀ calls : List BucketCall,
        (∀ call ∈ calls, ∀ amount ∈ call.arrivals, Binary64.le 0 amount = true) →
        (∀ call ∈ calls, b.asked call.request ≤ m) → .endless ∉ b.answers calls) ↔
      Binary64.lt (slowest m) rate = true := by
  obtain ⟨hb, hsound, hfull⟩ := full_eq h
  have hrate : b.rate = rate := by rw [hb]
  have hcap : b.capacity = capacity := by rw [hb]
  rw [← hrate]
  refine ⟨fun hall => ?_, fun hfast calls hin hasked => hsound.endless_notMem hin hasked hfast⟩
  refine Bool.of_not_eq_false fun hslow => ?_
  rw [← hcap] at hfull hm
  have hpos : 0 < m.toNat := Nat.lt_of_lt_of_le hsound.capacity (UInt32.le_iff_toNat_le.mp hm)
  refine hall [⟨0, .acquire b.capacity⟩, ⟨0, .acquire m⟩] ?_ ?_ ?_
  · simp [BucketCall.arrivals, Binary64.zero_le_zero]
  · simp [asked, hm]
  · rw [hsound.answers_of_slow hfull hpos hslow]
    exact List.mem_cons_of_mem _ List.mem_cons_self

/-- Ten tokens per second are fast enough for any calls. -/
theorem answered_of_ten :
    let b : Bucket := ⟨10, 10, count 10⟩
    full 10 10 = .ok b ∧ (10 : UInt32) ≤ 4294967295 ∧
      ∀ calls : List BucketCall,
        (∀ call ∈ calls, ∀ amount ∈ call.arrivals, Binary64.le 0 amount = true) →
        .endless ∉ b.answers calls := by
  intro b
  have hfull : full 10 10 = .ok b := by
    rw [full, if_neg (by decide +kernel), if_neg (by decide)]
  have hle : (10 : UInt32) ≤ 4294967295 := by decide
  refine ⟨hfull, hle, fun calls hin => ?_⟩
  refine (answered_iff hfull hle).mpr (by decide +kernel) calls hin fun call _ => ?_
  exact UInt32.le_iff_toNat_le.mpr (Nat.le_of_lt_succ (b.asked call.request).toNat_lt)

/-- One token in `10 ^ 20` seconds makes a bucket, and when that is gone a call for one
more has no answer, whether it waits or not. -/
theorem not_answered_of_slow :
    let b : Bucket := ⟨.ofRatio false 1 (10 ^ 20), 1, count 1⟩
    full (.ofRatio false 1 (10 ^ 20)) 1 = .ok b ∧
      b.answers [⟨0, .acquire 1⟩, ⟨0, .acquire 1⟩] = [.granted 1, .endless] ∧
      b.answers [⟨0, .acquire 1⟩, ⟨0, .wait 1 []⟩] = [.granted 1, .endless] := by
  refine ⟨?_, by decide +kernel, by decide +kernel⟩
  rw [full, if_neg (by decide +kernel), if_neg (by decide)]

end TickFeed.Bucket
