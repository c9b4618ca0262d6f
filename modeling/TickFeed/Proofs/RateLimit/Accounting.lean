import Mathlib.Algebra.BigOperators.Group.List.Lemmas
import Mathlib.Algebra.GroupWithZero.Nat
import TickFeed.Proofs.RateLimit.Tokens

/-! # The account of a bucket

Every call leaves the tokens that there were and those that came in, less those that it
was granted (`Sound.balance`), and so does a run of any calls. What comes in is written
down refill by refill, each with the bucket that it found, so that one can say of each
how far rounding moved it: a sum that is no double can be rounded up, and then more is
taken than came in (`more_taken_than_came_in`). `accounting` puts the account together
with what a single call may do. -/

namespace TickFeed

def BucketAnswer.taken : BucketAnswer → Nat
  | .granted n => n.toNat
  | .refused | .endless | .available _ => 0

namespace Bucket

open Binary64 (unitsPerOne)

/-! ## What comes in -/

/-- Each of some amounts with the bucket that it comes into. -/
def trail (b : Bucket) : List Binary64 → List (Bucket × Binary64)
  | [] => []
  | amount :: amounts => (b, amount) :: (b.refill amount).trail amounts

/-- The units that come in; those beyond the capacity do not. -/
def gain (refill : Bucket × Binary64) : Nat :=
  (refill.1.refill refill.2).level - refill.1.level

/-- The sum of what is there and what comes is no double. -/
def Rounds (refill : Bucket × Binary64) : Prop :=
  ¬Binary64.Fits (refill.1.level + refill.2.units)

instance : DecidablePred Rounds := fun _ => inferInstanceAs (Decidable ¬_)

def refillAll (b : Bucket) (amounts : List Binary64) : Bucket := amounts.foldl refill b

@[simp] theorem refillAll_nil (b : Bucket) : b.refillAll [] = b := rfl

@[simp] theorem refillAll_cons (b : Bucket) (amount : Binary64) (amounts : List Binary64) :
    b.refillAll (amount :: amounts) = (b.refill amount).refillAll amounts := by
  rw [refillAll, List.foldl_cons, refillAll]

@[simp] theorem refillAll_capacity (b : Bucket) (amounts : List Binary64) :
    (b.refillAll amounts).capacity = b.capacity := by
  induction amounts generalizing b with
  | nil => rfl
  | cons amount amounts ih => rw [refillAll_cons, ih, refill_capacity]

@[simp] theorem refillAll_rate (b : Bucket) (amounts : List Binary64) :
    (b.refillAll amounts).rate = b.rate := by
  induction amounts generalizing b with
  | nil => rfl
  | cons amount amounts ih => rw [refillAll_cons, ih, refill_rate]

theorem Sound.refillAll {b : Bucket} (hb : b.Sound) {amounts : List Binary64}
    (h : ∀ amount ∈ amounts, Binary64.le 0 amount = true) :
    (b.refillAll amounts).Sound ∧
      (b.refillAll amounts).level = b.level + ((b.trail amounts).map gain).sum := by
  induction amounts generalizing b with
  | nil => exact ⟨hb, rfl⟩
  | cons amount amounts ih =>
    obtain ⟨hfirst, hrest⟩ := List.forall_mem_cons.mp h
    obtain ⟨hs, hle⟩ := hb.refill hfirst
    obtain ⟨hsound, hlevel⟩ := ih hs hrest
    refine ⟨hsound, ?_⟩
    rw [refillAll_cons, hlevel, trail, List.map_cons, List.sum_cons, ← Nat.add_assoc]
    exact congrArg (· + _) (Nat.add_sub_cancel' hle).symm

/-- Every bucket on the way is sound. -/
theorem Sound.mem_trail {b : Bucket} (hb : b.Sound) {amounts : List Binary64}
    (h : ∀ amount ∈ amounts, Binary64.le 0 amount = true) :
    ∀ refill ∈ b.trail amounts, refill.1.Sound ∧ refill.2 ∈ amounts := by
  induction amounts generalizing b with
  | nil => exact fun refill hr => nomatch hr
  | cons amount amounts ih =>
    obtain ⟨hfirst, hrest⟩ := List.forall_mem_cons.mp h
    rw [trail, List.forall_mem_cons]
    refine ⟨⟨hb, List.mem_cons_self⟩, fun refill hr => ?_⟩
    obtain ⟨hsound, hmem⟩ := ih (hb.refill hfirst).1 hrest refill hr
    exact ⟨hsound, List.mem_cons_of_mem amount hmem⟩

/-! ## A call that waits -/

/-- The sleeps that a call which waits needs: up to the first attempt that is not
refused. -/
def slept (attempt : Bucket → Attempt) (b : Bucket) : List Binary64 → List Binary64
  | [] => []
  | amount :: sleeps =>
    match attempt b with
    | .refused _ => amount :: slept attempt (b.refill amount) sleeps
    | .granted _ | .endless => []

theorem slept_isPrefix (attempt : Bucket → Attempt) (b : Bucket) (sleeps : List Binary64) :
    slept attempt b sleeps <+: sleeps := by
  induction sleeps generalizing b with
  | nil => exact List.prefix_refl []
  | cons amount sleeps ih =>
    rw [slept]
    split
    · exact (List.prefix_cons_inj amount).mpr (ih _)
    · exact List.nil_prefix
    · exact List.nil_prefix

theorem attempts_of_refused {attempt : Bucket → Attempt} {b : Bucket} {wait : Duration}
    (h : attempt b = .refused wait) (amount : Binary64) (sleeps : List Binary64) :
    attempts attempt b (amount :: sleeps) = attempts attempt (b.refill amount) sleeps := by
  rw [attempts, h]

/-- Only the last attempt counts. -/
theorem attempts_eq (attempt : Bucket → Attempt) (b : Bucket) (sleeps : List Binary64) :
    attempts attempt b sleeps =
      (b.refillAll (slept attempt b sleeps), attempt (b.refillAll (slept attempt b sleeps))) := by
  induction sleeps generalizing b with
  | nil => rw [attempts, slept, refillAll_nil]
  | cons amount sleeps ih =>
    cases h : attempt b with
    | refused wait =>
      simp only [attempts, slept, h, refillAll_cons]
      exact ih (b.refill amount)
    | granted rest => simp only [attempts, slept, h, refillAll_nil]
    | endless => simp only [attempts, slept, h, refillAll_nil]

/-! ## One call -/

def sleptFor (b : Bucket) (n : UInt32) (sleeps : List Binary64) : List Binary64 :=
  slept (fun now => now.acquireWaiting n) b sleeps

theorem waitFor_eq (b : Bucket) (n : UInt32) (sleeps : List Binary64) :
    b.waitFor n sleeps =
      (b.refillAll (b.sleptFor n sleeps)).conclude (min n b.capacity)
        ((b.refillAll (b.sleptFor n sleeps)).acquire (min n b.capacity)) := by
  rw [waitFor, attempts_eq, sleptFor, acquireWaiting_eq, refillAll_capacity]

/-- What comes in at a call, as far as its sleeps are needed. -/
def arrivalsOf (b : Bucket) (call : BucketCall) : List Binary64 :=
  match call.request with
  | .acquire _ => [call.arrival]
  | .wait n sleeps => call.arrival :: (b.refill call.arrival).sleptFor n sleeps
  | .available => []

theorem mem_arrivalsOf {b : Bucket} {call : BucketCall} {amount : Binary64}
    (h : amount ∈ b.arrivalsOf call) : amount ∈ call.arrivals := by
  obtain ⟨arrival, request⟩ := call
  cases request with
  | acquire n => exact h
  | wait n sleeps =>
    rcases List.mem_cons.mp h with rfl | h
    · exact List.mem_cons_self
    · exact List.mem_cons_of_mem _ ((slept_isPrefix _ _ sleeps).subset h)
  | available => cases h

/-- The tokens that a call asks for: one that waits asks for no more than the capacity. -/
def asked (b : Bucket) : BucketRequest → UInt32
  | .acquire n => n
  | .wait n _ => min n b.capacity
  | .available => 0

theorem serve_acquire (b : Bucket) (arrival : Binary64) (n : UInt32) :
    b.serve ⟨arrival, .acquire n⟩ =
      (b.refill arrival).conclude n ((b.refill arrival).acquire n) := rfl

/-- What a call may do: to look is to change nothing, and otherwise it is one attempt on
the bucket with all that came in. -/
theorem serve_cases (b : Bucket) (call : BucketCall) :
    call.request = .available ∧
        b.serve call = (b, .available (b.refill call.arrival).tokens) ∨
      b.serve call = (b.refillAll (b.arrivalsOf call)).conclude (b.asked call.request)
        ((b.refillAll (b.arrivalsOf call)).acquire (b.asked call.request)) := by
  obtain ⟨arrival, request⟩ := call
  cases request with
  | acquire n => exact .inr (serve_acquire b arrival n)
  | wait n sleeps =>
    right
    simp only [arrivalsOf, refillAll_cons, asked, serve, waitFor_eq, refill_capacity]
  | available => exact .inl ⟨rfl, rfl⟩

theorem Sound.serve {b : Bucket} (hb : b.Sound) {call : BucketCall}
    (h : ∀ amount ∈ call.arrivals, Binary64.le 0 amount = true) :
    (b.refillAll (b.arrivalsOf call)).Sound ∧
      (call.request = .available ∧
          Bucket.serve b call = (b, .available (b.refill call.arrival).tokens) ∨
        (b.refillAll (b.arrivalsOf call)).Takes (b.asked call.request) (Bucket.serve b call)) := by
  have hsound : (b.refillAll (b.arrivalsOf call)).Sound :=
    (hb.refillAll fun amount hm => h amount (mem_arrivalsOf hm)).1
  refine ⟨hsound, (serve_cases b call).imp_right fun hserve => ?_⟩
  rw [hserve]
  exact hsound.attempt_takes _

theorem Takes.fixed {b : Bucket} {n : UInt32} {outcome : Bucket × BucketAnswer}
    (h : b.Takes n outcome) : outcome.1.rate = b.rate ∧ outcome.1.capacity = b.capacity := by
  cases h <;> exact ⟨rfl, rfl⟩

/-- A call leaves a sound bucket of the same rate and capacity. -/
theorem Sound.served {b : Bucket} (hb : b.Sound) {call : BucketCall}
    (h : ∀ amount ∈ call.arrivals, Binary64.le 0 amount = true) :
    (Bucket.serve b call).1.Sound ∧ (Bucket.serve b call).1.rate = b.rate ∧
      (Bucket.serve b call).1.capacity = b.capacity := by
  obtain ⟨hsound, ⟨-, hserve⟩ | htakes⟩ := hb.serve h
  · rw [hserve]
    exact ⟨hb, rfl, rfl⟩
  · have hfixed := htakes.fixed
    rw [refillAll_rate, refillAll_capacity] at hfixed
    exact ⟨hsound.takes htakes, hfixed⟩

theorem Sound.takes_balance {b : Bucket} (hb : b.Sound) {n : UInt32}
    {outcome : Bucket × BucketAnswer} (h : b.Takes n outcome) :
    unitsPerOne * outcome.2.taken + outcome.1.level = b.level := by
  cases h with
  | granted enough fits =>
    rw [hb.le_tokens] at enough
    exact Nat.add_sub_cancel' (of_decide_eq_true enough)
  | refused _ | endless _ =>
    show unitsPerOne * 0 + b.level = b.level
    rw [Nat.mul_zero, Nat.zero_add]

/-- The account of a call. -/
theorem Sound.balance {b : Bucket} (hb : b.Sound) {call : BucketCall}
    (h : ∀ amount ∈ call.arrivals, Binary64.le 0 amount = true) :
    unitsPerOne * (Bucket.serve b call).2.taken + (Bucket.serve b call).1.level =
      b.level + ((b.trail (b.arrivalsOf call)).map gain).sum := by
  obtain ⟨hsound, ⟨hlook, hserve⟩ | htakes⟩ := hb.serve h
  · have harrivals : b.arrivalsOf call = [] := by rw [arrivalsOf, hlook]
    rw [hserve, harrivals, BucketAnswer.taken, Nat.mul_zero, Nat.zero_add]
    rfl
  · rw [hsound.takes_balance htakes]
    exact (hb.refillAll fun amount hm => h amount (mem_arrivalsOf hm)).2

/-! ## A call that blocks

It sleeps until the missing tokens are there. Their number is often no double, but of a
bucket that holds half of what it is asked for it is one: so the sleeps may bring in
half first, and then exactly the rest. -/

theorem Sound.waitFor_nil {b : Bucket} (hb : b.Sound) {n : UInt32}
    (h : b.level = tokenUnits (min n b.capacity)) :
    b.waitFor n [] = ({ b with tokens := 0 }, .granted (min n b.capacity)) := by
  obtain ⟨fits, hgranted⟩ := hb.acquire_of_le (Nat.le_of_eq h.symm)
  rw [waitFor_eq, sleptFor, slept, refillAll_nil, hgranted, conclude,
    Bucket.withLevel, Binary64.zero_eq]
  simp only [h, Nat.sub_self]

theorem waitFor_cons {b : Bucket} {n : UInt32} {wait : Duration}
    (h : b.acquire (min n b.capacity) = .refused wait) (amount : Binary64)
    (sleeps : List Binary64) :
    b.waitFor n (amount :: sleeps) = (b.refill amount).waitFor n sleeps := by
  have hattempt : (fun now : Bucket => now.acquireWaiting n) b = .refused wait :=
    (acquireWaiting_eq b n).trans h
  rw [waitFor, waitFor, attempts_of_refused hattempt, refill_capacity]

/-- Half of what is asked for is a double, and it brings the bucket to half or more. -/
theorem Sound.exists_half {b : Bucket} (hb : b.Sound) {n : UInt32} (hn : n ≤ b.capacity)
    (h : 2 * b.level < tokenUnits n) :
    ∃ half, Binary64.le 0 half = true ∧ tokenUnits n ≤ 2 * (b.refill half).level ∧
      (b.refill half).level ≤ tokenUnits n := by
  obtain ⟨u, hu, hdouble⟩ := Binary64.exists_quotient
    (Nat.le_of_lt (Nat.lt_trans n.toNat_lt (by decide))) (rfl : 1073 + 1 = 1074)
  rw [← tokenUnits_eq, Nat.pow_one] at hdouble
  have hlow : u ≤ Binary64.roundUnits (b.level + u) 1 :=
    Binary64.le_roundUnits Nat.one_pos hu.2 (by omega)
  have hhigh : Binary64.roundUnits (b.level + u) 1 ≤ tokenUnits n :=
    Binary64.roundUnits_le Nat.one_pos (fits_tokenUnits n).2 (by omega)
  have hcap := tokenUnits_mono hn
  refine ⟨.finite false u hu, Binary64.zero_le hu, ?_⟩
  rw [hb.level_refill (Binary64.zero_le hu) rfl, Binary64.units]
  omega

/-- From half of what is asked for on, the missing tokens are a double, and they bring the
bucket to exactly what is asked for. -/
theorem Sound.exists_missing {b : Bucket} (hb : b.Sound) {n : UInt32} (hn : n ≤ b.capacity)
    (hlt : b.level < tokenUnits n) (hhalf : tokenUnits n ≤ 2 * b.level) :
    ∃ missing, Binary64.le 0 missing = true ∧ (b.refill missing).level = tokenUnits n := by
  obtain ⟨fits, -⟩ := hb.tokens
  have hmissing : Binary64.Fits (tokenUnits n - b.level) :=
    Binary64.fits_of_spacing_dvd fits (by omega) (Nat.dvd_sub (hb.spacing_dvd n) fits.2)
  have hround := Binary64.roundUnits_of_dvd Nat.one_pos (fits_tokenUnits n).2
  rw [Nat.mul_one] at hround
  refine ⟨.finite false _ hmissing, Binary64.zero_le hmissing, ?_⟩
  rw [hb.level_refill (Binary64.zero_le hmissing) rfl, Binary64.units,
    Nat.add_sub_cancel' (Nat.le_of_lt hlt), hround]
  exact Nat.min_eq_right (tokenUnits_mono hn)

/-- With more tokens an attempt has an answer if it has one with fewer. -/
theorem Sound.refused_of_refused {b after : Bucket} (hb : b.Sound) (ha : after.Sound)
    (hrate : after.rate = b.rate) (hle : b.level ≤ after.level) {n : UInt32} {wait : Duration}
    (h : b.acquire n = .refused wait) (hlt : after.level < tokenUnits n) :
    ∃ wait, after.acquire n = .refused wait := by
  obtain ⟨v, hv, hpos, hr⟩ := hb.rate
  refine (ha.acquire_of_lt hlt).resolve_right fun hendless => ?_
  rw [ha.acquire_endless_iff (hrate.trans hr) hpos] at hendless
  have hmissing : Binary64.roundUnits (tokenUnits n - after.level) 1 ≤
      Binary64.roundUnits (tokenUnits n - b.level) 1 :=
    Binary64.roundUnits_mono Nat.one_pos (by omega)
  have hlong := (hb.acquire_endless_iff hr hpos n).mpr ⟨by omega, Nat.le_trans hendless.2
    (Binary64.roundUnits_mono hpos (Nat.mul_le_mul_right _ hmissing))⟩
  exact nomatch h.symm.trans hlong

theorem Sound.waitFor_of_half {b : Bucket} (hb : b.Sound) {n : UInt32} {wait : Duration}
    (h : b.acquire (min n b.capacity) = .refused wait)
    (hlt : b.level < tokenUnits (min n b.capacity))
    (hhalf : tokenUnits (min n b.capacity) ≤ 2 * b.level) :
    ∃ missing, Binary64.le 0 missing = true ∧
      b.waitFor n [missing] = ({ b with tokens := 0 }, .granted (min n b.capacity)) := by
  obtain ⟨missing, hpos, hlevel⟩ := hb.exists_missing Std.min_le_right hlt hhalf
  refine ⟨missing, hpos, ?_⟩
  have hfull := (hb.refill hpos).1.waitFor_nil (n := n) (by rw [hlevel, refill_capacity])
  rw [waitFor_cons h, hfull, refill_capacity, refill_rate]

/-- After a refusal there are sleeps that end with exactly what is asked for. -/
theorem Sound.exists_sleeps {b : Bucket} (hb : b.Sound) {n : UInt32} {wait : Duration}
    (h : b.acquire (min n b.capacity) = .refused wait) :
    ∃ sleeps, (∀ amount ∈ sleeps, Binary64.le 0 amount = true) ∧
      b.waitFor n sleeps = ({ b with tokens := 0 }, .granted (min n b.capacity)) := by
  have hlt : b.level < tokenUnits (min n b.capacity) := by
    refine Nat.lt_of_not_le fun henough => ?_
    obtain ⟨_, hgranted⟩ := hb.acquire_of_le henough
    exact nomatch h.symm.trans hgranted
  by_cases hhalf : tokenUnits (min n b.capacity) ≤ 2 * b.level
  · obtain ⟨missing, hpos, hwait⟩ := hb.waitFor_of_half h hlt hhalf
    exact ⟨[missing], by simpa using hpos, hwait⟩
  · obtain ⟨half, hpos, hmore, hless⟩ := hb.exists_half Std.min_le_right (Nat.lt_of_not_le hhalf)
    obtain ⟨hsound, hle⟩ := hb.refill hpos
    -- the sum with the half may round up to all that is asked for
    rcases Nat.eq_or_lt_of_le hless with hfull | hshort
    · refine ⟨[half], by simpa using hpos, ?_⟩
      rw [waitFor_cons h, hsound.waitFor_nil (hfull.trans (by rw [refill_capacity])),
        refill_capacity, refill_rate]
    · obtain ⟨wait', h'⟩ := hb.refused_of_refused hsound (refill_rate b half) hle h hshort
      rw [← refill_capacity b half] at h' hshort hmore
      obtain ⟨missing, hpos', hwait⟩ := hsound.waitFor_of_half h' hshort hmore
      refine ⟨[half, missing], by simp [hpos, hpos'], ?_⟩
      rw [waitFor_cons h, hwait, refill_capacity, refill_rate]

/-- A call that blocks is one that waits through some sleeps. -/
theorem Sound.acquireBlocking {b : Bucket} (hb : b.Sound) (n : UInt32) :
    (∀ rest, b.acquireBlocking? n = some rest →
        ∃ sleeps, (∀ amount ∈ sleeps, Binary64.le 0 amount = true) ∧
          b.waitFor n sleeps = (rest, .granted (min n b.capacity))) ∧
      (b.acquireBlocking? n = none → b.waitFor n [] = (b, .endless)) := by
  have hnone : b.waitFor n [] =
      b.conclude (min n b.capacity) (b.acquire (min n b.capacity)) := by
    rw [waitFor_eq, sleptFor, slept, refillAll_nil]
  rw [acquireBlocking?, acquireWaiting_eq]
  cases h : b.acquire (min n b.capacity) with
  | granted rest =>
    rw [h] at hnone
    refine ⟨fun rest' he => ⟨[], nofun, ?_⟩, nofun⟩
    rw [← Option.some.inj he]
    exact hnone
  | refused wait =>
    refine ⟨fun rest he => ?_, nofun⟩
    rw [← Option.some.inj he]
    exact hb.exists_sleeps h
  | endless =>
    rw [h] at hnone
    exact ⟨nofun, fun _ => hnone⟩

/-! ## A run of calls -/

/-- All refills of a run, each with the bucket that it found. -/
def refills (b : Bucket) : List BucketCall → List (Bucket × Binary64)
  | [] => []
  | call :: calls => b.trail (b.arrivalsOf call) ++ (b.serve call).1.refills calls

theorem run_cons (b : Bucket) (call : BucketCall) (calls : List BucketCall) :
    b.run (call :: calls) = (b.serve call).1.run calls := by
  rw [run, List.foldl_cons, run]

theorem Sound.run {b : Bucket} (hb : b.Sound) {calls : List BucketCall}
    (h : ∀ call ∈ calls, ∀ amount ∈ call.arrivals, Binary64.le 0 amount = true) :
    (Bucket.run b calls).Sound ∧ (Bucket.run b calls).capacity = b.capacity ∧
      unitsPerOne * ((b.answers calls).map BucketAnswer.taken).sum + (Bucket.run b calls).level =
        b.level + ((b.refills calls).map gain).sum := by
  induction calls generalizing b with
  | nil =>
    refine ⟨hb, rfl, ?_⟩
    rw [answers, refills, List.map_nil, List.map_nil, List.sum_nil, Nat.mul_zero, Nat.zero_add]
    rfl
  | cons call calls ih =>
    obtain ⟨hfirst, hrest⟩ := List.forall_mem_cons.mp h
    have hbalance := hb.balance hfirst
    obtain ⟨hserved, -, hcapacity⟩ := hb.served hfirst
    obtain ⟨hrun, hcapacities, hbalances⟩ := ih hserved hrest
    rw [run_cons, answers, refills, List.map_cons, List.sum_cons, List.map_append,
      List.sum_append, Nat.mul_add]
    exact ⟨hrun, hcapacities.trans hcapacity, by omega⟩

/-- Every refill of a run finds a sound bucket, and it is one of those that the calls
tell of. -/
theorem Sound.mem_refills {b : Bucket} (hb : b.Sound) {calls : List BucketCall}
    (h : ∀ call ∈ calls, ∀ amount ∈ call.arrivals, Binary64.le 0 amount = true) :
    ∀ refill ∈ b.refills calls,
      refill.1.Sound ∧ ∃ call ∈ calls, refill.2 ∈ call.arrivals := by
  induction calls generalizing b with
  | nil => exact fun refill hr => nomatch hr
  | cons call calls ih =>
    obtain ⟨hfirst, hrest⟩ := List.forall_mem_cons.mp h
    intro refill hr
    rcases List.mem_append.mp hr with hr | hr
    · obtain ⟨hsound, hmem⟩ :=
        hb.mem_trail (fun amount hm => hfirst amount (mem_arrivalsOf hm)) refill hr
      exact ⟨hsound, call, List.mem_cons_self, mem_arrivalsOf hmem⟩
    · obtain ⟨hsound, later, hlater, hmem⟩ := ih (hb.served hfirst).1 hrest refill hr
      exact ⟨hsound, later, List.mem_cons_of_mem call hlater, hmem⟩

/-- What a refill brings in is what comes, but for the rounding of the sum. -/
theorem gain_le {refill : Bucket × Binary64} (hb : refill.1.Sound)
    (h : Binary64.le 0 refill.2 = true) (hf : refill.2.isFinite = true) :
    (¬Rounds refill → gain refill ≤ refill.2.units) ∧
      2 ^ 22 * gain refill ≤ 2 ^ 22 * refill.2.units + unitsPerOne := by
  obtain ⟨hexact, hround⟩ := hb.level_refill_le h hf
  have hle := (hb.refill h).2
  simp only [gain]
  exact ⟨fun hfits => Nat.sub_le_iff_le_add'.mpr (hexact (not_not.mp hfits)), by omega⟩

/-- A number of refills bring in what comes, but for the sums that are rounded. -/
theorem gains_le {refills : List (Bucket × Binary64)}
    (h : ∀ refill ∈ refills, refill.1.Sound ∧ Binary64.le 0 refill.2 = true ∧
      refill.2.isFinite = true) :
    2 ^ 22 * (refills.map gain).sum ≤
      2 ^ 22 * (refills.map (·.2.units)).sum + refills.countP (Rounds ·) * unitsPerOne := by
  induction refills with
  | nil => exact Nat.zero_le _
  | cons refill refills ih =>
    obtain ⟨⟨hsound, hpos, hf⟩, hrest⟩ := List.forall_mem_cons.mp h
    obtain ⟨hexact, hround⟩ := gain_le hsound hpos hf
    have hih := ih hrest
    rw [List.map_cons, List.map_cons, List.sum_cons, List.sum_cons, List.countP_cons, Nat.mul_add,
      Nat.mul_add, Nat.add_mul]
    by_cases hr : Rounds refill
    · rw [if_pos (decide_eq_true hr), Nat.one_mul]
      omega
    · rw [if_neg (by simpa using hr), Nat.zero_mul]
      have hgain := hexact hr
      omega

/-- While time stands still a full bucket holds what it has not given away. -/
theorem Sound.tokens_of_still {b : Bucket} (hb : b.Sound) {calls : List BucketCall}
    (hfull : b.level = tokenUnits b.capacity)
    (h : ∀ call ∈ calls, ∀ amount ∈ call.arrivals, amount = 0) :
    ((b.answers calls).map BucketAnswer.taken).sum ≤ b.capacity.toNat ∧
      (Bucket.run b calls).tokens =
        .ofNat (b.capacity.toNat - ((b.answers calls).map BucketAnswer.taken).sum) := by
  have hin : ∀ call ∈ calls, ∀ amount ∈ call.arrivals, Binary64.le 0 amount = true := by
    intro call hc amount hm
    rw [h call hc amount hm]
    exact Binary64.zero_le_zero
  have hgains : ((b.refills calls).map gain).sum = 0 := by
    refine List.sum_eq_zero_iff_forall_eq_nat.mpr fun units hu => ?_
    obtain ⟨refill, hr, rfl⟩ := List.mem_map.mp hu
    obtain ⟨hsound, call, hc, hm⟩ := hb.mem_refills hin refill hr
    rw [gain, h call hc _ hm, hsound.refill_zero, Nat.sub_self]
  obtain ⟨hrun, -, hbalance⟩ := hb.run hin
  rw [hgains, Nat.add_zero, hfull, tokenUnits] at hbalance
  have hle : ((b.answers calls).map BucketAnswer.taken).sum ≤ b.capacity.toNat :=
    Nat.le_of_mul_le_mul_left (Nat.le.intro hbalance) Binary64.unitsPerOne_pos
  refine ⟨hle, ?_⟩
  have hlevel : (Bucket.run b calls).level =
      (b.capacity.toNat - ((b.answers calls).map BucketAnswer.taken).sum) * unitsPerOne := by
    rw [Nat.mul_comm, Nat.mul_sub]
    omega
  obtain ⟨fits, ht⟩ := hrun.tokens
  have hsmall := Nat.lt_trans b.capacity.toNat_lt (by decide : 2 ^ 32 < 2 ^ 53)
  rw [ht, Binary64.ofNat_eq (by omega)]
  simp only [hlevel]

/-- The account of a bucket that was full, after any calls. It never holds less than none
nor more than its capacity. A call gets exactly what it asks for, if that is there with
what came in, and otherwise takes nothing; one that waits asks for no more than the
capacity, and its last attempt counts; to look changes nothing. What was given away and
what is there are the capacity and what came in. That is no more than the capacity and the
amounts of the refills, and `2 ^ -22` of a token for each refill of which the sum with what
was there is no double. While time stands still, what is there is the capacity less what
was given away, exactly. -/
theorem accounting {rate : Binary64} {capacity : UInt32} {b : Bucket}
    (h : full rate capacity = .ok b) {calls : List BucketCall}
    (hin : ∀ call ∈ calls, ∀ amount ∈ call.arrivals, Binary64.le 0 amount = true) :
    let now := b.run calls
    let taken := ((b.answers calls).map BucketAnswer.taken).sum
    (Binary64.le 0 now.tokens = true ∧ Binary64.le now.tokens (count capacity) = true) ∧
      (∀ arrival, Binary64.le 0 arrival = true →
        (∀ n, (now.refill arrival).Takes n (now.serve ⟨arrival, .acquire n⟩) ∧
          ((now.serve ⟨arrival, .acquire n⟩).2 = .granted n ↔
            Binary64.le (count n) (now.refill arrival).tokens = true)) ∧
          (∀ n sleeps, (∀ amount ∈ sleeps, Binary64.le 0 amount = true) →
            ∃ slept, slept <+: sleeps ∧
              ((now.refill arrival).refillAll slept).Takes (min n capacity)
                (now.serve ⟨arrival, .wait n sleeps⟩)) ∧
          now.serve ⟨arrival, .available⟩ =
            (now, .available (now.refill arrival).tokens)) ∧
      (∀ n, (∀ rest, now.acquireBlocking? n = some rest →
          ∃ sleeps, (∀ amount ∈ sleeps, Binary64.le 0 amount = true) ∧
            now.waitFor n sleeps = (rest, .granted (min n capacity))) ∧
        (now.acquireBlocking? n = none → now.waitFor n [] = (now, .endless))) ∧
      (unitsPerOne * taken + now.level =
          unitsPerOne * capacity.toNat + ((b.refills calls).map gain).sum ∧
        (∀ refill ∈ b.refills calls, refill.2.isFinite = true →
          (¬Rounds refill → gain refill ≤ refill.2.units) ∧
            2 ^ 22 * gain refill ≤ 2 ^ 22 * refill.2.units + unitsPerOne) ∧
        ((∀ refill ∈ b.refills calls, refill.2.isFinite = true) →
          2 ^ 22 * (unitsPerOne * taken + now.level) ≤
            2 ^ 22 * (unitsPerOne * capacity.toNat + ((b.refills calls).map (·.2.units)).sum) +
              (b.refills calls).countP (Rounds ·) * unitsPerOne)) ∧
      ((∀ call ∈ calls, ∀ amount ∈ call.arrivals, amount = 0) →
        taken ≤ capacity.toNat ∧ now.tokens = .ofNat (capacity.toNat - taken)) := by
  obtain ⟨hb, hsound, hfull⟩ := full_eq h
  have hcap : b.capacity = capacity := by rw [hb]
  obtain ⟨hrun, hcapacity, hbalance⟩ := hsound.run hin
  rw [hcap] at hcapacity
  rw [hfull, tokenUnits] at hbalance
  have hrefills : ∀ refill ∈ b.refills calls,
      refill.1.Sound ∧ Binary64.le 0 refill.2 = true := fun refill hr => by
    obtain ⟨hs, call, hc, hm⟩ := hsound.mem_refills hin refill hr
    exact ⟨hs, hin call hc _ hm⟩
  intro now taken
  refine ⟨?_, fun arrival ha => ⟨fun n => ?_, fun n sleeps hs => ?_, rfl⟩, fun n => ?_,
    ⟨hbalance, ?_, ?_⟩, ?_⟩
  · rw [← hcapacity]
    exact hrun.bounds
  · have htakes := (hrun.refill ha).1.attempt_takes n
    refine ⟨htakes, htakes.granted_iff⟩
  · have harrivals : ∀ amount ∈ BucketCall.arrivals ⟨arrival, .wait n sleeps⟩,
        Binary64.le 0 amount = true := List.forall_mem_cons.mpr ⟨ha, hs⟩
    refine ⟨(now.refill arrival).sleptFor n sleeps, slept_isPrefix _ _ sleeps, ?_⟩
    rw [← hcapacity]
    exact (hrun.serve harrivals).2.resolve_left nofun
  · rw [← hcapacity]
    exact hrun.acquireBlocking n
  · intro refill hr hf
    exact gain_le (hrefills refill hr).1 (hrefills refill hr).2 hf
  · intro hfinite
    have hgains := gains_le fun refill hr =>
      ⟨(hrefills refill hr).1, (hrefills refill hr).2, hfinite refill hr⟩
    rw [hbalance, Nat.mul_add, Nat.mul_add]
    omega
  · intro hstill
    rw [← hcap] at hfull ⊢
    exact hsound.tokens_of_still hfull hstill

/-- Of three tokens one call takes two, and another gets two after its second sleep. All
sums are doubles. -/
theorem accounting_of_wait :
    let b : Bucket := ⟨10, 3, count 3⟩
    let calls : List BucketCall := [⟨0, .acquire 2⟩, ⟨0, .wait 2 [.ofRatio false 1 2, 3]⟩,
      ⟨0, .available⟩, ⟨0, .acquire 4⟩]
    full 10 3 = .ok b ∧
      (∀ call ∈ calls, ∀ amount ∈ call.arrivals, Binary64.le 0 amount = true) ∧
      b.answers calls = [.granted 2, .granted 2, .available 1, .refused] ∧
      (∀ refill ∈ b.refills calls, refill.2.isFinite = true) ∧
      (b.refills calls).countP (Rounds ·) = 0 ∧
      2 ^ 22 * (unitsPerOne * ((b.answers calls).map BucketAnswer.taken).sum +
          (b.run calls).level) ≤
        2 ^ 22 * (unitsPerOne * (3 : UInt32).toNat + ((b.refills calls).map (·.2.units)).sum) +
          (b.refills calls).countP (Rounds ·) * unitsPerOne := by
  intro b calls
  have hfull : full 10 3 = .ok b := by
    rw [full, if_neg (by decide +kernel), if_neg (by decide)]
  have hin : ∀ call ∈ calls, ∀ amount ∈ call.arrivals, Binary64.le 0 amount = true := by
    decide +kernel
  have hfinite : ∀ refill ∈ b.refills calls, refill.2.isFinite = true := by decide +kernel
  exact ⟨hfull, hin, by decide +kernel, hfinite, by decide +kernel,
    (accounting hfull hin).2.2.2.1.2.2 hfinite⟩

/-- The double next to 7 tenths and the one next to 3 tenths are together less than one
token, and their sum is rounded up to one. So of a bucket for one token two are taken, with
less than one that has come in. -/
theorem more_taken_than_came_in :
    ∃ b, full 1 1 = .ok b ∧
      let calls : List BucketCall := [⟨0, .acquire 1⟩, ⟨.ofRatio false 7 10, .acquire 1⟩,
        ⟨.ofRatio false 3 10, .acquire 1⟩]
      (∀ call ∈ calls, ∀ amount ∈ call.arrivals,
        Binary64.le 0 amount = true ∧ amount.isFinite = true) ∧
      b.answers calls = [.granted 1, .refused, .granted 1] ∧
      unitsPerOne * (1 : UInt32).toNat + ((b.refills calls).map (·.2.units)).sum <
        unitsPerOne * ((b.answers calls).map BucketAnswer.taken).sum := by
  have hfull : full 1 1 = .ok ⟨1, 1, count 1⟩ := by
    rw [full, if_neg (by decide +kernel), if_neg (by decide)]
  exact ⟨_, hfull, by decide +kernel, by decide +kernel, by decide +kernel⟩

end Bucket

end TickFeed
