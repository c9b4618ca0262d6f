import TickFeed.RateLimit.Sharing

/-! # Classes of calls do not interfere

A use of one class changes the bucket of that class and no other (`limiter_use`). So, by
induction on the uses, what is seen of a class in any interleaving is what a bucket of its
own would show (`sights_part`), and `classes_do_not_interfere` says so of the limits that a
configuration makes. -/

namespace TickFeed

/-- Of things marked with classes those of one class, in their order. -/
def CallClass.part {α : Type} (c : CallClass) (marked : List (CallClass × α)) : List α :=
  (marked.filter (·.1 = c)).map (·.2)

namespace CallClass

variable {α : Type}

@[simp] theorem part_cons_self (c : CallClass) (a : α) (rest : List (CallClass × α)) :
    c.part ((c, a) :: rest) = a :: c.part rest := by
  simp [part]

theorem part_cons_of_ne {c d : CallClass} (h : d ≠ c) (a : α) (rest : List (CallClass × α)) :
    c.part ((d, a) :: rest) = c.part rest := by
  simp [part, h]

end CallClass

/-! ## The buckets of a configuration -/

namespace BrokerLimits

theorem bucket_eq_ok_iff {config : RateLimitConfig} {c : CallClass} {b : Bucket} :
    bucket config c = .ok b ↔
      Bucket.full (config.get c).rate (config.get c).capacity = .ok b := by
  rw [bucket]
  cases Bucket.full (config.get c).rate (config.get c).capacity with
  | error e => exact iff_of_false nofun nofun
  | ok full =>
    constructor
    · exact fun h => congrArg Except.ok (Except.ok.inj h)
    · exact fun h => congrArg Except.ok (Except.ok.inj h)

/-- The limits are made exactly of a bucket for each class. -/
theorem ofConfig_eq_ok_iff {config : RateLimitConfig} {limits : BrokerLimits} :
    ofConfig config = .ok limits ↔ ∀ c, bucket config c = .ok (limits.limiter c) := by
  constructor
  · intro h
    rw [ofConfig] at h
    cases hhistorical : bucket config .historical with
    | error e =>
      rw [hhistorical] at h
      cases h
    | ok historical =>
      rw [hhistorical] at h
      cases horder : bucket config .orderPlacement with
      | error e =>
        rw [horder] at h
        cases h
      | ok order =>
        rw [horder] at h
        cases hquote : bucket config .quote with
        | error e =>
          rw [hquote] at h
          cases h
        | ok quote =>
          rw [hquote] at h
          cases h
          rintro (_ | _ | _)
          · exact hhistorical
          · exact horder
          · exact hquote
  · intro h
    rw [ofConfig, h, h, h]
    rfl

theorem exists_ofConfig_iff {config : RateLimitConfig} :
    (∃ limits, ofConfig config = .ok limits) ↔ ∀ c, ∃ b, bucket config c = .ok b := by
  constructor
  · rintro ⟨limits, h⟩ c
    exact ⟨_, ofConfig_eq_ok_iff.mp h c⟩
  · intro h
    refine ⟨.ofFunction fun c => (h c).choose, ofConfig_eq_ok_iff.mpr fun c => ?_⟩
    rw [limiter, PerClass.get_ofFunction]
    exact (h c).choose_spec

/-! ## Uses -/

/-- A use changes the bucket of its class and no other. -/
theorem limiter_use (l : BrokerLimits) (c d : CallClass) (u : BucketUse) :
    (l.use d u).1.limiter c = if d = c then ((l.limiter c).use u).1 else l.limiter c := by
  rw [use, limiter, PerClass.get_set]
  split
  next h => rw [h]
  next => rfl

theorem limiter_use_self (l : BrokerLimits) (c : CallClass) (u : BucketUse) :
    (l.use c u).1.limiter c = ((l.limiter c).use u).1 := by
  rw [limiter_use, if_pos rfl]

theorem limiter_use_of_ne (l : BrokerLimits) {c d : CallClass} (h : d ≠ c) (u : BucketUse) :
    (l.use d u).1.limiter c = l.limiter c := by
  rw [limiter_use, if_neg h]

/-- What a class shows of any uses is what its bucket shows of its own ones. -/
theorem sights_part (l : BrokerLimits) (c : CallClass) (uses : List (CallClass × BucketUse)) :
    c.part (l.sights uses) = (l.limiter c).sights (c.part uses) := by
  induction uses generalizing l with
  | nil => rfl
  | cons marked uses ih =>
    obtain ⟨d, u⟩ := marked
    by_cases h : d = c
    · subst h
      rw [sights, CallClass.part_cons_self, CallClass.part_cons_self, Bucket.sights, ih,
        limiter_use_self]
      rfl
    · rw [sights, CallClass.part_cons_of_ne h, CallClass.part_cons_of_ne h, ih,
        limiter_use_of_ne l h]

theorem limiter_useAll (l : BrokerLimits) (c : CallClass) (uses : List (CallClass × BucketUse)) :
    (l.useAll uses).limiter c = (l.limiter c).useAll (c.part uses) := by
  induction uses generalizing l with
  | nil => rfl
  | cons marked uses ih =>
    obtain ⟨d, u⟩ := marked
    have hstep : (l.useAll ((d, u) :: uses)).limiter c =
        ((l.use d u).1.limiter c).useAll (c.part uses) := ih (l.use d u).1
    by_cases h : d = c
    · subst h
      rw [hstep, CallClass.part_cons_self, limiter_use_self]
      rfl
    · rw [hstep, CallClass.part_cons_of_ne h, limiter_use_of_ne l h]

/-- **Classes do not interfere.** The class whose limit is set is the one whose limit is
read; the limits of the other classes stay. A configuration makes the limits of all classes
exactly if each of its limits makes a bucket, and a class is handed the bucket of its own
limit. In any interleaving of uses each class is told, and has left, exactly what a bucket
of its own with that rate and capacity would show of the uses of that class alone, whatever
comes in; a use of another class, granted or refused or without an answer, leaves its bucket
as it is. -/
theorem classes_do_not_interfere (config : RateLimitConfig) :
    (∀ c limit, (config.set c limit).get c = limit ∧
      ∀ d, d ≠ c → (config.set c limit).get d = config.get d) ∧
    ((∃ limits, ofConfig config = .ok limits) ↔
      ∀ c, ∃ alone, Bucket.full (config.get c).rate (config.get c).capacity = .ok alone) ∧
    ∀ limits, ofConfig config = .ok limits →
      (∀ c alone, Bucket.full (config.get c).rate (config.get c).capacity = .ok alone →
        limits.limiter c = alone ∧
        ∀ uses, c.part (limits.sights uses) = alone.sights (c.part uses) ∧
          (limits.useAll uses).limiter c = alone.useAll (c.part uses)) ∧
      (∀ uses c d u, d ≠ c →
        ((limits.useAll uses).use d u).1.limiter c = (limits.useAll uses).limiter c) ∧
      ∀ c limit changed, ofConfig (config.set c limit) = .ok changed →
        Bucket.full limit.rate limit.capacity = .ok (changed.limiter c) ∧
          ∀ d, d ≠ c → changed.limiter d = limits.limiter d := by
  have hset : ∀ c limit, (config.set c limit).get c = limit ∧
      ∀ d, d ≠ c → (config.set c limit).get d = config.get d := by
    refine fun c limit => ⟨?_, fun d hd => ?_⟩
    · rw [PerClass.get_set, if_pos rfl]
    · rw [PerClass.get_set, if_neg (Ne.symm hd)]
  refine ⟨hset, ?_, fun limits hlimits => ⟨fun c alone halone => ?_,
    fun uses c d u hd => limiter_use_of_ne _ hd u, fun c limit changed hchanged => ?_⟩⟩
  · simp only [exists_ofConfig_iff, bucket_eq_ok_iff]
  · have hc := bucket_eq_ok_iff.mp (ofConfig_eq_ok_iff.mp hlimits c)
    obtain rfl : limits.limiter c = alone := Except.ok.inj (hc.symm.trans halone)
    exact ⟨rfl, fun uses => ⟨limits.sights_part c uses, limits.limiter_useAll c uses⟩⟩
  · have hfull := fun d => bucket_eq_ok_iff.mp (ofConfig_eq_ok_iff.mp hchanged d)
    refine ⟨?_, fun d hd => ?_⟩
    · rw [← (hset c limit).1]
      exact hfull c
    · have hd' := hfull d
      rw [(hset c limit).2 d hd] at hd'
      have hbefore := bucket_eq_ok_iff.mp (ofConfig_eq_ok_iff.mp hlimits d)
      exact Except.ok.inj (hd'.symm.trans hbefore)

/-- Quotes are so slow that the second of them has no answer, and an order is refused; each
class goes on as if it were alone. -/
theorem classes_do_not_interfere_without_answer :
    let slow : RateLimit := ⟨.ofRatio false 1 (10 ^ 20), 1⟩
    let config : RateLimitConfig := RateLimitConfig.default.set .quote slow
    let limits : BrokerLimits :=
      ⟨⟨3, 3, Bucket.count 3⟩, ⟨10, 10, Bucket.count 10⟩, ⟨slow.rate, 1, Bucket.count 1⟩⟩
    let acquire := fun (n : UInt32) => BucketUse.call ⟨0, .acquire n⟩
    let sights := limits.sights [(.quote, acquire 1), (.orderPlacement, acquire 7),
      (.quote, acquire 1), (.orderPlacement, acquire 4), (.historical, .block 0 9),
      (.quote, .call ⟨0, .available⟩), (.orderPlacement, .call ⟨0, .wait 3 []⟩)]
    ofConfig config = .ok limits ∧
      CallClass.quote.part sights = [⟨.granted 1, 0⟩, ⟨.endless, 0⟩, ⟨.available 0, 0⟩] ∧
      CallClass.orderPlacement.part sights = [⟨.granted 7, 3⟩, ⟨.refused, 3⟩, ⟨.granted 3, 0⟩] ∧
      CallClass.historical.part sights = [⟨.granted 3, 0⟩] := by
  intro slow config limits acquire sights
  have hfull : ∀ c, Bucket.full (config.get c).rate (config.get c).capacity =
      .ok (limits.limiter c) := by
    rintro (_ | _ | _) <;> rw [Bucket.full, if_neg (by decide +kernel), if_neg (by decide)] <;>
      rfl
  have hconfig : ofConfig config = .ok limits :=
    ofConfig_eq_ok_iff.mpr fun c => bucket_eq_ok_iff.mpr (hfull c)
  have halone := fun c => ((classes_do_not_interfere config).2.2 limits hconfig).1 c _ (hfull c)
  refine ⟨hconfig, ?_, ?_, ?_⟩
  · rw [((halone .quote).2 _).1]
    decide +kernel
  · rw [((halone .orderPlacement).2 _).1]
    decide +kernel
  · rw [((halone .historical).2 _).1]
    decide +kernel

end BrokerLimits

end TickFeed
