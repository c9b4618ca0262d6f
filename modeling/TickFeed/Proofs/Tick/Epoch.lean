import TickFeed.Proofs.Json.Integer
import TickFeed.Proofs.Tick.Deletion
import TickFeed.Proofs.Tick.Quoted

/-! # Epochs

An epoch counts seconds, milliseconds, microseconds or nanoseconds, and its size tells which
(`epochFactor`). The sizes do not overlap for instants later than `10 ^ 16` nanoseconds, so such
an instant comes back from a count of it in any unit. An integer that is no timestamp, because
it is not positive or too large, is the earliest or the latest timestamp, also where it is
beyond 64 bits and only a double is read for it (`epoch_recovered`). -/

namespace TickFeed

namespace Json

open Binary64

/-- The value is an integer, of any size. A number with a point or an exponent is a double, and
no integer. -/
inductive StandsFor (k : Int) : Json → Prop where
  /-- A number of 64 bits. -/
  | integer (lower : -2 ^ 63 ≤ k) (upper : k < 2 ^ 64) :
    StandsFor k (.number (.integer k lower upper))
  /-- What is read for a numeral without a point and without an exponent. -/
  | numeral {w : String} {n : Numeral} {v : Number}
    (hw : Document.read? w = some (.number n)) (hk : n.integer? = some k)
    (hv : n.toNumber? = some v) : StandsFor k (.number v)
  /-- The double nearest to an integer that is no signed one of 64 bits. -/
  | double (hfinite : (ofInt k).isFinite = true) (hwide : k < -2 ^ 63 ∨ 2 ^ 63 ≤ k) :
    StandsFor k (.number (.double (.ofInt k) hfinite))
  /-- A text with an optional sign and digits, padded or not. -/
  | text {s : String} (hs : Text.int? (Text.trim s).toList = some k) : StandsFor k (.string s)

variable {k : Int} {v : Json} {x : Binary64}

/-- Nanoseconds in a second, a millisecond, a microsecond and a nanosecond. -/
def epochUnits : List Int := [10 ^ 9, 10 ^ 6, 10 ^ 3, 1]

def epochTime (k : Int) : Int := if k ≤ 0 then 0 else min (k * epochFactor k) (2 ^ 63 - 1)

theorem epochFactor_mem (k : Int) : epochFactor k ∈ epochUnits := by
  unfold epochFactor
  repeat' split
  all_goals decide

/-- A larger count is not one of a larger unit. -/
theorem epochFactor_antitone {j k : Int} (h : j ≤ k) : epochFactor k ≤ epochFactor j := by
  simp only [epochFactor]
  repeat' split
  all_goals omega

/-- A count of a late instant is as large as only counts of its unit are. -/
theorem epochTime_of_unit {n unit : Int} (hlower : 10 ^ 16 < n) (hupper : n < 2 ^ 63)
    (hunit : unit ∈ epochUnits) (hdvd : unit ∣ n) : epochTime (n / unit) = n := by
  obtain ⟨count, rfl⟩ := hdvd
  simp only [epochUnits, List.mem_cons, List.not_mem_nil, or_false] at hunit
  rcases hunit with rfl | rfl | rfl | rfl
  all_goals
    rw [Int.mul_ediv_cancel_left _ (by decide), epochTime, if_neg (by omega)]
    simp only [epochFactor]
    repeat' split
    all_goals omega

/-! ## Integers of 64 bits -/

theorem epoch?_of_exact (hexact : v.exactInt64? = some (.ofInt k)) (hlower : -2 ^ 63 ≤ k)
    (hupper : k < 2 ^ 63) : ∃ ns, v.epoch? = some ns ∧ ns.toInt = epochTime k := by
  rw [epoch?, hexact]
  refine ⟨_, rfl, ?_⟩
  rw [Int64.toInt_ofInt_of_le hlower hupper, epochTime]
  by_cases hk : k ≤ 0
  · rw [if_pos hk, if_pos hk]
    rfl
  · have hprod : 0 < k * epochFactor k := Int.mul_pos (by omega) (epochFactor_pos k)
    rw [if_neg hk, if_neg hk, Int64.toInt_ofInt_of_le] <;> simp only [maxTimestamp] <;> omega

/-! ## Doubles -/

theorem mul_ofNat_one {u : Nat} (hu : Fits u) :
    (.finite false u hu * .ofNat 1 : Binary64) = .finite false u hu := by
  rw [ofNat_eq (by decide), mul_eq, Nat.one_mul, ofUnits_of_fits false unitsPerOne_pos hu]

/-- A double from `2 ^ 63` on counts nanoseconds, and more of them than there are timestamps. -/
theorem truncate_of_reaches {u : Nat} (hu : Fits u) (h : 2 ^ 63 * unitsPerOne ≤ u) :
    lt 0 (.finite false u hu) = true ∧
      truncate maxTimestamp (.finite false u hu * epochFactor64 (.finite false u hu)) =
        maxTimestamp := by
  have hone := unitsPerOne_pos
  have hpower : ofNat (10 ^ 16) = .finite false (10 ^ 16 * unitsPerOne) _ :=
    powerOfTen_eq (by decide : 16 ≤ 22)
  have habove : 10 ^ 16 * unitsPerOne < u :=
    Nat.lt_of_lt_of_le (Nat.mul_lt_mul_of_pos_right (by decide) hone) h
  have hfactor : epochFactor64 (.finite false u hu) = .ofNat 1 := by
    rw [epochFactor64, hpower, lt_eq, if_pos (decide_eq_true habove)]
  have hwhole : 2 ^ 63 ≤ u / unitsPerOne := (Nat.le_div_iff_mul_le hone).mpr h
  constructor
  · rw [zero_eq, lt_eq]
    exact decide_eq_true (by omega)
  · rw [hfactor, mul_ofNat_one, truncate, if_neg Bool.false_ne_true, maxTimestamp]
    exact Nat.min_eq_left (by omega)

theorem epoch?_of_outside (hexact : v.exactInt64? = none) (hx : v.finite? = some x)
    (h : Outside k x) : ∃ ns, v.epoch? = some ns ∧ ns.toInt = epochTime k := by
  rw [epoch?, hexact]
  dsimp only
  rw [hx, Option.map_some]
  refine ⟨_, rfl, ?_⟩
  cases h with
  | early hk hneg =>
    rw [lt_zero_of_isNegative hneg, if_neg Bool.false_ne_true, epochTime, if_pos hk]
    rfl
  | late hk hreaches =>
    cases hreaches with
    | infinite => cases (Option.filter_eq_some_iff.mp hx).2
    | finite hu hle =>
      obtain ⟨hpos, htruncate⟩ := truncate_of_reaches hu hle
      have hfactor : epochFactor k = 1 := if_pos (by omega)
      rw [hpos, if_pos rfl, htruncate, Int64.toInt_ofNat_of_lt (by decide), epochTime,
        if_neg (by omega), hfactor, maxTimestamp]
      omega

/-! ## Values -/

/-- The value is read as the integer, or as a double where the integer is no timestamp. -/
def ExactOrOutside (k : Int) (v : Json) : Prop :=
  (v.exactInt64? = some (.ofInt k) ∧ -2 ^ 63 ≤ k ∧ k < 2 ^ 63) ∨
    v.exactInt64? = none ∧ ∃ x, v.finite? = some x ∧ Outside k x

theorem ExactOrOutside.epoch? (h : ExactOrOutside k v) :
    ∃ ns, v.epoch? = some ns ∧ ns.toInt = epochTime k := by
  rcases h with ⟨hexact, hlower, hupper⟩ | ⟨hexact, x, hx, hout⟩
  · exact epoch?_of_exact hexact hlower hupper
  · exact epoch?_of_outside hexact hx hout

theorem exactOrOutside_integer (hlower : -2 ^ 63 ≤ k) (hupper : k < 2 ^ 64) :
    ExactOrOutside k (.number (.integer k hlower hupper)) := by
  by_cases hk : k < 2 ^ 63
  · exact .inl ⟨if_pos hk, hlower, hk⟩
  · refine .inr ⟨if_neg hk, _, finite?_number _, ?_⟩
    rw [Number.toBinary64, ofInt_eq]
    exact outside_nearest (fun h => decide_eq_true h) (fun h => decide_eq_false (by omega))
      (.inr (by omega))

theorem StandsFor.exactOrOutside (h : StandsFor k v) (hfinite : (ofInt k).isFinite = true) :
    ExactOrOutside k v := by
  cases h with
  | integer hlower hupper => exact exactOrOutside_integer hlower hupper
  | numeral hw hk hv =>
    obtain ⟨_, cs, _, -, hcs, -⟩ := Document.exists_literal hw
    rcases Numeral.toNumber?_cases hv with ⟨j, hlower, hupper, rfl, hj, -⟩ | ⟨hx, rfl, hout⟩
    · obtain rfl := Option.some.inj (hk.symm.trans hj)
      exact exactOrOutside_integer hlower hupper
    · exact .inr ⟨rfl, _, finite?_number _, Numeral.outside_of_numeral hcs hk hx (hout k hk)⟩
  | double _ hwide =>
    refine .inr ⟨rfl, _, finite?_number _, ?_⟩
    rw [Number.toBinary64, ofInt_eq]
    exact outside_nearest (fun h => decide_eq_true h) (fun h => decide_eq_false (by omega))
      (by omega)
  | @text s hs =>
    rw [ExactOrOutside, exactInt64?, Text.int64?, Text.signed?, hs, Option.filter_some]
    by_cases hk : -2 ^ 63 ≤ k ∧ k < 2 ^ 63
    · rw [if_pos (decide_eq_true hk)]
      exact .inl ⟨rfl, hk⟩
    · rw [if_neg fun h => hk (of_decide_eq_true h)]
      obtain ⟨neg, hread, hneg, hpos⟩ := Numeral.read?_of_int? hs
      rw [String.ofList_toList] at hread
      have hsign : decide (k < 0) = neg := by
        by_cases hk0 : k < 0
        · rw [hneg hk0, decide_eq_true hk0]
        · rw [hpos (by omega), decide_eq_false hk0]
      rw [ofInt_eq, hsign] at hfinite
      exact .inr ⟨rfl, _, Option.filter_eq_some_iff.mpr ⟨hread, hfinite⟩,
        outside_nearest hneg hpos (by omega)⟩

theorem StandsFor.timestamp? (h : StandsFor k v) (hfinite : (ofInt k).isFinite = true) :
    ∃ ns, v.timestamp? = some ns ∧ ns.toInt = epochTime k := by
  obtain ⟨ns, hns, htime⟩ := (h.exactOrOutside hfinite).epoch?
  refine ⟨ns, ?_, htime⟩
  cases h with
  | integer _ _ | numeral _ _ _ | double _ _ => exact hns
  | text _ => rw [Json.timestamp?, hns, Option.some_or]

end Json

namespace RawTick

open Json

variable {raw : RawTick} {name symbol : String} {v : Json}

/-- The value under the first name of a timestamp under which one is usable. In front of these
names stands that of an exact time, under which none is. -/
structure FirstTime (raw : RawTick) (name : String) (v : Json) : Prop where
  mem : name ∈ timestampNames
  get? : raw.get? name = some v
  first : ∀ n ∈ earlier name, raw.has n = false

theorem firstOf_of_first {α : Type} {convert : Json → Option α} {before : List String} {a : α}
    (hnull : convert .null = none) (hconvert : ∀ n ∈ before, TakenBy n convert)
    (hbefore : ∀ n ∈ before, raw.has n = false) (ha : (raw.get? name).bind convert = some a)
    (after : List String) : raw.fields.firstOf (before ++ name :: after) convert = some a := by
  have ha' : (raw.fields.get? name).bind convert = some a := ha
  induction before with
  | nil => rw [List.nil_append, firstOf_cons hnull, ha', Option.some_or]
  | cons n before ih =>
    obtain ⟨hfirst, hrest⟩ := List.forall_mem_cons.mp hconvert
    obtain ⟨hn, hunusable⟩ := List.forall_mem_cons.mp hbefore
    have hnone : (raw.fields.get? n).bind convert = none := by
      rw [← Option.not_isSome_iff_eq_none]
      exact Bool.eq_false_iff.mp ((hfirst.isSome raw).trans hn)
    rw [List.cons_append, firstOf_cons hnull, hnone, Option.none_or, ih hrest hunusable]

theorem FirstTime.timestamp (h : raw.FirstTime name v) {ns : Int64} (hv : v.timestamp? = some ns) :
    raw.timestamp = ns := by
  obtain ⟨before, after, hsplit⟩ := List.append_of_mem h.mem
  have hearlier : earlier name = "timestamp_ns" :: before := by
    refine earlier_of_mem _ after ?_
    rw [List.cons_append, ← hsplit]
    decide
  obtain ⟨hns, hbefore⟩ := List.forall_mem_cons.mp (hearlier ▸ h.first)
  have hexact : (raw.get? "timestamp_ns").bind exactInt64? = none := by
    have htaken : TakenBy "timestamp_ns" exactInt64? := fun _ => rfl
    rw [← Option.not_isSome_iff_eq_none]
    exact Bool.eq_false_iff.mp ((htaken.isSome raw).trans hns)
  have hall : ∀ n ∈ timestampNames, TakenBy n Json.timestamp? :=
    takenBy_of_kind (k := .time) (by decide) fun _ => rfl
  have hread : raw.fields.firstOf timestampNames Json.timestamp? = some ns := by
    rw [hsplit]
    refine firstOf_of_first rfl (fun n hn => hall n ?_) hbefore (by rw [h.get?]; exact hv) after
    rw [hsplit]
    exact List.mem_append_left _ hn
  rw [RawTick.timestamp, hexact]
  dsimp only
  rw [hread, Option.getD_some]

/-- **Epochs.** An instant later than `10 ^ 16` nanoseconds is recovered from a count of it in
seconds, milliseconds, microseconds or nanoseconds, as a number or as text, under whichever name
is the first usable one. Any other integer there is multiplied by a unit, which is the smaller
the larger the integer is; what is not positive is zero, what is too large is the latest
timestamp, and no timestamp is negative. -/
theorem epoch_recovered (hsymbol : raw.symbol? = some symbol) (hfirst : raw.FirstTime name v) :
    (∀ n unit, 10 ^ 16 < n → n ≤ 2 ^ 63 - 1 → unit ∈ epochUnits → unit ∣ n →
      v.StandsFor (n / unit) → ∃ t, raw.normalize = .ok t ∧ t.timestamp.toInt = n) ∧
    (∀ k, v.StandsFor k → (Binary64.ofInt k).isFinite = true →
      ∃ t, raw.normalize = .ok t ∧ 0 ≤ t.timestamp ∧ t.timestamp.toInt =
        if k ≤ 0 then 0 else min (k * epochFactor k) (2 ^ 63 - 1)) ∧
    (∀ k, epochFactor k ∈ epochUnits) ∧ ∀ j k, j ≤ k → epochFactor k ≤ epochFactor j := by
  have hok : raw.normalize = .ok (raw.toTick symbol) := by
    rw [normalize, hsymbol]
  have htime (k : Int) (hv : v.StandsFor k) (hfinite : (Binary64.ofInt k).isFinite = true) :
      (raw.toTick symbol).timestamp.toInt = epochTime k := by
    obtain ⟨ns, hns, hk⟩ := hv.timestamp? hfinite
    rw [← hk, ← hfirst.timestamp hns]
    rfl
  refine ⟨fun n unit hlower hupper hunit hdvd hv => ⟨_, hok, ?_⟩,
    fun k hv hfinite => ⟨_, hok, raw.timestamp_nonneg, htime k hv hfinite⟩,
    epochFactor_mem, fun _ _ => epochFactor_antitone⟩
  have hfits : 0 ≤ n / unit ∧ n / unit ≤ n := by
    have hpos : 0 < unit := (by decide : ∀ u ∈ epochUnits, (0 : Int) < u) unit hunit
    exact ⟨Int.ediv_nonneg (by omega) (Int.le_of_lt hpos), Int.ediv_le_self _ (by omega)⟩
  have hfinite : (Binary64.ofInt (n / unit)).isFinite = true :=
    (Number.integer (n / unit) (by omega) (by omega)).isFinite_toBinary64
  rw [htime _ hv hfinite, epochTime_of_unit hlower (by omega) hunit hdvd]

/-- A count of milliseconds that is one more than the largest count of seconds, behind names
that are not usable, and a count beyond 64 bits. -/
theorem epoch_recovered_of_millis :
    let raw : RawTick := ⟨.ofStrings [("symbol", "NIFTY"), ("timestamp_ns", "soon"),
      ("exchange_timestamp", " "), ("last_traded_timestamp", " 10000000001 "), ("timestamp", "1")]⟩
    let late : RawTick := ⟨.ofStrings [("symbol", "NIFTY"), ("timestamp", "+123456789012345678901")]⟩
    (∃ t, raw.normalize = .ok t ∧ t.timestamp.toInt = 10000000001000000) ∧
      ∃ t, late.normalize = .ok t ∧ t.timestamp.toInt = 2 ^ 63 - 1 := by
  intro raw late
  have hraw : raw.FirstTime "last_traded_timestamp" (.string " 10000000001 ") :=
    ⟨by decide, by rfl, by decide +kernel⟩
  have hlate : late.FirstTime "timestamp" (.string "+123456789012345678901") :=
    ⟨by decide, by rfl, by decide +kernel⟩
  have hsymbol : raw.symbol? = some "NIFTY" := by rfl
  have hlateSymbol : late.symbol? = some "NIFTY" := by rfl
  constructor
  · exact (epoch_recovered hsymbol hraw).1 10000000001000000 (10 ^ 6) (by decide) (by decide)
      (by decide) (by decide) (.text (by rfl))
  · obtain ⟨t, ht, -, htime⟩ := (epoch_recovered hlateSymbol hlate).2.1
      123456789012345678901 (.text (by rfl)) (by decide +kernel)
    exact ⟨t, ht, htime⟩

end RawTick

end TickFeed
