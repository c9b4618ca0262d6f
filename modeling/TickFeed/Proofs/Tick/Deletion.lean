import TickFeed.Proofs.Catalog.Resolution
import TickFeed.Proofs.Json.Fields

/-! # Entries that do not count

An entry of a raw tick counts when it is read, is usable for what it is read as, and no
usable entry stands in front of it. All others may go: each reader answers the same without
them, and so does normalization, with a lookup and without one (`normalize_without`). -/

namespace TickFeed

namespace RawTick

/-- The names under which a tick is read. Those of one list stand for one thing, and the
first usable one of them counts. -/
def precedence : List (List String) :=
  [symbolNames ++ tokenNames, exchangeNames ++ ["exchange_type"],
    "timestamp_ns" :: timestampNames, ltpNames, bidNames, askNames, bidQtyNames, askQtyNames,
    volumeNames, seqNames, ["best_5_buy_data"], ["best_5_sell_data"], ["subscription_mode"]]

def earlier (name : String) : List String :=
  ((precedence.find? (·.contains name)).getD []).takeWhile (· ≠ name)

/-- What a value is read as. -/
inductive Kind where
  | text
  | feedCode
  | exactTime
  | time
  | price
  | quantity
  | levels
  | mark
deriving DecidableEq

def kind (name : String) : Kind :=
  if name ∈ symbolNames ++ tokenNames ++ exchangeNames then .text
  else if name = "exchange_type" then .feedCode
  else if name = "timestamp_ns" then .exactTime
  else if name ∈ timestampNames then .time
  else if name ∈ ltpNames ++ bidNames ++ askNames then .price
  else if name ∈ bidQtyNames ++ askQtyNames ++ volumeNames ++ seqNames then .quantity
  else if name ∈ ["best_5_buy_data", "best_5_sell_data"] then .levels
  else .mark

/-- The value can be read. A mark is anything but null. -/
def Kind.takes : Kind → Json → Bool
  | .text, v => v.text?.isSome
  | .feedCode, v => (v.quantity?.bind Exchange.ofFeedCode?).isSome
  | .exactTime, v => v.exactInt64?.isSome
  | .time, v => v.timestamp?.isSome
  | .price, v => v.price?.isSome
  | .quantity, v => v.quantity?.isSome
  | .levels, v => (topOf? v).isSome
  | .mark, v => !v.isNull

def has (raw : RawTick) (name : String) : Bool := (raw.get? name).any (kind name).takes

/-- Why an entry does not count. -/
inductive Unseen (raw : RawTick) (name : String) : Prop where
  | unread (h : name ∉ precedence.flatten)
  | unusable (h : raw.has name = false)
  | shadowed {n : String} (h : n ∈ earlier name) (hn : raw.has n = true)

def without (raw : RawTick) (names : List String) : RawTick := ⟨raw.fields.without names⟩

/-- `raw'` is `raw` without some of the entries that do not count. -/
def Thinned (raw raw' : RawTick) : Prop :=
  ∀ name, raw'.get? name = raw.get? name ∨ raw'.get? name = none ∧ raw.Unseen name

variable {raw raw' : RawTick} {α : Type}

theorem thinned_without {names : List String} (h : ∀ name ∈ names, raw.Unseen name) :
    Thinned raw (raw.without names) := by
  intro name
  rw [show (raw.without names).get? name = _ from raw.fields.get?_without names name]
  split
  · exact .inr ⟨rfl, h name ‹_›⟩
  · exact .inl rfl

theorem earlier_eq : ∀ names ∈ precedence, ∀ i (h : i < names.length),
    earlier names[i] = names.take i := by
  decide

theorem earlier_of_mem (before after : List String) {name : String}
    (h : before ++ name :: after ∈ precedence) : earlier name = before := by
  simpa using earlier_eq _ h before.length (by simp)

/-! ## One entry -/

def TakenBy (name : String) (convert : Json → Option α) : Prop :=
  ∀ v, (kind name).takes v = (convert v).isSome

variable {name : String} {convert : Json → Option α}

theorem TakenBy.isSome (h : TakenBy name convert) (raw : RawTick) :
    ((raw.get? name).bind convert).isSome = raw.has name := by
  rw [has]
  cases raw.get? name with
  | none => rfl
  | some v => exact (h v).symm

theorem Thinned.bind (h : Thinned raw raw') (hconvert : TakenBy name convert)
    (hread : name ∈ precedence.flatten) (hearlier : ∀ n ∈ earlier name, raw.has n = false) :
    (raw'.get? name).bind convert = (raw.get? name).bind convert := by
  rcases h name with heq | ⟨hnone, hunseen⟩
  · rw [heq]
  rw [hnone]
  cases hunseen with
  | unread hunread => exact absurd hread hunread
  | unusable hhas =>
    rw [← hconvert.isSome] at hhas
    exact (Option.not_isSome_iff_eq_none.mp (Bool.eq_false_iff.mp hhas)).symm
  | shadowed hn hhas => exact absurd hhas (Bool.eq_false_iff.mp (hearlier _ hn))

/-! ## The first of several names -/

theorem firstOf_eq_none_iff {names : List String} (hnull : convert .null = none)
    (hconvert : ∀ name ∈ names, TakenBy name convert) :
    raw.fields.firstOf names convert = none ↔ ∀ name ∈ names, raw.has name = false := by
  induction names with
  | nil => exact iff_of_true rfl (fun _ h => nomatch h)
  | cons name names ih =>
    obtain ⟨hfirst, hrest⟩ := List.forall_mem_cons.mp hconvert
    rw [Json.firstOf_cons hnull, Option.or_eq_none_iff, ih hrest, List.forall_mem_cons,
      ← hfirst.isSome, Option.isSome_eq_false_iff, Option.isNone_iff_eq_none]
    rfl

/-- The names are a piece of a list, behind names that are not usable. -/
theorem Thinned.firstOf (h : Thinned raw raw') (before after : List String) {names : List String}
    (hnames : before ++ names ++ after ∈ precedence) (hbefore : ∀ n ∈ before, raw.has n = false)
    (hnull : convert .null = none) (hconvert : ∀ name ∈ names, TakenBy name convert) :
    raw'.fields.firstOf names convert = raw.fields.firstOf names convert := by
  induction names generalizing before with
  | nil => rfl
  | cons name names ih =>
    obtain ⟨hfirst, hrest⟩ := List.forall_mem_cons.mp hconvert
    have hplace : before ++ name :: (names ++ after) ∈ precedence := by
      simpa only [List.append_assoc, List.cons_append] using hnames
    have hread : name ∈ precedence.flatten :=
      List.mem_flatten_of_mem hplace (List.mem_append_right _ List.mem_cons_self)
    have hname : (raw'.fields.get? name).bind convert = (raw.fields.get? name).bind convert :=
      h.bind hfirst hread (by rwa [earlier_of_mem before _ hplace])
    rw [Json.firstOf_cons hnull, Json.firstOf_cons hnull, hname]
    cases hvalue : (raw.fields.get? name).bind convert with
    | some a => rfl
    | none =>
      -- nothing usable is under the name, so the rest is behind unusable names again
      have hhas : raw.has name = false := by
        rw [← hfirst.isSome]
        exact congrArg Option.isSome hvalue
      rw [ih (before ++ [name]) (by simpa using hnames) ?_ hrest]
      intro n hn
      rcases List.mem_append.mp hn with hn | hn
      · exact hbefore n hn
      · rwa [List.mem_singleton.mp hn]

/-! ## The readers -/

theorem takenBy_of_kind {k : Kind} {names : List String} (hkind : ∀ name ∈ names, kind name = k)
    (htakes : ∀ v, k.takes v = (convert v).isSome) : ∀ name ∈ names, TakenBy name convert := by
  intro name hname v
  rw [hkind name hname, htakes]

/-- A whole list with one reader. -/
theorem Thinned.firstOf_all (h : Thinned raw raw') {names : List String} {k : Kind}
    (hnames : names ∈ precedence) (hkind : ∀ name ∈ names, kind name = k)
    (hnull : convert .null = none) (htakes : ∀ v, k.takes v = (convert v).isSome) :
    raw'.fields.firstOf names convert = raw.fields.firstOf names convert :=
  h.firstOf [] [] (by simpa using hnames) (fun _ h => nomatch h) hnull
    (takenBy_of_kind hkind htakes)

theorem takenBy_symbol : ∀ name ∈ symbolNames, TakenBy name Json.text? :=
  takenBy_of_kind (k := .text) (by decide) fun _ => rfl

theorem Thinned.symbol? (h : Thinned raw raw') : raw'.symbol? = raw.symbol? :=
  h.firstOf [] tokenNames (by decide) (fun _ h => nomatch h) rfl takenBy_symbol

theorem Thinned.token? (h : Thinned raw raw') (hsymbol : raw.symbol? = none) :
    raw'.token? = raw.token? :=
  h.firstOf symbolNames [] (by decide)
    ((firstOf_eq_none_iff rfl takenBy_symbol).mp hsymbol) rfl
    (takenBy_of_kind (k := .text) (by decide) fun _ => rfl)

theorem takenBy_exchange : ∀ name ∈ exchangeNames, TakenBy name Json.text? :=
  takenBy_of_kind (k := .text) (by decide) fun _ => rfl

theorem Thinned.exchangeHint (h : Thinned raw raw') : raw'.exchangeHint = raw.exchangeHint := by
  have hcode : raw'.fields.firstOf exchangeNames Json.text? =
      raw.fields.firstOf exchangeNames Json.text? :=
    h.firstOf [] ["exchange_type"] (by decide) (fun _ h => nomatch h) rfl takenBy_exchange
  rw [RawTick.exchangeHint, RawTick.exchangeHint, hcode]
  cases hnamed : raw.fields.firstOf exchangeNames Json.text? with
  | some code => rfl
  | none =>
    dsimp only
    rw [Option.bind_assoc, Option.bind_assoc]
    exact h.bind (fun _ => rfl) (by decide) ((firstOf_eq_none_iff rfl takenBy_exchange).mp hnamed)

theorem Thinned.timestamp (h : Thinned raw raw') : raw'.timestamp = raw.timestamp := by
  have htaken : TakenBy "timestamp_ns" Json.exactInt64? := fun _ => rfl
  have hexact : (raw'.get? "timestamp_ns").bind Json.exactInt64? =
      (raw.get? "timestamp_ns").bind Json.exactInt64? :=
    h.bind htaken (by decide) (fun _ h => nomatch h)
  rw [RawTick.timestamp, RawTick.timestamp, hexact]
  cases hns : (raw.get? "timestamp_ns").bind Json.exactInt64? with
  | some ns => rfl
  | none =>
    have hhas : raw.has "timestamp_ns" = false := by
      rw [← htaken.isSome, hns]
      rfl
    have hother : raw'.fields.firstOf timestampNames Json.timestamp? =
        raw.fields.firstOf timestampNames Json.timestamp? :=
      h.firstOf ["timestamp_ns"] [] (by decide)
        (fun n hn => List.mem_singleton.mp hn ▸ hhas) rfl
        (takenBy_of_kind (k := .time) (by decide) fun _ => rfl)
    dsimp only
    rw [hother]

theorem Thinned.isStreaming (h : Thinned raw raw') : raw'.isStreaming = raw.isStreaming := by
  have htaken : TakenBy "subscription_mode" (Option.guard fun v => !v.isNull) :=
    fun _ => Option.isSome_guard.symm
  have hstreaming (raw : RawTick) : raw.isStreaming = raw.has "subscription_mode" := by
    rw [RawTick.isStreaming, has]
    cases raw.get? "subscription_mode" <;> rfl
  rw [hstreaming, hstreaming, ← htaken.isSome, ← htaken.isSome,
    h.bind htaken (by decide) fun _ hn => absurd hn List.not_mem_nil]

theorem Thinned.topLevel? (h : Thinned raw raw') {name : String}
    (hname : name ∈ ["best_5_buy_data", "best_5_sell_data"]) :
    raw'.topLevel? name = raw.topLevel? name := by
  have hplace : [name] ∈ precedence ∧ kind name = .levels := by
    revert name
    decide
  rw [topLevel?_eq, topLevel?_eq]
  refine h.bind (fun v => hplace.2 ▸ rfl) ?_ ?_
  · exact List.mem_flatten_of_mem hplace.1 List.mem_cons_self
  · rw [earlier_of_mem [] [] hplace.1]
    exact fun _ h => nomatch h

theorem Thinned.sameQuote (h : Thinned raw raw') : SameQuote raw raw' where
  timestamp := h.timestamp
  isStreaming := h.isStreaming
  ltp := h.firstOf_all (k := .price) (by decide) (by decide) rfl fun _ => rfl
  bid := by
    rw [quotedPrice, quotedPrice, h.topLevel? (by decide),
      h.firstOf_all (k := .price) (by decide) (by decide) rfl fun _ => rfl]
  ask := by
    rw [quotedPrice, quotedPrice, h.topLevel? (by decide),
      h.firstOf_all (k := .price) (by decide) (by decide) rfl fun _ => rfl]
  bidQty := by
    rw [quotedQty, quotedQty, h.topLevel? (by decide),
      h.firstOf_all (k := .quantity) (by decide) (by decide) rfl fun _ => rfl]
  askQty := by
    rw [quotedQty, quotedQty, h.topLevel? (by decide),
      h.firstOf_all (k := .quantity) (by decide) (by decide) rfl fun _ => rfl]
  volume := h.firstOf_all (k := .quantity) (by decide) (by decide) rfl fun _ => rfl
  seq := h.firstOf_all (k := .quantity) (by decide) (by decide) rfl fun _ => rfl

theorem Thinned.normalize (h : Thinned raw raw') : raw'.normalize = raw.normalize :=
  normalize_congr h.sameQuote h.symbol? h.token? h.exchangeHint

/-! ## The second pass -/

theorem has_insert {name n : String} (hne : n ≠ name) (v : Json) :
    (raw.insert name v).has n = raw.has n := by
  rw [has, get?_insert, if_neg hne, has]

/-- An entry that is not usable hides nothing, so it may be replaced. -/
theorem Unseen.insert {name n : String} (h : raw.Unseen n) (hname : raw.has name = false)
    (hne : n ≠ name) (v : Json) : (raw.insert name v).Unseen n := by
  cases h with
  | unread hunread => exact .unread hunread
  | unusable hhas => exact .unusable ((has_insert hne v).trans hhas)
  | shadowed hn hhas =>
    refine .shadowed hn ((has_insert ?_ v).trans hhas)
    rintro rfl
    exact absurd hhas (Bool.eq_false_iff.mp hname)

theorem Thinned.insert (h : Thinned raw raw') {name : String} (hname : raw.has name = false)
    (v : Json) : Thinned (raw.insert name v) (raw'.insert name v) := by
  intro n
  rw [get?_insert, get?_insert]
  by_cases hn : n = name
  · rw [if_pos hn, if_pos hn]
    exact .inl rfl
  · rw [if_neg hn, if_neg hn]
    exact (h n).imp_right fun ⟨hnone, hunseen⟩ => ⟨hnone, hunseen.insert hname hn v⟩

theorem has_symbol (h : raw.symbol? = none) : raw.has "symbol" = false :=
  (firstOf_eq_none_iff rfl takenBy_symbol).mp h "symbol" (by decide)

theorem has_exchange (h : raw.exchangeHint = none) : raw.has "exchange" = false := by
  rw [exchangeHint] at h
  split at h
  · cases h
  next hnone => exact (firstOf_eq_none_iff rfl takenBy_exchange).mp hnone "exchange" (by decide)

/-- The identity is written where there was none. -/
theorem Thinned.identify (h : Thinned raw raw') (hsymbol : raw.symbol? = none) (i : Instrument) :
    Thinned (raw.identify i) (raw'.identify i) := by
  have hnamed : Thinned (raw.insert "symbol" (.string i.symbol))
      (raw'.insert "symbol" (.string i.symbol)) := h.insert (has_symbol hsymbol) _
  rw [RawTick.identify, RawTick.identify, h.exchangeHint]
  cases hhint : raw.exchangeHint with
  | some e => exact hnamed
  | none => exact hnamed.insert ((has_insert (by decide) _).trans (has_exchange hhint)) _

theorem Thinned.normalizeWith (h : Thinned raw raw') (lookup : InstrumentLookup) :
    raw'.normalizeWith lookup = raw.normalizeWith lookup := by
  have alone (hother : raw.symbol? ≠ none ∨ raw.token? = none)
      (hother' : raw'.symbol? ≠ none ∨ raw'.token? = none) :
      raw'.normalizeWith lookup = raw.normalizeWith lookup := by
    rw [normalizeWith_other lookup hother, normalizeWith_other lookup hother', h.normalize]
  cases hsymbol : raw.symbol? with
  | some s =>
    have hne : raw.symbol? ≠ none := hsymbol ▸ Option.some_ne_none s
    exact alone (.inl hne) (.inl (h.symbol? ▸ hne))
  | none =>
    cases htoken : raw.token? with
    | none => exact alone (.inr htoken) (.inr ((h.token? hsymbol).trans htoken))
    | some token =>
      rw [normalizeWith_token lookup hsymbol htoken,
        normalizeWith_token lookup (h.symbol?.trans hsymbol) ((h.token? hsymbol).trans htoken),
        h.exchangeHint]
      cases lookup token raw.exchangeHint with
      | none => rfl
      | some i => exact (h.identify hsymbol i).normalize

/-- **Entries that do not count**: without any of them that one likes, each of them under a
name that is not read, not usable, or behind a usable one, the tick is normalized to the
same, and rejected for the same reason, be it alone or with any lookup. -/
theorem normalize_without (raw : RawTick) (names : List String)
    (h : ∀ name ∈ names, raw.Unseen name) :
    (raw.without names).normalize = raw.normalize ∧
      ∀ lookup, (raw.without names).normalizeWith lookup = raw.normalizeWith lookup :=
  ⟨(thinned_without h).normalize, (thinned_without h).normalizeWith⟩

/-- A remark is not read, a price in words is not usable, and a token is behind the symbol. -/
theorem normalize_without_remark :
    let raw : RawTick := ⟨.ofStrings [("symbol", "NIFTY"), ("token", "26000"), ("ltp", "n/a"),
      ("close", "19700.5"), ("remark", "late")]⟩
    (raw.without ["remark", "ltp", "token"]).normalize = raw.normalize ∧
      ∀ lookup, (raw.without ["remark", "ltp", "token"]).normalizeWith lookup =
        raw.normalizeWith lookup := by
  intro raw
  refine normalize_without raw _ ?_
  simp only [List.forall_mem_cons]
  refine ⟨.unread (by decide), .unusable rfl, .shadowed (n := "symbol") (by decide) rfl,
    fun _ h => nomatch h⟩

end RawTick

end TickFeed
