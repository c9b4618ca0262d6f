import TickFeed.Proofs.Json.Fields
import TickFeed.Proofs.Json.Numeral
import TickFeed.Proofs.Text.Padding
import TickFeed.Proofs.Tick.Readings

/-! # Numbers in quotes

The text of a number in quotes, padded or not, is the same price, the same quantity and the
same time as the number (`alike_quoted`). So it makes no difference to a tick which of them
stands under a name that is read as one of these (`normalize_quoted`). -/

namespace TickFeed

namespace Json

/-! ## Values -/

/-- The two values read the same as anything but text and an exact integer. -/
structure Alike (v v' : Json) : Prop where
  isNull : v'.isNull = v.isNull
  price : v'.price? = v.price?
  quantity : v'.quantity? = v.quantity?
  timestamp : v'.timestamp? = v.timestamp?
  topPrice : (RawTick.topOf? v').bind (·.firstOf RawTick.levelPriceNames price?) =
    (RawTick.topOf? v).bind (·.firstOf RawTick.levelPriceNames price?)
  topQuantity : (RawTick.topOf? v').bind (·.firstOf RawTick.levelQtyNames quantity?) =
    (RawTick.topOf? v).bind (·.firstOf RawTick.levelQtyNames quantity?)

/-- A numeral between spaces, in quotes and padded. -/
theorem trim_padded {w before after : String} {n : Numeral}
    (hw : Document.read? w = some (.number n)) (hbefore : ∀ c ∈ before.toList, Text.isBlank c = true)
    (hafter : ∀ c ∈ after.toList, Text.isBlank c = true) :
    ∃ cs, n.Literal cs ∧ Text.trim (before ++ w ++ after) = String.ofList cs := by
  have blank {c : Char} (h : Document.isSpace c = true) : Text.isBlank c = true := by
    simp only [Document.isSpace, Bool.or_eq_true, decide_eq_true_eq] at h
    obtain ((rfl | rfl) | rfl) | rfl := h <;> rfl
  obtain ⟨lead, cs, trail, htext, hcs, hlead, htrail⟩ := Document.exists_literal hw
  refine ⟨cs, hcs, congrArg String.ofList ?_⟩
  have hfront : ∀ c ∈ before.toList ++ lead, Text.isBlank c = true :=
    List.forall_mem_append.mpr ⟨hbefore, fun c hc => blank (hlead c hc)⟩
  have hback : ∀ c ∈ trail ++ after.toList, Text.isBlank c = true :=
    List.forall_mem_append.mpr ⟨fun c hc => blank (htrail c hc), hafter⟩
  simpa [htext] using Text.trimChars_padded hfront hcs.isBlank hback

variable {n : Numeral} {cs : List Char} {v : Number} {s : String}

theorem finite?_number (v : Number) : (Json.number v).finite? = some v.toBinary64 :=
  Option.filter_eq_some_iff.mpr ⟨rfl, v.isFinite_toBinary64⟩

/-- The text of a numeral in quotes is the double of the number. -/
theorem finite?_quoted (hs : Text.trim s = String.ofList cs) (hcs : n.Literal cs)
    (hv : n.toNumber? = some v) (hround : n.IsRounded) :
    (Json.string s).finite? = some v.toBinary64 := by
  have hread : Binary64.read? (Text.trim s) = some v.toBinary64 := by
    rw [hs, hcs.read?, Numeral.toBinary64_of_toNumber? hv hround]
  exact Option.filter_eq_some_iff.mpr ⟨hread, v.isFinite_toBinary64⟩

theorem price?_quoted (hs : Text.trim s = String.ofList cs) (hcs : n.Literal cs)
    (hv : n.toNumber? = some v) (hround : n.IsRounded) :
    (Json.string s).price? = (Json.number v).price? := by
  rw [price?, price?, finite?_quoted hs hcs hv hround, finite?_number]

/-! ### Quantities -/

theorem quantity?_string (s : String) : (Json.string s).quantity? =
    (Text.uint64? (Text.trim s)).or ((Json.string s).finite?.map wholePart) := by
  rw [quantity?]
  cases Text.uint64? (Text.trim s) with
  | none => exact Option.none_or.symm
  | some k => exact Option.some_or.symm

theorem quantity?_integer {k : Int} (hlower : -2 ^ 63 ≤ k) (hupper : k < 2 ^ 64) :
    (Json.number (.integer k hlower hupper)).quantity? =
      some (if 0 ≤ k then UInt64.ofNat k.toNat else 0) := by
  rw [quantity?, Number.uint64?, Number.int64?]
  by_cases hpos : 0 ≤ k
  · rw [if_pos hpos, if_pos hpos]
  · have hlt : k < 2 ^ 63 := by omega
    rw [if_neg hpos, if_neg hpos, if_pos hlt]

/-- The whole part of a negative integer is not a quantity. -/
theorem wholePart_ofInt {k : Int} (h : k < 0) (hlower : -2 ^ 63 ≤ k) :
    wholePart (Binary64.ofInt k) = 0 := by
  obtain ⟨u, hu, hfinite⟩ := Binary64.exists_nearest_eq_finite true (by omega : k.natAbs ≤ 2 ^ 64)
  rw [Binary64.ofInt_eq, decide_eq_true h, hfinite]
  rfl

theorem uint64?_quoted (hs : Text.trim s = String.ofList cs) (hcs : n.Literal cs) :
    Text.uint64? (Text.trim s) =
      ((if n.neg then none else n.integer?.map Int.toNat).filter (· < 2 ^ 64)).map UInt64.ofNat := by
  rw [hs, Text.uint64?, Text.unsigned?, String.toList_ofList, hcs.nat?]

theorem quantity?_quoted (hs : Text.trim s = String.ofList cs) (hcs : n.Literal cs)
    (hv : n.toNumber? = some v) (hround : n.IsRounded) :
    (Json.string s).quantity? = (Json.number v).quantity? := by
  rw [quantity?_string, finite?_quoted hs hcs hv hround, uint64?_quoted hs hcs]
  rcases Numeral.toNumber?_cases hv with ⟨k, hlower, hupper, rfl, hk, hneg⟩ | ⟨hx, rfl, hout⟩
  · rw [quantity?_integer, hk]
    by_cases hpos : 0 ≤ k
    · have hsign : n.neg = false := Bool.eq_false_iff.mpr (mt hneg.mp (by omega))
      have hfits : k.toNat < 2 ^ 64 := by omega
      rw [hsign, if_pos hpos, if_neg Bool.false_ne_true, Option.map_some, Option.filter_some,
        if_pos (decide_eq_true hfits)]
      rfl
    · have hsign : n.neg = true := hneg.mpr (by omega)
      rw [hsign, if_neg hpos]
      exact congrArg some (wholePart_ofInt (by omega) hlower)
  · -- as text it is no integer of 64 bits either, so both are doubles
    have hnone : (if n.neg then none else n.integer?.map Int.toNat).filter (· < 2 ^ 64) = none := by
      cases hk : n.integer? with
      | none => cases n.neg <;> rfl
      | some k =>
        rcases hout k hk with ⟨hsign, -⟩ | ⟨hsign, hlarge⟩
        · rw [hsign]
          rfl
        · have hlarge : ¬ k.toNat < 2 ^ 64 := by omega
          rw [hsign, if_neg Bool.false_ne_true, Option.map_some, Option.filter_some,
            if_neg (by simpa using hlarge)]
    rw [hnone, quantity?, finite?_number]
    rfl

/-! ### Times -/

theorem exactInt64?_quoted (hs : Text.trim s = String.ofList cs) (hcs : n.Literal cs) :
    (Json.string s).exactInt64? =
      (n.integer?.filter fun k => -2 ^ 63 ≤ k ∧ k < 2 ^ 63).map Int64.ofInt := by
  rw [exactInt64?, hs, Text.int64?, Text.signed?, String.toList_ofList, hcs.int?]

theorem epoch?_congr {v v' : Json} (hexact : v'.exactInt64? = v.exactInt64?)
    (hfinite : v'.finite? = v.finite?) : v'.epoch? = v.epoch? := by
  rw [epoch?, epoch?, hexact, hfinite]

/-- As an integer zero has no sign, and as a double minus zero is no time after 1970. -/
theorem epoch?_of_zero {v : Json} (h : v.exactInt64? = some 0) : v.epoch? = some 0 := by
  rw [epoch?, h]
  rfl

theorem epoch?_quoted (hs : Text.trim s = String.ofList cs) (hcs : n.Literal cs)
    (hv : n.toNumber? = some v) (hround : n.IsRounded) :
    (Json.string s).epoch? = (Json.number v).epoch? := by
  have hfinite : (Json.string s).finite? = (Json.number v).finite? :=
    (finite?_quoted hs hcs hv hround).trans (finite?_number v).symm
  have hexact := exactInt64?_quoted hs hcs
  rcases Numeral.toNumber?_cases hv with ⟨k, hlower, hupper, rfl, hk, hneg⟩ | ⟨hx, rfl, hout⟩
  · refine epoch?_congr ?_ hfinite
    rw [hexact, hk, Option.filter_some, exactInt64?, Number.int64?]
    by_cases hlt : k < 2 ^ 63
    · rw [if_pos (decide_eq_true ⟨hlower, hlt⟩), if_pos hlt]
      rfl
    · rw [if_neg fun h => hlt (of_decide_eq_true h).2, if_neg hlt]
      rfl
  · have hnumber : (Json.number (.double n.toBinary64 hx)).exactInt64? = none := rfl
    by_cases hzero : n.integer? = some 0
    · have hexact : (Json.string s).exactInt64? = some 0 := by
        rw [hexact, hzero]
        rfl
      have hdouble : (Json.number (.double n.toBinary64 hx)).finite? =
          some (.finite n.neg 0 Binary64.fits_zero) := by
        rw [finite?_number, ← Numeral.nearest_of_zero hzero, ← hround]
        rfl
      rw [epoch?_of_zero hexact, epoch?, hnumber]
      dsimp only
      rw [hdouble, Option.map_some, Binary64.lt_zero, if_neg Bool.false_ne_true]
    · refine epoch?_congr ?_ hfinite
      rw [hexact, hnumber]
      cases hk : n.integer? with
      | none => rfl
      | some k =>
        have hrange : ¬ (-2 ^ 63 ≤ k ∧ k < 2 ^ 63) := by
          rcases hout k hk with ⟨-, rfl | hsmall⟩ | ⟨-, hlarge⟩
          · exact absurd hk hzero
          · omega
          · omega
        rw [Option.filter_some, if_neg fun h => hrange (of_decide_eq_true h)]
        rfl

theorem isSome_epoch?_number (v : Number) : (Json.number v).epoch?.isSome = true := by
  unfold epoch?
  split
  · rfl
  · rw [finite?_number]
    rfl

theorem timestamp?_quoted (hs : Text.trim s = String.ofList cs) (hcs : n.Literal cs)
    (hv : n.toNumber? = some v) (hround : n.IsRounded) :
    (Json.string s).timestamp? = (Json.number v).timestamp? := by
  rw [timestamp?, timestamp?, epoch?_quoted hs hcs hv hround, Option.or_of_isSome]
  exact isSome_epoch?_number v

/-- The number that a text spells and the text itself in quotes, padded or not. -/
theorem alike_quoted {w before after : String} {v : Json}
    (hw : Document.read? w = some (.number n)) (hv : Json.read? w = some v)
    (hround : n.IsRounded) (hbefore : ∀ c ∈ before.toList, Text.isBlank c = true)
    (hafter : ∀ c ∈ after.toList, Text.isBlank c = true) :
    Alike v (.string (before ++ w ++ after)) := by
  obtain ⟨cs, hcs, hs⟩ := trim_padded hw hbefore hafter
  rw [Json.read?, hw] at hv
  obtain ⟨number, hnumber, rfl⟩ := Option.map_eq_some_iff.mp hv
  exact {
    isNull := rfl
    price := price?_quoted hs hcs hnumber hround
    quantity := quantity?_quoted hs hcs hnumber hround
    timestamp := timestamp?_quoted hs hcs hnumber hround
    topPrice := rfl
    topQuantity := rfl }

/-! ## Entries -/

variable {v v' : Json}

/-- Levels with such values at the top, under any name, are alike too. -/
theorem Alike.levels (h : Alike v v') (level : Fields) (key : String) (rest : List Json) :
    Alike (.array ((level.insert key v).toJson :: rest))
      (.array ((level.insert key v').toJson :: rest)) where
  isNull := rfl
  price := rfl
  quantity := rfl
  timestamp := rfl
  topPrice := by
    simp only [RawTick.topOf?, Fields.toJson, Fields.ofList_members, Option.bind_some]
    exact firstOf_insert_congr level h.isNull fun _ => h.price
  topQuantity := by
    simp only [RawTick.topOf?, Fields.toJson, Fields.ofList_members, Option.bind_some]
    exact firstOf_insert_congr level h.isNull fun _ => h.quantity

end Json

namespace RawTick

open Json

/-- The names under which a tick reads text, or an exact integer. -/
def exactNames : List String := symbolNames ++ tokenNames ++ exchangeNames ++ ["timestamp_ns"]

variable {v v' : Json} {name : String}

/-- Whatever is read of the value that was put in. -/
theorem bind_insert_congr {α : Type} {convert : Json → Option α} (raw : RawTick) {n : String}
    (h : n = name → convert v' = convert v) :
    ((raw.insert name v').get? n).bind convert = ((raw.insert name v).get? n).bind convert := by
  rw [get?_insert, get?_insert]
  by_cases hn : n = name
  · rw [if_pos hn, if_pos hn]
    exact h hn
  · rw [if_neg hn, if_neg hn]

theorem sameQuote_insert (raw : RawTick) (h : Alike v v') (hname : name ∉ exactNames) :
    SameQuote (raw.insert name v) (raw.insert name v') := by
  have price (names : List String) : (raw.insert name v').fields.firstOf names price? =
      (raw.insert name v).fields.firstOf names price? :=
    firstOf_insert_congr raw.fields h.isNull fun _ => h.price
  have quantity (names : List String) : (raw.insert name v').fields.firstOf names quantity? =
      (raw.insert name v).fields.firstOf names quantity? :=
    firstOf_insert_congr raw.fields h.isNull fun _ => h.quantity
  have quotedPrice (names : List String) (depth : String) :
      (raw.insert name v').quotedPrice names depth = (raw.insert name v).quotedPrice names depth := by
    rw [RawTick.quotedPrice, RawTick.quotedPrice, price, topLevel?_eq, topLevel?_eq,
      Option.bind_assoc, Option.bind_assoc, bind_insert_congr raw fun _ => h.topPrice]
  have quotedQty (names : List String) (depth : String) :
      (raw.insert name v').quotedQty names depth = (raw.insert name v).quotedQty names depth := by
    rw [RawTick.quotedQty, RawTick.quotedQty, quantity, topLevel?_eq, topLevel?_eq,
      Option.bind_assoc, Option.bind_assoc, bind_insert_congr raw fun _ => h.topQuantity]
  have hns : "timestamp_ns" ≠ name := by
    rintro rfl
    exact hname (by decide)
  have exactTime : ((raw.insert name v').get? "timestamp_ns").bind exactInt64? =
      ((raw.insert name v).get? "timestamp_ns").bind exactInt64? :=
    bind_insert_congr raw fun heq => absurd heq hns
  have time : (raw.insert name v').fields.firstOf timestampNames timestamp? =
      (raw.insert name v).fields.firstOf timestampNames timestamp? :=
    firstOf_insert_congr raw.fields h.isNull fun _ => h.timestamp
  exact {
    timestamp := by
      rw [timestamp, timestamp, exactTime, time]
    isStreaming := by
      rw [isStreaming, isStreaming, get?_insert, get?_insert]
      by_cases hmode : "subscription_mode" = name
      · rw [if_pos hmode, if_pos hmode]
        exact congrArg not h.isNull
      · rw [if_neg hmode, if_neg hmode]
    ltp := price _
    bid := quotedPrice _ _
    ask := quotedPrice _ _
    bidQty := quotedQty _ _
    askQty := quotedQty _ _
    volume := quantity _
    seq := quantity _ }

/-- Under all other names there is no difference between two values that are alike. -/
theorem normalize_insert_alike (raw : RawTick) (h : Alike v v') (hname : name ∉ exactNames) :
    (raw.insert name v').normalize = (raw.insert name v).normalize := by
  have text {names : List String} (hnames : ∀ n ∈ names, n ∈ exactNames) :
      (raw.insert name v').fields.firstOf names text? =
        (raw.insert name v).fields.firstOf names text? :=
    firstOf_insert_congr raw.fields h.isNull fun hmem => absurd (hnames name hmem) hname
  have hexchange : (raw.insert name v').exchangeHint = (raw.insert name v).exchangeHint := by
    rw [exchangeHint, exchangeHint, text (by decide), bind_insert_congr raw fun _ => h.quantity]
  exact normalize_congr (sameQuote_insert raw h hname) (text (by decide))
    (fun _ => text (by decide)) hexchange

def numberNames : List String :=
  ltpNames ++ bidNames ++ askNames ++ bidQtyNames ++ askQtyNames ++ volumeNames ++ seqNames ++
    timestampNames ++ ["exchange_type"]

/-- **Numbers in quotes**: a tick with the value of a text that is read as a number and the
tick with that text in quotes, padded or not, are normalized to the same, under each name
that is read as a price, a quantity, a time or the number of an exchange, and for a price or
a quantity at the top of the order book too. The value is the number nearest to what the text
says, unless the text is long and its double is a neighbour of the nearest one. -/
theorem normalize_quoted (w before after : String) {n : Numeral} {v : Json}
    (hw : Document.read? w = some (.number n)) (hv : Json.read? w = some v)
    (hround : n.IsRounded) (hbefore : ∀ c ∈ before.toList, Text.isBlank c = true)
    (hafter : ∀ c ∈ after.toList, Text.isBlank c = true) (raw : RawTick) :
    (∀ name ∈ numberNames, (raw.insert name (.string (before ++ w ++ after))).normalize =
      (raw.insert name v).normalize) ∧
    ∀ depth ∈ ["best_5_buy_data", "best_5_sell_data"], ∀ (level : Fields) (rest : List Json),
      ∀ key ∈ levelPriceNames ++ levelQtyNames,
        (raw.insert depth (.array ((level.insert key (.string (before ++ w ++ after))).toJson ::
            rest))).normalize =
          (raw.insert depth (.array ((level.insert key v).toJson :: rest))).normalize := by
  have halike := alike_quoted hw hv hround hbefore hafter
  refine ⟨fun name hname => normalize_insert_alike raw halike ?_,
    fun depth hdepth level rest key _ =>
      normalize_insert_alike raw (halike.levels level key rest) ?_⟩
  · exact (by decide : ∀ name ∈ numberNames, name ∉ exactNames) name hname
  · exact (by decide : ∀ depth ∈ ["best_5_buy_data", "best_5_sell_data"], depth ∉ exactNames)
      depth hdepth

/-- The text has a point, so as a number it is a double. -/
theorem normalize_quoted_half :
    let raw := RawTick.empty.insert "symbol" (.string "NIFTY")
    ∃ v, Json.read? "112.5" = some v ∧
      (raw.insert "ltp" (.string " 112.5")).normalize = (raw.insert "ltp" v).normalize := by
  intro raw
  let n : Numeral := ⟨false, ['1', '1', '2'], ['5'], none⟩
  have hw : Document.read? "112.5" = some (.number n) := rfl
  have hfinite : n.toBinary64.isFinite = true := by decide +kernel
  have hv : Json.read? "112.5" = some (.number (.double n.toBinary64 hfinite)) := by
    rw [Json.read?, hw, Option.bind_some, Document.toJson?, Numeral.toNumber?, if_neg (by decide),
      dif_pos hfinite, Option.map_some]
  have hround : n.IsRounded := Numeral.isRounded_of_short (.inl (by decide))
  have hbefore : ∀ c ∈ " ".toList, Text.isBlank c = true := List.forall_mem_singleton.mpr rfl
  have hafter : ∀ c ∈ "".toList, Text.isBlank c = true :=
    fun _ hc => absurd hc List.not_mem_nil
  exact ⟨_, hv, (normalize_quoted "112.5" " " "" hw hv hround hbefore hafter raw).1
    "ltp" (by decide)⟩

end RawTick

end TickFeed
