import TickFeed.Tick.Normalize

/-! # What a tick is made of

Normalization knows a raw tick by what its readers answer. So two raw ticks for which they
answer the same are one tick, whatever else they say (`normalize_congr`). -/

namespace TickFeed

/-! ## Readers as functions of the entries -/

namespace Json

variable {α : Type} {convert : Json → Option α} {fields fields' : Fields} {names : List String}

/-- A search depends on what can be read under its names only. -/
theorem firstOf_congr_bind
    (h : ∀ name ∈ names, ((fields'.get? name).bind fun v => if v.isNull then none else convert v) =
      (fields.get? name).bind fun v => if v.isNull then none else convert v) :
    fields'.firstOf names convert = fields.firstOf names convert := by
  induction names with
  | nil => rfl
  | cons name names ih =>
    obtain ⟨hname, hnames⟩ := List.forall_mem_cons.mp h
    simp only [Fields.firstOf, List.findSome?_cons, hname]
    rw [← Fields.firstOf, ← Fields.firstOf, ih hnames]

theorem firstOf_congr (h : ∀ name ∈ names, fields'.get? name = fields.get? name) :
    fields'.firstOf names convert = fields.firstOf names convert :=
  firstOf_congr_bind fun name hname => by rw [h name hname]

/-- Two values under a name that are read the same. -/
theorem firstOf_insert_congr (fields : Fields) {name : String} {v v' : Json}
    (hnull : v'.isNull = v.isNull) (h : name ∈ names → convert v' = convert v) :
    (fields.insert name v').firstOf names convert =
      (fields.insert name v).firstOf names convert := by
  refine firstOf_congr_bind fun n hn => ?_
  rw [Fields.get?_insert, Fields.get?_insert]
  by_cases heq : n = name
  · rw [if_pos heq, if_pos heq, Option.bind_some, Option.bind_some, hnull, h (heq ▸ hn)]
  · rw [if_neg heq, if_neg heq]

/-- The null that is passed over could not be read anyway. -/
theorem firstOf_cons {name : String} (hnull : convert .null = none) :
    fields.firstOf (name :: names) convert =
      ((fields.get? name).bind convert).or (fields.firstOf names convert) := by
  have hread : ((fields.get? name).bind fun v => if v.isNull then none else convert v) =
      (fields.get? name).bind convert := by
    congr 1
    funext v
    cases v with
    | null => exact hnull.symm
    | bool _ | number _ | string _ | array _ | object _ => rfl
  rw [Fields.firstOf, List.findSome?_cons, hread, Fields.firstOf]
  cases (fields.get? name).bind convert <;> rfl

end Json

namespace RawTick

def topOf? : Json → Option Json.Fields
  | .array (.object members :: _) => some (.ofList members)
  | _ => none

theorem topLevel?_eq (raw : RawTick) (name : String) :
    raw.topLevel? name = (raw.get? name).bind topOf? := by
  unfold topLevel? topOf?
  cases raw.get? name with
  | none => rfl
  | some v =>
    rw [Option.bind_some]
    split
    next hv => cases hv; rfl
    next hother =>
      split
      next members rest => exact absurd rfl (hother members rest)
      next => rfl

theorem get?_insert (raw : RawTick) (name n : String) (v : Json) :
    (raw.insert name v).get? n = if n = name then some v else raw.get? n :=
  raw.fields.get?_insert name n v

/-! ## Ticks that read the same -/

variable {raw raw' : RawTick}

/-- Two raw ticks with the same time, the same prices and the same quantities. -/
structure SameQuote (raw raw' : RawTick) : Prop where
  timestamp : raw'.timestamp = raw.timestamp
  isStreaming : raw'.isStreaming = raw.isStreaming
  ltp : raw'.fields.firstOf ltpNames Json.price? = raw.fields.firstOf ltpNames Json.price?
  bid : raw'.quotedPrice bidNames "best_5_buy_data" = raw.quotedPrice bidNames "best_5_buy_data"
  ask : raw'.quotedPrice askNames "best_5_sell_data" = raw.quotedPrice askNames "best_5_sell_data"
  bidQty : raw'.quotedQty bidQtyNames "best_5_buy_data" = raw.quotedQty bidQtyNames "best_5_buy_data"
  askQty :
    raw'.quotedQty askQtyNames "best_5_sell_data" = raw.quotedQty askQtyNames "best_5_sell_data"
  volume :
    raw'.fields.firstOf volumeNames Json.quantity? = raw.fields.firstOf volumeNames Json.quantity?
  seq : raw'.fields.firstOf seqNames Json.quantity? = raw.fields.firstOf seqNames Json.quantity?

/-- Then they differ in nothing but their identity. -/
theorem SameQuote.toTick (h : SameQuote raw raw') (symbol : String) :
    raw'.toTick symbol =
      { raw.toTick symbol with exchange := raw'.exchangeHint.getD .nse } := by
  have hscale (x : Binary64) : raw'.inRupees x = raw.inRupees x := by
    rw [inRupees, inRupees, h.isStreaming]
  rw [RawTick.toTick, RawTick.toTick, h.timestamp, h.ltp, h.bid, h.ask, h.bidQty, h.askQty,
    h.volume, h.seq, hscale, hscale, hscale]

/-- With the same identity they are one tick. A token is read only where there is no
symbol. -/
theorem normalize_congr (h : SameQuote raw raw') (hsymbol : raw'.symbol? = raw.symbol?)
    (htoken : raw.symbol? = none → raw'.token? = raw.token?)
    (hexchange : raw'.exchangeHint = raw.exchangeHint) : raw'.normalize = raw.normalize := by
  rw [normalize, normalize, hsymbol]
  cases hs : raw.symbol? with
  | some symbol =>
    dsimp only
    rw [h.toTick symbol, hexchange]
    rfl
  | none =>
    dsimp only
    rw [htoken hs]

end RawTick

end TickFeed
