import Std.Data.HashMap.Lemmas
import Std.Data.TreeMap.Lemmas
import TickFeed.Catalog.Snapshot

/-! # Indices of a snapshot

An index names under each key the slot of the one instrument that has it
(`Lists`). As long as no key comes twice, one more element keeps that, and so the
two indices by symbol and by token stay in step with the instruments over any
sequence of rows (`Indexed`). What a snapshot finds, and that it finds it in the
slots that it has, follows from there. -/

namespace TickFeed

/-- The index names under each key the slot of the one element that has it. -/
def Lists {κ α : Type} [BEq κ] [Hashable κ] (index : Std.HashMap κ Nat) (key : α → κ)
    (items : Array α) : Prop :=
  ∀ (k : κ) (slot : Nat), index[k]? = some slot ↔ ∃ a, items[slot]? = some a ∧ key a = k

namespace Lists

variable {κ α : Type} [BEq κ] [Hashable κ] {index : Std.HashMap κ Nat} {key : α → κ}
  {items : Array α}

theorem empty [LawfulBEq κ] : Lists (∅ : Std.HashMap κ Nat) key #[] := by
  intro k slot
  simp

theorem slot_lt (h : Lists index key items) {k : κ} {slot : Nat} (hk : index[k]? = some slot) :
    slot < items.size := by
  obtain ⟨a, ha, -⟩ := (h k slot).mp hk
  exact (Array.getElem?_eq_some_iff.mp ha).1

theorem contains_iff [LawfulBEq κ] (h : Lists index key items) {k : κ} :
    index.contains k = true ↔ ∃ a ∈ items.toList, key a = k := by
  rw [Std.HashMap.contains_eq_isSome_getElem?, Option.isSome_iff_exists]
  constructor
  · rintro ⟨slot, hk⟩
    obtain ⟨a, ha, hka⟩ := (h k slot).mp hk
    exact ⟨a, Array.mem_toList_iff.mpr (Array.mem_of_getElem? ha), hka⟩
  · rintro ⟨a, ha, hka⟩
    obtain ⟨slot, hslot⟩ := Array.getElem?_of_mem (Array.mem_toList_iff.mp ha)
    exact ⟨slot, (h k slot).mpr ⟨a, hslot, hka⟩⟩

/-- One more element behind all others, with a key that none of them has. -/
theorem push [LawfulBEq κ] (h : Lists index key items) {a : α}
    (hnew : index.contains (key a) = false) :
    Lists (index.insert (key a) items.size) key (items.push a) := by
  intro k slot
  rw [Std.HashMap.getElem?_insert, Array.getElem?_push]
  by_cases hk : key a = k
  · subst hk
    rw [if_pos (beq_self_eq_true _)]
    constructor
    · intro hslot
      exact ⟨a, if_pos (Option.some.inj hslot).symm, rfl⟩
    · rintro ⟨b, hb, hkey⟩
      by_cases hslot : slot = items.size
      · rw [hslot]
      · -- an earlier element with that key would be listed
        rw [if_neg hslot] at hb
        have hlisted := h.contains_iff.mpr
          ⟨b, Array.mem_toList_iff.mpr (Array.mem_of_getElem? hb), hkey⟩
        rw [hnew] at hlisted
        cases hlisted
  · rw [if_neg (by simpa using hk)]
    by_cases hslot : slot = items.size
    · subst hslot
      rw [if_pos rfl]
      constructor
      · intro hold
        exact absurd (h.slot_lt hold) (Nat.lt_irrefl _)
      · rintro ⟨b, hb, hkey⟩
        cases hb
        exact absurd hkey hk
    · rw [if_neg hslot]
      exact h k slot

theorem find_eq_some_iff (h : Lists index key items) {k : κ} {a : α} :
    index[k]?.bind (items[·]?) = some a ↔ a ∈ items.toList ∧ key a = k := by
  rw [Option.bind_eq_some_iff]
  constructor
  · rintro ⟨slot, hk, ha⟩
    obtain ⟨b, hb, hkey⟩ := (h k slot).mp hk
    cases hb.symm.trans ha
    exact ⟨Array.mem_toList_iff.mpr (Array.mem_of_getElem? ha), hkey⟩
  · rintro ⟨ha, hkey⟩
    obtain ⟨slot, hslot⟩ := Array.getElem?_of_mem (Array.mem_toList_iff.mp ha)
    exact ⟨slot, (h k slot).mpr ⟨a, hslot, hkey⟩, hslot⟩

/-- No key that is listed leads to a slot without an element. -/
theorem isSome_find [LawfulBEq κ] (h : Lists index key items) (k : κ) :
    (index[k]?.bind (items[·]?)).isSome = index.contains k := by
  rw [Bool.eq_iff_iff, h.contains_iff, Option.isSome_iff_exists]
  simp only [h.find_eq_some_iff]

theorem nodup (h : Lists index key items) : (items.toList.map key).Nodup := by
  refine List.pairwise_map.mpr (List.pairwise_iff_getElem.mpr fun i j hi hj hlt heq => ?_)
  rw [Array.getElem_toList, Array.getElem_toList] at heq
  have hi' := (h _ i).mpr ⟨_, Array.getElem?_eq_getElem hi, rfl⟩
  have hj' := (h _ j).mpr ⟨_, Array.getElem?_eq_getElem hj, heq.symm⟩
  have := Option.some.inj (hi'.symm.trans hj')
  omega

end Lists

/-! ## What two instruments may not share -/

namespace Instrument

def symbolKey (i : Instrument) : Exchange × String := (i.exchange, i.symbol)

def tokenKey (i : Instrument) : Exchange × String := (i.exchange, i.token.text)

/-- The two have an exchange and the symbol or the token there in common. -/
def clashes (i j : Instrument) : Bool :=
  i.exchange = j.exchange && (i.symbol = j.symbol || i.token = j.token)

/-- One more instrument behind those that are kept, unless it clashes with one of
them. -/
def keep (kept : List Instrument) (i : Instrument) : List Instrument :=
  if kept.any i.clashes then kept else kept ++ [i]

/-- Of all that are offered those that are kept, in the order of the offers: the
first one has the symbol and the token. -/
def firstOfEach (offered : List Instrument) : List Instrument := offered.foldl keep []

theorem mem_of_mem_keeps {offered kept : List Instrument} {i : Instrument}
    (h : i ∈ offered.foldl keep kept) : i ∈ kept ∨ i ∈ offered := by
  induction offered generalizing kept with
  | nil => exact .inl h
  | cons j offered ih =>
    rcases ih h with hkept | hoffered
    · unfold keep at hkept
      split at hkept
      · exact .inl hkept
      · rcases List.mem_append.mp hkept with hkept | hj
        · exact .inl hkept
        · exact .inr (List.mem_cons.mpr (.inl (List.mem_singleton.mp hj)))
    · exact .inr (List.mem_cons_of_mem _ hoffered)

theorem clashes_iff {i j : Instrument} :
    i.clashes j = true ↔ j.symbolKey = i.symbolKey ∨ j.tokenKey = i.tokenKey := by
  obtain ⟨_, s, _, ⟨t⟩, e, _⟩ := i
  obtain ⟨_, s', _, ⟨t'⟩, e', _⟩ := j
  simp only [clashes, symbolKey, tokenKey, Bool.and_eq_true, Bool.or_eq_true, decide_eq_true_eq,
    Token.mk.injEq, Prod.mk.injEq]
  constructor
  · rintro ⟨rfl, rfl | rfl⟩
    · exact .inl ⟨rfl, rfl⟩
    · exact .inr ⟨rfl, rfl⟩
  · rintro (⟨rfl, rfl⟩ | ⟨rfl, rfl⟩)
    · exact ⟨rfl, .inl rfl⟩
    · exact ⟨rfl, .inr rfl⟩

end Instrument

/-! ## Indices in step with the instruments -/

/-- The indices of a snapshot, finished or in the making, are about its own
instruments. -/
structure Snapshot.Indexed (s : Snapshot) : Prop where
  bySymbol : Lists s.bySymbol Instrument.symbolKey s.instruments
  byToken : Lists s.byToken Instrument.tokenKey s.instruments
  byExpiry : ∀ (date : Date) (slots : List Nat), s.byExpiry[date]? = some slots →
    ∀ slot ∈ slots, slot < s.size
  searchKeys : ∀ key ∈ s.searchKeys, key.2 < s.size

namespace Snapshot

theorem Indexed.empty (generation : Nat) : (Snapshot.empty generation).Indexed where
  bySymbol := .empty
  byToken := .empty
  byExpiry := by
    intro date slots h
    simp [Snapshot.empty] at h
  searchKeys := nofun

theorem Indexed.findSymbol?_eq_some_iff {s : Snapshot} (h : s.Indexed) {symbol : String}
    {exchange : Exchange} {i : Instrument} : s.findSymbol? symbol exchange = some i ↔
      i ∈ s.toList ∧ i.symbol = symbol ∧ i.exchange = exchange := by
  refine h.bySymbol.find_eq_some_iff.trans (and_congr_right fun _ => ?_)
  rw [Instrument.symbolKey, Prod.mk.injEq, and_comm]

theorem Indexed.findToken?_eq_some_iff {s : Snapshot} (h : s.Indexed) {token : String}
    {exchange : Exchange} {i : Instrument} : s.findToken? token exchange = some i ↔
      i ∈ s.toList ∧ i.token.text = token ∧ i.exchange = exchange := by
  refine h.byToken.find_eq_some_iff.trans (and_congr_right fun _ => ?_)
  rw [Instrument.tokenKey, Prod.mk.injEq, and_comm]

/-- Slots that the snapshot has lead to an instrument each. -/
theorem atSlots_of_lt {s : Snapshot} {slots : List Nat} (h : ∀ slot ∈ slots, slot < s.size) :
    (s.atSlots slots).map some = slots.map (s.instruments[·]?) := by
  induction slots with
  | nil => rfl
  | cons slot slots ih =>
    obtain ⟨hslot, hslots⟩ := List.forall_mem_cons.mp h
    have hget : s.instruments[slot]? = some s.instruments[slot] := Array.getElem?_eq_getElem hslot
    rw [List.map_cons, ← ih hslots, hget, atSlots, List.filterMap_cons, hget]
    rfl

theorem searchSlots_mem (s : Snapshot) (query : String) (limit : Nat) :
    ∀ slot ∈ s.searchSlots query limit, ∃ key ∈ s.searchKeys, key.2 = slot := by
  intro slot h
  unfold searchSlots at h
  dsimp only at h
  split at h
  · cases h
  · obtain ⟨key, hkey, rfl⟩ := List.mem_map.mp h
    refine ⟨key, ?_, rfl⟩
    rcases List.mem_append.mp hkey with hkey | hkey
    · exact List.dropWhile_subset _
        ((List.takeWhile_subset _) (List.mem_of_mem_take hkey))
    · exact (List.mem_filter.mp (List.mem_of_mem_take hkey)).1

end Snapshot

namespace SnapshotBuilder

/-- An earlier row has the symbol or the token when an instrument that was kept
clashes with this one. -/
theorem isDuplicate_eq {b : SnapshotBuilder} (h : b.draft.Indexed) (i : Instrument) :
    b.isDuplicate i = b.draft.toList.any i.clashes := by
  have hsymbol := h.bySymbol.contains_iff (k := i.symbolKey)
  have htoken := h.byToken.contains_iff (k := i.tokenKey)
  rw [Bool.eq_iff_iff, isDuplicate, Bool.or_eq_true, List.any_eq_true]
  simp only [Instrument.clashes_iff]
  constructor
  · rintro (hs | ht)
    · obtain ⟨j, hj, hkey⟩ := hsymbol.mp hs
      exact ⟨j, hj, .inl hkey⟩
    · obtain ⟨j, hj, hkey⟩ := htoken.mp ht
      exact ⟨j, hj, .inr hkey⟩
  · rintro ⟨j, hj, hkey | hkey⟩
    · exact .inl (hsymbol.mpr ⟨j, hj, hkey⟩)
    · exact .inr (htoken.mpr ⟨j, hj, hkey⟩)

theorem insert_of_new {b : SnapshotBuilder} {i : Instrument} (h : b.isDuplicate i = false) :
    (b.insert i).draft =
      { b.draft with
        instruments := b.draft.instruments.push i
        bySymbol := b.draft.bySymbol.insert i.symbolKey b.draft.size
        byToken := b.draft.byToken.insert i.tokenKey b.draft.size
        byExpiry := addExpiry b.draft.byExpiry i b.draft.size
        searchKeys := (Text.upper i.symbol, b.draft.size) :: b.draft.searchKeys } := by
  rw [insert, h]
  rfl

theorem insert_of_duplicate {b : SnapshotBuilder} {i : Instrument} (h : b.isDuplicate i = true) :
    b.insert i = b := by
  rw [insert, h]
  rfl

/-- A slot that is added to the expiries is the new one. -/
theorem addExpiry_lt {byExpiry : Std.TreeMap Date (List Nat)} {i : Instrument} {size : Nat}
    (h : ∀ (date : Date) (slots : List Nat), byExpiry[date]? = some slots →
      ∀ slot ∈ slots, slot < size)
    (date : Date) (slots : List Nat) (hslots : (addExpiry byExpiry i size)[date]? = some slots) :
    ∀ slot ∈ slots, slot < size + 1 := by
  have hold : ∀ (date : Date), ∀ slot ∈ byExpiry[date]?.getD [], slot < size + 1 := by
    intro date slot hslot
    cases hd : byExpiry[date]? with
    | none =>
      rw [hd] at hslot
      cases hslot
    | some slots =>
      rw [hd] at hslot
      exact Nat.lt_succ_of_lt (h date slots hd slot hslot)
  have hsame : byExpiry[date]? = some slots → ∀ slot ∈ slots, slot < size + 1 :=
    fun hd slot hslot => Nat.lt_succ_of_lt (h date slots hd slot hslot)
  unfold addExpiry at hslots
  split at hslots
  · split at hslots
    · rw [Std.TreeMap.getElem?_insert] at hslots
      split at hslots
      · cases hslots
        intro slot hslot
        rcases List.mem_append.mp hslot with hslot | hslot
        · exact hold _ slot hslot
        · rw [List.mem_singleton.mp hslot]
          exact Nat.lt_succ_self _
      · exact hsame hslots
    · exact hsame hslots
  · exact hsame hslots

theorem indexed_insert {b : SnapshotBuilder} (h : b.draft.Indexed) (i : Instrument) :
    (b.insert i).draft.Indexed := by
  cases hd : b.isDuplicate i with
  | true =>
    rw [insert_of_duplicate hd]
    exact h
  | false =>
    obtain ⟨hsymbol, htoken⟩ := Bool.or_eq_false_iff.mp hd
    have hsize : (b.insert i).draft.size = b.draft.size + 1 := by
      rw [insert_of_new hd]
      exact Array.size_push _
    constructor
    · rw [insert_of_new hd]
      exact h.bySymbol.push hsymbol
    · rw [insert_of_new hd]
      exact h.byToken.push htoken
    · rw [hsize, insert_of_new hd]
      exact addExpiry_lt h.byExpiry
    · rw [hsize, insert_of_new hd]
      intro key hkey
      rcases List.mem_cons.mp hkey with rfl | hkey
      · exact Nat.lt_succ_self _
      · exact Nat.lt_succ_of_lt (h.searchKeys key hkey)

theorem toList_insert {b : SnapshotBuilder} (h : b.draft.Indexed) (i : Instrument) :
    (b.insert i).draft.toList = Instrument.keep b.draft.toList i := by
  rw [Instrument.keep, ← isDuplicate_eq h]
  cases hd : b.isDuplicate i with
  | true => rw [insert_of_duplicate hd, if_pos rfl]
  | false =>
    rw [insert_of_new hd, if_neg nofun]
    exact Array.toList_push

theorem indexed_inserts {b : SnapshotBuilder} (h : b.draft.Indexed) (offered : List Instrument) :
    (offered.foldl insert b).draft.Indexed ∧
      (offered.foldl insert b).draft.toList = offered.foldl Instrument.keep b.draft.toList := by
  induction offered generalizing b with
  | nil => exact ⟨h, rfl⟩
  | cons i offered ih =>
    rw [List.foldl_cons, List.foldl_cons, ← toList_insert h]
    exact ih (indexed_insert h i)

/-- Putting the indices in order moves no slot in or out. -/
theorem indexed_finish {b : SnapshotBuilder} (h : b.draft.Indexed) : b.finish.Indexed where
  bySymbol := h.bySymbol
  byToken := h.byToken
  byExpiry := by
    intro date slots hslots slot hslot
    simp only [finish, Std.TreeMap.getElem?_map, Option.map_eq_some_iff] at hslots
    obtain ⟨rows, hrows, rfl⟩ := hslots
    exact h.byExpiry date rows hrows slot ((List.mergeSort_perm _ _).mem_iff.mp hslot)
  searchKeys := by
    intro key hkey
    exact h.searchKeys key ((List.mergeSort_perm _ _).mem_iff.mp hkey)

end SnapshotBuilder

/-- A snapshot keeps of what it is offered the first instrument with a symbol or a
token on an exchange. What it finds under a symbol or a token there is that one and
nothing else, so both ways lead to the same instrument. Each slot in its indices is one
of its instruments, and so nothing that it looks up is missing. -/
theorem Snapshot.lookup_exact (generation : Nat) (offered : List Instrument) :
    let s := (offered.foldl SnapshotBuilder.insert (.start generation)).finish
    s.toList = Instrument.firstOfEach offered ∧
      ((s.toList.map fun i => (i.exchange, i.symbol)).Nodup ∧
        (s.toList.map fun i => (i.exchange, i.token)).Nodup) ∧
      (∀ symbol exchange i, s.findSymbol? symbol exchange = some i ↔
        i ∈ s.toList ∧ i.symbol = symbol ∧ i.exchange = exchange) ∧
      (∀ token exchange i, s.findToken? token exchange = some i ↔
        i ∈ s.toList ∧ i.token.text = token ∧ i.exchange = exchange) ∧
      (∀ i ∈ s.toList, s.findSymbol? i.symbol i.exchange = some i ∧
        s.findToken? i.token.text i.exchange = some i) ∧
      ((∀ (key : Exchange × String) (slot : Nat),
          (s.bySymbol[key]? = some slot → slot < s.size) ∧
            (s.byToken[key]? = some slot → slot < s.size)) ∧
        (∀ (date : Date) (slots : List Nat), s.byExpiry[date]? = some slots →
          ∀ slot ∈ slots, slot < s.size) ∧
        (∀ key ∈ s.searchKeys, key.2 < s.size)) ∧
      (∀ text exchange,
        (s.findSymbol? text exchange).isSome = s.bySymbol.contains (exchange, text) ∧
          (s.findToken? text exchange).isSome = s.byToken.contains (exchange, text)) ∧
      (∀ date, (s.expiringOn date).map some =
        (s.byExpiry[date]?.getD []).map (s.instruments[·]?)) ∧
      (∀ query limit, (s.search query limit).map some =
        (s.searchSlots query limit).map (s.instruments[·]?)) := by
  intro s
  obtain ⟨hdraft, hlist⟩ :=
    SnapshotBuilder.indexed_inserts (b := .start generation) (.empty generation) offered
  have h : s.Indexed := SnapshotBuilder.indexed_finish hdraft
  have htokens : (s.toList.map fun i => (i.exchange, i.token)).Nodup :=
    (List.pairwise_map.mp h.byToken.nodup).map _ fun i j hne heq => hne (by
      rw [Prod.mk.injEq] at heq
      rw [Instrument.tokenKey, Instrument.tokenKey, heq.1, heq.2])
  refine ⟨hlist, ⟨h.bySymbol.nodup, htokens⟩, fun _ _ _ => h.findSymbol?_eq_some_iff,
    fun _ _ _ => h.findToken?_eq_some_iff, ?_,
    ⟨fun _ _ => ⟨h.bySymbol.slot_lt, h.byToken.slot_lt⟩, h.byExpiry, h.searchKeys⟩, ?_, ?_, ?_⟩
  · intro i hi
    exact ⟨h.findSymbol?_eq_some_iff.mpr ⟨hi, rfl, rfl⟩,
      h.findToken?_eq_some_iff.mpr ⟨hi, rfl, rfl⟩⟩
  · intro text exchange
    exact ⟨h.bySymbol.isSome_find _, h.byToken.isSome_find _⟩
  · intro date
    refine atSlots_of_lt fun slot hslot => ?_
    cases hd : s.byExpiry[date]? with
    | none =>
      rw [hd] at hslot
      cases hslot
    | some slots =>
      rw [hd] at hslot
      exact h.byExpiry date slots hd slot hslot
  · intro query limit
    refine atSlots_of_lt fun slot hslot => ?_
    obtain ⟨key, hkey, rfl⟩ := s.searchSlots_mem query limit slot hslot
    exact h.searchKeys key hkey

/-- The third row clashes with each of the two before it, and the fourth one, on
another exchange, with none. -/
theorem Snapshot.lookup_exact_two_clashes :
    let listed := fun (symbol token : String) (exchange : Exchange) =>
      ({ id := .ofSymbol symbol exchange, symbol, name := symbol, token := ⟨token⟩, exchange
         kind := .equity, expiry := none, strike := none, lotSize := 1
         priceIncrement := ⟨false, 5, 2, by decide, by decide⟩ } : Instrument)
    let s := ([listed "SBIN" "11" .nse, listed "INFY" "12" .nse, listed "SBIN" "12" .nse,
      listed "SBIN" "12" .bse].foldl SnapshotBuilder.insert (.start 1)).finish
    s.findSymbol? "SBIN" .nse = some (listed "SBIN" "11" .nse) ∧
      s.findToken? "12" .nse = some (listed "INFY" "12" .nse) ∧
      s.findToken? "12" .bse = some (listed "SBIN" "12" .bse) := by
  intro listed s
  obtain ⟨hlist, -, hsymbol, htoken, -⟩ := lookup_exact 1 [listed "SBIN" "11" .nse,
    listed "INFY" "12" .nse, listed "SBIN" "12" .nse, listed "SBIN" "12" .bse]
  have hkept : s.toList =
      [listed "SBIN" "11" .nse, listed "INFY" "12" .nse, listed "SBIN" "12" .bse] :=
    hlist.trans (by decide)
  refine ⟨(hsymbol _ _ _).mpr ?_, (htoken _ _ _).mpr ?_, (htoken _ _ _).mpr ?_⟩
  all_goals exact ⟨hkept ▸ by decide, rfl, rfl⟩

end TickFeed
