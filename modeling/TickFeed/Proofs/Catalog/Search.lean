import Mathlib.Data.List.Infix
import TickFeed.Proofs.Catalog.Indices

/-! # Search

The keys of a snapshot are the symbols of its instruments in upper case, each with the slot,
in order (`searchKeys_finish`). The texts that begin with a given one stand together in the
order of texts, right behind those that are below it, so what a search takes from there on
are all keys that begin with the query (`takeWhile_dropWhile_eq_filter`). `search_exact` says
that a search is two passes over the instruments in their order and no more. -/

namespace TickFeed

/-! ## Texts in order -/

/-- Between a text and one that it begins every text begins with it. -/
theorem isPrefix_of_between {q a b : List Char} (hqa : ¬a < q) (hab : ¬b < a) (hb : q <+: b) :
    q <+: a := by
  induction q generalizing a b with
  | nil => exact List.nil_prefix
  | cons c q ih =>
    obtain ⟨rest, rfl⟩ := hb
    cases a with
    | nil => exact absurd (List.nil_lt_cons c q) hqa
    | cons d a =>
      rw [List.cons_append] at hab
      obtain ⟨hdc, hbelow⟩ := not_or.mp (mt List.cons_lt_cons_iff.mpr hqa)
      obtain ⟨hcd, habove⟩ := not_or.mp (mt List.cons_lt_cons_iff.mpr hab)
      obtain rfl := Char.le_antisymm (Char.not_lt.mp hdc) (Char.not_lt.mp hcd)
      have hqa' : ¬a < q := fun h => hbelow ⟨rfl, h⟩
      have hab' : ¬q ++ rest < a := fun h => habove ⟨rfl, h⟩
      exact List.cons_prefix_cons.mpr ⟨rfl, ih hqa' hab' (List.prefix_append q rest)⟩

namespace Snapshot

theorem beginsWith_iff {query key : String} :
    beginsWith query key = true ↔ query.toList <+: key.toList :=
  List.isPrefixOf_iff_prefix

theorem occursIn_iff {part cs : List Char} : occursIn part cs = true ↔ part <:+: cs := by
  induction cs with
  | nil => simp [occursIn]
  | cons c cs ih =>
    rw [occursIn, Bool.or_eq_true, ih, List.isPrefixOf_iff_prefix, List.infix_cons_iff]

theorem not_beginsWith_of_lt {query key : String} (h : key < query) :
    ¬beginsWith query key = true := fun hbegins =>
  List.not_lt.mpr (beginsWith_iff.mp hbegins).le (String.lt_iff.mp h)

theorem beginsWith_of_between {query key later : String} (hquery : query ≤ key)
    (hlater : key ≤ later) (h : beginsWith query later = true) : beginsWith query key = true :=
  beginsWith_iff.mpr (isPrefix_of_between (mt String.lt_iff.mpr (String.not_lt.mpr hquery))
    (mt String.lt_iff.mpr (String.not_lt.mpr hlater)) (beginsWith_iff.mp h))

/-- Of keys in order, none of them below `query`, those that begin with it come first. -/
theorem takeWhile_eq_filter {keys : List (String × Nat)} {query : String}
    (h : keys.Pairwise fun a b => a.1 ≤ b.1) (habove : ∀ k ∈ keys, query ≤ k.1) :
    (keys.takeWhile fun k => beginsWith query k.1) =
      keys.filter fun k => beginsWith query k.1 := by
  induction keys with
  | nil => rfl
  | cons a keys ih =>
    obtain ⟨hle, hkeys⟩ := List.pairwise_cons.mp h
    obtain ⟨ha, hrest⟩ := List.forall_mem_cons.mp habove
    by_cases hbegins : beginsWith query a.1 = true
    · rw [List.takeWhile_cons, if_pos hbegins, List.filter_cons, if_pos hbegins, ih hkeys hrest]
    · rw [List.takeWhile_cons, if_neg hbegins, List.filter_cons, if_neg hbegins]
      refine (List.filter_eq_nil_iff.mpr fun k hk hlater => ?_).symm
      exact hbegins (beginsWith_of_between ha (hle k hk) hlater)

/-- Of keys in order those that begin with `query` are one run, which starts with the first
key that is not below `query`. -/
theorem takeWhile_dropWhile_eq_filter {keys : List (String × Nat)}
    (h : keys.Pairwise fun a b => a.1 ≤ b.1) (query : String) :
    ((keys.dropWhile fun k => k.1 < query).takeWhile fun k => beginsWith query k.1) =
      keys.filter fun k => beginsWith query k.1 := by
  induction keys with
  | nil => rfl
  | cons a keys ih =>
    obtain ⟨hle, hkeys⟩ := List.pairwise_cons.mp h
    by_cases ha : a.1 < query
    · rw [List.dropWhile_cons, if_pos (decide_eq_true ha), ih hkeys, List.filter_cons,
        if_neg (not_beginsWith_of_lt ha)]
    · rw [List.dropWhile_cons, if_neg (by simpa using ha)]
      have hquery := String.not_lt.mp ha
      exact takeWhile_eq_filter h (List.forall_mem_cons.mpr
        ⟨hquery, fun k hk => String.le_trans hquery (hle k hk)⟩)

/-! ## Instruments in order -/

def searchKey (ranked : Instrument × Nat) : String × Nat := (Text.upper ranked.1.symbol, ranked.2)

/-- The instruments with their places, by the symbol in upper case and then by place. -/
def ranking (s : Snapshot) : List (Instrument × Nat) :=
  s.toList.zipIdx.mergeSort fun a b => SnapshotBuilder.keyLe (searchKey a) (searchKey b)

theorem ranking_perm (s : Snapshot) : s.ranking.Perm s.toList.zipIdx := List.mergeSort_perm _ _

theorem ranking_pairwise (s : Snapshot) : s.ranking.Pairwise fun a b =>
    SnapshotBuilder.keyLe (searchKey a) (searchKey b) :=
  List.pairwise_mergeSort (fun a b c => SnapshotBuilder.keyLe_trans (searchKey a) (searchKey b)
    (searchKey c)) (fun a b => SnapshotBuilder.keyLe_total (searchKey a) (searchKey b)) _

/-- An instrument with its place is the one in that slot. -/
theorem getElem?_of_mem_zipIdx {s : Snapshot} {placed : Instrument × Nat}
    (h : placed ∈ s.toList.zipIdx) : s.instruments[placed.2]? = some placed.1 := by
  rw [← Array.getElem?_toList]
  exact List.mk_mem_zipIdx_iff_getElem?.mp h

theorem atSlots_placed {s : Snapshot} {placed : List (Instrument × Nat)}
    (h : ∀ r ∈ placed, r ∈ s.toList.zipIdx) :
    s.atSlots (placed.map Prod.snd) = placed.map Prod.fst := by
  rw [atSlots, List.filterMap_map, ← List.filterMap_eq_map]
  exact List.filterMap_congr fun r hr => getElem?_of_mem_zipIdx (h r hr)

theorem ranking_map_fst (s : Snapshot) : (s.ranking.map Prod.fst).Perm s.toList := by
  have h := s.ranking_perm.map Prod.fst
  rwa [List.zipIdx_map_fst] at h

end Snapshot

namespace SnapshotBuilder

theorem keyLe_iff {a b : String × Nat} : keyLe a b = true ↔ a.1 < b.1 ∨ a.1 = b.1 ∧ a.2 ≤ b.2 := by
  simp only [keyLe, Bool.or_eq_true, decide_eq_true_eq, Bool.and_eq_true]

theorem keyLe_antisymm {a b : String × Nat} (h : keyLe a b = true) (h' : keyLe b a = true) :
    a = b := by
  rcases keyLe_iff.mp h with hlt | ⟨heq, hle⟩ <;> rcases keyLe_iff.mp h' with hlt' | ⟨heq', hle'⟩
  · exact absurd hlt' (String.lt_asymm hlt)
  · exact absurd hlt (heq' ▸ String.lt_irrefl _)
  · exact absurd hlt' (heq ▸ String.lt_irrefl _)
  · exact Prod.ext heq (Nat.le_antisymm hle hle')

theorem le_of_keyLe {a b : String × Nat} (h : keyLe a b = true) : a.1 ≤ b.1 := by
  rcases keyLe_iff.mp h with hlt | ⟨heq, -⟩
  · exact String.not_lt.mp (String.lt_asymm hlt)
  · exact heq ▸ String.le_refl _

theorem toList_finish (generation : Nat) (offered : List Instrument) :
    (offered.foldl insert (.start generation)).finish.toList = Instrument.firstOfEach offered :=
  (indexed_inserts (b := .start generation) (.empty generation) offered).2

/-- The draft has the keys of its instruments, the last one first. -/
theorem searchKeys_insert {b : SnapshotBuilder}
    (h : b.draft.searchKeys = (b.draft.toList.zipIdx.map Snapshot.searchKey).reverse)
    (i : Instrument) : (b.insert i).draft.searchKeys =
      ((b.insert i).draft.toList.zipIdx.map Snapshot.searchKey).reverse := by
  cases hd : b.isDuplicate i with
  | true => rwa [insert_of_duplicate hd]
  | false =>
    have hsize : b.draft.size = b.draft.toList.length := Array.length_toList.symm
    rw [insert_of_new hd, Snapshot.toList]
    dsimp only
    rw [Array.toList_push, List.zipIdx_append, List.map_append, List.reverse_append, h, hsize]
    simp [Snapshot.searchKey, Snapshot.toList]

theorem searchKeys_inserts {b : SnapshotBuilder}
    (h : b.draft.searchKeys = (b.draft.toList.zipIdx.map Snapshot.searchKey).reverse)
    (offered : List Instrument) : (offered.foldl insert b).draft.searchKeys =
      ((offered.foldl insert b).draft.toList.zipIdx.map Snapshot.searchKey).reverse := by
  induction offered generalizing b with
  | nil => exact h
  | cons i offered ih => exact ih (searchKeys_insert h i)

/-- A finished snapshot has the keys of its instruments in their order. -/
theorem searchKeys_finish {b : SnapshotBuilder}
    (h : b.draft.searchKeys = (b.draft.toList.zipIdx.map Snapshot.searchKey).reverse) :
    b.finish.searchKeys = b.finish.ranking.map Snapshot.searchKey := by
  have hranking : b.finish.ranking.map Snapshot.searchKey =
      (b.draft.toList.zipIdx.map Snapshot.searchKey).mergeSort keyLe :=
    List.map_mergeSort fun _ _ _ _ => rfl
  have hfinish : b.finish.searchKeys = b.draft.searchKeys.mergeSort keyLe := rfl
  have hsorted (keys : List (String × Nat)) :
      (keys.mergeSort keyLe).Pairwise fun a b => keyLe a b = true :=
    List.pairwise_mergeSort keyLe_trans keyLe_total keys
  rw [hranking, hfinish, h]
  refine List.Perm.eq_of_pairwise (fun _ _ _ _ => keyLe_antisymm) (hsorted _) (hsorted _) ?_
  exact ((List.mergeSort_perm _ _).trans (List.reverse_perm _)).trans (List.mergeSort_perm _ _).symm

end SnapshotBuilder

namespace Snapshot

/-- The instruments whose symbol begins with `query`, whatever the case, and behind them
those whose symbol has it further on. -/
def matching (s : Snapshot) (query : String) : List Instrument :=
  let key := fun ranked : Instrument × Nat => (Text.upper ranked.1.symbol).toList
  ((s.ranking.filter fun r => query.toList <+: key r) ++
    s.ranking.filter fun r => query.toList <:+: key r ∧ ¬query.toList <+: key r).map Prod.fst

theorem take_append_take {α : Type} (xs ys : List α) (n : Nat) :
    xs.take n ++ ys.take (n - (xs.take n).length) = (xs ++ ys).take n := by
  rw [List.take_append, List.length_take]
  congr 2
  omega

variable {s : Snapshot}

theorem search_eq (h : s.searchKeys = s.ranking.map searchKey) (query : String) (limit : Nat) :
    s.search query limit =
      if Text.upper (Text.trim query) = "" then []
      else (s.matching (Text.upper (Text.trim query))).take limit := by
  rw [search, searchSlots]
  dsimp only
  split
  · rfl
  next =>
    generalize Text.upper (Text.trim query) = query
    have hsorted : s.searchKeys.Pairwise fun a b => a.1 ≤ b.1 := by
      rw [h]
      exact List.pairwise_map.mpr (s.ranking_pairwise.imp SnapshotBuilder.le_of_keyLe)
    rw [takeWhile_dropWhile_eq_filter hsorted, take_append_take, h, List.filter_map,
      List.filter_map, ← List.map_append, ← List.map_take, List.map_map]
    have hslots : Prod.snd ∘ searchKey = Prod.snd := rfl
    have hfirst (r : Instrument × Nat) : beginsWith query (searchKey r).1 =
        decide (query.toList <+: (Text.upper r.1.symbol).toList) := by
      rw [Bool.eq_iff_iff, beginsWith_iff, decide_eq_true_iff, searchKey]
    have hlater (r : Instrument × Nat) : holds query (searchKey r).1 =
        decide (query.toList <:+: (Text.upper r.1.symbol).toList ∧
          ¬query.toList <+: (Text.upper r.1.symbol).toList) := by
      rw [Bool.eq_iff_iff, holds, hfirst, Bool.and_eq_true, occursIn_iff, Bool.not_eq_true',
        decide_eq_false_iff_not, decide_eq_true_iff, and_comm, searchKey]
    rw [hslots, atSlots_placed, List.map_take, matching]
    · simp only [Function.comp_def, hfirst, hlater]
    · intro r hr
      refine s.ranking_perm.mem_iff.mp ?_
      rcases List.mem_append.mp (List.mem_of_mem_take hr) with hr | hr
      · exact List.mem_of_mem_filter hr
      · exact List.mem_of_mem_filter hr

theorem Indexed.toList_nodup (h : s.Indexed) : s.toList.Nodup :=
  (List.pairwise_map.mp h.bySymbol.nodup).imp fun hne heq => hne (congrArg _ heq)

theorem mem_ranking_map_fst {i : Instrument} : i ∈ s.ranking.map Prod.fst ↔ i ∈ s.toList :=
  s.ranking_map_fst.mem_iff

theorem mem_matching_iff {query : String} {i : Instrument} : i ∈ s.matching query ↔
    i ∈ s.toList ∧ query.toList <:+: (Text.upper i.symbol).toList := by
  rw [matching, List.map_append, List.mem_append, ← mem_ranking_map_fst]
  constructor
  · rintro (h | h)
    all_goals
      obtain ⟨r, hr, rfl⟩ := List.mem_map.mp h
      obtain ⟨hr, hquery⟩ := List.mem_filter.mp hr
      refine ⟨List.mem_map_of_mem hr, ?_⟩
    · exact (of_decide_eq_true hquery).isInfix
    · exact (of_decide_eq_true hquery).1
  · rintro ⟨h, hinside⟩
    obtain ⟨r, hr, rfl⟩ := List.mem_map.mp h
    by_cases hprefix : query.toList <+: (Text.upper r.1.symbol).toList
    · exact .inl (List.mem_map_of_mem (List.mem_filter.mpr ⟨hr, decide_eq_true hprefix⟩))
    · exact .inr (List.mem_map_of_mem
        (List.mem_filter.mpr ⟨hr, decide_eq_true ⟨hinside, hprefix⟩⟩))

theorem nodup_matching (h : s.toList.Nodup) (query : String) : (s.matching query).Nodup := by
  have hranking : (s.ranking.map Prod.fst).Nodup := s.ranking_map_fst.nodup_iff.mpr h
  have hsub (p : Instrument × Nat → Bool) : ((s.ranking.filter p).map Prod.fst).Nodup :=
    hranking.sublist (List.filter_sublist.map Prod.fst)
  rw [matching, List.map_append, List.nodup_append]
  refine ⟨hsub _, hsub _, fun i hi j hj heq => ?_⟩
  -- the first group has the symbols that begin with the query, and the second one has not
  obtain ⟨r, hr, rfl⟩ := List.mem_map.mp hi
  obtain ⟨t, ht, rfl⟩ := List.mem_map.mp hj
  have hfirst : query.toList <+: (Text.upper r.1.symbol).toList :=
    of_decide_eq_true (List.mem_filter.mp hr).2
  have hlater := of_decide_eq_true (List.mem_filter.mp ht).2
  rw [heq] at hfirst
  exact hlater.2 hfirst

/-- **Search.** What is found are the instruments whose symbol begins with the query, in any
case, and then those whose symbol has it further on, both in the order of their symbols in
upper case and of their places; a blank query finds nothing, and a limit cuts the list off.
So nothing comes twice, all that match are found while there is room, and with more room the
same ones are found first. -/
theorem search_exact (generation : Nat) (offered : List Instrument) :
    let s := (offered.foldl SnapshotBuilder.insert (.start generation)).finish
    (s.ranking.Perm s.toList.zipIdx ∧ s.ranking.Pairwise fun a b =>
      Text.upper a.1.symbol < Text.upper b.1.symbol ∨
        Text.upper a.1.symbol = Text.upper b.1.symbol ∧ a.2 ≤ b.2) ∧
      (∀ query limit, s.search query limit =
        if Text.upper (Text.trim query) = "" ∨ limit = 0 then []
        else (s.matching (Text.upper (Text.trim query))).take limit) ∧
      (∀ query limit, (s.search query limit).Nodup) ∧
      (∀ query limit, Text.upper (Text.trim query) ≠ "" →
        (s.search query limit).length < limit → ∀ i, i ∈ s.search query limit ↔
          i ∈ s.toList ∧ (Text.upper (Text.trim query)).toList <:+: (Text.upper i.symbol).toList) ∧
      (∀ query limit, s.search query limit <+: s.search query (limit + 1)) := by
  intro s
  have hsearch := search_eq (s := s) (SnapshotBuilder.searchKeys_finish
    (SnapshotBuilder.searchKeys_inserts (b := .start generation) rfl offered))
  obtain ⟨hdraft, -⟩ :=
    SnapshotBuilder.indexed_inserts (b := .start generation) (.empty generation) offered
  have hnodup : s.toList.Nodup := (SnapshotBuilder.indexed_finish hdraft).toList_nodup
  refine ⟨⟨s.ranking_perm, ?_⟩, fun query limit => ?_, fun query limit => ?_,
    fun query limit hquery hroom i => ?_, fun query limit => ?_⟩
  · exact s.ranking_pairwise.imp SnapshotBuilder.keyLe_iff.mp
  · rw [hsearch]
    by_cases hlimit : limit = 0
    · rw [hlimit, List.take_zero, ite_self, if_pos (.inr rfl)]
    · simp only [hlimit, or_false]
  · rw [hsearch]
    split
    · exact List.nodup_nil
    · exact (nodup_matching hnodup _).sublist (List.take_sublist _ _)
  · rw [hsearch, if_neg hquery] at hroom ⊢
    rw [List.take_of_length_le (by rw [List.length_take] at hroom; omega), mem_matching_iff]
  · rw [hsearch, hsearch]
    split
    · exact List.prefix_rfl
    · exact List.take_prefix_take_left (Nat.le_succ limit)

/-- There is room for all that match, and one of them has the query at its end. -/
theorem search_exact_at_end :
    let listed := fun (symbol token : String) =>
      ({ id := .ofSymbol symbol .nse, symbol, name := symbol, token := ⟨token⟩, exchange := .nse
         kind := .equity, expiry := none, strike := none, lotSize := 1
         priceIncrement := ⟨false, 5, 2, by decide, by decide⟩ } : Instrument)
    let s := ([listed "BankNifty" "1", listed "NIFTY" "2", listed "SBIN" "3"].foldl
      SnapshotBuilder.insert (.start 1)).finish
    s.search " nifty " 5 = [listed "NIFTY" "2", listed "BankNifty" "1"] ∧
      ∀ i, i ∈ s.search " nifty " 5 ↔
        i ∈ s.toList ∧ "NIFTY".toList <:+: (Text.upper i.symbol).toList := by
  intro listed s
  obtain ⟨-, hsearch, -, hroom, -⟩ :=
    search_exact 1 [listed "BankNifty" "1", listed "NIFTY" "2", listed "SBIN" "3"]
  have hlist : s.toList = [listed "BankNifty" "1", listed "NIFTY" "2", listed "SBIN" "3"] :=
    (SnapshotBuilder.toList_finish 1 _).trans (by decide)
  -- the instruments come in their order
  have hranking : s.ranking =
      [(listed "BankNifty" "1", 0), (listed "NIFTY" "2", 1), (listed "SBIN" "3", 2)] := by
    rw [ranking, hlist]
    exact List.mergeSort_of_pairwise (by decide)
  have hfound : s.search " nifty " 5 = [listed "NIFTY" "2", listed "BankNifty" "1"] := by
    rw [hsearch, if_neg (by decide), matching, hranking]
    decide
  have hquery : Text.upper (Text.trim " nifty ") = "NIFTY" := by decide
  have hall := hroom " nifty " 5 (by decide) (by rw [hfound]; decide)
  rw [hquery] at hall
  exact ⟨hfound, hall⟩

end Snapshot

end TickFeed
