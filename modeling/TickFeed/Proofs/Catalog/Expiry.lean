import Mathlib.Data.List.Nodup
import TickFeed.Proofs.Catalog.Search

/-! # Expiries

While rows come in, each date has the slots of the derivatives that expire on it, in the order
of the rows, and no date is there without one (`Filed`). Putting the slots of a date in the
order of the symbols sorts the instruments, and instruments of one symbol stay in the order of
the rows (`filter_mergeSort_of_tied`). `expiry_index_exact` says what comes of both. -/

namespace TickFeed

/-- Sorting keeps the order of elements that are below each other. -/
theorem filter_mergeSort_of_tied {α : Type} {le : α → α → Bool} {p : α → Bool}
    (htrans : ∀ a b c, le a b = true → le b c = true → le a c = true)
    (htotal : ∀ a b, (le a b || le b a) = true)
    (htied : ∀ a b, p a = true → p b = true → le a b = true) (items : List α) :
    (items.mergeSort le).filter p = items.filter p := by
  have hsorted : (items.filter p).Pairwise fun a b => le a b = true :=
    List.pairwise_filter.mpr (List.pairwise_of_forall htied)
  have hsub : (items.filter p).Sublist (items.mergeSort le) :=
    List.sublist_mergeSort htrans htotal hsorted List.filter_sublist
  have hsub' := hsub.filter p
  simp only [List.filter_filter, Bool.and_self] at hsub'
  refine (hsub'.eq_of_length ?_).symm
  exact ((List.mergeSort_perm items le).filter p).length_eq.symm

def Instrument.expiresOn (i : Instrument) (date : Date) : Bool :=
  i.isDerivative && i.expiry = some date

theorem Instrument.expiresOn_iff {i : Instrument} {date : Date} :
    i.expiresOn date = true ↔ i.isDerivative = true ∧ i.expiry = some date := by
  simp [expiresOn]

namespace Snapshot

variable {s : Snapshot}

/-- The derivatives that expire on a date, with their places. -/
def placedOn (s : Snapshot) (date : Date) : List (Instrument × Nat) :=
  s.toList.zipIdx.filter fun r => r.1.expiresOn date

def slotsOn (s : Snapshot) (date : Date) : List Nat := (s.placedOn date).map Prod.snd

theorem mem_zipIdx_of_placedOn {date : Date} {r : Instrument × Nat} (h : r ∈ s.placedOn date) :
    r ∈ s.toList.zipIdx := List.mem_of_mem_filter h

theorem placedOn_map_fst (s : Snapshot) (date : Date) :
    (s.placedOn date).map Prod.fst = s.toList.filter fun i => i.expiresOn date := by
  have hfilter := List.filter_map (f := Prod.fst) (p := fun i : Instrument => i.expiresOn date)
    (l := s.toList.zipIdx)
  rw [List.zipIdx_map_fst] at hfilter
  exact hfilter.symm

/-- The dates that are there are those on which a derivative expires, each with the slots of
all of them in the order of the rows. -/
def Filed (s : Snapshot) : Prop :=
  ∀ date, s.byExpiry[date]? = if s.slotsOn date = [] then none else some (s.slotsOn date)

theorem Filed.getD (h : s.Filed) (date : Date) : s.byExpiry[date]?.getD [] = s.slotsOn date := by
  rw [h date]
  split
  next hnone => rw [hnone, Option.getD_none]
  next => rw [Option.getD_some]

end Snapshot

namespace SnapshotBuilder

/-! ## Rows that come in -/

theorem addExpiry_getElem? (byExpiry : Std.TreeMap Date (List Nat)) (i : Instrument) (slot : Nat)
    (date : Date) : (addExpiry byExpiry i slot)[date]? =
      if i.expiresOn date then some (byExpiry[date]?.getD [] ++ [slot]) else byExpiry[date]? := by
  unfold addExpiry
  cases hexpiry : i.expiry with
  | none => simp [Instrument.expiresOn, hexpiry]
  | some d =>
    by_cases hderivative : i.isDerivative = true
    · by_cases hdate : d = date
      · subst hdate
        simp [Instrument.expiresOn, hexpiry, hderivative]
      · have hne : compare d date ≠ .eq := fun heq => hdate (Date.eq_of_compare heq)
        simp [Instrument.expiresOn, hexpiry, hderivative, hdate, hne,
          Std.TreeMap.getElem?_insert]
    · simp [Instrument.expiresOn, hderivative]

theorem slotsOn_insert_of_new {b : SnapshotBuilder} {i : Instrument} (h : b.isDuplicate i = false)
    (date : Date) : (b.insert i).draft.slotsOn date =
      b.draft.slotsOn date ++ if i.expiresOn date then [b.draft.size] else [] := by
  have hlist : (b.insert i).draft.toList = b.draft.toList ++ [i] := by
    rw [insert_of_new h]
    exact Array.toList_push
  have hsize : b.draft.size = b.draft.toList.length := Array.length_toList.symm
  rw [Snapshot.slotsOn, Snapshot.placedOn, hlist, List.zipIdx_append, List.filter_append,
    List.map_append, hsize]
  by_cases hdate : i.expiresOn date = true
  · simp [hdate, Snapshot.slotsOn, Snapshot.placedOn]
  · simp [hdate, Snapshot.slotsOn, Snapshot.placedOn]

theorem filed_insert {b : SnapshotBuilder} (h : b.draft.Filed) (i : Instrument) :
    (b.insert i).draft.Filed := by
  cases hd : b.isDuplicate i with
  | true => rwa [insert_of_duplicate hd]
  | false =>
    intro date
    have hadd := addExpiry_getElem? b.draft.byExpiry i b.draft.size date
    rw [slotsOn_insert_of_new hd, insert_of_new hd]
    dsimp only
    rw [hadd, h.getD]
    by_cases hdate : i.expiresOn date = true
    · simp [hdate]
    · simp [hdate, h date]

theorem filed_inserts {b : SnapshotBuilder} (h : b.draft.Filed) (offered : List Instrument) :
    (offered.foldl insert b).draft.Filed := by
  induction offered generalizing b with
  | nil => exact h
  | cons i offered ih => exact ih (filed_insert h i)

theorem filed_start (generation : Nat) : (start generation).draft.Filed := by
  intro date
  exact Std.TreeMap.getElem?_emptyc

/-! ## Slots in order -/

def bySymbolLe (i j : Instrument) : Bool := i.symbol ≤ j.symbol

theorem bySymbolLe_trans (i j k : Instrument) (h : bySymbolLe i j = true)
    (h' : bySymbolLe j k = true) : bySymbolLe i k = true :=
  decide_eq_true (String.le_trans (of_decide_eq_true h) (of_decide_eq_true h'))

theorem bySymbolLe_total (i j : Instrument) : (bySymbolLe i j || bySymbolLe j i) = true := by
  rw [Bool.or_eq_true, bySymbolLe, bySymbolLe, decide_eq_true_iff, decide_eq_true_iff]
  exact String.le_total i.symbol j.symbol

variable {b : SnapshotBuilder} (h : b.draft.Filed)

include h

/-- Slots in the order of their symbols are instruments in that order. -/
theorem expiringOn_finish (date : Date) :
    b.finish.expiringOn date =
      (b.finish.toList.filter fun i => i.expiresOn date).mergeSort bySymbolLe := by
  let sorted := (b.draft.placedOn date).mergeSort fun q r => bySymbolLe q.1 r.1
  have hslots : b.finish.byExpiry[date]?.getD [] = sorted.map Prod.snd := by
    have hsort : (b.draft.slotsOn date).mergeSort (symbolLe b.draft.instruments) =
        sorted.map Prod.snd := by
      refine (List.map_mergeSort fun q hq r hr => ?_).symm
      have hfirst := Snapshot.getElem?_of_mem_zipIdx (Snapshot.mem_zipIdx_of_placedOn hq)
      have hsecond := Snapshot.getElem?_of_mem_zipIdx (Snapshot.mem_zipIdx_of_placedOn hr)
      rw [symbolLe, hfirst, hsecond, bySymbolLe]
    rw [← hsort, ← h.getD, finish]
    dsimp only
    rw [Std.TreeMap.getElem?_map]
    cases b.draft.byExpiry[date]? with
    | none => simp
    | some slots => rfl
  have hsorted : ∀ r ∈ sorted, r ∈ b.finish.toList.zipIdx := by
    intro r hr
    exact Snapshot.mem_zipIdx_of_placedOn ((List.mergeSort_perm _ _).mem_iff.mp hr)
  have hinstruments : sorted.map Prod.fst =
      ((b.draft.placedOn date).map Prod.fst).mergeSort bySymbolLe :=
    List.map_mergeSort fun _ _ _ _ => rfl
  rw [Snapshot.expiringOn, hslots, Snapshot.atSlots_placed hsorted, hinstruments,
    Snapshot.placedOn_map_fst]
  rfl

theorem mem_expiries_finish (date : Date) :
    date ∈ b.finish.expiries ↔ b.finish.expiringOn date ≠ [] := by
  have hempty : b.finish.expiringOn date = [] ↔ b.draft.placedOn date = [] := by
    rw [expiringOn_finish h, ← List.length_eq_zero_iff, List.length_mergeSort,
      List.length_eq_zero_iff, ← List.map_eq_nil_iff (f := Prod.fst), Snapshot.placedOn_map_fst]
    rfl
  have hlisted : date ∈ b.finish.expiries ↔ b.draft.placedOn date ≠ [] := by
    rw [Snapshot.expiries, finish]
    dsimp only
    rw [Std.TreeMap.keys_map, Std.TreeMap.mem_keys, Std.TreeMap.mem_iff_isSome_getElem?, h date,
      Snapshot.slotsOn]
    split
    next hnone => simpa using hnone
    next hsome => simpa using hsome
  rw [hlisted, Ne, Ne, hempty]

/-! ## The instruments of a date -/

theorem mem_expiringOn_finish (date : Date) (i : Instrument) : i ∈ b.finish.expiringOn date ↔
    i ∈ b.finish.toList ∧ i.isDerivative = true ∧ i.expiry = some date := by
  rw [expiringOn_finish h, (List.mergeSort_perm _ _).mem_iff, List.mem_filter,
    Instrument.expiresOn_iff]

theorem nodup_expiringOn_finish (hnodup : b.finish.toList.Nodup) (date : Date) :
    (b.finish.expiringOn date).Nodup := by
  rw [expiringOn_finish h, (List.mergeSort_perm _ _).nodup_iff]
  exact hnodup.filter _

theorem pairwise_expiringOn_finish (date : Date) :
    (b.finish.expiringOn date).Pairwise fun i j => i.symbol ≤ j.symbol := by
  rw [expiringOn_finish h]
  exact (List.pairwise_mergeSort bySymbolLe_trans bySymbolLe_total _).imp of_decide_eq_true

/-- Instruments of one symbol stay in the order in which they came. -/
theorem filter_expiringOn_finish (date : Date) (symbol : String) :
    (b.finish.expiringOn date).filter (fun i => i.symbol = symbol) =
      b.finish.toList.filter fun i =>
        i.isDerivative = true ∧ i.expiry = some date ∧ i.symbol = symbol := by
  have htied (i j : Instrument) (hi : decide (i.symbol = symbol) = true)
      (hj : decide (j.symbol = symbol) = true) : bySymbolLe i j = true := by
    rw [bySymbolLe, of_decide_eq_true hi, of_decide_eq_true hj]
    exact decide_eq_true (String.le_refl symbol)
  rw [expiringOn_finish h, filter_mergeSort_of_tied bySymbolLe_trans bySymbolLe_total htied,
    List.filter_filter]
  refine List.filter_congr fun i _ => ?_
  rw [Bool.eq_iff_iff]
  simp only [Bool.and_eq_true, decide_eq_true_eq, Instrument.expiresOn_iff]
  rw [and_comm, and_assoc]

/-! ## All dates together -/

theorem nodup_flatMap_expiries (hnodup : b.finish.toList.Nodup) :
    (b.finish.expiries.flatMap b.finish.expiringOn).Nodup := by
  have hordered : b.finish.expiries.Pairwise fun c d => compare c d = .lt :=
    Std.TreeMap.ordered_keys
  refine List.nodup_flatMap.mpr ⟨fun date _ => nodup_expiringOn_finish h hnodup date,
    hordered.imp ?_⟩
  -- an instrument expires on one date only, so no two dates share one
  intro c d hlt i hc hd
  have hexpiry := ((mem_expiringOn_finish h c i).mp hc).2.2
  have hexpiry' := ((mem_expiringOn_finish h d i).mp hd).2.2
  have hself : compare d d = .eq := Std.ReflOrd.compare_self
  rw [Option.some.inj (hexpiry.symm.trans hexpiry'), hself] at hlt
  cases hlt

theorem flatMap_expiries_perm (hnodup : b.finish.toList.Nodup) :
    (b.finish.expiries.flatMap b.finish.expiringOn).Perm
      (b.finish.toList.filter fun i => i.isDerivative = true ∧ i.expiry.isSome = true) := by
  refine (List.perm_ext_iff_of_nodup (nodup_flatMap_expiries h hnodup) (hnodup.filter _)).mpr
    fun i => ?_
  rw [List.mem_flatMap, List.mem_filter, decide_eq_true_iff, Option.isSome_iff_exists]
  constructor
  · intro hi
    obtain ⟨date, -, hi⟩ := hi
    obtain ⟨hkept, hderivative, hexpiry⟩ := (mem_expiringOn_finish h date i).mp hi
    exact ⟨hkept, hderivative, date, hexpiry⟩
  · intro hi
    obtain ⟨hkept, hderivative, date, hexpiry⟩ := hi
    have hi := (mem_expiringOn_finish h date i).mpr ⟨hkept, hderivative, hexpiry⟩
    exact ⟨date, (mem_expiries_finish h date).mpr (List.ne_nil_of_mem hi), hi⟩

end SnapshotBuilder

namespace Snapshot

/-- **Expiries.** Under a date stand the instruments that are kept, are derivatives and expire
on it, each of them once, in the order of their symbols, and instruments of one symbol in the
order in which they came. The dates are those on which a derivative expires, from the first to
the last. So all dates together have every derivative with an expiry once and nothing else. -/
theorem expiry_index_exact (generation : Nat) (offered : List Instrument) :
    let s := (offered.foldl SnapshotBuilder.insert (.start generation)).finish
    s.toList = Instrument.firstOfEach offered ∧
      (∀ date,
        (∀ i, i ∈ s.expiringOn date ↔
          i ∈ s.toList ∧ i.isDerivative = true ∧ i.expiry = some date) ∧
        (s.expiringOn date).Nodup ∧
        ((s.expiringOn date).Pairwise fun i j => i.symbol ≤ j.symbol) ∧
        ∀ symbol, (s.expiringOn date).filter (fun i => i.symbol = symbol) =
          s.toList.filter fun i =>
            i.isDerivative = true ∧ i.expiry = some date ∧ i.symbol = symbol) ∧
      (s.expiries.Pairwise fun a b => compare a b = .lt) ∧
      (∀ date, date ∈ s.expiries ↔ s.expiringOn date ≠ []) ∧
      (s.expiries.flatMap s.expiringOn).Perm
        (s.toList.filter fun i => i.isDerivative = true ∧ i.expiry.isSome = true) := by
  intro s
  obtain ⟨hdraft, hlist⟩ :=
    SnapshotBuilder.indexed_inserts (b := .start generation) (.empty generation) offered
  have hnodup : s.toList.Nodup := (SnapshotBuilder.indexed_finish hdraft).toList_nodup
  have hfiled := SnapshotBuilder.filed_inserts (SnapshotBuilder.filed_start generation) offered
  refine ⟨hlist, fun date => ⟨?_, ?_, ?_, ?_⟩, Std.TreeMap.ordered_keys, ?_, ?_⟩
  · exact SnapshotBuilder.mem_expiringOn_finish hfiled date
  · exact SnapshotBuilder.nodup_expiringOn_finish hfiled hnodup date
  · exact SnapshotBuilder.pairwise_expiringOn_finish hfiled date
  · exact SnapshotBuilder.filter_expiringOn_finish hfiled date
  · exact SnapshotBuilder.mem_expiries_finish hfiled
  · exact SnapshotBuilder.flatMap_expiries_perm hfiled hnodup

end Snapshot

end TickFeed
