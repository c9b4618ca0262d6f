import TickFeed.Text.Numeral

/-! # Runs of digits

What the readers of integers take is a sign and a run of digits: a natural number is a run
behind an optional plus (`exists_isRun_of_nat?`), an integer one behind an optional sign
(`exists_isRun_of_int?`). -/

namespace TickFeed.Text

/-- Digits, and at least one of them. -/
def IsRun (cs : List Char) : Prop := cs ≠ [] ∧ ∀ c ∈ cs, c.isDigit = true

theorem isRun_singleton {c : Char} (h : c.isDigit = true) : IsRun [c] :=
  ⟨List.cons_ne_nil _ _, by simpa using h⟩

theorem IsRun.cons {cs : List Char} {c : Char} (h : IsRun cs) (hc : c.isDigit = true) :
    IsRun (c :: cs) :=
  ⟨List.cons_ne_nil _ _, List.forall_mem_cons.mpr ⟨hc, h.2⟩⟩

theorem IsRun.reverse {cs : List Char} (h : IsRun cs) : IsRun cs.reverse :=
  ⟨by simpa using h.1, by simpa using h.2⟩

/-! ## The run at the front -/

def StartsElsewhere (cs : List Char) : Prop := ∀ c ∈ cs.head?, c.isDigit = false

theorem startsElsewhere_cons {c : Char} {cs : List Char} (h : c.isDigit = false) :
    StartsElsewhere (c :: cs) := by
  intro first hfirst
  obtain rfl := Option.some.inj hfirst
  exact h

theorem takeWhile_isDigit {ds rest : List Char} (h : IsRun ds) (hrest : StartsElsewhere rest) :
    (ds ++ rest).takeWhile Char.isDigit = ds := by
  rw [List.takeWhile_append_of_pos h.2]
  cases rest with
  | nil => exact List.append_nil ds
  | cons c rest =>
    rw [List.takeWhile_cons_of_neg (Bool.eq_false_iff.mp (hrest c rfl)), List.append_nil]

theorem dropWhile_isDigit {ds rest : List Char} (h : IsRun ds) (hrest : StartsElsewhere rest) :
    (ds ++ rest).dropWhile Char.isDigit = rest := by
  rw [List.dropWhile_append_of_pos h.2]
  cases rest with
  | nil => rfl
  | cons c rest => exact List.dropWhile_cons_of_neg (Bool.eq_false_iff.mp (hrest c rfl))

/-! ## Values -/

theorem le_foldl_digits (value : Nat) (cs : List Char) :
    value ≤ cs.foldl (fun n c => 10 * n + (c.toNat - '0'.toNat)) value := by
  induction cs generalizing value with
  | nil => exact Nat.le_refl _
  | cons c cs ih =>
    have hnext : value ≤ 10 * value + (c.toNat - '0'.toNat) := by omega
    exact Nat.le_trans hnext (ih _)

theorem digitsValue_append (cs ds : List Char) : digitsValue (cs ++ ds) =
    ds.foldl (fun n c => 10 * n + (c.toNat - '0'.toNat)) (digitsValue cs) :=
  List.foldl_append

theorem digits?_of_isRun {ds : List Char} (h : IsRun ds) :
    digits? ds = some (digitsValue ds) :=
  if_pos ⟨h.1, List.all_eq_true.mpr h.2⟩

theorem exists_isRun_of_digits? {ds : List Char} {m : Nat} (h : digits? ds = some m) :
    IsRun ds ∧ m = digitsValue ds := by
  unfold digits? at h
  split at h
  next hds => exact ⟨⟨hds.1, List.all_eq_true.mp hds.2⟩, (Option.some.inj h).symm⟩
  next => cases h

/-! ## Signs -/

/-- A run of digits has no sign in front. -/
theorem splitSign_append {ds : List Char} (h : IsRun ds) (rest : List Char) :
    splitSign (ds ++ rest) = (false, ds ++ rest) := by
  obtain ⟨c, cs, rfl⟩ := List.exists_cons_of_ne_nil h.1
  have hc : c.isDigit = true := h.2 c List.mem_cons_self
  rw [List.cons_append]
  unfold splitSign
  split
  next heq => cases heq; cases hc
  next heq => cases heq; cases hc
  next => rfl

theorem exists_isRun_of_nat? {cs : List Char} {m : Nat} (h : nat? cs = some m) :
    ∃ ds, IsRun ds ∧ splitSign cs = (false, ds) ∧ m = digitsValue ds := by
  unfold nat? at h
  split at h
  next ds =>
    obtain ⟨hrun, hm⟩ := exists_isRun_of_digits? h
    exact ⟨ds, hrun, rfl, hm⟩
  next =>
    obtain ⟨hrun, hm⟩ := exists_isRun_of_digits? h
    have hsplit := splitSign_append hrun []
    rw [List.append_nil] at hsplit
    exact ⟨cs, hrun, hsplit, hm⟩

theorem exists_isRun_of_int? {cs : List Char} {k : Int} (h : int? cs = some k) :
    ∃ neg ds, IsRun ds ∧ splitSign cs = (neg, ds) ∧
      k = if neg then -(digitsValue ds : Int) else digitsValue ds := by
  unfold int? at h
  split at h
  next ds =>
    cases hm : digits? ds with
    | none =>
      rw [hm] at h
      cases h
    | some m =>
      rw [hm] at h
      obtain ⟨hrun, rfl⟩ := exists_isRun_of_digits? hm
      exact ⟨true, ds, hrun, rfl, (Option.some.inj h).symm⟩
  next =>
    obtain ⟨m, hm, rfl⟩ := Option.map_eq_some_iff.mp h
    obtain ⟨ds, hrun, hsplit, rfl⟩ := exists_isRun_of_nat? hm
    exact ⟨false, ds, hrun, hsplit, rfl⟩

end TickFeed.Text
