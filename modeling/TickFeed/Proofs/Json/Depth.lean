import TickFeed.Proofs.Json.Spelling

/-! # The depth of a document

A document has a value only when its arrays and objects are not nested too deep. How deep
they may be nested makes no difference otherwise (`toJson?_eq_of_depth_le`), so what has a
value on its own has the same one inside an array, where there is one level less for it
(`read?_array`). -/

namespace TickFeed.Json

namespace Document

mutual

def depth : Document → Nat
  | .array items => itemsDepth items + 1
  | .object members => membersDepth members + 1
  | _ => 0

def itemsDepth : List Document → Nat
  | [] => 0
  | d :: rest => max d.depth (itemsDepth rest)

def membersDepth : List (Option String × Document) → Nat
  | [] => 0
  | m :: rest => max (memberDepth m) (membersDepth rest)

def memberDepth : Option String × Document → Nat
  | (_, d) => d.depth

end

mutual

/-- Where a document is not too deep, its value does not depend on the limit. -/
theorem toJson?_eq_of_depth_le {k l : Nat} :
    ∀ d : Document, d.depth ≤ k → d.depth ≤ l → d.toJson? k = d.toJson? l
  | .null, _, _ => rfl
  | .bool _, _, _ => rfl
  | .number _, _, _ => rfl
  | .string _, _, _ => rfl
  | .array items, hk, hl => by
    rw [depth] at hk hl
    obtain ⟨k, rfl⟩ : ∃ n, k = n + 1 := ⟨k - 1, by omega⟩
    obtain ⟨l, rfl⟩ : ∃ n, l = n + 1 := ⟨l - 1, by omega⟩
    simp only [toJson?]
    rw [itemsToJson?_eq_of_depth_le items (Nat.le_of_succ_le_succ hk) (Nat.le_of_succ_le_succ hl)]
  | .object members, hk, hl => by
    rw [depth] at hk hl
    obtain ⟨k, rfl⟩ : ∃ n, k = n + 1 := ⟨k - 1, by omega⟩
    obtain ⟨l, rfl⟩ : ∃ n, l = n + 1 := ⟨l - 1, by omega⟩
    simp only [toJson?]
    rw [membersToJson?_eq_of_depth_le members (Nat.le_of_succ_le_succ hk)
      (Nat.le_of_succ_le_succ hl)]

theorem itemsToJson?_eq_of_depth_le {k l : Nat} :
    ∀ items : List Document, itemsDepth items ≤ k → itemsDepth items ≤ l →
      itemsToJson? k items = itemsToJson? l items
  | [], _, _ => rfl
  | d :: rest, hk, hl => by
    rw [itemsDepth, Nat.max_le] at hk hl
    simp only [itemsToJson?]
    rw [toJson?_eq_of_depth_le d hk.1 hl.1, itemsToJson?_eq_of_depth_le rest hk.2 hl.2]

theorem membersToJson?_eq_of_depth_le {k l : Nat} :
    ∀ members : List (Option String × Document), membersDepth members ≤ k →
      membersDepth members ≤ l → membersToJson? k members = membersToJson? l members
  | [], _, _ => rfl
  | m :: rest, hk, hl => by
    rw [membersDepth, Nat.max_le] at hk hl
    simp only [membersToJson?]
    rw [memberToJson?_eq_of_depth_le m hk.1 hl.1, membersToJson?_eq_of_depth_le rest hk.2 hl.2]

theorem memberToJson?_eq_of_depth_le {k l : Nat} :
    ∀ m : Option String × Document, memberDepth m ≤ k → memberDepth m ≤ l →
      memberToJson? k m = memberToJson? l m
  | (_, d), hk, hl => by
    rw [memberDepth] at hk hl
    simp only [memberToJson?]
    rw [toJson?_eq_of_depth_le d hk hl]

end

end Document

/-- The documents of the items of an array, which have their values there. -/
theorem exists_documents {texts : List String} {values : List Json}
    (h : List.Forall₂ (fun r v => read? r = some v) texts values)
    (hdepth : ∀ r ∈ texts, ∀ d, Document.read? r = some d → d.depth < maxDepth) :
    ∃ docs, List.Forall₂ Document.Spells (texts.map String.toList) docs ∧
      Document.itemsToJson? (maxDepth - 1) docs = some values := by
  induction h with
  | nil => exact ⟨[], .nil, rfl⟩
  | cons hread _ ih =>
    obtain ⟨docs, hspells, hitems⟩ := ih fun r hr => hdepth r (List.mem_cons_of_mem _ hr)
    obtain ⟨d, hd, hvalue⟩ := Option.bind_eq_some_iff.mp hread
    have hroom : d.depth < maxDepth := hdepth _ List.mem_cons_self d hd
    rw [Document.toJson?_eq_of_depth_le d (Nat.le_of_lt hroom) (Nat.le_pred_of_lt hroom)]
      at hvalue
    refine ⟨d :: docs, .cons (Document.read?_eq_some_iff.mp hd) hspells, ?_⟩
    simp only [Document.itemsToJson?, hitems]
    rw [← Nat.pred_eq_sub_one, hvalue]
    rfl

/-- Texts that leave room for one more array around them have their values inside of it. -/
theorem read?_array {texts : List String} {values : List Json}
    (h : List.Forall₂ (fun r v => read? r = some v) texts values)
    (hdepth : ∀ r ∈ texts, ∀ d, Document.read? r = some d → d.depth < maxDepth) :
    read? ("[" ++ ",".intercalate texts ++ "]") = some (.array values) := by
  obtain ⟨docs, hspells, hitems⟩ := exists_documents h hdepth
  have htext : ("[" ++ ",".intercalate texts ++ "]").toList =
      '[' :: ([','].intercalate (texts.map String.toList) ++ [']']) := by
    simp only [String.toList_append, String.toList_intercalate]
    rfl
  have hread : Document.read? ("[" ++ ",".intercalate texts ++ "]") = some (.array docs) := by
    rw [Document.read?_eq_some_iff, htext]
    exact Document.spells_array hspells
  have hvalue : (Document.array docs).toJson? maxDepth = some (.array values) := by
    simp only [maxDepth, Document.toJson?] at hitems ⊢
    rw [hitems]
    rfl
  rw [read?, hread]
  exact hvalue

end TickFeed.Json
