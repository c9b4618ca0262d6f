import TickFeed.Json.Basic

/-! # Fields from lists

Of values that are listed by name the last one for a name counts. Where the names are
distinct, that is the only one (`get?_ofList`), and the order in which they are listed is
forgotten. -/

namespace TickFeed.Json

/-- A name behind all others goes to the end. -/
theorem insertMember_of_forall_lt {name : String} {members : List (String × Json)}
    (h : ∀ m ∈ members, m.1 < name) (value : Json) :
    insertMember name value members = members ++ [(name, value)] := by
  induction members with
  | nil => rfl
  | cons m members ih =>
    have hlt : m.1 < name := h m List.mem_cons_self
    rw [insertMember, if_neg (String.lt_asymm hlt), if_neg (String.ne_of_lt hlt).symm,
      ih fun m' hm' => h m' (List.mem_cons_of_mem _ hm')]
    rfl

namespace Fields

theorem eq_of_members {a b : Fields} (h : a.members = b.members) : a = b := by
  cases a
  cases b
  cases h
  rfl

/-- Members that are listed in their order are put behind each other. -/
theorem members_foldl_insert (listed : List (String × Json)) (fields : Fields)
    (h : Ordered (fields.members ++ listed)) :
    (listed.foldl (fun fields m => fields.insert m.1 m.2) fields).members =
      fields.members ++ listed := by
  induction listed generalizing fields with
  | nil => exact (List.append_nil _).symm
  | cons m listed ih =>
    have hlast : ∀ m' ∈ fields.members, m'.1 < m.1 := fun m' hm' =>
      (List.pairwise_append.mp h).2.2 m' hm' m List.mem_cons_self
    have hinsert : (fields.insert m.1 m.2).members = fields.members ++ [m] :=
      insertMember_of_forall_lt hlast m.2
    rw [List.foldl_cons, ih _ (by rw [hinsert, List.append_assoc]; exact h), hinsert,
      List.append_assoc]
    rfl

@[simp] theorem ofList_members (fields : Fields) : ofList fields.members = fields :=
  eq_of_members (members_foldl_insert fields.members empty fields.ordered)

theorem get?_foldl_insert (listed : List (String × Json)) (fields : Fields)
    (h : (listed.map Prod.fst).Nodup) (name : String) :
    (listed.foldl (fun fields m => fields.insert m.1 m.2) fields).get? name =
      (listed.lookup name).or (fields.get? name) := by
  induction listed generalizing fields with
  | nil => rfl
  | cons m listed ih =>
    obtain ⟨hnew, hrest⟩ := List.nodup_cons.mp h
    rw [List.foldl_cons, ih _ hrest, get?_insert, List.lookup_cons]
    by_cases hname : name = m.1
    · have hnone : listed.lookup name = none := by
        refine List.lookup_eq_none_iff.mpr fun m' hm' => bne_iff_ne.mpr ?_
        rintro rfl
        exact hnew (List.mem_map.mpr ⟨m', hm', hname⟩)
      rw [hnone, if_pos hname, beq_iff_eq.mpr hname]
      rfl
    · rw [if_neg hname, beq_eq_false_iff_ne.mpr hname]

theorem get?_ofList {listed : List (String × Json)} (h : (listed.map Prod.fst).Nodup)
    (name : String) : (ofList listed).get? name = listed.lookup name := by
  rw [ofList, get?_foldl_insert listed empty h]
  exact Option.or_none

def ofStrings (members : List (String × String)) : Fields :=
  ofList (members.map fun m => (m.1, .string m.2))

theorem get?_ofStrings {members : List (String × String)} (h : (members.map Prod.fst).Nodup)
    (name : String) : (ofStrings members).get? name = (members.lookup name).map .string := by
  have hnames : ((members.map fun m => (m.1, Json.string m.2)).map Prod.fst).Nodup := by
    rw [List.map_map]
    exact h
  rw [ofStrings, get?_ofList hnames]
  clear h hnames
  induction members with
  | nil => rfl
  | cons m members ih =>
    rw [List.map_cons, List.lookup_cons, List.lookup_cons, ih]
    cases name == m.1 <;> rfl

/-! ## Fewer fields -/

def without (fields : Fields) (names : List String) : Fields :=
  ⟨fields.members.filter fun m => m.1 ∉ names, fields.ordered.filter _⟩

theorem get?_without (fields : Fields) (names : List String) (name : String) :
    (fields.without names).get? name = if name ∈ names then none else fields.get? name := by
  obtain ⟨members, ordered⟩ := fields
  show (members.filter fun m => decide (m.1 ∉ names)).lookup name = _
  simp only [get?]
  clear ordered
  induction members with
  | nil => simp
  | cons m members ih =>
    rw [List.filter_cons]
    by_cases hm : m.1 ∈ names
    · rw [if_neg (by simpa using hm), ih]
      split
      · rfl
      next hname =>
        have hne : name ≠ m.1 := fun h => hname (h ▸ hm)
        rw [List.lookup_cons, beq_eq_false_iff_ne.mpr hne]
    · rw [if_pos (by simpa using hm), List.lookup_cons, List.lookup_cons, ih]
      by_cases hname : name = m.1
      · have hkept : name ∉ names := hname ▸ hm
        rw [beq_iff_eq.mpr hname, if_neg hkept, if_neg hkept]
      · rw [beq_eq_false_iff_ne.mpr hname]

end Fields

end TickFeed.Json
