import TickFeed.Binary64.Arithmetic

/-! # JSON values

A number is an integer of 64 bits, signed or unsigned, or else a finite double.
The members of an object stand in the order of their names, each name once;
`Fields` is such a list with its proof. The order of names is that of their
characters, which for UTF-8 is the order of the bytes. -/

namespace TickFeed

namespace Json

inductive Number where
  | integer (n : Int) (lower : -2 ^ 63 ≤ n) (upper : n < 2 ^ 64)
  | double (x : Binary64) (finite : x.isFinite = true)
deriving DecidableEq

namespace Number

def ofUInt64 (n : UInt64) : Number :=
  .integer n.toNat (by have := n.toNat_lt; omega) (by have := n.toNat_lt; omega)

def ofInt64 (n : Int64) : Number :=
  .integer n.toInt n.le_toInt (by have := n.toInt_lt; omega)

/-- The number as an unsigned integer of 64 bits; a double is none, whatever
its value. -/
def uint64? : Number → Option UInt64
  | .integer n _ _ => if 0 ≤ n then some (UInt64.ofNat n.toNat) else none
  | .double .. => none

/-- The number as a signed integer of 64 bits; a double is none. -/
def int64? : Number → Option Int64
  | .integer n _ _ => if n < 2 ^ 63 then some (Int64.ofInt n) else none
  | .double .. => none

def toBinary64 : Number → Binary64
  | .integer n _ _ => Binary64.ofInt n
  | .double x _ => x

end Number

end Json

inductive Json where
  | null
  | bool (b : Bool)
  | number (n : Json.Number)
  | string (s : String)
  | array (items : List Json)
  | object (members : List (String × Json))

namespace Json

instance : Inhabited Json := ⟨.null⟩

def isNull : Json → Bool
  | .null => true
  | _ => false

/-- The value of a double, which is `null` unless finite. -/
def ofBinary64 (x : Binary64) : Json :=
  if h : x.isFinite then .number (.double x h) else .null

/-- `members` with `value` under `name`, in the order of the names. An earlier
value of that name is replaced. -/
def insertMember (name : String) (value : Json) :
    List (String × Json) → List (String × Json)
  | [] => [(name, value)]
  | (n, v) :: rest =>
    if name < n then (name, value) :: (n, v) :: rest
    else if name = n then (name, value) :: rest
    else (n, v) :: insertMember name value rest

def Ordered (members : List (String × Json)) : Prop := members.Pairwise fun a b => a.1 < b.1

theorem mem_insertMember {name : String} {value : Json} {members : List (String × Json)}
    {m : String × Json} (h : m ∈ insertMember name value members) :
    m = (name, value) ∨ m ∈ members := by
  induction members with
  | nil => simpa [insertMember] using h
  | cons p rest ih =>
    obtain ⟨n, v⟩ := p
    simp only [insertMember] at h
    split at h
    · simpa using h
    · split at h
      · rcases List.mem_cons.1 h with h | h
        · exact .inl h
        · exact .inr (List.mem_cons_of_mem _ h)
      · rcases List.mem_cons.1 h with h | h
        · exact .inr (h ▸ List.mem_cons_self)
        · exact (ih h).imp_right (List.mem_cons_of_mem _)

theorem Ordered.insertMember {members : List (String × Json)} (h : Ordered members)
    (name : String) (value : Json) : Ordered (insertMember name value members) := by
  induction members with
  | nil => simp [Json.insertMember, Ordered]
  | cons p rest ih =>
    obtain ⟨n, v⟩ := p
    obtain ⟨hn, hr⟩ := List.pairwise_cons.1 h
    simp only [Json.insertMember]
    split
    · rename_i hlt
      refine List.pairwise_cons.2 ⟨?_, h⟩
      intro m hm
      rcases List.mem_cons.1 hm with rfl | hm
      · exact hlt
      · exact String.lt_trans hlt (hn m hm)
    · rename_i hnlt
      split
      · rename_i heq
        subst heq
        exact List.pairwise_cons.2 ⟨hn, hr⟩
      · rename_i hne
        refine List.pairwise_cons.2 ⟨?_, ih hr⟩
        intro m hm
        rcases mem_insertMember hm with rfl | hm
        · by_cases hlt : n < name
          · exact hlt
          · exact absurd (String.le_antisymm (String.not_lt.1 hlt) (String.not_lt.1 hnlt)) hne
        · exact hn m hm

theorem lookup_insertMember (name k : String) (value : Json) (members : List (String × Json)) :
    (insertMember name value members).lookup k =
      if k = name then some value else members.lookup k := by
  induction members with
  | nil =>
    by_cases h : k = name
    · simp [insertMember, h]
    · simp [insertMember, List.lookup_cons, h, beq_eq_false_iff_ne.2 h]
  | cons p rest ih =>
    obtain ⟨n, v⟩ := p
    simp only [insertMember]
    split
    · by_cases h : k = name
      · simp [h]
      · simp [List.lookup_cons, h, beq_eq_false_iff_ne.2 h]
    · split
      · rename_i heq
        subst heq
        by_cases h : k = name
        · simp [h]
        · simp [List.lookup_cons, h, beq_eq_false_iff_ne.2 h]
      · rename_i hne
        by_cases h : k = name
        · subst h
          simp [List.lookup_cons, beq_eq_false_iff_ne.2 hne, ih]
        · simp [List.lookup_cons, h, ih]

structure Fields where
  members : List (String × Json)
  ordered : Ordered members

namespace Fields

def empty : Fields := ⟨[], List.Pairwise.nil⟩

instance : Inhabited Fields := ⟨empty⟩

def get? (fields : Fields) (name : String) : Option Json := fields.members.lookup name

def insert (fields : Fields) (name : String) (value : Json) : Fields :=
  ⟨insertMember name value fields.members, fields.ordered.insertMember name value⟩

/-- All of `members`; of several values for one name the last one counts. -/
def ofList (members : List (String × Json)) : Fields :=
  members.foldl (fun fields m => fields.insert m.1 m.2) empty

def size (fields : Fields) : Nat := fields.members.length

def names (fields : Fields) : List String := fields.members.map (·.1)

def toJson (fields : Fields) : Json := .object fields.members

theorem get?_insert (fields : Fields) (name k : String) (value : Json) :
    (fields.insert name value).get? k = if k = name then some value else fields.get? k :=
  lookup_insertMember name k value fields.members

end Fields

end Json

end TickFeed
