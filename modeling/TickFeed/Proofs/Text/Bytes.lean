import TickFeed.Text.Bytes

/-! # The bytes of a text

The bytes of a text are those of its characters one after the other. A character of ASCII
is one byte, and that byte is part of no other character (`mem_encoding_iff`), so whoever
looks for such a byte in a text finds the characters: lines can be taken apart as bytes
(`splitLines_bytes`). A line feed between two pieces of data takes them apart
(`splitLines_append`), and a line is a matter of its own bytes (`exists_splitLines_around`). -/

namespace TickFeed.Text

theorem toListLoop_eq (bs : ByteArray) (i : Nat) (taken : List UInt8) :
    ByteArray.toList.loop bs i taken = taken.reverse ++ bs.data.toList.drop i := by
  fun_induction ByteArray.toList.loop bs i taken with
  | case1 i taken h ih =>
    have hi : i < bs.data.toList.length := by simpa using h
    rw [ih, List.drop_eq_getElem_cons hi]
    simp [ByteArray.get!, h]
  | case2 i taken h =>
    rw [List.drop_eq_nil_of_le (by simpa using Nat.le_of_not_lt h)]
    simp

theorem bytes_eq (s : String) : bytes s = s.toList.flatMap String.utf8EncodeChar := by
  rw [bytes, ByteArray.toList, toListLoop_eq, String.toUTF8_eq_toByteArray,
    ← String.utf8Encode_toList, List.utf8Encode, List.toList_data_toByteArray]
  rfl

@[simp] theorem bytes_empty : bytes "" = [] := by
  rw [bytes_eq]
  rfl

@[simp] theorem bytes_append (s t : String) : bytes (s ++ t) = bytes s ++ bytes t := by
  simp only [bytes_eq, String.toList_append, List.flatMap_append]

/-- The bytes of a text are read back as the text. -/
@[simp] theorem ofBytes?_bytes (s : String) : ofBytes? (bytes s) = some s := by
  have hdata : (⟨(bytes s).toArray⟩ : ByteArray) = s.toByteArray := by
    refine ByteArray.ext (Array.toList_inj.mp ?_)
    rw [bytes, ByteArray.toList, toListLoop_eq, String.toUTF8_eq_toByteArray]
    rfl
  rw [ofBytes?, hdata, String.fromUTF8?, dif_pos s.isValidUTF8]
  rfl

/-! ## Characters of ASCII -/

/-- A byte of ASCII is a character of its own. -/
theorem toNat_of_mem_encoding {c : Char} {b : UInt8} (hb : b.toNat < 128)
    (h : b ∈ String.utf8EncodeChar c) : c.toNat = b.toNat := by
  have hlong : ∀ n, 128 ≤ n → n < 256 → b ≠ UInt8.ofNat n := by
    rintro n hlow hhigh rfl
    rw [UInt8.toNat_ofNat'] at hb
    omega
  have hc : c.val.toNat = c.toNat := rfl
  simp only [String.utf8EncodeChar, hc] at h
  split at h
  next hshort =>
    rw [List.mem_singleton.mp h, UInt8.toNat_ofNat', Nat.mod_eq_of_lt (by omega)]
  next =>
    -- the bytes of every other character are above those of ASCII
    exfalso
    split at h
    · simp only [List.mem_cons, List.not_mem_nil, or_false] at h
      rcases h with h | h <;> exact hlong _ (by omega) (by omega) h
    · split at h
      · simp only [List.mem_cons, List.not_mem_nil, or_false] at h
        rcases h with h | h | h <;> exact hlong _ (by omega) (by omega) h
      · simp only [List.mem_cons, List.not_mem_nil, or_false] at h
        rcases h with h | h | h | h <;> exact hlong _ (by omega) (by omega) h

theorem encoding_of_lt {c : Char} (h : c.toNat < 128) :
    String.utf8EncodeChar c = [UInt8.ofNat c.toNat] := by
  have hc : c.val.toNat = c.toNat := rfl
  simp only [String.utf8EncodeChar, hc]
  rw [if_pos (by omega)]

/-- The byte of an ASCII character is in the encoding of that character only. -/
theorem mem_encoding_iff {a c : Char} (ha : a.toNat < 128) :
    UInt8.ofNat a.toNat ∈ String.utf8EncodeChar c ↔ c = a := by
  have hbyte : (UInt8.ofNat a.toNat).toNat = a.toNat := by
    rw [UInt8.toNat_ofNat', Nat.mod_eq_of_lt (by omega)]
  constructor
  · intro h
    have hc := toNat_of_mem_encoding (hbyte.symm ▸ ha) h
    exact Char.toNat_inj.mp (hc.trans hbyte)
  · rintro rfl
    rw [encoding_of_lt ha]
    exact List.mem_singleton.mpr rfl

theorem mem_bytes_iff {a : Char} (ha : a.toNat < 128) {s : String} :
    UInt8.ofNat a.toNat ∈ bytes s ↔ a ∈ s.toList := by
  rw [bytes_eq, List.mem_flatMap]
  simp only [mem_encoding_iff ha, exists_eq_right]

/-! ## Lines -/

theorem bytes_lineFeed : bytes "\n" = [lineFeed] := by
  rw [bytes_eq]
  rfl

theorem splitLines_ne_nil (bs : List UInt8) : splitLines bs ≠ [] := by
  cases bs with
  | nil => exact List.cons_ne_nil _ _
  | cons b bs =>
    rw [splitLines, List.foldr_cons]
    split
    · exact List.cons_ne_nil _ _
    · split <;> exact List.cons_ne_nil _ _

/-- A line begins with every byte that does not end it. -/
theorem exists_splitLines_cons {b : UInt8} (hb : b ≠ lineFeed) (bs : List UInt8) :
    ∃ line lines, splitLines bs = line :: lines ∧ splitLines (b :: bs) = (b :: line) :: lines := by
  obtain ⟨line, lines, hbs⟩ := List.exists_cons_of_ne_nil (splitLines_ne_nil bs)
  refine ⟨line, lines, hbs, ?_⟩
  rw [splitLines, List.foldr_cons, ← splitLines, hbs, if_neg hb]

/-- A line feed takes the bytes apart. -/
theorem splitLines_append (bs rest : List UInt8) :
    splitLines (bs ++ lineFeed :: rest) = splitLines bs ++ splitLines rest := by
  induction bs with
  | nil => rfl
  | cons b bs ih =>
    by_cases hb : b = lineFeed
    · rw [hb]
      exact congrArg ([] :: ·) ih
    · obtain ⟨line, lines, hbs, hline⟩ := exists_splitLines_cons hb bs
      obtain ⟨line', lines', hbs', hline'⟩ := exists_splitLines_cons hb (bs ++ lineFeed :: rest)
      rw [hbs', hbs, List.cons_append] at ih
      obtain ⟨rfl, rfl⟩ := List.cons.inj ih
      exact hline'.trans (congrArg (· ++ splitLines rest) hline).symm

theorem length_splitLines (bs : List UInt8) :
    (splitLines bs).length = bs.count lineFeed + 1 := by
  induction bs with
  | nil => rfl
  | cons b bs ih =>
    by_cases hb : b = lineFeed
    · rw [hb, List.count_cons_self, ← ih]
      rfl
    · obtain ⟨line, lines, hbs, hline⟩ := exists_splitLines_cons hb bs
      rw [List.count_cons_of_ne hb, ← ih, hline, hbs]
      rfl

/-- Bytes without a line feed are one line. -/
theorem splitLines_of_notMem {bs : List UInt8} (h : lineFeed ∉ bs) : splitLines bs = [bs] := by
  induction bs with
  | nil => rfl
  | cons b bs ih =>
    obtain ⟨hb, hbs⟩ := not_or.mp (mt List.mem_cons.mpr h)
    obtain ⟨line, lines, hlines, hline⟩ := exists_splitLines_cons (Ne.symm hb) bs
    rw [ih hbs] at hlines
    cases hlines
    exact hline

/-! ### A line in its place -/

/-- A line may begin behind these bytes. -/
def StartsLine (bs : List UInt8) : Prop := bs = [] ∨ ∃ before, bs = before ++ [lineFeed]

def EndsLine (bs : List UInt8) : Prop := bs = [] ∨ ∃ after, bs = lineFeed :: after

/-- Whatever stands on a line, the other lines are the same, and as many are in front of it. -/
theorem exists_splitLines_around {front back : List UInt8} (hfront : StartsLine front)
    (hback : EndsLine back) :
    ∃ before after, before.length = front.count lineFeed ∧ ∀ line, lineFeed ∉ line →
      splitLines (front ++ line ++ back) = before ++ line :: after := by
  obtain ⟨before, hlength, hbefore⟩ : ∃ before : List (List UInt8),
      before.length = front.count lineFeed ∧
        ∀ rest, splitLines (front ++ rest) = before ++ splitLines rest := by
    obtain rfl | ⟨bs, rfl⟩ := hfront
    · exact ⟨[], rfl, fun _ => rfl⟩
    · refine ⟨splitLines bs, ?_, fun rest => ?_⟩
      · rw [length_splitLines, List.count_append, List.count_singleton_self]
      · rw [List.append_assoc]
        exact splitLines_append bs rest
  obtain ⟨after, hafter⟩ : ∃ after : List (List UInt8), ∀ line, lineFeed ∉ line →
      splitLines (line ++ back) = line :: after := by
    obtain rfl | ⟨bs, rfl⟩ := hback
    · refine ⟨[], fun line hline => ?_⟩
      rw [List.append_nil, splitLines_of_notMem hline]
    · refine ⟨splitLines bs, fun line hline => ?_⟩
      rw [splitLines_append, splitLines_of_notMem hline]
      rfl
  refine ⟨before, after, hlength, fun line hline => ?_⟩
  rw [List.append_assoc, hbefore, hafter line hline]

/-! ### Lines of text -/

/-- Texts of one line each, with line feeds between them, are the lines. -/
theorem splitLines_bytes {texts : List String} (hne : texts ≠ [])
    (h : ∀ s ∈ texts, '\n' ∉ s.toList) :
    splitLines (bytes ("\n".intercalate texts)) = texts.map bytes := by
  have hline : ∀ s ∈ texts, lineFeed ∉ bytes s := fun s hs hb =>
    h s hs ((mem_bytes_iff (a := '\n') (by decide)).mp hb)
  clear h
  induction texts with
  | nil => exact absurd rfl hne
  | cons s texts ih =>
    cases texts with
    | nil => exact splitLines_of_notMem (hline s List.mem_cons_self)
    | cons t texts =>
      have hrest := ih (List.cons_ne_nil _ _) fun u hu => hline u (List.mem_cons_of_mem _ hu)
      rw [String.intercalate_cons_cons, bytes_append, bytes_append, bytes_lineFeed,
        List.append_assoc, List.singleton_append, splitLines_append,
        splitLines_of_notMem (hline s List.mem_cons_self), hrest]
      rfl

end TickFeed.Text
