import TickFeed.Json.Writer
import TickFeed.Proofs.Json.Depth
import TickFeed.Proofs.Json.Fields

/-! # Texts that are written

The text that is written of a string, and of an object whose values are strings, is read
back as what it was written of. A control character comes back as the code unit that its
escape names, which is the same character (`Piece.Means`). -/

namespace TickFeed.Json

namespace Document

/-! ## Strings -/

inductive Piece.Means : Piece → Char → Prop where
  | char (c : Char) : Means (.char c) c
  | unit {c : Char} (h : c.toNat < 0xD800) : Means (.unit c.toNat) c

theorem textOfPieces_of_means {pieces : List Piece} {cs : List Char}
    (h : List.Forall₂ Piece.Means pieces cs) : textOfPieces pieces = some cs := by
  induction h with
  | nil => rfl
  | cons hp _ ih =>
    cases hp with
    | char c => rw [textOfPieces, ih, Option.map_some]
    | @unit c hlow =>
      rw [textOfPieces.eq_def]
      dsimp only
      rw [if_pos (.inl hlow), ih, Option.map_some, Char.ofNat_toNat]

theorem hexDigit?_hexDigit : ∀ d, d < 16 → hexDigit? (hexDigit d) = some d := by decide

/-- What is written of a character is read as a piece that means it. -/
theorem run?_escape (c : Char) :
    ∃ p : Piece, p.Means c ∧ ∀ stack member pieces,
      Machine.run? ⟨stack, .text member pieces .none⟩ (escape c) =
        some ⟨stack, .text member (p :: pieces) .none⟩ := by
  unfold escape
  split
  · exact ⟨_, .char _, fun _ _ _ => rfl⟩
  · exact ⟨_, .char _, fun _ _ _ => rfl⟩
  · exact ⟨_, .char _, fun _ _ _ => rfl⟩
  · exact ⟨_, .char _, fun _ _ _ => rfl⟩
  · exact ⟨_, .char _, fun _ _ _ => rfl⟩
  · exact ⟨_, .char _, fun _ _ _ => rfl⟩
  · exact ⟨_, .char _, fun _ _ _ => rfl⟩
  next hquote hslash _ _ _ _ _ =>
    split
    next hlow =>
      refine ⟨.unit c.toNat, .unit (by omega), fun stack member pieces => ?_⟩
      have hdigit (digits value d : Nat) (hd : d < 16) :
          step? ⟨stack, .text member pieces (.unit digits value)⟩ (hexDigit d) =
            some (if digits = 3 then ⟨stack, .text member (.unit (16 * value + d) :: pieces) .none⟩
              else ⟨stack, .text member pieces (.unit (digits + 1) (16 * value + d))⟩) := by
        simp only [step?, stepText?, hexDigit?_hexDigit d hd, Option.map_some]
      have hvalue : 16 * (16 * 0 + c.toNat / 16) + c.toNat % 16 = c.toNat := by omega
      show Machine.run? ⟨stack, .text member pieces (.unit 2 0)⟩ [hexDigit _, hexDigit _] = _
      rw [run?_cons, hdigit _ _ _ (by omega), if_neg (by decide), Option.bind_some, run?_cons,
        hdigit _ _ _ (by omega), if_pos rfl, hvalue]
      rfl
    next hlow =>
      refine ⟨.char c, .char c, fun stack member pieces => ?_⟩
      simp only [Machine.run?, List.foldlM_cons, List.foldlM_nil, step?, stepText?]
      rw [if_neg hquote, if_neg hslash, if_neg hlow]
      rfl

/-- The rest of a string that is written is read up to the quote at its end. -/
theorem run?_escapes (cs : List Char) (member : Option (List (Option String × Document)))
    (pieces : List Piece) {start : List Char} (h : List.Forall₂ Piece.Means pieces.reverse start) :
    ∀ stack, Machine.run? ⟨stack, .text member pieces .none⟩ (cs.flatMap escape ++ ['"']) =
      some (match member with
        | some before => ⟨stack, .colon before (String.ofList (start ++ cs))⟩
        | none => ⟨stack, .after (.string (String.ofList (start ++ cs)))⟩) := by
  induction cs generalizing pieces start with
  | nil =>
    intro stack
    have htext := textOfPieces_of_means h
    cases member <;> simp [Machine.run?, step?, stepText?, endText, htext]
  | cons c cs ih =>
    intro stack
    obtain ⟨p, hp, hrun⟩ := run?_escape c
    have hmore : List.Forall₂ Piece.Means (p :: pieces).reverse (start ++ [c]) := by
      rw [List.reverse_cons]
      exact List.rel_append h (.cons hp .nil)
    rw [List.flatMap_cons, List.append_assoc, run?_append_some (hrun ..), ih _ hmore,
      List.append_assoc]
    rfl

theorem toList_quote (s : String) :
    (quote s).toList = '"' :: (s.toList.flatMap escape ++ ['"']) := String.toList_ofList

theorem spells_quote (s : String) : Spells (quote s).toList (.string s) := by
  refine ⟨_, .after _, fun stack => ?_⟩
  have hrun := run?_escapes s.toList none [] .nil stack
  rw [List.nil_append, String.ofList_toList] at hrun
  rw [toList_quote]
  exact hrun

/-! ## Objects -/

/-- Where a name may stand, these characters are read as a name and its value. -/
def SpellsMember (cs : List Char) (m : Option String × Document) : Prop :=
  ∃ rest, cs = '"' :: rest ∧ ∃ mode : Mode, mode.Completes m.2 ∧ ∀ stack before,
    Machine.run? ⟨stack, .text (some before) [] .none⟩ rest =
      some ⟨.object before m.1 :: stack, mode⟩

theorem Spells.member {cs : List Char} {d : Document} (h : Spells cs d) (name : String) :
    SpellsMember ((quote name).toList ++ ':' :: cs) (some name, d) := by
  obtain ⟨mode, hmode, hrun⟩ := h
  refine ⟨name.toList.flatMap escape ++ ['"'] ++ ':' :: cs, ?_, mode, hmode,
    fun stack before => ?_⟩
  · rw [toList_quote, List.cons_append]
  · have hname := run?_escapes name.toList (some before) [] .nil stack
    rw [List.nil_append, String.ofList_toList] at hname
    rw [run?_append_some hname]
    exact hrun _

theorem run?_members {texts : List (List Char)} {members : List (Option String × Document)}
    (h : List.Forall₂ SpellsMember texts members) (hne : texts ≠ [])
    (before : List (Option String × Document)) (stack : List Frame) :
    Machine.run? ⟨stack, .name before⟩ ([','].intercalate texts ++ ['}']) =
      some ⟨stack, .after (.object (before.reverse ++ members))⟩ := by
  induction h generalizing before with
  | nil => exact absurd rfl hne
  | @cons text m texts members htext hrest ih =>
    obtain ⟨rest, rfl, mode, hmode, hrun⟩ := htext
    have hopen (tail : List Char) : Machine.run? ⟨stack, .name before⟩ ('"' :: rest ++ tail) =
        Machine.run? ⟨.object before m.1 :: stack, mode⟩ tail :=
      run?_append_some (hrun stack before) tail
    cases hrest with
    | nil =>
      rw [List.intercalate_singleton, hopen, run?_cons, step?_of_completes hmode (.inr (.inr rfl))]
      simp [follow?, isSpace, Machine.run?]
    | @cons text' m' texts members htext' hrest =>
      rw [List.intercalate_cons_cons, List.append_assoc, List.append_assoc, hopen,
        List.singleton_append, run?_cons, step?_of_completes hmode (.inl rfl)]
      have := ih (List.cons_ne_nil _ _) (m :: before)
      simpa [follow?, isSpace] using this

/-- Members with commas between them, in braces, spell the object of them. -/
theorem spells_object {texts : List (List Char)} {members : List (Option String × Document)}
    (h : List.Forall₂ SpellsMember texts members) :
    Spells ('{' :: ([','].intercalate texts ++ ['}'])) (.object members) := by
  refine ⟨_, .after _, fun stack => ?_⟩
  cases texts with
  | nil =>
    cases h
    rfl
  | cons text texts =>
    have hmembers := run?_members h (List.cons_ne_nil _ _) [] stack
    obtain ⟨m, members', ⟨rest, rfl, -⟩, -, rfl⟩ := List.forall₂_cons_left_iff.mp h
    obtain ⟨tail, htail⟩ := exists_intercalate_cons [','] ('"' :: rest) texts ['}']
    -- the first name of an object is read like every other one
    rw [htail] at hmembers ⊢
    exact hmembers

end Document

/-! ## Objects of strings -/

theorem itemTexts_eq (items : List Json) : itemTexts items = items.map text := by
  induction items with
  | nil => rfl
  | cons v items ih => rw [itemTexts, ih, List.map_cons]

theorem memberTexts_eq (members : List (String × Json)) :
    memberTexts members = members.map memberText := by
  induction members with
  | nil => rfl
  | cons m members ih => rw [memberTexts, ih, List.map_cons]

def ofStrings (members : List (String × String)) : Json :=
  .object (members.map fun m => (m.1, .string m.2))

/-- What is written of such an object says nothing else. -/
def Document.ofStrings (members : List (String × String)) : Document :=
  .object (members.map fun m => (some m.1, .string (some m.2)))

theorem Document.read?_text_ofStrings (members : List (String × String)) :
    read? (Json.ofStrings members).text = some (ofStrings members) := by
  have htext : (Json.ofStrings members).text.toList =
      '{' :: ([','].intercalate (members.map fun m =>
        (quote m.1).toList ++ ':' :: (quote m.2).toList) ++ ['}']) := by
    have hmember (m : String × String) : (memberText (m.1, .string m.2)).toList =
        (quote m.1).toList ++ ':' :: (quote m.2).toList := by
      rw [memberText, text, String.toList_append, String.toList_append, List.append_assoc]
      rfl
    rw [Json.ofStrings, text, memberTexts_eq, String.toList_append, String.toList_append,
      String.toList_intercalate, List.map_map, List.map_map, List.append_assoc]
    simp only [Function.comp_def, hmember]
    rfl
  rw [read?_eq_some_iff, htext]
  refine spells_object ?_
  rw [List.forall₂_map_left_iff, List.forall₂_map_right_iff, List.forall₂_same]
  exact fun m _ => (spells_quote m.2).member m.1

theorem Document.depth_ofStrings (members : List (String × String)) :
    (ofStrings members).depth = 1 := by
  have hmembers : membersDepth (members.map fun m => (some m.1, .string (some m.2))) = 0 := by
    induction members with
    | nil => rfl
    | cons m members ih => rw [List.map_cons, membersDepth, ih]; rfl
  rw [ofStrings, depth, hmembers]

theorem Document.toJson?_ofStrings (members : List (String × String)) (k : Nat) :
    (ofStrings members).toJson? (k + 1) = some (Fields.ofStrings members).toJson := by
  have hmembers : membersToJson? k (members.map fun m => (some m.1, .string (some m.2))) =
      some (members.map fun m => (m.1, .string m.2)) := by
    induction members with
    | nil => rfl
    | cons m members ih => rw [List.map_cons, membersToJson?, ih]; rfl
  rw [ofStrings, toJson?, hmembers]
  rfl

/-- What is written of such objects in an array is read as them. -/
theorem read?_text_array (rows : List (List (String × String))) :
    read? (Json.array (rows.map ofStrings)).text =
      some (.array (rows.map fun members => (Fields.ofStrings members).toJson)) := by
  rw [text, itemTexts_eq, List.map_map]
  refine read?_array ?_ ?_
  · rw [List.forall₂_map_left_iff, List.forall₂_map_right_iff, List.forall₂_same]
    intro members _
    show (Document.read? (ofStrings members).text).bind _ = _
    rw [Document.read?_text_ofStrings, Option.bind_some]
    exact Document.toJson?_ofStrings members _
  · intro r hr d hd
    obtain ⟨members, -, rfl⟩ := List.mem_map.mp hr
    obtain rfl := Option.some.inj ((Document.read?_text_ofStrings members).symm.trans hd)
    rw [Document.depth_ofStrings]
    decide

end TickFeed.Json
