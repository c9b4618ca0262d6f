import Mathlib.Data.List.Forall2
import Mathlib.Data.List.TakeWhile
import TickFeed.Json.Writer
import TickFeed.Proofs.Text.Letters

/-! # Text without padding

Whether a character is blank does not depend on its letter case, so it is the same to
take the padding off first or to put a text in upper case first. Texts that differ in
padding and letter case only (`Alike`) come to one text by both. The text of a number
has no blank character at all. -/

namespace TickFeed.Text

theorem dropBlanks_toUpper (cs : List Char) :
    dropBlanks (cs.map Char.toUpper) = (dropBlanks cs).map Char.toUpper := by
  unfold dropBlanks
  induction cs with
  | nil => rfl
  | cons c cs ih =>
    rw [List.map_cons, List.dropWhile_cons, List.dropWhile_cons, isBlank_toUpper, ih]
    split
    · rfl
    · rfl

theorem trim_upper (s : String) : trim (upper s) = upper (trim s) := by
  simp only [trim, upper, trimChars, String.toList_ofList, dropBlanks_toUpper,
    ← List.map_reverse]

/-! ## Text without blanks -/

theorem dropBlanks_of_none {cs : List Char} (h : ∀ c ∈ cs, isBlank c = false) :
    dropBlanks cs = cs := by
  cases cs with
  | nil => rfl
  | cons c cs => simp [dropBlanks, h c List.mem_cons_self]

theorem trimChars_of_none {cs : List Char} (h : ∀ c ∈ cs, isBlank c = false) :
    trimChars cs = cs := by
  have hreverse : ∀ c ∈ cs.reverse, isBlank c = false :=
    fun c hc => h c (List.mem_reverse.mp hc)
  rw [trimChars, dropBlanks_of_none h, dropBlanks_of_none hreverse, List.reverse_reverse]

theorem trim_of_none {s : String} (h : ∀ c ∈ s.toList, isBlank c = false) : trim s = s := by
  rw [trim, trimChars_of_none h, String.ofList_toList]

/-! ## Padding -/

theorem dropBlanks_append {blanks : List Char} (h : ∀ c ∈ blanks, isBlank c = true)
    (cs : List Char) : dropBlanks (blanks ++ cs) = dropBlanks cs :=
  List.dropWhile_append_of_pos h

theorem dropBlanks_append_blanks {blanks : List Char} (h : ∀ c ∈ blanks, isBlank c = true)
    (cs : List Char) :
    dropBlanks (cs ++ blanks) = if dropBlanks cs = [] then [] else dropBlanks cs ++ blanks := by
  have hblanks : dropBlanks blanks = [] := List.dropWhile_eq_nil_iff.mpr h
  unfold dropBlanks at hblanks ⊢
  rw [List.dropWhile_append, hblanks]
  simp only [List.isEmpty_iff]

/-- Padding on both sides makes no difference. -/
theorem trimChars_append_blanks {before after : List Char}
    (hbefore : ∀ c ∈ before, isBlank c = true) (hafter : ∀ c ∈ after, isBlank c = true)
    (cs : List Char) : trimChars (before ++ cs ++ after) = trimChars cs := by
  have hreverse : ∀ c ∈ after.reverse, isBlank c = true :=
    fun c hc => hafter c (List.mem_reverse.mp hc)
  rw [trimChars, List.append_assoc, dropBlanks_append hbefore, dropBlanks_append_blanks hafter,
    trimChars]
  split
  next hnil => rw [hnil]
  next => rw [List.reverse_append, dropBlanks_append hreverse]

/-- Padding on both sides of text without blanks. -/
theorem trimChars_padded {before cs after : List Char} (hbefore : ∀ c ∈ before, isBlank c = true)
    (h : ∀ c ∈ cs, isBlank c = false) (hafter : ∀ c ∈ after, isBlank c = true) :
    trimChars (before ++ cs ++ after) = cs := by
  rw [trimChars_append_blanks hbefore hafter, trimChars_of_none h]

/-! ## Texts that differ in padding and letter case -/

/-- The same character, or the same letter of ASCII in the other case. -/
def SameLetter (c d : Char) : Prop :=
  c = d ∨ c.isAlpha = true ∧ d.isAlpha = true ∧
    (c.toNat + 32 = d.toNat ∨ d.toNat + 32 = c.toNat)

instance (c d : Char) : Decidable (SameLetter c d) := inferInstanceAs (Decidable (_ ∨ _))

/-- Apart from padding and letter case the two texts are one. -/
def Alike (s t : String) : Prop :=
  ∃ before cs after before' ds after' : List Char,
    (∀ c ∈ before ++ after ++ before' ++ after', isBlank c = true) ∧
      s.toList = before ++ cs ++ after ∧ t.toList = before' ++ ds ++ after' ∧
      List.Forall₂ SameLetter cs ds

theorem SameLetter.toUpper {c d : Char} (h : SameLetter c d) : c.toUpper = d.toUpper := by
  rcases h with rfl | ⟨hc, hd, hstep⟩
  · rfl
  · rw [isAlpha_iff] at hc hd
    refine Char.toNat_inj.mp ?_
    rw [toNat_toUpper, toNat_toUpper]
    split <;> split <;> omega

theorem Alike.upper_trim {s t : String} (h : Alike s t) : upper (trim s) = upper (trim t) := by
  obtain ⟨before, cs, after, before', ds, after', hblank, hs, ht, hletters⟩ := h
  simp only [List.forall_mem_append] at hblank
  obtain ⟨⟨⟨hbefore, hafter⟩, hbefore'⟩, hafter'⟩ := hblank
  have hcase : cs.map Char.toUpper = ds.map Char.toUpper := by
    rw [← List.forall₂_eq_eq_eq, List.forall₂_map_left_iff, List.forall₂_map_right_iff]
    exact hletters.imp fun _ _ hletter => hletter.toUpper
  have hupper (part : List Char) : upper (String.ofList (trimChars part)) =
      trim (String.ofList (part.map Char.toUpper)) := by
    have hswap := trim_upper (String.ofList part)
    rw [upper, String.toList_ofList] at hswap
    rw [hswap, trim, String.toList_ofList]
  rw [trim, trim, hs, ht, trimChars_append_blanks hbefore hafter,
    trimChars_append_blanks hbefore' hafter', hupper, hupper, hcase]

/-! ## Digits -/

theorem isBlank_of_isDigit {c : Char} (h : c.isDigit = true) : isBlank c = false := by
  have hdigit : 48 ≤ c.toNat ∧ c.toNat ≤ 57 := Char.isDigit_iff_toNat.mp h
  rw [Bool.eq_false_iff]
  simp only [isBlank, ne_eq, Bool.or_eq_true, Bool.and_eq_true, decide_eq_true_eq, beq_iff_eq]
  omega

theorem isBlank_of_mem_toDigits {n : Nat} {c : Char} (h : c ∈ Nat.toDigits 10 n) :
    isBlank c = false :=
  isBlank_of_isDigit (Nat.isDigit_of_mem_toDigits (by decide) (by decide) h)

end TickFeed.Text

namespace TickFeed

open Text

theorem Binary64.positional_no_blank (places : Nat) (d : Binary64.Digits) :
    ∀ c ∈ (Binary64.positional places d).toList, isBlank c = false := by
  have zeros : ∀ n, ∀ c ∈ List.replicate n '0', isBlank c = false := by
    intro n c hc
    rw [List.eq_of_mem_replicate hc]
    rfl
  have digits : ∀ c ∈ Nat.toDigits 10 d.digits, isBlank c = false :=
    fun c hc => isBlank_of_mem_toDigits hc
  have joined : ∀ {cs ds : List Char}, (∀ c ∈ cs, isBlank c = false) →
      (∀ c ∈ ds, isBlank c = false) → ∀ c ∈ cs ++ ds, isBlank c = false :=
    fun hcs hds => List.forall_mem_append.mpr ⟨hcs, hds⟩
  have hwhole : ∀ c ∈ (if 0 ≤ d.exponent
      then Nat.toDigits 10 d.digits ++ List.replicate d.exponent.toNat '0'
      else (Nat.toDigits 10 d.digits).take
        ((Nat.toDigits 10 d.digits).length - (-d.exponent).toNat)), isBlank c = false := by
    split
    · exact joined digits (zeros _)
    · exact fun c hc => digits c (List.mem_of_mem_take hc)
  have hfraction : ∀ c ∈ (if 0 ≤ d.exponent then []
      else List.replicate ((-d.exponent).toNat - (Nat.toDigits 10 d.digits).length) '0' ++
        (Nat.toDigits 10 d.digits).drop
          ((Nat.toDigits 10 d.digits).length - (-d.exponent).toNat)), isBlank c = false := by
    split
    · nofun
    · exact joined (zeros _) fun c hc => digits c (List.mem_of_mem_drop hc)
  have point : isBlank '.' = false := by decide
  have assembled : ∀ {whole fraction : List Char}, (∀ c ∈ whole, isBlank c = false) →
      (∀ c ∈ fraction, isBlank c = false) →
      ∀ c ∈ (if fraction = [] then (if whole = [] then ['0'] else whole)
        else (if whole = [] then ['0'] else whole) ++ '.' :: fraction), isBlank c = false := by
    intro whole fraction hw hf
    have hfirst : ∀ c ∈ (if whole = [] then ['0'] else whole), isBlank c = false := by
      split
      · exact zeros 1
      · exact hw
    split
    · exact hfirst
    · exact joined hfirst (List.forall_mem_cons.mpr ⟨point, hf⟩)
  rw [Binary64.positional, String.toList_ofList]
  exact assembled hwhole (joined hfraction (zeros _))

theorem Binary64.scientific_no_blank (d : Binary64.Digits) :
    ∀ c ∈ (Binary64.scientific d).toList, isBlank c = false := by
  have digits : ∀ n, ∀ c ∈ Nat.toDigits 10 n, isBlank c = false :=
    fun n c hc => isBlank_of_mem_toDigits hc
  have point : isBlank '.' = false := by decide
  have mark : isBlank 'e' = false := by decide
  simp only [Binary64.scientific, String.toList_ofList]
  refine List.forall_mem_append.mpr ⟨?_, List.forall_mem_cons.mpr ⟨mark,
    List.forall_mem_cons.mpr ⟨?_, digits _⟩⟩⟩
  · have hd := digits d.digits
    split
    · rename_i h
      rw [h] at hd
      exact hd
    · rename_i h
      rw [h, List.forall_mem_cons] at hd
      exact List.forall_mem_cons.mpr ⟨hd.1, List.forall_mem_cons.mpr ⟨point, hd.2⟩⟩
    · nofun
  · split <;> rfl

/-- The text of a number has no padding. -/
theorem Json.Number.trim_text (n : Json.Number) : trim n.text = n.text := by
  refine trim_of_none ?_
  have sign : ∀ neg, ∀ c ∈ (Binary64.signText neg).toList, isBlank c = false := by
    intro neg c hc
    cases neg with
    | false => cases hc
    | true =>
      cases List.mem_singleton.mp hc
      rfl
  have zero : ∀ c ∈ "0.0".toList, isBlank c = false := by
    intro c hc
    have hmem : c ∈ ['0', '.', '0'] := hc
    simp only [List.mem_cons, List.not_mem_nil, or_false] at hmem
    rcases hmem with rfl | rfl | rfl <;> rfl
  cases n with
  | integer n _ _ =>
    have digits : ∀ m : Nat, ∀ c ∈ m.repr.toList, isBlank c = false := by
      intro m c hc
      rw [Nat.toList_repr] at hc
      exact isBlank_of_mem_toDigits hc
    rw [Json.Number.text, Int.toString_eq_repr, Int.repr_eq_if]
    split
    · exact digits _
    · rw [String.toList_append]
      exact List.forall_mem_append.mpr ⟨sign true, digits _⟩
  | double x hx =>
    cases x with
    | infinite _ | nan => cases hx
    | finite neg u hu =>
      simp only [Json.Number.text, Binary64.jsonText]
      split
      · rw [Option.getD_some, String.toList_append]
        exact List.forall_mem_append.mpr ⟨sign neg, zero⟩
      · rw [Option.getD_some, String.toList_append]
        refine List.forall_mem_append.mpr ⟨sign neg, ?_⟩
        split
        · exact Binary64.positional_no_blank 1 _
        · exact Binary64.scientific_no_blank _

end TickFeed
