import TickFeed.Exchange
import TickFeed.Instrument.Kind
import TickFeed.Json.Record
import TickFeed.Proofs.Json.Writer
import TickFeed.Proofs.Text.Padding

/-! # Codes of known and of other values

The known values have spellings, and a code that spells none of them stands for itself. The
segments and the kinds of instruments are read by such a book. As long as every known value
is found under its code and no two of them share a spelling (`Codebook.Lawful`), a code is
canonical once it was read (`Codebook.Canonical`). Both books are lawful, so their codes are
canonical (`codes_are_canonical`). -/

namespace TickFeed

open Text

/-- Values by their codes. -/
structure Codebook (α : Type) where
  known : List α
  spellings : α → List String
  code : α → String
  /-- The value of a code that spells none of the known ones. -/
  other : String → α

/-- The form in which a code is looked up. -/
def Text.normal (s : String) : String := upper (trim s)

theorem Text.normal_normal (s : String) : normal (normal s) = normal s := by
  rw [normal, normal, trim_upper, trim_trim, upper_upper]

namespace Codebook

variable {α : Type}

/-- The text is in the form in which it is looked up one of the spellings of the value. -/
def Lists (book : Codebook α) (a : α) (s : String) : Prop :=
  a ∈ book.known ∧ normal s ∈ book.spellings a

theorem Lists.congr {book : Codebook α} {a : α} {s t : String} (hs : book.Lists a s)
    (hst : normal s = normal t) : book.Lists a t := by
  obtain ⟨ha, hmem⟩ := hs
  rw [hst] at hmem
  exact ⟨ha, hmem⟩

/-- The value that the whole of a JSON text writes, which is a string with its code. -/
def readJson? (read : String → α) (text : String) : Option α :=
  ((Json.Document.read? text).bind Json.Document.string?).map read

/-- The rules of a book: a text is looked up among the spellings and else stands for itself,
a known value is found under its code, and no spelling is that of two values. -/
structure Lawful (book : Codebook α) (read : String → α) : Prop where
  read_eq : ∀ s, read s =
    (book.known.find? fun a => (book.spellings a).contains (normal s)).getD (book.other (normal s))
  code_known : ∀ a ∈ book.known, normal (book.code a) ∈ book.spellings a
  code_other : ∀ s, book.code (book.other s) = s
  other_unknown : ∀ s, book.other s ∉ book.known
  apart : ∀ a ∈ book.known, ∀ b ∈ book.known, ∀ s ∈ book.spellings a, s ∈ book.spellings b → a = b

/-- What was read once has its code for good. -/
structure Canonical (book : Codebook α) (read : String → α) : Prop where
  /-- The code of what was read is read as the same value. -/
  again : ∀ s, read (book.code (read s)) = read s
  /-- So is its JSON text. -/
  again_json : ∀ s, readJson? read (Json.string (book.code (read s))).text = some (read s)
  /-- Padding and letter case make no difference. -/
  alike : ∀ s t, Alike s t → read s = read t
  /-- Nothing else but the spellings of one known value comes to one value. -/
  read_eq_iff : ∀ s t, read s = read t ↔
    normal s = normal t ∨ ∃ a, book.Lists a s ∧ book.Lists a t
  /-- What is read as another value spells none of the known ones. -/
  unlisted : ∀ s c, read s = book.other c → ∀ a ∈ book.known, c ∉ book.spellings a

namespace Lawful

variable {book : Codebook α} {read : String → α} {a : α} {s t : String}

theorem read_cases (h : book.Lawful read) (s : String) :
    (∃ a, book.Lists a s ∧ read s = a) ∨
      (∀ a, ¬book.Lists a s) ∧ read s = book.other (normal s) := by
  have hread := h.read_eq s
  cases hfind : book.known.find? (fun a => (book.spellings a).contains (normal s)) with
  | some a =>
    rw [hfind, Option.getD_some] at hread
    have hlisted := List.find?_some hfind
    rw [List.contains_iff_mem] at hlisted
    exact .inl ⟨a, ⟨List.mem_of_find?_eq_some hfind, hlisted⟩, hread⟩
  | none =>
    rw [hfind, Option.getD_none] at hread
    refine .inr ⟨fun a ⟨ha, hmem⟩ => ?_, hread⟩
    exact List.find?_eq_none.mp hfind a ha (List.contains_iff_mem.mpr hmem)

theorem read_of_lists (h : book.Lawful read) (hs : book.Lists a s) : read s = a := by
  rcases h.read_cases s with ⟨b, hb, hread⟩ | ⟨hnone, -⟩
  · exact hread.trans (h.apart b hb.1 a hs.1 _ hb.2 hs.2)
  · exact absurd hs (hnone a)

theorem read_of_not_lists (h : book.Lawful read) (hs : ∀ a, ¬book.Lists a s) :
    read s = book.other (normal s) := by
  rcases h.read_cases s with ⟨a, ha, -⟩ | ⟨-, hread⟩
  · exact absurd ha (hs a)
  · exact hread

theorem other_injective (h : book.Lawful read) (heq : book.other s = book.other t) : s = t := by
  rw [← h.code_other s, heq, h.code_other]

/-- Texts that are looked up in one form are read alike. -/
theorem read_congr (h : book.Lawful read) (hst : normal s = normal t) : read s = read t := by
  rcases h.read_cases t with ⟨a, ha, hread⟩ | ⟨hnone, hread⟩
  · rw [hread, h.read_of_lists (ha.congr hst.symm)]
  · rw [hread, h.read_of_not_lists fun a ha => hnone a (ha.congr hst), hst]

theorem read_code (h : book.Lawful read) (s : String) : read (book.code (read s)) = read s := by
  rcases h.read_cases s with ⟨a, ha, hread⟩ | ⟨-, hread⟩
  · rw [hread, h.read_of_lists ⟨ha.1, h.code_known a ha.1⟩]
  · rw [hread, h.code_other, h.read_congr (normal_normal s), hread]

theorem readJson?_text (h : book.Lawful read) (s : String) :
    readJson? read (Json.string (book.code (read s))).text = some (read s) := by
  have hdocument : Json.Document.read? (Json.string (book.code (read s))).text =
      some (.string (some (book.code (read s)))) := by
    rw [Json.text]
    exact Json.Document.read?_eq_some_iff.mpr (Json.Document.spells_quote _)
  rw [readJson?, hdocument]
  exact congrArg some (h.read_code s)

theorem read_eq_iff (h : book.Lawful read) : read s = read t ↔
    normal s = normal t ∨ ∃ a, book.Lists a s ∧ book.Lists a t := by
  constructor
  · intro heq
    rcases h.read_cases s with ⟨a, ha, hs⟩ | ⟨-, hs⟩ <;>
      rcases h.read_cases t with ⟨b, hb, ht⟩ | ⟨-, ht⟩ <;> rw [hs, ht] at heq
    · exact .inr ⟨b, heq ▸ ha, hb⟩
    · exact absurd (heq ▸ ha.1) (h.other_unknown _)
    · exact absurd (heq.symm ▸ hb.1) (h.other_unknown _)
    · exact .inl (h.other_injective heq)
  · rintro (hst | ⟨a, hs, ht⟩)
    · exact h.read_congr hst
    · rw [h.read_of_lists hs, h.read_of_lists ht]

theorem not_mem_spellings (h : book.Lawful read) {c : String} (hs : read s = book.other c) :
    ∀ a ∈ book.known, c ∉ book.spellings a := by
  rcases h.read_cases s with ⟨a, ha, hread⟩ | ⟨hnone, hread⟩ <;> rw [hread] at hs
  · exact absurd (hs ▸ ha.1) (h.other_unknown c)
  · intro a ha hmem
    exact hnone a ⟨ha, h.other_injective hs ▸ hmem⟩

theorem canonical (h : book.Lawful read) : book.Canonical read where
  again := h.read_code
  again_json := h.readJson?_text
  alike _ _ halike := h.read_congr halike.upper_trim
  read_eq_iff _ _ := h.read_eq_iff
  unlisted _ _ := h.not_mem_spellings

end Lawful

end Codebook

/-! ## The two books -/

def Exchange.codebook : Codebook Exchange where
  known := known
  spellings := spellings
  code := code
  other := .other

theorem Exchange.lawful_codebook : codebook.Lawful ofCode where
  read_eq _ := by simp only [ofCode, normal, codebook]
  code_known := by decide +kernel
  code_other _ := rfl
  other_unknown s := by simp [codebook, known]
  apart := by decide +kernel

def InstrumentKind.codebook : Codebook InstrumentKind where
  known := known
  spellings := spellings
  code := code
  other := .other

theorem InstrumentKind.lawful_codebook : codebook.Lawful ofCode where
  read_eq _ := by simp only [ofCode, normal, codebook]
  code_known := by decide +kernel
  code_other _ := rfl
  other_unknown s := by simp [codebook, known]
  apart := by decide +kernel

/-- **Codes are canonical**, those of segments and those of kinds. What was read is read again
from its code and from its JSON text, texts that differ in padding and letter case are read
alike, two texts are read alike only if they are looked up in one form or spell one known
value, and a value that is not a known one never has a spelling of one. Rows without a kind
are those of equities. -/
theorem codes_are_canonical :
    Exchange.codebook.Canonical Exchange.ofCode ∧
      InstrumentKind.codebook.Canonical InstrumentKind.ofCode ∧
      InstrumentKind.ofCode "" = InstrumentKind.ofCode "EQ" :=
  ⟨Exchange.lawful_codebook.canonical, InstrumentKind.lawful_codebook.canonical,
    by decide +kernel⟩

/-- The padding is any white space of Unicode, and the code of an unknown segment any text,
also one that JSON writes with escapes. -/
theorem codes_are_canonical_padded :
    Alike "\u3000nSe_Fo\n" "NSE_fo" ∧
      Exchange.ofCode "\u3000nSe_Fo\n" = Exchange.ofCode "NSE_fo" ∧
      Codebook.readJson? Exchange.ofCode (Json.string (Exchange.ofCode " a\"\\\tß ").code).text =
        some (.other "A\"\\\tß") := by
  have halike : Alike "\u3000nSe_Fo\n" "NSE_fo" :=
    ⟨['\u3000'], "nSe_Fo".toList, ['\n'], [], "NSE_fo".toList, [],
      List.all_eq_true.mp (by decide), rfl, rfl, by decide⟩
  have hother : Exchange.ofCode " a\"\\\tß " = .other "A\"\\\tß" := by decide +kernel
  obtain ⟨hsegments, -⟩ := codes_are_canonical
  have hread := hsegments.alike _ _ halike
  have hagain := hsegments.again_json " a\"\\\tß "
  refine ⟨halike, hread, ?_⟩
  rw [← hother]
  exact hagain

end TickFeed
