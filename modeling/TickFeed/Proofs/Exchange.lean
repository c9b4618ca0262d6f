import TickFeed.Proofs.Codebook

/-! # Codes of exchanges

What `ofCode` answers has a code that is read as the same segment again: a known
segment by its own spelling, and another one because its code is already without
padding and in upper case. -/

namespace TickFeed.Exchange

open Text

/-- The segment has a code, and the code is read as that segment. -/
def Canonical (e : Exchange) : Prop := e.code ≠ "" ∧ ofCode e.code = e

theorem Canonical.of_mem_known {e : Exchange} (h : e ∈ known) : e.Canonical := by
  have hcode : ∀ e ∈ known, e.code ≠ "" := by decide
  exact ⟨hcode e h, lawful_codebook.read_of_lists ⟨h, lawful_codebook.code_known e h⟩⟩

/-- Reading a code gives a segment that its own code stands for. -/
theorem canonical_ofCode {s : String} (h : trim s ≠ "") : (ofCode s).Canonical := by
  refine ⟨?_, ?_⟩
  · rcases lawful_codebook.read_cases s with ⟨e, he, hread⟩ | ⟨-, hread⟩ <;> rw [hread]
    · exact (Canonical.of_mem_known he.1).1
    · exact fun hempty => h (upper_eq_empty hempty)
  · simpa only [codebook] using lawful_codebook.read_code s

theorem ofCode_trim (s : String) : ofCode (trim s) = ofCode s := by
  simp only [ofCode, trim_trim]

/-- The code of such a segment is not blank. -/
theorem Canonical.trim_ne_empty {e : Exchange} (h : e.Canonical) : trim e.code ≠ "" := by
  intro hblank
  have hread := h.2
  rw [← ofCode_trim, hblank] at hread
  refine h.1 ?_
  rw [← hread]
  decide

theorem canonical_of_feedCode {n : UInt64} {e : Exchange} (h : ofFeedCode? n = some e) :
    e.Canonical := by
  refine .of_mem_known ?_
  unfold ofFeedCode? at h
  repeat' split at h
  all_goals cases h
  all_goals decide

end TickFeed.Exchange
