import TickFeed.Proofs.Codebook

/-! # Codes of kinds

The code of a kind that was read is read as that kind again. -/

namespace TickFeed.InstrumentKind

theorem ofCode_code (s : String) : ofCode (ofCode s).code = ofCode s := by
  simpa only [codebook] using lawful_codebook.read_code s

end TickFeed.InstrumentKind
