import Mathlib.Data.List.Forall2
import TickFeed.Json.Document

/-! # Texts inside of texts

What a text spells on its own it also spells as a part of a longer one. The machine that
reads it leaves alone what stood on the stack before (`run?_under`), so it may be run on
inside an array or an object (`Spells`). A numeral is complete only when something else
follows it, and what follows a value inside an array or an object never continues a numeral
(`step?_of_completes`). -/

namespace TickFeed.Json.Document

/-! ## Running the machine -/

def Machine.run? (m : Machine) (cs : List Char) : Option Machine := cs.foldlM step? m

theorem run?_cons (m : Machine) (c : Char) (cs : List Char) :
    m.run? (c :: cs) = (step? m c).bind (·.run? cs) := List.foldlM_cons

theorem run?_append (m : Machine) (cs ds : List Char) :
    m.run? (cs ++ ds) = (m.run? cs).bind (·.run? ds) := List.foldlM_append

theorem run?_append_some {m m' : Machine} {cs : List Char} (h : m.run? cs = some m')
    (ds : List Char) : m.run? (cs ++ ds) = m'.run? ds := by
  rw [run?_append, h]
  rfl

def Machine.under (base : List Frame) (m : Machine) : Machine :=
  { m with stack := m.stack ++ base }

theorem begin?_append (stack base : List Frame) (c : Char) :
    begin? (stack ++ base) c = (begin? stack c).map (Machine.under base) := by
  unfold begin?
  dsimp only
  split <;> simp only [Option.map_some, Option.map_map] <;> rfl

theorem endText_append (stack base : List Frame)
    (member : Option (List (Option String × Document))) (pieces : List Piece) :
    endText (stack ++ base) member pieces = (endText stack member pieces).under base := by
  cases member <;> rfl

theorem stepText?_append (stack base : List Frame)
    (member : Option (List (Option String × Document))) (pieces : List Piece) (escape : Escape)
    (c : Char) : stepText? (stack ++ base) member pieces escape c =
      (stepText? stack member pieces escape c).map (Machine.under base) := by
  cases escape with
  | none =>
    simp only [stepText?, endText_append, apply_ite (Option.map _)]
    rfl
  | started =>
    simp only [stepText?, apply_ite (Option.map _), Option.map_map]
    rfl
  | unit digits value =>
    simp only [stepText?, Option.map_map]
    congr 1
    funext h
    dsimp only [Function.comp]
    split <;> rfl

/-- A value that is followed by something may also stand further inside. -/
theorem follow?_append {stack : List Frame} {v : Document} {c : Char} {m : Machine}
    (h : follow? stack v c = some m) (base : List Frame) :
    follow? (stack ++ base) v c = some (m.under base) := by
  unfold follow? at h ⊢
  split at h
  next hspace => rw [if_pos hspace, ← Option.some.inj h]; rfl
  next hspace =>
    rw [if_neg hspace]
    -- what can follow depends on the innermost array or object only
    split at h
    · rw [← Option.some.inj h]; rfl
    · rw [← Option.some.inj h]; rfl
    · rw [← Option.some.inj h]; rfl
    · rw [← Option.some.inj h]; rfl
    · exact nomatch h

/-- A step looks at no more of the stack than there is. -/
theorem step?_under {m m' : Machine} {c : Char} (h : step? m c = some m') (base : List Frame) :
    step? (m.under base) c = some (m'.under base) := by
  obtain ⟨stack, mode⟩ := m
  -- most modes do not look at the stack at all
  have mapped (heq : step? (Machine.under base ⟨stack, mode⟩) c =
      (step? ⟨stack, mode⟩ c).map (Machine.under base)) :
      step? (Machine.under base ⟨stack, mode⟩) c = some (m'.under base) := by
    rw [heq, h]
    rfl
  cases mode with
  | value =>
    refine mapped ?_
    simp only [step?, Machine.under, begin?_append, apply_ite (Option.map _)]
    rfl
  | firstItem =>
    simp only [step?, Machine.under] at h ⊢
    split at h
    next hspace => rw [if_pos hspace, ← Option.some.inj h]
    next hspace =>
      rw [if_neg hspace]
      split at h
      · rw [← Option.some.inj h]
        rfl
      next =>
        split
        -- the bracket that would close an array outside begins no value
        · exact nomatch h
        · rw [begin?_append, h]
          rfl
  | firstName =>
    refine mapped ?_
    simp only [step?, Machine.under, apply_ite (Option.map _)]
    rfl
  | name before =>
    refine mapped ?_
    simp only [step?, Machine.under, apply_ite (Option.map _)]
    rfl
  | colon before name =>
    refine mapped ?_
    simp only [step?, Machine.under, apply_ite (Option.map _)]
    rfl
  | word rest meaning =>
    cases rest with
    | nil => exact follow?_append h base
    | cons r rest =>
      refine mapped ?_
      simp only [step?, Machine.under, apply_ite (Option.map _)]
      rfl
  | numeral phase digits =>
    simp only [step?, Machine.under] at h ⊢
    cases hpush : digits.push? phase c with
    | some more =>
      rw [hpush] at h
      rw [← Option.some.inj h]
    | none =>
      rw [hpush] at h
      obtain ⟨v, hv, hfollow⟩ := Option.bind_eq_some_iff.mp h
      rw [hv]
      exact follow?_append hfollow base
  | text member pieces escape => exact mapped (stepText?_append ..)
  | after v => exact follow?_append h base

theorem run?_under {m m' : Machine} {cs : List Char} (h : m.run? cs = some m')
    (base : List Frame) : (m.under base).run? cs = some (m'.under base) := by
  induction cs generalizing m with
  | nil =>
    obtain rfl := Option.some.inj h
    rfl
  | cons c cs ih =>
    rw [run?_cons] at h
    obtain ⟨next, hstep, hrest⟩ := Option.bind_eq_some_iff.mp h
    rw [run?_cons, step?_under hstep base]
    exact ih hrest

/-! ## What a text spells -/

/-- In this mode the document is complete, unless it is a numeral that goes on. -/
inductive Mode.Completes : Mode → Document → Prop where
  | after (d : Document) : Completes (.after d) d
  | numeral {phase : Phase} {digits : Partial} {d : Document}
      (h : digits.finish? phase = some d) : Completes (.numeral phase digits) d

/-- Wherever a value may stand, these characters are read as this one. -/
def Spells (cs : List Char) (d : Document) : Prop :=
  ∃ mode : Mode, mode.Completes d ∧
    ∀ stack, Machine.run? ⟨stack, .value⟩ cs = some ⟨stack, mode⟩

theorem finish?_eq_some_iff {m : Machine} {d : Document} :
    m.finish? = some d ↔ m.stack = [] ∧ m.mode.Completes d := by
  obtain ⟨stack, mode⟩ := m
  constructor
  · intro h
    unfold Machine.finish? at h
    split at h
    next hstack hmode =>
      obtain rfl := Option.some.inj h
      exact ⟨hstack, by rw [hmode]; exact .after _⟩
    next hstack hmode => exact ⟨hstack, by rw [hmode]; exact .numeral h⟩
    next => exact nomatch h
  · rintro ⟨rfl, hmode⟩
    cases hmode with
    | after => rfl
    | numeral hfinish => exact hfinish

/-- What a text spells on its own it spells everywhere. -/
theorem read?_eq_some_iff {s : String} {d : Document} :
    read? s = some d ↔ Spells s.toList d := by
  constructor
  · intro h
    obtain ⟨⟨stack, mode⟩, hrun, hfinish⟩ := Option.bind_eq_some_iff.mp h
    obtain ⟨rfl, hmode⟩ := finish?_eq_some_iff.mp hfinish
    exact ⟨mode, hmode, fun stack => run?_under hrun stack⟩
  · rintro ⟨mode, hmode, hrun⟩
    exact Option.bind_eq_some_iff.mpr ⟨_, hrun [], finish?_eq_some_iff.mpr ⟨rfl, hmode⟩⟩

/-- Somewhere in a text that spells something a value begins. -/
theorem Spells.exists_begin? {cs : List Char} {d : Document} (h : Spells cs d) :
    ∃ c ∈ cs, (begin? [] c).isSome := by
  obtain ⟨mode, hmode, hrun⟩ := h
  specialize hrun []
  induction cs with
  | nil =>
    obtain ⟨-, rfl⟩ := Machine.mk.inj (Option.some.inj hrun)
    exact nomatch hmode
  | cons c cs ih =>
    rw [run?_cons] at hrun
    obtain ⟨next, hstep, hrest⟩ := Option.bind_eq_some_iff.mp hrun
    simp only [step?] at hstep
    split at hstep
    · obtain rfl := Option.some.inj hstep
      obtain ⟨c', hc', hbegin⟩ := ih hrest
      exact ⟨c', List.mem_cons_of_mem _ hc', hbegin⟩
    · exact ⟨c, List.mem_cons_self, Option.isSome_of_eq_some hstep⟩

/-! ## Inside of arrays and objects -/

/-- What follows a value inside of an array or an object continues no numeral. -/
theorem step?_of_completes {stack : List Frame} {mode : Mode} {d : Document} {c : Char}
    (hmode : mode.Completes d) (hc : c = ',' ∨ c = ']' ∨ c = '}') :
    step? ⟨stack, mode⟩ c = follow? stack d c := by
  cases hmode with
  | after => rfl
  | @numeral phase digits _ hfinish =>
    have hpush : digits.push? phase c = none := by
      obtain rfl | rfl | rfl := hc <;> cases phase <;> rfl
    simp only [step?, hpush, hfinish]
    rfl

/-- The first item of an array is read like every other one. -/
theorem run?_firstItem {stack stack' : List Frame} {mode : Mode} {d : Document}
    {cs : List Char} (hmode : mode.Completes d)
    (h : Machine.run? ⟨stack, .value⟩ cs = some ⟨stack', mode⟩) :
    Machine.run? ⟨stack, .firstItem⟩ cs = some ⟨stack', mode⟩ := by
  induction cs with
  | nil =>
    obtain ⟨rfl, rfl⟩ := Machine.mk.inj (Option.some.inj h)
    exact nomatch hmode
  | cons c cs ih =>
    rw [run?_cons] at h ⊢
    obtain ⟨next, hstep, hrest⟩ := Option.bind_eq_some_iff.mp h
    simp only [step?] at hstep ⊢
    split at hstep
    next hspace =>
      obtain rfl := Option.some.inj hstep
      rw [if_pos hspace]
      exact ih hrest
    next hspace =>
      rw [if_neg hspace]
      split
      -- no value begins with the closing bracket
      · exact nomatch hstep
      · rw [hstep]
        exact hrest

/-- A value and what stands after it inside of an array or an object. -/
theorem Spells.run?_followed {cs : List Char} {d : Document} (h : Spells cs d) {c : Char}
    (hc : c = ',' ∨ c = ']' ∨ c = '}') (stack : List Frame) (rest : List Char) :
    Machine.run? ⟨stack, .value⟩ (cs ++ c :: rest) =
      (follow? stack d c).bind (·.run? rest) := by
  obtain ⟨mode, hmode, hrun⟩ := h
  rw [run?_append_some (hrun stack), run?_cons, step?_of_completes hmode hc]

theorem run?_items {texts : List (List Char)} {docs : List Document}
    (h : List.Forall₂ Spells texts docs) (hne : texts ≠ []) (before : List Document)
    (stack : List Frame) :
    Machine.run? ⟨.array before :: stack, .value⟩ ([','].intercalate texts ++ [']']) =
      some ⟨stack, .after (.array (before.reverse ++ docs))⟩ := by
  induction h generalizing before with
  | nil => exact absurd rfl hne
  | @cons text d texts docs htext hrest ih =>
    cases hrest with
    | nil =>
      rw [List.intercalate_singleton, htext.run?_followed (.inr (.inl rfl))]
      simp [follow?, isSpace, Machine.run?]
    | @cons text' d' texts docs htext' hrest =>
      rw [List.intercalate_cons_cons, List.append_assoc, List.append_assoc, List.singleton_append,
        htext.run?_followed (.inl rfl)]
      have := ih (List.cons_ne_nil _ _) (d :: before)
      simpa [follow?, isSpace] using this

/-- The first of several texts stands at the beginning. -/
theorem exists_intercalate_cons (sep text : List Char) (texts : List (List Char))
    (rest : List Char) : ∃ tail, sep.intercalate (text :: texts) ++ rest = text ++ tail := by
  cases texts with
  | nil => exact ⟨rest, by rw [List.intercalate_singleton]⟩
  | cons => exact ⟨_, by rw [List.intercalate_cons_cons, List.append_assoc, List.append_assoc]⟩

/-- Texts with commas between them, in brackets, spell the array of what they spell. -/
theorem spells_array {texts : List (List Char)} {docs : List Document}
    (h : List.Forall₂ Spells texts docs) :
    Spells ('[' :: ([','].intercalate texts ++ [']'])) (.array docs) := by
  refine ⟨_, .after _, fun stack => ?_⟩
  cases texts with
  | nil =>
    cases h
    rfl
  | cons text texts =>
    have hitems := run?_items h (List.cons_ne_nil _ _) [] stack
    obtain ⟨tail, htail⟩ := exists_intercalate_cons [','] text texts [']']
    obtain ⟨d, docs', ⟨mode, hmode, hrun⟩, -, rfl⟩ := List.forall₂_cons_left_iff.mp h
    rw [htail, run?_append_some (hrun _)] at hitems
    rw [htail, run?_cons]
    show Machine.run? ⟨.array [] :: stack, .firstItem⟩ (text ++ tail) = _
    rw [run?_append_some (run?_firstItem hmode (hrun _))]
    exact hitems

end TickFeed.Json.Document
