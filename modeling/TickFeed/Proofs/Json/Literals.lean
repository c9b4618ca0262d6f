import TickFeed.Proofs.Json.Spelling
import TickFeed.Proofs.Text.Digits

/-! # The text of a numeral

What the machine reads as a number is the text of a numeral between spaces
(`exists_literal`): an optional minus, digits, and where they are there a point with digits
and an exponent. On the way there the machine has read a piece of such a text (`Reads`); a
document that begins in any other way ends in no number (`Elsewhere`). -/

namespace TickFeed

namespace Json

open Text

namespace Numeral

inductive Sign : Bool → List Char → Prop where
  | absent : Sign false []
  | minus : Sign true ['-']

inductive Fraction : List Char → List Char → Prop where
  | absent : Fraction [] []
  | present {ds : List Char} (h : IsRun ds) : Fraction ds ('.' :: ds)

/-- What stands in front of the digits of an exponent, and its sign. -/
inductive Mark : Bool → List Char → Prop where
  | plain {e : Char} (h : e = 'e' ∨ e = 'E') : Mark false [e]
  | plus {e : Char} (h : e = 'e' ∨ e = 'E') : Mark false [e, '+']
  | minus {e : Char} (h : e = 'e' ∨ e = 'E') : Mark true [e, '-']

inductive Exponent : Option Int → List Char → Prop where
  | absent : Exponent none []
  | present {neg : Bool} {mark ds : List Char} (hmark : Mark neg mark) (hds : IsRun ds) :
      Exponent (some (if neg then -(digitsValue ds : Int) else digitsValue ds))
        (mark ++ ds)

inductive Literal : Numeral → List Char → Prop where
  | mk {neg : Bool} {whole fraction : List Char} {exponent : Option Int}
      {sign point power : List Char} (hsign : Sign neg sign) (hwhole : IsRun whole)
      (hfraction : Fraction fraction point) (hexponent : Exponent exponent power) :
      Literal ⟨neg, whole, fraction, exponent⟩ (sign ++ whole ++ point ++ power)

end Numeral

namespace Document

open Numeral

/-! ## A piece of a numeral -/

/-- The machine has read `cs` as the beginning of a numeral. -/
inductive Partial.Reads : Phase → Partial → List Char → Prop where
  | sign {neg : Bool} {sign : List Char} (hsign : Sign neg sign) :
      Reads .sign ⟨neg, [], [], false, []⟩ sign
  | whole {phase : Phase} {neg : Bool} {sign whole : List Char}
      (hphase : phase = .zero ∨ phase = .whole) (hsign : Sign neg sign) (hwhole : IsRun whole) :
      Reads phase ⟨neg, whole, [], false, []⟩ (sign ++ whole.reverse)
  | point {neg : Bool} {sign whole : List Char} (hsign : Sign neg sign) (hwhole : IsRun whole) :
      Reads .point ⟨neg, whole, [], false, []⟩ (sign ++ whole.reverse ++ ['.'])
  | fraction {neg : Bool} {sign whole fraction : List Char} (hsign : Sign neg sign)
      (hwhole : IsRun whole) (hfraction : IsRun fraction) :
      Reads .fraction ⟨neg, whole, fraction, false, []⟩
        (sign ++ whole.reverse ++ '.' :: fraction.reverse)
  | mark {neg : Bool} {sign whole fraction point : List Char} {e : Char} (hsign : Sign neg sign)
      (hwhole : IsRun whole) (hfraction : Fraction fraction.reverse point)
      (he : e = 'e' ∨ e = 'E') :
      Reads .mark ⟨neg, whole, fraction, false, []⟩ (sign ++ whole.reverse ++ point ++ [e])
  | exponentSign {neg exponentNeg : Bool} {sign whole fraction point mark : List Char}
      (hsign : Sign neg sign) (hwhole : IsRun whole) (hfraction : Fraction fraction.reverse point)
      (hmark : Mark exponentNeg mark) :
      Reads .exponentSign ⟨neg, whole, fraction, exponentNeg, []⟩
        (sign ++ whole.reverse ++ point ++ mark)
  | exponent {neg exponentNeg : Bool} {sign whole fraction point mark exponent : List Char}
      (hsign : Sign neg sign) (hwhole : IsRun whole) (hfraction : Fraction fraction.reverse point)
      (hmark : Mark exponentNeg mark) (hexponent : IsRun exponent) :
      Reads .exponent ⟨neg, whole, fraction, exponentNeg, exponent⟩
        (sign ++ whole.reverse ++ point ++ mark ++ exponent.reverse)

variable {phase phase' : Phase} {d d' : Partial} {cs : List Char} {c : Char}

theorem Partial.Reads.exponentMark {sign point : List Char} (hsign : Sign d.neg sign)
    (hwhole : IsRun d.whole) (hfraction : Fraction d.fraction.reverse point)
    (hneg : d.exponentNeg = false) (hexponent : d.exponent = [])
    (hpush : push?.exponentMark d c = some (phase', d')) :
    d'.Reads phase' (sign ++ d.whole.reverse ++ point ++ [c]) := by
  obtain ⟨neg, whole, fraction, exponentNeg, exponent⟩ := d
  cases hneg
  cases hexponent
  unfold push?.exponentMark at hpush
  split at hpush
  next he =>
    cases hpush
    exact .mark hsign hwhole hfraction he
  next => exact nomatch hpush

/-- One more character of the numeral. -/
theorem Partial.Reads.push? (h : d.Reads phase cs) (hpush : d.push? phase c = some (phase', d')) :
    d'.Reads phase' (cs ++ [c]) := by
  cases h with
  | sign hsign =>
    simp only [Partial.push?] at hpush
    split at hpush
    next hzero =>
      cases hpush
      cases hzero
      exact .whole (.inl rfl) hsign (isRun_singleton rfl)
    next =>
      split at hpush
      next hdigit =>
        cases hpush
        exact .whole (.inr rfl) hsign (isRun_singleton hdigit)
      next => exact nomatch hpush
  | @whole _ neg sign whole hphase hsign hwhole =>
    -- behind the digits in front of the point: the point or an exponent
    have more (hmore : push?.more ⟨neg, whole, [], false, []⟩ c = some (phase', d')) :
        d'.Reads phase' (sign ++ whole.reverse ++ [c]) := by
      unfold push?.more at hmore
      split at hmore
      next hpoint =>
        cases hmore
        cases hpoint
        exact .point hsign hwhole
      next =>
        simpa using Reads.exponentMark (d := ⟨neg, whole, [], false, []⟩) hsign hwhole .absent
          rfl rfl hmore
    obtain rfl | rfl := hphase
    · exact more hpush
    · simp only [Partial.push?] at hpush
      split at hpush
      next hdigit =>
        cases hpush
        simpa using Reads.whole (.inr rfl) hsign (hwhole.cons hdigit)
      next => exact more hpush
  | point hsign hwhole =>
    simp only [Partial.push?] at hpush
    split at hpush
    next hdigit =>
      cases hpush
      simpa using Reads.fraction hsign hwhole (isRun_singleton hdigit)
    next => exact nomatch hpush
  | fraction hsign hwhole hfraction =>
    simp only [Partial.push?] at hpush
    split at hpush
    next hdigit =>
      cases hpush
      simpa using Reads.fraction hsign hwhole (hfraction.cons hdigit)
    next =>
      exact Reads.exponentMark hsign hwhole (.present hfraction.reverse) rfl rfl hpush
  | mark hsign hwhole hfraction he =>
    simp only [Partial.push?] at hpush
    split at hpush
    next hminus =>
      cases hpush
      cases hminus
      simpa using Reads.exponentSign hsign hwhole hfraction (.minus he)
    next =>
      split at hpush
      next hplus =>
        cases hpush
        cases hplus
        simpa using Reads.exponentSign hsign hwhole hfraction (.plus he)
      next =>
        split at hpush
        next hdigit =>
          cases hpush
          exact Reads.exponent hsign hwhole hfraction (.plain he) (isRun_singleton hdigit)
        next => exact nomatch hpush
  | exponentSign hsign hwhole hfraction hmark =>
    simp only [Partial.push?] at hpush
    split at hpush
    next hdigit =>
      cases hpush
      exact Reads.exponent hsign hwhole hfraction hmark (isRun_singleton hdigit)
    next => exact nomatch hpush
  | exponent hsign hwhole hfraction hmark hexponent =>
    simp only [Partial.push?] at hpush
    split at hpush
    next hdigit =>
      cases hpush
      simpa using Reads.exponent hsign hwhole hfraction hmark (hexponent.cons hdigit)
    next => exact nomatch hpush

/-- The numeral may end here. -/
theorem Partial.Reads.finish? (h : d.Reads phase cs) {v : Document}
    (hfinish : d.finish? phase = some v) : ∃ n, v = .number n ∧ n.Literal cs := by
  cases h with
  | whole hphase hsign hwhole =>
    have := Literal.mk hsign hwhole.reverse .absent .absent
    obtain rfl | rfl := hphase <;> cases hfinish <;> exact ⟨_, rfl, by simpa using this⟩
  | fraction hsign hwhole hfraction =>
    cases hfinish
    refine ⟨_, rfl, ?_⟩
    simpa using Literal.mk hsign hwhole.reverse (.present hfraction.reverse) .absent
  | exponent hsign hwhole hfraction hmark hexponent =>
    cases hfinish
    refine ⟨_, rfl, ?_⟩
    simpa using Literal.mk hsign hwhole.reverse hfraction (.present hmark hexponent.reverse)
  | sign | point | mark | exponentSign => exact nomatch hfinish

/-! ## The way to a number -/

def isNumber : Document → Bool
  | .number _ => true
  | _ => false

/-- In this mode the document is no number, whatever follows. -/
inductive Mode.Other : Mode → Prop where
  | firstName : Other .firstName
  | name (before : List (Option String × Document)) : Other (.name before)
  | colon (before : List (Option String × Document)) (name : Option String) :
      Other (.colon before name)
  | text (member : Option (List (Option String × Document))) (pieces : List Piece)
      (escape : Escape) : Other (.text member pieces escape)
  | word {meaning : Document} (h : meaning.isNumber = false) (rest : List Char) :
      Other (.word rest meaning)
  | after {v : Document} (h : v.isNumber = false) : Other (.after v)

/-- A document that is being read is not a number by itself: the machine is inside of an
array or an object, or in a mode that leads to no number. -/
def Machine.Elsewhere (m : Machine) : Prop := m.stack ≠ [] ∨ m.mode.Other

theorem elsewhere_begin? {stack : List Frame} {m : Machine} (hstack : stack ≠ [])
    (h : begin? stack c = some m) : m.Elsewhere := by
  refine .inl ?_
  unfold begin? at h
  dsimp only at h
  split at h
  case h_1 => cases h; exact List.cons_ne_nil _ _
  case h_8 =>
    obtain ⟨_, -, rfl⟩ := Option.map_eq_some_iff.mp h
    exact hstack
  all_goals
    cases h
    exact hstack

/-- What follows the value inside of an array or an object ends with no number. -/
theorem elsewhere_follow? {stack : List Frame} {v : Document} {m : Machine}
    (hv : stack ≠ [] ∨ v.isNumber = false) (h : follow? stack v c = some m) : m.Elsewhere := by
  unfold follow? at h
  split at h
  · cases h
    exact hv.imp_right .after
  · split at h
    · cases h
      exact .inl (List.cons_ne_nil _ _)
    · cases h
      exact .inr (.after rfl)
    · cases h
      exact .inr (.name _)
    · cases h
      exact .inr (.after rfl)
    · cases h

theorem elsewhere_stepText? {stack : List Frame}
    {member : Option (List (Option String × Document))} {pieces : List Piece} {escape : Escape}
    {m : Machine} (h : stepText? stack member pieces escape c = some m) : m.Elsewhere := by
  refine .inr ?_
  cases escape with
  | none =>
    simp only [stepText?] at h
    split at h
    · cases h
      cases member with
      | some before => exact .colon _ _
      | none => exact .after rfl
    · split at h
      · cases h
        exact .text _ _ _
      · split at h
        · cases h
        · cases h
          exact .text _ _ _
  | started =>
    simp only [stepText?] at h
    split at h
    · cases h
      exact .text _ _ _
    · obtain ⟨_, -, rfl⟩ := Option.map_eq_some_iff.mp h
      exact .text _ _ _
  | unit digits value =>
    obtain ⟨_, -, rfl⟩ := Option.map_eq_some_iff.mp h
    dsimp only
    split <;> exact .text _ _ _

theorem Machine.Elsewhere.step? {m m' : Machine} (h : m.Elsewhere) (hstep : step? m c = some m') :
    m'.Elsewhere := by
  obtain ⟨stack, mode⟩ := m
  -- in the modes that have a value in front of them or begin one, the stack is not empty
  have within {mode' : Mode} (hmode : mode = mode') (hother : ¬ mode'.Other) : stack ≠ [] :=
    h.resolve_right (hmode ▸ hother)
  cases mode with
  | value =>
    have hstack := within rfl (by rintro ⟨⟩)
    simp only [Document.step?] at hstep
    split at hstep
    · cases hstep
      exact .inl hstack
    · exact elsewhere_begin? hstack hstep
  | firstItem =>
    have hstack := within rfl (by rintro ⟨⟩)
    simp only [Document.step?] at hstep
    split at hstep
    · cases hstep
      exact .inl hstack
    · split at hstep
      · cases hstep
        exact .inr (.after rfl)
      · exact elsewhere_begin? hstack hstep
  | firstName =>
    simp only [Document.step?] at hstep
    split at hstep
    · cases hstep
      exact .inr .firstName
    · split at hstep
      · cases hstep
        exact .inr (.after rfl)
      · split at hstep
        · cases hstep
          exact .inr (.text _ _ _)
        · cases hstep
  | name before =>
    simp only [Document.step?] at hstep
    split at hstep
    · cases hstep
      exact .inr (.name _)
    · split at hstep
      · cases hstep
        exact .inr (.text _ _ _)
      · cases hstep
  | colon before name =>
    simp only [Document.step?] at hstep
    split at hstep
    · cases hstep
      exact .inr (.colon _ _)
    · split at hstep
      · cases hstep
        exact .inl (List.cons_ne_nil _ _)
      · cases hstep
  | word rest meaning =>
    have hmeaning : stack ≠ [] ∨ meaning.isNumber = false :=
      h.imp_right fun hother => by cases hother; assumption
    cases rest with
    | nil => exact elsewhere_follow? hmeaning hstep
    | cons r rest =>
      simp only [Document.step?] at hstep
      split at hstep
      · cases hstep
      · split at hstep
        · cases hstep
          exact hmeaning.imp_right .after
        · cases hstep
          exact hmeaning.imp_right fun hother => .word hother _
  | numeral phase digits =>
    have hstack := within rfl (by rintro ⟨⟩)
    simp only [Document.step?] at hstep
    split at hstep
    · cases hstep
      exact .inl hstack
    · obtain ⟨v, -, hfollow⟩ := Option.bind_eq_some_iff.mp hstep
      exact elsewhere_follow? (.inl hstack) hfollow
  | text member pieces escape => exact elsewhere_stepText? hstep
  | after v =>
    exact elsewhere_follow? (h.imp_right fun hother => by cases hother; assumption) hstep

/-- After `cs`, the machine has read a numeral or a piece of one, or reads no number. -/
inductive Machine.Nears : Machine → List Char → Prop where
  | before {cs : List Char} (h : ∀ c ∈ cs, isSpace c = true) : Nears ⟨[], .value⟩ cs
  | inside {phase : Phase} {d : Partial} {lead cs : List Char}
      (hlead : ∀ c ∈ lead, isSpace c = true) (h : d.Reads phase cs) :
      Nears ⟨[], .numeral phase d⟩ (lead ++ cs)
  | behind {n : Numeral} {lead cs trail : List Char} (hlead : ∀ c ∈ lead, isSpace c = true)
      (h : n.Literal cs) (htrail : ∀ c ∈ trail, isSpace c = true) :
      Nears ⟨[], .after (.number n)⟩ (lead ++ cs ++ trail)
  | elsewhere {m : Machine} {cs : List Char} (h : m.Elsewhere) : Nears m cs

theorem follow?_nil {v : Document} {m : Machine} (h : follow? [] v c = some m) :
    isSpace c = true ∧ m = ⟨[], .after v⟩ := by
  unfold follow? at h
  split at h
  next hspace => exact ⟨hspace, (Option.some.inj h).symm⟩
  next => cases h

theorem Machine.Nears.step? {m m' : Machine} (h : m.Nears cs) (hstep : step? m c = some m') :
    m'.Nears (cs ++ [c]) := by
  cases h with
  | before hspaces =>
    simp only [Document.step?] at hstep
    split at hstep
    next hspace =>
      cases hstep
      exact .before (by simpa [or_imp, forall_and] using ⟨hspaces, hspace⟩)
    next =>
      unfold begin? at hstep
      dsimp only at hstep
      split at hstep
      case h_1 => cases hstep; exact .elsewhere (.inl (List.cons_ne_nil _ _))
      case h_2 => cases hstep; exact .elsewhere (.inr .firstName)
      case h_3 => cases hstep; exact .elsewhere (.inr (.text _ _ _))
      case h_7 => cases hstep; exact .inside hspaces (.sign .minus)
      case h_8 =>
        obtain ⟨⟨phase, d⟩, hpush, rfl⟩ := Option.map_eq_some_iff.mp hstep
        exact .inside hspaces (Partial.Reads.push? (.sign .absent) hpush)
      all_goals
        cases hstep
        exact .elsewhere (.inr (.word rfl _))
  | @inside phase d lead lit hlead hreads =>
    simp only [Document.step?] at hstep
    split at hstep
    next phase' d' hpush =>
      cases hstep
      rw [List.append_assoc]
      exact .inside hlead (hreads.push? hpush)
    next =>
      obtain ⟨v, hv, hfollow⟩ := Option.bind_eq_some_iff.mp hstep
      obtain ⟨n, rfl, hn⟩ := hreads.finish? hv
      obtain ⟨hspace, rfl⟩ := follow?_nil hfollow
      exact .behind hlead hn (by simpa using hspace)
  | behind hlead hn htrail =>
    obtain ⟨hspace, rfl⟩ := follow?_nil hstep
    rw [List.append_assoc]
    exact .behind hlead hn (by simpa [or_imp, forall_and] using ⟨htrail, hspace⟩)
  | elsewhere h => exact .elsewhere (h.step? hstep)

theorem Machine.Nears.run? {m m' : Machine} {ds : List Char} (h : m.Nears cs)
    (hrun : m.run? ds = some m') : m'.Nears (cs ++ ds) := by
  induction ds generalizing m cs with
  | nil =>
    obtain rfl := Option.some.inj hrun
    rwa [List.append_nil]
  | cons d ds ih =>
    rw [run?_cons] at hrun
    obtain ⟨next, hstep, hrest⟩ := Option.bind_eq_some_iff.mp hrun
    simpa using ih (h.step? hstep) hrest

/-- **Numbers**: what is read as a number is the text of its numeral between spaces. -/
theorem exists_literal {s : String} {n : Numeral} (h : read? s = some (.number n)) :
    ∃ lead cs trail, s.toList = lead ++ cs ++ trail ∧ n.Literal cs ∧
      (∀ c ∈ lead, isSpace c = true) ∧ ∀ c ∈ trail, isSpace c = true := by
  obtain ⟨⟨stack, mode⟩, hrun, hfinish⟩ := Option.bind_eq_some_iff.mp h
  obtain ⟨rfl, hmode⟩ := finish?_eq_some_iff.mp hfinish
  have hnears : Machine.Nears _ ([] ++ s.toList) :=
    Machine.Nears.run? (.before fun _ hc => absurd hc List.not_mem_nil) hrun
  rw [List.nil_append] at hnears
  generalize s.toList = cs at hnears
  cases hnears with
  | before => cases hmode
  | inside hlead hreads =>
    cases hmode with
    | numeral hfinish =>
      obtain ⟨_, hn, hliteral⟩ := hreads.finish? hfinish
      cases hn
      exact ⟨_, _, [], (List.append_nil _).symm, hliteral, hlead, fun _ hc => absurd hc List.not_mem_nil⟩
  | behind hlead hliteral htrail =>
    cases hmode
    exact ⟨_, _, _, rfl, hliteral, hlead, htrail⟩
  | elsewhere helsewhere =>
    -- nothing is open, so the mode is one that leads to no number
    have hother := helsewhere.resolve_left fun hstack => hstack rfl
    cases hmode with
    | after => cases hother with | after hno => cases hno
    | numeral => cases hother

end Document

end Json

end TickFeed
