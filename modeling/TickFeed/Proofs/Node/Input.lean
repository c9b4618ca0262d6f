import Mathlib.Data.List.TakeWhile
import TickFeed.Node.Input
import TickFeed.Proofs.Text.Bytes

/-! # What is read of the input

What stands on a line says all that the reader does with it: nothing, count it, submit it, or
give up (`Reader.readLine_eq`). So a reading is the lines up to the first one that is no text,
one after the other (`Reader.readLines`), and its totals are those of these lines. A line that is
no text is neither submitted nor counted, and neither is any line behind it
(`pump_of_no_text`). -/

namespace TickFeed

inductive LineContent where
  | blank
  | unparsable
  | tick (raw : RawTick)
  /-- Bytes that are no text. -/
  | noText

namespace LineContent

def of (line : List UInt8) : LineContent :=
  match Text.ofBytes? line with
  | none => .noText
  | some text =>
    if Text.trim text = "" then .blank
    else
      match RawTick.read? text with
      | some raw => .tick raw
      | none => .unparsable

def isText : LineContent → Bool
  | .noText => false
  | _ => true

theorem isText_eq_false_iff {content : LineContent} :
    content.isText = false ↔ content = .noText := by
  cases content <;> simp [isText]

theorem isText_of_notMem {contents : List LineContent} (h : .noText ∉ contents) :
    ∀ content ∈ contents, content.isText = true := by
  intro content hmem
  cases htext : content.isText with
  | true => rfl
  | false => exact absurd (isText_eq_false_iff.mp htext ▸ hmem) h

def counts : LineContent → Bool
  | .blank => false
  | _ => true

def isUnparsable : LineContent → Bool
  | .unparsable => true
  | _ => false

def tick? : LineContent → Option RawTick
  | .tick raw => some raw
  | _ => none

/-- A line of text that counts is unparsable or a tick. -/
theorem countP_counts {contents : List LineContent} (h : ∀ content ∈ contents, content.isText) :
    contents.countP (·.counts) =
      contents.countP (·.isUnparsable) + (contents.filterMap (·.tick?)).length := by
  induction contents with
  | nil => rfl
  | cons content contents ih =>
    obtain ⟨htext, hrest⟩ := List.forall_mem_cons.mp h
    rw [List.countP_cons, List.countP_cons, List.filterMap_cons, ih hrest]
    cases content with
    | noText => cases htext
    | blank => rfl
    | unparsable => exact Nat.add_right_comm _ _ _
    | tick raw => rfl

def all (data : List UInt8) : List LineContent := (Text.splitLines data).map of

def read (data : List UInt8) : List LineContent := (all data).takeWhile isText

theorem isText_of_mem_read {data : List UInt8} :
    ∀ content ∈ read data, content.isText = true :=
  fun _ hcontent => List.mem_takeWhile_imp hcontent

theorem read_of_text {data : List UInt8} (h : .noText ∉ all data) : read data = all data :=
  List.takeWhile_eq_self_iff.mpr (isText_of_notMem h)

theorem read_of_noText {data : List UInt8} {before after : List LineContent}
    (h : all data = before ++ .noText :: after) (hbefore : .noText ∉ before) :
    read data = before := by
  rw [read, h, List.takeWhile_append_of_pos (isText_of_notMem hbefore),
    List.takeWhile_cons_of_neg Bool.false_ne_true, List.append_nil]

/-- Whatever stands on a line, the content of the other lines is the same. -/
theorem exists_all_around {front back : List UInt8} (hfront : Text.StartsLine front)
    (hback : Text.EndsLine back) :
    ∃ before after, ∀ line, Text.lineFeed ∉ line →
      all (front ++ line ++ back) = before ++ of line :: after := by
  obtain ⟨before, after, -, hlines⟩ := Text.exists_splitLines_around hfront hback
  refine ⟨before.map of, after.map of, fun line hline => ?_⟩
  rw [all, hlines line hline, List.map_append, List.map_cons]

end LineContent

section

variable {β : Type}

/-- Ticks that are submitted one after the other, and what comes of each of them. -/
def submitAll (submit : β → RawTick → β × SubmitOutcome) :
    β → List RawTick → β × List SubmitOutcome
  | target, [] => (target, [])
  | target, raw :: raws =>
    let rest := submitAll submit (submit target raw).1 raws
    (rest.1, (submit target raw).2 :: rest.2)

variable (submit : β → RawTick → β × SubmitOutcome)

theorem length_submitAll (target : β) (raws : List RawTick) :
    (submitAll submit target raws).2.length = raws.length := by
  induction raws generalizing target with
  | nil => rfl
  | cons raw raws ih => exact congrArg (· + 1) (ih (submit target raw).1)

variable {submit}

theorem submitAll_append (target : β) (raws raws' : List RawTick) :
    submitAll submit target (raws ++ raws') =
      ((submitAll submit (submitAll submit target raws).1 raws').1,
        (submitAll submit target raws).2 ++
          (submitAll submit (submitAll submit target raws).1 raws').2) := by
  induction raws generalizing target with
  | nil => rfl
  | cons raw raws ih =>
    rw [List.cons_append, submitAll, ih]
    rfl

theorem length_outcomes (outcomes : List SubmitOutcome) :
    outcomes.length = outcomes.count .accepted + outcomes.count .dropped := by
  induction outcomes with
  | nil => rfl
  | cons outcome outcomes ih =>
    rw [List.length_cons, ih, List.count_cons, List.count_cons]
    cases outcome with
    | accepted => exact Nat.add_right_comm _ _ _
    | dropped => rfl

namespace Reader

def take (submit : β → RawTick → β × SubmitOutcome) (r : Reader β) : LineContent → Reader β
  | .blank => r
  | .unparsable =>
    { r with summary :=
      { r.summary with lines := r.summary.lines + 1, unparsable := r.summary.unparsable + 1 } }
  | .tick raw =>
    { r with
      target := (submit r.target raw).1
      summary := { r.summary with lines := r.summary.lines + 1 }.recordOutcome
        (submit r.target raw).2 }
  | .noText => { r with broken := true }

theorem readLine_eq (r : Reader β) (line : List UInt8) :
    r.readLine submit line = if r.broken then r else r.take submit (.of line) := by
  unfold readLine LineContent.of
  split
  · rfl
  · cases Text.ofBytes? line with
    | none => rfl
    | some text =>
      dsimp only
      unfold readText
      split
      · rfl
      · cases RawTick.read? text <;> rfl

theorem broken_take (r : Reader β) {content : LineContent} (h : content.isText = true) :
    (r.take submit content).broken = r.broken := by
  cases content with
  | noText => cases h
  | blank | unparsable | tick _ => rfl

/-- After a line that is no text the reader does nothing. -/
theorem readLines_of_broken {r : Reader β} (h : r.broken = true) (lines : List (List UInt8)) :
    lines.foldl (readLine submit) r = r := by
  induction lines with
  | nil => rfl
  | cons line lines ih => rw [List.foldl_cons, readLine_eq, if_pos h, ih]

/-- The reader has come from `r` to `r'` on lines of this content, all of them text, with these
outcomes of the ticks among them. -/
structure Reads (submit : β → RawTick → β × SubmitOutcome) (r r' : Reader β)
    (contents : List LineContent) (outcomes : List SubmitOutcome) : Prop where
  submitted : submitAll submit r.target (contents.filterMap (·.tick?)) = (r'.target, outcomes)
  accepted : r'.summary.accepted = r.summary.accepted + outcomes.count .accepted
  dropped : r'.summary.dropped = r.summary.dropped + outcomes.count .dropped
  unparsable : r'.summary.unparsable = r.summary.unparsable + contents.countP (·.isUnparsable)
  lines : r'.summary.lines = r.summary.lines + contents.countP (·.counts)

variable {r r' r'' : Reader β} {contents contents' : List LineContent}
  {outcomes outcomes' : List SubmitOutcome}

theorem Reads.refl (r : Reader β) : Reads submit r r [] [] := ⟨rfl, rfl, rfl, rfl, rfl⟩

theorem Reads.trans (h : Reads submit r r' contents outcomes)
    (h' : Reads submit r' r'' contents' outcomes') :
    Reads submit r r'' (contents ++ contents') (outcomes ++ outcomes') := by
  constructor
  · rw [List.filterMap_append, submitAll_append, h.submitted, h'.submitted]
  · rw [h'.accepted, h.accepted, List.count_append, Nat.add_assoc]
  · rw [h'.dropped, h.dropped, List.count_append, Nat.add_assoc]
  · rw [h'.unparsable, h.unparsable, List.countP_append, Nat.add_assoc]
  · rw [h'.lines, h.lines, List.countP_append, Nat.add_assoc]

/-- One line. -/
theorem exists_reads_take (submit : β → RawTick → β × SubmitOutcome) (r : Reader β)
    {content : LineContent} (h : content.isText = true) :
    ∃ outcomes, Reads submit r (r.take submit content) [content] outcomes := by
  cases content with
  | noText => cases h
  | blank | unparsable => exact ⟨[], rfl, rfl, rfl, rfl, rfl⟩
  | tick raw =>
    refine ⟨[(submit r.target raw).2], rfl, ?_, ?_, ?_, ?_⟩
    all_goals
      rw [take]
      cases (submit r.target raw).2 <;> rfl

/-- Every line that counts is unparsable, or a tick that was accepted or dropped. -/
theorem Reads.countP_counts (h : Reads submit r r' contents outcomes)
    (htext : ∀ content ∈ contents, content.isText = true) :
    contents.countP (·.counts) = outcomes.count .accepted + outcomes.count .dropped +
      contents.countP (·.isUnparsable) := by
  have hlength := length_submitAll submit r.target (contents.filterMap (·.tick?))
  rw [h.submitted, length_outcomes] at hlength
  rw [LineContent.countP_counts htext, hlength, Nat.add_comm]

/-- A run over lines reads those up to the first one that is no text. -/
theorem exists_reads_lines (r : Reader β) (h : r.broken = false) (lines : List (List UInt8)) :
    ∃ outcomes, Reads submit r (lines.foldl (readLine submit) r)
        ((lines.map LineContent.of).takeWhile (·.isText)) outcomes ∧
      (lines.foldl (readLine submit) r).broken = (lines.map LineContent.of).any (!·.isText) := by
  induction lines generalizing r with
  | nil => exact ⟨[], .refl r, h⟩
  | cons line lines ih =>
    have hline : r.readLine submit line = r.take submit (.of line) := by
      rw [readLine_eq, h]
      rfl
    rw [List.map_cons, List.foldl_cons, List.any_cons, hline]
    cases htext : (LineContent.of line).isText with
    | true =>
      obtain ⟨outcomes, hreads⟩ := exists_reads_take submit r htext
      obtain ⟨outcomes', hreads', hbroken⟩ := ih _ ((broken_take r htext).trans h)
      rw [List.takeWhile_cons_of_pos htext]
      exact ⟨outcomes ++ outcomes', hreads.trans hreads', hbroken⟩
    | false =>
      rw [LineContent.isText_eq_false_iff.mp htext, take, readLines_of_broken rfl]
      exact ⟨[], ⟨rfl, rfl, rfl, rfl, rfl⟩, rfl⟩

end Reader

theorem exists_reads_pump (submit : β → RawTick → β × SubmitOutcome) (target : β)
    (data : List UInt8) :
    ∃ outcomes, Reader.Reads submit { target } (pump submit target data) (LineContent.read data)
        outcomes ∧
      (pump submit target data).broken = (LineContent.all data).any (!·.isText) :=
  Reader.exists_reads_lines { target } rfl (Text.splitLines data)

end

/-- Whether a tick is accepted does not depend on the tick, but on the room in the queue only. -/
theorem Bridge.submit_accepted_iff (b : Bridge) (raw : RawTick) :
    (b.submit raw).2 = .accepted ↔
      ∃ id, b.inlet = some id ∧ b.depthOf id < b.config.queueCapacity := by
  unfold submit
  cases b.inlet with
  | none => simp
  | some id =>
    by_cases hroom : b.depthOf id < b.config.queueCapacity
    · simp [hroom]
    · simp [hroom]

open Text in
/-- **What is read of an input.** It is all lines up to the first one that is no text. Wherever
the ticks go, those on these lines are submitted once each and in order, and every line that is
not blank was accepted, dropped or is unparsable. Where all lines are text this is all of the
input, so no such line keeps another one from being read; a line that is no text does. What
stands on a line has no bearing on what stands on the others, and what comes of a tick depends
on the room in the queue and not on the tick. -/
theorem pump_reads {β : Type} (submit : β → RawTick → β × SubmitOutcome) (target : β)
    (data : List UInt8) :
    let r := pump submit target data
    let all := LineContent.all data
    let read := LineContent.read data
    let submitted := submitAll submit target (read.filterMap (·.tick?))
    (r.target = submitted.1 ∧ r.summary.accepted = submitted.2.count .accepted ∧
        r.summary.dropped = submitted.2.count .dropped ∧
        r.summary.unparsable = read.countP (·.isUnparsable) ∧
        r.summary.lines = read.countP (·.counts) ∧
        r.summary.lines = r.summary.accepted + r.summary.dropped + r.summary.unparsable) ∧
      (r.broken = true ↔ .noText ∈ all) ∧
      (.noText ∉ all → read = all) ∧
      (∀ before after, all = before ++ .noText :: after → .noText ∉ before → read = before) ∧
      (∀ front back, StartsLine front → EndsLine back → ∃ before after, ∀ line, lineFeed ∉ line →
        LineContent.all (front ++ line ++ back) = before ++ .of line :: after) ∧
      ∀ (b : Bridge) (raw : RawTick), (b.submit raw).2 = .accepted ↔
        ∃ id, b.inlet = some id ∧ b.depthOf id < b.config.queueCapacity := by
  intro r all read submitted
  obtain ⟨outcomes, hreads, hbroken⟩ := exists_reads_pump submit target data
  have hsubmitted : submitted = (r.target, outcomes) := hreads.submitted
  have haccepted : r.summary.accepted = outcomes.count .accepted :=
    hreads.accepted.trans (Nat.zero_add _)
  have hdropped : r.summary.dropped = outcomes.count .dropped :=
    hreads.dropped.trans (Nat.zero_add _)
  have hunparsable : r.summary.unparsable = read.countP (·.isUnparsable) :=
    hreads.unparsable.trans (Nat.zero_add _)
  have hlines : r.summary.lines = read.countP (·.counts) := hreads.lines.trans (Nat.zero_add _)
  have htotal := hreads.countP_counts LineContent.isText_of_mem_read
  refine ⟨⟨?_, ?_, ?_, hunparsable, hlines, ?_⟩, ?_, LineContent.read_of_text,
    fun _ _ => LineContent.read_of_noText, fun _ _ => LineContent.exists_all_around,
    Bridge.submit_accepted_iff⟩
  · rw [hsubmitted]
  · rw [hsubmitted, haccepted]
  · rw [hsubmitted, hdropped]
  · rw [hlines, haccepted, hdropped, hunparsable]
    exact htotal
  · rw [hbroken, List.any_eq_true]
    simp only [Bool.not_eq_true', LineContent.isText_eq_false_iff, exists_eq_right]
    rfl

/-- A queue for one tick, and four lines: a tick, half an array, blanks, and another tick. With a
byte that is no text in the place of the array only the first line is read. -/
theorem pump_reads_four_lines :
    let data : List UInt8 := [0x7B, 0x7D, 10] ++ [0x5B] ++ [10, 32, 10, 0x7B, 0x7D]
    let cut : List UInt8 := [0x7B, 0x7D, 10] ++ [0xFF] ++ [10, 32, 10, 0x7B, 0x7D]
    ∃ b, Bridge.create { queueCapacity := 1 } none = .ok b ∧
      (pump Bridge.submit b data).summary = ⟨3, 1, 1, 1⟩ ∧
      LineContent.read data = LineContent.all data ∧ LineContent.read cut = [.tick .empty] ∧
      ∃ before after, LineContent.all data = before ++ .unparsable :: after ∧
        LineContent.all cut = before ++ .noText :: after := by
  intro data cut
  have hruns : (Bridge.create { queueCapacity := 1 } none).toOption.map
      (fun b => (pump Bridge.submit b data).summary) = some ⟨3, 1, 1, 1⟩ := by decide +kernel
  have hall : LineContent.all data = [.tick .empty, .unparsable, .blank, .tick .empty] := by rfl
  have hcut : LineContent.all cut = [.tick .empty] ++ .noText :: [.blank, .tick .empty] := by rfl
  cases hcreate : Bridge.create { queueCapacity := 1 } none with
  | error e =>
    rw [hcreate] at hruns
    cases hruns
  | ok b =>
    rw [hcreate] at hruns
    obtain ⟨-, -, htext, -, haround, -⟩ := pump_reads Bridge.submit b data
    obtain ⟨-, -, -, hnoText, -, -⟩ := pump_reads Bridge.submit b cut
    have hfront : Text.StartsLine [0x7B, 0x7D, 10] := .inr ⟨[0x7B, 0x7D], rfl⟩
    have hback : Text.EndsLine [10, 32, 10, 0x7B, 0x7D] := .inr ⟨[32, 10, 0x7B, 0x7D], rfl⟩
    obtain ⟨before, after, hline⟩ := haround _ _ hfront hback
    exact ⟨b, rfl, Option.some.inj hruns, htext (by simp [hall]), hnoText _ _ hcut (by simp),
      before, after, hline [0x5B] (by decide), hline [0xFF] (by decide)⟩

/-- A first line that is no text ends the reading: it does not count, and the tick on the second
line is not submitted although there is room for it. -/
theorem pump_of_no_text :
    let data : List UInt8 := [0xFF, 10, 0x7B, 0x7D, 10]
    LineContent.all data = [.noText, .tick .empty, .blank] ∧
      (LineContent.all data).countP (·.counts) = 2 ∧
      ∃ b, Bridge.create { queueCapacity := 10 } none = .ok b ∧
        (b.submit .empty).2 = .accepted ∧ (pump Bridge.submit b data).summary = {} := by
  intro data
  have hruns : (Bridge.create { queueCapacity := 10 } none).toOption.map (fun b =>
      ((b.submit .empty).2, (pump Bridge.submit b data).summary)) = some (.accepted, {}) := by
    decide +kernel
  refine ⟨by rfl, by rfl, ?_⟩
  cases hcreate : Bridge.create { queueCapacity := 10 } none with
  | error e =>
    rw [hcreate] at hruns
    cases hruns
  | ok b =>
    rw [hcreate] at hruns
    obtain ⟨haccepted, hsummary⟩ := Prod.mk.inj (Option.some.inj hruns)
    exact ⟨b, rfl, haccepted, hsummary⟩

end TickFeed
