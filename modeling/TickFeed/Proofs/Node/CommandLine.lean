import TickFeed.Node.CommandLine
import TickFeed.Proofs.Catalog.Row

/-! # Options that were read

Options come from words and from variables, and each value is looked at before it is taken. So
whatever the words and the variables are, the options that are read have values that can be read
(`readable_of_read`): each word keeps this, and so does each variable. -/

namespace TickFeed.NodeOptions

def Readable (os : NodeOptions) : Prop :=
  ∀ o value, os.get? o = some value → o.reject? value = none

variable {os os' : NodeOptions} {o : NodeOption} {value : String} {p p' : Progress}
  {env : Environment}

theorem readable_empty : Readable {} := by
  intro o value h
  cases h

/-! ## One option more -/

theorem Readable.insert (h : os.Readable) (hi : os.insert o value = .ok os') : os'.Readable := by
  unfold NodeOptions.insert at hi
  split at hi
  · cases hi
  · next hfit =>
    obtain rfl := Except.ok.inj hi
    intro o' value' hget
    rw [get?, List.lookup_cons] at hget
    split at hget
    · next heq =>
      obtain rfl := Option.some.inj hget
      rwa [eq_of_beq heq]
    · exact h o' value' hget

theorem Readable.insertNew (h : os.Readable) (hi : os.insertNew o value = .ok os') :
    os'.Readable := by
  unfold NodeOptions.insertNew at hi
  split at hi
  · cases hi
  · exact h.insert hi

/-! ## Words -/

theorem Readable.settle (h : p.options.Readable) (hp : p.settle = .ok os) : os.Readable := by
  unfold Progress.settle at hp
  split at hp
  · exact Except.ok.inj hp ▸ h
  · cases hp
  · exact h.insertNew hp

theorem Readable.long {cs : List Char} (h : p.options.Readable) (hp : p.long cs = .ok p') :
    p'.options.Readable := by
  unfold Progress.long at hp
  split at hp
  · cases hp
  · obtain ⟨settled, -, hhelp⟩ := ok_of_bind hp
    cases hhelp
  · split at hp
    · cases hp
    · obtain ⟨settled, hsettle, hrest⟩ := ok_of_bind hp
      obtain ⟨inserted, hinsert, hdone⟩ := ok_of_bind hrest
      obtain rfl := Except.ok.inj hdone
      exact (h.settle hsettle).insertNew hinsert
    · obtain ⟨settled, hsettle, hdone⟩ := ok_of_bind hp
      obtain rfl := Except.ok.inj hdone
      exact h.settle hsettle

theorem Readable.word {word : String} (h : p.options.Readable) (hp : p.word word = .ok p') :
    p'.options.Readable := by
  unfold Progress.word at hp
  split at hp
  · exact h.long hp
  · obtain ⟨settled, -, hhelp⟩ := ok_of_bind hp
    cases hhelp
  · cases hp
  · split at hp
    · obtain rfl := Except.ok.inj hp
      exact h
    · cases hp

theorem Readable.readWords {words : List String} (h : p.options.Readable)
    (hread : NodeOptions.readWords p words = .ok os) : os.Readable := by
  induction words generalizing p with
  | nil => exact h.settle hread
  | cons word words ih =>
    unfold NodeOptions.readWords at hread
    split at hread
    · -- two dashes end the words
      split at hread
      · exact h.settle hread
      · cases hread
    · obtain ⟨next, hnext, hrest⟩ := ok_of_bind hread
      exact ih (h.word hnext) hrest

/-! ## Variables -/

theorem Readable.fill (h : os.Readable) (hfill : NodeOptions.fill env os = .ok os') :
    os'.Readable := by
  unfold NodeOptions.fill at hfill
  generalize NodeOption.all = options at hfill
  induction options generalizing os with
  | nil => exact Except.ok.inj hfill ▸ h
  | cons o options ih =>
    rw [List.foldlM_cons] at hfill
    obtain ⟨next, hnext, hrest⟩ := ok_of_bind hfill
    refine ih ?_ hrest
    split at hnext
    · exact h.insert hnext
    · exact Except.ok.inj hnext ▸ h

/-- Whatever options are read, their values are fit for them. -/
theorem readable_of_read {words : List String} (h : read words env = .ok os) : os.Readable := by
  obtain ⟨given, hgiven, hfill⟩ := ok_of_bind h
  exact (readable_empty.readWords hgiven).fill hfill

end TickFeed.NodeOptions
