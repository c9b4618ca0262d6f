/-! # Classes of calls

The broker limits each family of its calls on its own. `PerClass` holds one
thing for each of them. -/

namespace TickFeed

inductive CallClass where
  /-- Downloads of past prices. -/
  | historical
  /-- Orders that are placed, changed or cancelled. -/
  | orderPlacement
  /-- Requests for the latest prices. -/
  | quote
deriving DecidableEq, Inhabited

namespace CallClass

def all : List CallClass := [.historical, .orderPlacement, .quote]

def name : CallClass → String
  | .historical => "historical"
  | .orderPlacement => "order_placement"
  | .quote => "quote"

def ofName? (s : String) : Option CallClass := all.find? (·.name = s)

theorem mem_all (c : CallClass) : c ∈ all := by cases c <;> decide

theorem nodup_all : all.Nodup := by decide

end CallClass

structure PerClass (α : Type) where
  historical : α
  orderPlacement : α
  quote : α
deriving DecidableEq

namespace PerClass

variable {α β : Type}

def get (p : PerClass α) : CallClass → α
  | .historical => p.historical
  | .orderPlacement => p.orderPlacement
  | .quote => p.quote

def set (p : PerClass α) (c : CallClass) (a : α) : PerClass α :=
  match c with
  | .historical => { p with historical := a }
  | .orderPlacement => { p with orderPlacement := a }
  | .quote => { p with quote := a }

/-- What `f` makes of the value of each class, one class after another. -/
def update (f : CallClass → α → α) (p : PerClass α) : PerClass α :=
  CallClass.all.foldl (fun p c => p.set c (f c (p.get c))) p

def ofFunction (f : CallClass → α) : PerClass α := ⟨f .historical, f .orderPlacement, f .quote⟩

@[simp] theorem get_ofFunction (f : CallClass → α) (c : CallClass) : (ofFunction f).get c = f c := by
  cases c <;> rfl

@[simp] theorem get_set (p : PerClass α) (c d : CallClass) (a : α) :
    (p.set c a).get d = if c = d then a else p.get d := by
  cases c <;> cases d <;> rfl

/-- A class is changed at its own turn only. -/
theorem get_foldl_set (f : CallClass → α → α) {classes : List CallClass} (h : classes.Nodup)
    (p : PerClass α) (c : CallClass) :
    (classes.foldl (fun p c => p.set c (f c (p.get c))) p).get c =
      if c ∈ classes then f c (p.get c) else p.get c := by
  induction classes generalizing p with
  | nil => rfl
  | cons d classes ih =>
    obtain ⟨hd, hrest⟩ := List.nodup_cons.mp h
    rw [List.foldl_cons, ih hrest, get_set]
    by_cases hdc : d = c
    · subst hdc
      simp [hd]
    · simp [hdc, Ne.symm hdc]

@[simp] theorem get_update (f : CallClass → α → α) (p : PerClass α) (c : CallClass) :
    (p.update f).get c = f c (p.get c) := by
  rw [update, get_foldl_set f CallClass.nodup_all, if_pos c.mem_all]

end PerClass

end TickFeed
