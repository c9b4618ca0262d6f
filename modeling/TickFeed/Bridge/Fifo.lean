/-! # First in, first out

A queue as two lists: what leaves next stands first in `front`, what came last
stands first in `back`. The number of elements is kept with them. -/

namespace TickFeed

structure Fifo (α : Type) where
  front : List α
  back : List α
  size : Nat
  size_eq : size = front.length + back.length

namespace Fifo

variable {α : Type}

def empty : Fifo α := ⟨[], [], 0, rfl⟩

instance : Inhabited (Fifo α) := ⟨empty⟩

/-- The elements in the order in which they leave. -/
def toList (q : Fifo α) : List α := q.front ++ q.back.reverse

def push (q : Fifo α) (a : α) : Fifo α :=
  ⟨q.front, a :: q.back, q.size + 1, by simp only [List.length_cons, q.size_eq]; omega⟩

def pop? (q : Fifo α) : Option (α × Fifo α) :=
  match hf : q.front with
  | a :: front =>
    some (a, ⟨front, q.back, q.size - 1, by simp only [q.size_eq, hf, List.length_cons]; omega⟩)
  | [] =>
    match hb : q.back.reverse with
    | a :: front =>
      some (a, ⟨front, [], q.size - 1, by
        have := congrArg List.length hb
        simp only [List.length_reverse, List.length_cons] at this
        simp only [q.size_eq, hf, List.length_nil]
        omega⟩)
    | [] => none

theorem length_toList (q : Fifo α) : q.toList.length = q.size := by
  simp [toList, q.size_eq]

@[simp] theorem toList_push (q : Fifo α) (a : α) : (q.push a).toList = q.toList ++ [a] := by
  simp [toList, push]

@[simp] theorem size_push (q : Fifo α) (a : α) : (q.push a).size = q.size + 1 := rfl

/-- A queue from which nothing leaves is empty. -/
theorem toList_of_pop?_none {q : Fifo α} (h : q.pop? = none) : q.toList = [] := by
  unfold pop? at h
  split at h
  · simp at h
  · rename_i hf
    split at h
    · simp at h
    · rename_i hb
      simp [toList, hf, hb]

/-- What leaves is the first element, and the others keep their order. -/
theorem toList_of_pop?_some {q rest : Fifo α} {a : α} (h : q.pop? = some (a, rest)) :
    q.toList = a :: rest.toList := by
  unfold pop? at h
  split at h
  · rename_i hf
    cases h
    simp [toList, hf]
  · rename_i hf
    split at h
    · rename_i hb
      cases h
      simp [toList, hf, hb]
    · simp at h

end Fifo

end TickFeed
