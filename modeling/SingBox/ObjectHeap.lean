/-
**Objects behind pointers.**

A heap is a list of objects, and a pointer is a position in it.  New objects are put at the end, so
a pointer that has been given out stays good.

* `ObjectHeap.readAll` — the objects behind a list of pointers;
* `ObjectHeap.readAll_append` — allocation changes no object;
* `ObjectHeap.modify_append` — a change of a new object leaves the others alone;
* `ObjectHeap.readAll_range'` — copies stand at the end of the heap, in order.
-/

import Mathlib.Data.List.Basic

namespace ObjectHeap

open List

variable {α : Type*}

/-- The objects behind pointers. -/
def readAll (heap : List α) (pointers : List ℕ) : List α := pointers.filterMap (heap[·]?)

/-- All pointers lead to objects. -/
def Valid (heap : List α) (pointers : List ℕ) : Prop := ∀ p ∈ pointers, p < heap.length

variable {heap : List α} {pointers : List ℕ}

theorem readAll_cons {p : ℕ} (hp : p < heap.length) :
    readAll heap (p :: pointers) = heap[p] :: readAll heap pointers := by
  rw [readAll, filterMap_cons, getElem?_eq_getElem hp]
  rfl

theorem readAll_append_pointers (more : List ℕ) :
    readAll heap (pointers ++ more) = readAll heap pointers ++ readAll heap more :=
  filterMap_append

/-- **Allocation changes no object.** -/
theorem readAll_append (h : Valid heap pointers) (more : List α) :
    readAll (heap ++ more) pointers = readAll heap pointers := by
  refine filterMap_congr fun p hp => ?_
  rw [getElem?_append_left (h p hp)]

theorem modify_append (heap more : List α) (i : ℕ) (f : α → α) :
    (heap ++ more).modify (heap.length + i) f = heap ++ more.modify i f := by
  induction heap with
  | nil => simp
  | cons a heap ih =>
    rw [cons_append, length_cons, Nat.add_right_comm, modify_succ_cons, ih, cons_append]

/-- **Copies stand at the end of the heap.** -/
theorem readAll_range' (heap copies : List α) :
    readAll (heap ++ copies) (List.range' heap.length copies.length) = copies := by
  induction copies generalizing heap with
  | nil => rfl
  | cons a copies ih =>
    rw [length_cons, range'_succ, readAll_cons (by simp)]
    have hrest := ih (heap ++ [a])
    rw [append_assoc, singleton_append, length_append, length_singleton]
      at hrest
    rw [hrest, getElem_append_right (Nat.le_refl _)]
    simp

end ObjectHeap
