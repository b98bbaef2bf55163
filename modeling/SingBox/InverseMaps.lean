/-
**Partial maps that are inverse to each other.**

A table that is read in both directions is a pair of partial maps.  They are inverse to each other
if what one of them gives leads back with the other.  An entry is added with a new value by writing
both directions and removing the way back of the value that stood there before.

* `PartialMap.Inverse` — two partial maps are inverse to each other;
* `PartialMap.forget` — a map without a key, if there is one;
* `PartialMap.Inverse.unique` — no two keys have one value;
* `PartialMap.Inverse.remove`, `assign` — **the rules for a key that loses its value and for a new
  value**.
-/

import Mathlib.Logic.Function.Basic

namespace PartialMap

open Function Option

variable {α β : Type*}

/-- Each map leads back where the other one comes from. -/
def Inverse (f : α → Option β) (g : β → Option α) : Prop := ∀ a b, f a = some b ↔ g b = some a

/-- A map without the given key. -/
def forget [DecidableEq β] (g : β → Option α) : Option β → β → Option α
  | none => g
  | some b => Function.update g b none

theorem forget_eq_some [DecidableEq β] {g : β → Option α} {old : Option β} {b : β} {a : α} :
    forget g old b = some a ↔ g b = some a ∧ old ≠ some b := by
  cases old with
  | none => simp [forget]
  | some c =>
    by_cases hbc : b = c
    · simp [forget, hbc]
    · simp [forget, hbc, Ne.symm hbc]

namespace Inverse

variable {f : α → Option β} {g : β → Option α}

theorem unique (h : Inverse f g) {b b' : β} {a : α} (hb : g b = some a) (hb' : g b' = some a) :
    b = b' := by
  have hf := (h a b).2 hb
  rw [(h a b').2 hb', some.injEq] at hf
  exact hf.symm

/-- **The rule for a key that loses its value.** -/
theorem remove [DecidableEq α] [DecidableEq β] (h : Inverse f g) (a : α) :
    Inverse (Function.update f a none) (forget g (f a)) := by
  intro a' b
  rw [forget_eq_some, ← h]
  by_cases ha : a' = a
  · simp [ha]
  · rw [update_of_ne ha, iff_self_and]
    exact fun hf hold => ha (some.inj (((h a' b).1 hf).symm.trans ((h a b).1 hold)))

/-- **The rule for a new value.**  The key may have had another value, which is forgotten. -/
theorem assign [DecidableEq α] [DecidableEq β] (h : Inverse f g) {a : α} {b : β} (hb : g b = none) :
    Inverse (Function.update f a (some b)) (Function.update (forget g (f a)) b (some a)) := by
  intro a' b'
  by_cases ha : a' = a
  · subst ha
    by_cases hbb : b' = b
    · simp [hbb]
    · -- The key leads to the new value only, and nothing else leads back to it.
      rw [update_self, update_of_ne hbb, forget_eq_some, ← h, some.injEq]
      exact iff_of_false (fun heq => hbb heq.symm) (fun hold => hold.2 hold.1)
  · rw [update_of_ne ha]
    by_cases hbb : b' = b
    · subst hbb
      rw [update_self, h, hb, some.injEq]
      exact iff_of_false (fun hnone => by cases hnone) (fun heq => ha heq.symm)
    · -- What leads to another key has not been forgotten.
      rw [update_of_ne hbb, forget_eq_some, ← h]
      refine ⟨fun hf => ⟨hf, fun hold => ha ?_⟩, fun hf => hf.1⟩
      have hback := (h a b').1 hold
      rw [(h a' b').1 hf, some.injEq] at hback
      exact hback

end Inverse

end PartialMap
