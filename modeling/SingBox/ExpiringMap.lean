/-
**Maps whose entries have a lifetime.**

An entry may carry the time at which it expires, in the unit of the clock; zero stands for never.
An entry that has expired is not found.  Such maps may lose an entry at any time, so statements are
about all entries that are there.

* `ExpiringMap.find` — the entry of a key, if it has not expired;
* `ExpiringMap.All` — a statement about all entries, with the rules for insertion and removal.
-/

import Mathlib.Tactic.Common

/-- A value and the time at which it expires. -/
structure ExpiringEntry (ν : Type) where
  value : ν
  expire : ℕ

/-- A map with expiring entries. -/
abbrev ExpiringMap (κ ν : Type) : Type := κ → Option (ExpiringEntry ν)

namespace ExpiringMap

open Function

variable {κ ν : Type} [DecidableEq κ]

/-- The map without entries. -/
def empty : ExpiringMap κ ν := fun _ => none

/-- A new entry replaces the one that is there. -/
def insert (m : ExpiringMap κ ν) (key : κ) (entry : ExpiringEntry ν) : ExpiringMap κ ν :=
  Function.update m key (some entry)

def remove (m : ExpiringMap κ ν) (key : κ) : ExpiringMap κ ν := Function.update m key none

omit [DecidableEq κ] in
/-- The entry of a key, unless it has expired. -/
def find (m : ExpiringMap κ ν) (now : ℕ) (key : κ) : Option (ExpiringEntry ν) :=
  match m key with
  | none => none
  | some entry => if entry.expire ≠ 0 ∧ entry.expire ≤ now then none else some entry

variable {entry : ExpiringEntry ν}

omit [DecidableEq κ] in
theorem find_eq_some {m : ExpiringMap κ ν} {now : ℕ} {key : κ} :
    m.find now key = some entry ↔ m key = some entry ∧ (entry.expire ≠ 0 → now < entry.expire) := by
  rw [find]
  cases m key with
  | none => simp
  | some entry' =>
    dsimp only
    constructor
    · intro h
      split at h
      · cases h
      · rename_i hlive
        cases h
        exact ⟨rfl, fun hne => Nat.lt_of_not_le fun hle => hlive ⟨hne, hle⟩⟩
    · rintro ⟨h, hlive⟩
      cases h
      rw [if_neg]
      rintro ⟨hne, hle⟩
      exact Nat.not_lt.2 hle (hlive hne)

omit [DecidableEq κ] in
/-- A statement about all entries. -/
def All (P : κ → ExpiringEntry ν → Prop) (m : ExpiringMap κ ν) : Prop :=
  ∀ key entry, m key = some entry → P key entry

variable {P : κ → ExpiringEntry ν → Prop} {m : ExpiringMap κ ν}

omit [DecidableEq κ] in
theorem all_empty : (empty : ExpiringMap κ ν).All P := by
  intro key entry h
  cases h

theorem All.insert (h : m.All P) {key : κ} (hnew : P key entry) : (m.insert key entry).All P := by
  intro key' entry' hfound
  rw [ExpiringMap.insert] at hfound
  by_cases hkey : key' = key
  · rw [hkey, update_self, Option.some.injEq] at hfound
    rw [hkey, ← hfound]
    exact hnew
  · rw [update_of_ne hkey] at hfound
    exact h key' entry' hfound

theorem All.remove (h : m.All P) (key : κ) : (m.remove key).All P := by
  intro key' entry' hfound
  rw [ExpiringMap.remove] at hfound
  by_cases hkey : key' = key
  · rw [hkey, update_self] at hfound
    cases hfound
  · rw [update_of_ne hkey] at hfound
    exact h key' entry' hfound

omit [DecidableEq κ] in
theorem All.find (h : m.All P) {now : ℕ} {key : κ}
    (hfound : m.find now key = some entry) : P key entry :=
  h key entry (find_eq_some.1 hfound).1

end ExpiringMap
