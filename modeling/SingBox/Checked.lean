/-
**Computations with checked indices.**

An index or a slice of a Go program that is out of range is a panic.  A checked computation makes
every index and every slice a step that can panic; besides it can fail with an error, and a loop
that is given a number of rounds can use them up.  A computation *returns* if it comes to a value or
an error.

* `Checked.returns_bind_iff` — a sequence returns if all its steps do;
* `Checked.index_eq`, `Checked.slice_eq`, `Checked.sliceFrom_eq` — indices and slices in range;
* `Checked.returns_collect_iff` — a loop of checks returns if none of them panics.
-/

import Mathlib.Data.List.Basic

/-- A computation that can fail, panic, or use up its rounds. -/
inductive Checked (ε α : Type) where
  | ok (a : α)
  | error (err : ε)
  | panicked
  | exhausted

namespace Checked

open List

variable {ε ε' α β : Type}

instance : Monad (Checked ε) where
  pure := .ok
  bind x f :=
    match x with
    | .ok a => f a
    | .error err => .error err
    | .panicked => .panicked
    | .exhausted => .exhausted

@[simp] theorem ok_bind (a : α) (f : α → Checked ε β) : (Checked.ok a >>= f) = f a := rfl

@[simp] theorem panicked_bind (f : α → Checked ε β) : (Checked.panicked >>= f) = .panicked := rfl

@[simp] theorem exhausted_bind (f : α → Checked ε β) : (Checked.exhausted >>= f) = .exhausted := rfl

/-- The computation comes to a value or an error. -/
def Returns : Checked ε α → Prop
  | .ok _ => True
  | .error _ => True
  | .panicked => False
  | .exhausted => False

variable {x : Checked ε α} {f : α → Checked ε β}

/-- **A sequence returns if all its steps do.** -/
theorem returns_bind_iff : (x >>= f).Returns ↔ x.Returns ∧ ∀ a, x = .ok a → (f a).Returns := by
  cases x with
  | ok a =>
    refine ⟨fun h => ⟨trivial, fun a' ha' => ?_⟩, fun h => h.2 a rfl⟩
    cases ha'
    exact h
  | error err => exact ⟨fun _ => ⟨trivial, nofun⟩, fun _ => trivial⟩
  | panicked | exhausted => exact ⟨fun h => h.elim, fun h => h.1.elim⟩

theorem Returns.bind (hx : x.Returns) (hf : ∀ a, x = .ok a → (f a).Returns) : (x >>= f).Returns :=
  returns_bind_iff.2 ⟨hx, hf⟩

theorem bind_eq_ok {b : β} : (x >>= f) = .ok b ↔ ∃ a, x = .ok a ∧ f a = .ok b := by
  cases x with
  | ok a =>
    refine ⟨fun h => ⟨a, rfl, h⟩, ?_⟩
    rintro ⟨a', ha', h⟩
    cases ha'
    exact h
  | error err | panicked | exhausted => exact ⟨nofun, fun ⟨_, h, _⟩ => nomatch h⟩

theorem ok_ne_error (a : α) (err : ε) : (Checked.ok a : Checked ε α) ≠ .error err := by
  intro h
  cases h

theorem bind_ne_error {err : ε} (hx : x ≠ .error err)
    (hf : ∀ a, f a ≠ .error err) : (x >>= f) ≠ .error err := by
  cases x with
  | ok a => exact hf a
  | error err' =>
    intro h
    cases h
    exact hx rfl
  | panicked | exhausted =>
    intro h
    cases h

theorem returns_ite {p : Prop} [Decidable p] {err : ε} (h : ¬p → x.Returns) :
    (if p then .error err else x : Checked ε α).Returns := by
  split
  · exact trivial
  · exact h ‹_›

theorem ite_eq_ok {p : Prop} [Decidable p] {err : ε} {a : α} :
    (if p then .error err else x : Checked ε α) = .ok a ↔ ¬p ∧ x = .ok a := by
  split
  · exact ⟨nofun, fun h => absurd ‹_› h.1⟩
  · exact ⟨fun h => ⟨‹_›, h⟩, And.right⟩

/-! ### Errors -/

/-- What a function that cannot panic returns. -/
def ofExcept : Except ε α → Checked ε α
  | .ok a => .ok a
  | .error err => .error err

@[simp] theorem ofExcept_eq_ok {x : Except ε α} {a : α} : ofExcept x = .ok a ↔ x = .ok a := by
  cases x with
  | ok b => exact ⟨fun h => by cases h; rfl, fun h => by cases h; rfl⟩
  | error err => exact ⟨nofun, nofun⟩

/-- The error as a value, on which the caller can go on. -/
def attempt : Checked ε α → Checked ε' (Except ε α)
  | .ok a => .ok (.ok a)
  | .error err => .ok (.error err)
  | .panicked => .panicked
  | .exhausted => .exhausted

@[simp] theorem returns_attempt : (attempt x : Checked ε' (Except ε α)).Returns ↔ x.Returns := by
  cases x with
  | ok a => exact Iff.rfl
  | error err => exact Iff.rfl
  | panicked | exhausted => exact Iff.rfl

theorem attempt_eq_ok_ok {a : α} :
    (attempt x : Checked ε' (Except ε α)) = .ok (.ok a) ↔ x = .ok a := by
  cases x with
  | ok b => exact ⟨fun h => by cases h; rfl, fun h => by cases h; rfl⟩
  | error err | panicked | exhausted => exact ⟨nofun, nofun⟩

/-! ### Indices and slices -/

/-- `xs[i]`. -/
def index (xs : List α) (i : ℕ) : Checked ε α :=
  match xs[i]? with
  | some a => .ok a
  | none => .panicked

/-- `xs[i:j]`, where `j` is at most the capacity. -/
def slice (xs : List α) (i j : ℕ) : Checked ε (List α) :=
  if i ≤ j ∧ j ≤ xs.length then .ok ((xs.take j).drop i) else .panicked

/-- `xs[i:]`. -/
def sliceFrom (xs : List α) (i : ℕ) : Checked ε (List α) := slice xs i xs.length

variable {xs : List α} {i : ℕ}

theorem index_eq (h : i < xs.length) :
    ∃ a, (index xs i : Checked ε α) = .ok a ∧ xs[i]? = some a := by
  refine ⟨xs[i], ?_, getElem?_eq_getElem h⟩
  rw [index, getElem?_eq_getElem h]

theorem index_eq_panicked (h : xs.length ≤ i) : (index xs i : Checked ε α) = .panicked := by
  rw [index, getElem?_eq_none h]

theorem index_ne_error (xs : List α) (i : ℕ) (err : ε) : index xs i ≠ .error err := by
  intro h
  rw [index] at h
  cases hget : xs[i]? with
  | some a | none =>
    rw [hget] at h
    cases h

theorem returns_index (h : i < xs.length) : (index xs i : Checked ε α).Returns := by
  rw [index, getElem?_eq_getElem h]
  exact trivial

theorem slice_eq {i j : ℕ} (hij : i ≤ j) (hj : j ≤ xs.length) :
    (slice xs i j : Checked ε (List α)) = .ok ((xs.take j).drop i) := if_pos ⟨hij, hj⟩

theorem slice_eq_panicked {i j : ℕ} (h : ¬(i ≤ j ∧ j ≤ xs.length)) :
    (slice xs i j : Checked ε (List α)) = .panicked := if_neg h

theorem sliceFrom_ne_error (xs : List α) (i : ℕ) (err : ε) : sliceFrom xs i ≠ .error err := by
  intro h
  rw [sliceFrom, slice] at h
  split at h
  · cases h
  · cases h

theorem length_of_slice {xs ys : List α} {i j : ℕ} (h : (slice xs i j : Checked ε _) = .ok ys) :
    ys.length = j - i ∧ j ≤ xs.length := by
  rw [slice] at h
  split at h
  · cases h
    rw [length_drop, length_take]
    omega
  · cases h

theorem sliceFrom_eq (h : i ≤ xs.length) :
    (sliceFrom xs i : Checked ε (List α)) = .ok (xs.drop i) := by
  rw [sliceFrom, slice_eq h (Nat.le_refl _), take_length]

theorem sliceFrom_eq_panicked (h : xs.length < i) :
    (sliceFrom xs i : Checked ε (List α)) = .panicked :=
  slice_eq_panicked (by omega)

theorem returns_slice {i j : ℕ} (hij : i ≤ j) (hj : j ≤ xs.length) :
    (slice xs i j : Checked ε (List α)).Returns := by
  rw [slice_eq hij hj]
  exact trivial

theorem returns_sliceFrom (h : i ≤ xs.length) : (sliceFrom xs i : Checked ε (List α)).Returns := by
  rw [sliceFrom_eq h]
  exact trivial

/-! ### Loops -/

/-- The values for `n` indices from `i` on. -/
def collect (f : ℕ → Checked ε α) : ℕ → ℕ → Checked ε (List α)
  | _, 0 => .ok []
  | i, n + 1 => do
      let a ← f i
      let as ← collect f (i + 1) n
      return a :: as

theorem returns_collect_iff {f : ℕ → Checked ε α} (h : ∀ i err, f i ≠ .error err) (i n : ℕ) :
    (collect f i n).Returns ↔ ∀ j < n, (f (i + j)).Returns := by
  induction n generalizing i with
  | zero => exact ⟨fun _ j hj => absurd hj (Nat.not_lt_zero j), fun _ => trivial⟩
  | succ n ih =>
    have htail : (collect f i (n + 1)).Returns ↔ (f i).Returns ∧ (collect f (i + 1) n).Returns := by
      rw [collect]
      cases hf : f i with
      | ok a =>
        rw [ok_bind, returns_bind_iff]
        exact ⟨fun hrest => ⟨trivial, hrest.1⟩, fun hrest => ⟨hrest.2, fun _ _ => trivial⟩⟩
      | error err => exact absurd hf (h i err)
      | panicked | exhausted => exact ⟨fun hp => hp.elim, fun hp => hp.1.elim⟩
    rw [htail, ih]
    constructor
    · rintro ⟨hfirst, hrest⟩ j hj
      cases j with
      | zero => exact hfirst
      | succ j =>
        have := hrest j (by omega)
        rwa [show i + 1 + j = i + (j + 1) by omega] at this
    · intro hall
      refine ⟨hall 0 (by omega), fun j hj => ?_⟩
      have := hall (j + 1) (by omega)
      rwa [show i + (j + 1) = i + 1 + j by omega] at this

end Checked
