/-
**Scans with early exit.**

A scan walks down a list with a state.  At each element the step function either moves on with a new
state, stops with a result, or fails.

* `Scan.Outcome`, `Scan.run` — what a step can do, and the scan;
* `Scan.Along` — a condition on the state before a step, at every step of a scan;
* `Scan.run_invariant` — **the invariant rule**, for invariants that the steps keep under a
  condition;
* `Scan.along_of_not_marked` — **the mark rule**, its counterpart.
-/

import Mathlib.Tactic.Common

namespace Scan

/-- What a step does: move on, stop with a result, or fail. -/
inductive Outcome (σ ρ ε : Type*) where
  | next (state : σ)
  | done (result : ρ) (state : σ)
  | fail (error : ε) (state : σ)

variable {α σ ρ ε : Type*}

/-- The state that an outcome leaves behind. -/
def Outcome.state : Outcome σ ρ ε → σ
  | .next s => s
  | .done _ s => s
  | .fail _ s => s

/-- The scan of a list. -/
def run (step : σ → α → Outcome σ ρ ε) : σ → List α → Outcome σ ρ ε
  | s, [] => .next s
  | s, a :: as =>
    match step s a with
    | .next s' => run step s' as
    | .done r s' => .done r s'
    | .fail e s' => .fail e s'

/-- The condition `P` holds of the state and the element at every step that the scan takes. -/
def Along (step : σ → α → Outcome σ ρ ε) (P : σ → α → Prop) : σ → List α → Prop
  | _, [] => True
  | s, a :: as => P s a ∧ ∀ s', step s a = .next s' → Along step P s' as

variable {step : σ → α → Outcome σ ρ ε} {P : σ → α → Prop}

theorem run_cons_next {s s' : σ} {a : α} (h : step s a = .next s') (as : List α) :
    run step s (a :: as) = run step s' as := by
  rw [run, h]

theorem state_run_cons {s : σ} {a : α} (h : ∀ s', step s a ≠ .next s') (as : List α) :
    (run step s (a :: as)).state = (step s a).state := by
  rw [run]
  cases hstep : step s a with
  | next s' => exact absurd hstep (h s')
  | done r s' => rfl
  | fail e s' => rfl

/-- **The invariant rule.** -/
theorem run_invariant {Inv : σ → Prop} (hkeep : ∀ s a, P s a → Inv s → Inv (step s a).state)
    {s : σ} {as : List α} (halong : Along step P s as) (hs : Inv s) :
    Inv (run step s as).state := by
  induction as generalizing s with
  | nil => exact hs
  | cons a as ih =>
    have hhead : Inv (step s a).state := hkeep s a halong.1 hs
    by_cases hnext : ∃ s', step s a = .next s'
    · obtain ⟨s', hs'⟩ := hnext
      rw [run_cons_next hs']
      rw [hs'] at hhead
      exact ih (halong.2 s' hs') hhead
    · rw [state_run_cons (not_exists.1 hnext)]
      exact hhead

theorem along_true (s : σ) (as : List α) : Along step (fun _ _ => True) s as := by
  induction as generalizing s with
  | nil => exact trivial
  | cons a as ih => exact ⟨trivial, fun s' _ => ih s'⟩

theorem run_invariant_always {Inv : σ → Prop} (hkeep : ∀ s a, Inv s → Inv (step s a).state)
    {s : σ} (as : List α) (hs : Inv s) : Inv (run step s as).state :=
  run_invariant (fun s a _ => hkeep s a) (along_true s as) hs

/-- **The mark rule**: when a step that breaks the condition leaves a mark and no step removes it, a
scan that ends without the mark has kept the condition all along. -/
theorem along_of_not_marked {Marked : σ → Prop} (hmark : ∀ s a, ¬P s a → Marked (step s a).state)
    (hkeep : ∀ s a, Marked s → Marked (step s a).state) {s : σ} {as : List α}
    (h : ¬Marked (run step s as).state) : Along step P s as := by
  induction as generalizing s with
  | nil => exact trivial
  | cons a as ih =>
    have hhead : ¬Marked (step s a).state := by
      intro hmarked
      by_cases hnext : ∃ s', step s a = .next s'
      · obtain ⟨s', hs'⟩ := hnext
        rw [run_cons_next hs'] at h
        rw [hs'] at hmarked
        exact h (run_invariant_always hkeep as hmarked)
      · rw [state_run_cons (not_exists.1 hnext)] at h
        exact h hmarked
    refine ⟨by_contra fun hP => hhead (hmark s a hP), fun s' hs' => ih ?_⟩
    rwa [run_cons_next hs'] at h

end Scan
