/-
**Runs of a system under a schedule.**

A system takes steps that are labelled with events.  The step function says which state an event
leads to, or that the event cannot happen.  What several parties do at the same time is one list of
events, in the order in which they happen; a statement about every such list is a statement about
every interleaving.

* `Schedule.run` — the state after a list of events;
* `Schedule.Along` — a condition on the state before each event;
* `Schedule.run_invariant` — **the invariant rule**, for invariants that the steps keep under a
  condition;
* `Schedule.along_congr` — conditions that mean the same in the states of an invariant;
* `Schedule.final_iff_along` — statements about the end of a run and conditions along it;
* `Schedule.run_append` — runs are composed.
-/

import Mathlib.Tactic.Common

namespace Schedule

variable {σ ε : Type*} (step : σ → ε → Option σ)

/-- The state after the events, if each of them can happen. -/
def run : σ → List ε → Option σ
  | s, [] => some s
  | s, e :: es =>
    match step s e with
    | none => none
    | some s' => run s' es

/-- The condition `P` holds of the state and the event at every step. -/
def Along (P : σ → ε → Prop) : σ → List ε → Prop
  | _, [] => True
  | s, e :: es => P s e ∧ ∀ s', step s e = some s' → Along P s' es

variable {step} {P : σ → ε → Prop}

theorem run_cons_eq_some {s s' : σ} {e : ε} {es : List ε} :
    run step s (e :: es) = some s' ↔ ∃ t, step s e = some t ∧ run step t es = some s' := by
  rw [run]
  cases step s e <;> simp

theorem along_cons_of_step {s t : σ} {e : ε} (h : step s e = some t) (es : List ε) :
    Along step P s (e :: es) ↔ P s e ∧ Along step P t es := by
  simp [Along, h]

theorem along_cons_of_none {s : σ} {e : ε} (h : step s e = none) (es : List ε) :
    Along step P s (e :: es) ↔ P s e := by
  simp [Along, h]

/-- The condition can be evaluated along a run. -/
instance decidableAlong [∀ s e, Decidable (P s e)] :
    ∀ (s : σ) (es : List ε), Decidable (Along step P s es)
  | _, [] => isTrue trivial
  | s, e :: es =>
    match h : step s e with
    | none => decidable_of_iff (P s e) (along_cons_of_none h es).symm
    | some t =>
      have := decidableAlong t es
      decidable_of_iff (P s e ∧ Along step P t es) (along_cons_of_step h es).symm

theorem run_append {s s' : σ} {es es' : List ε} :
    run step s (es ++ es') = some s' ↔ ∃ t, run step s es = some t ∧ run step t es' = some s' := by
  induction es generalizing s with
  | nil => simp [run]
  | cons e es ih =>
    simp only [List.cons_append, run_cons_eq_some, ih]
    constructor
    · rintro ⟨u, hu, t, ht, hs'⟩
      exact ⟨t, ⟨u, hu, ht⟩, hs'⟩
    · rintro ⟨t, ⟨u, hu, ht⟩, hs'⟩
      exact ⟨u, hu, t, ht, hs'⟩

/-- **The invariant rule.** -/
theorem run_invariant {I : σ → Prop}
    (hkeep : ∀ s e s', step s e = some s' → P s e → I s → I s') {s s' : σ} {es : List ε}
    (hrun : run step s es = some s') (halong : Along step P s es) (hs : I s) : I s' := by
  induction es generalizing s with
  | nil => exact Option.some.inj hrun ▸ hs
  | cons e es ih =>
    obtain ⟨t, ht, hrest⟩ := run_cons_eq_some.1 hrun
    exact ih hrest (halong.2 t ht) (hkeep s e t ht halong.1 hs)

theorem along_of_forall {Q : ε → Prop} {s : σ} {es : List ε} (h : ∀ e ∈ es, Q e) :
    Along step (fun _ e => Q e) s es := by
  induction es generalizing s with
  | nil => exact trivial
  | cons e es ih =>
    rw [List.forall_mem_cons] at h
    exact ⟨h.1, fun _ _ => ih h.2⟩

theorem Along.and {Q : σ → ε → Prop} {s : σ} {es : List ε} (hP : Along step P s es)
    (hQ : Along step Q s es) : Along step (fun s e => P s e ∧ Q s e) s es := by
  induction es generalizing s with
  | nil => exact trivial
  | cons e es ih => exact ⟨⟨hP.1, hQ.1⟩, fun t ht => ih (hP.2 t ht) (hQ.2 t ht)⟩

/-- Two conditions that mean the same in all states of an invariant hold along the same runs. -/
theorem along_congr {I : σ → Prop} {Q : σ → ε → Prop} {R : ε → Prop} {s : σ} {es : List ε}
    (hes : ∀ e ∈ es, R e) (hiff : ∀ s e, R e → I s → (P s e ↔ Q s e))
    (hkeep : ∀ s e s', R e → step s e = some s' → Q s e → I s → I s') (hs : I s) :
    Along step P s es ↔ Along step Q s es := by
  induction es generalizing s with
  | nil => exact Iff.rfl
  | cons e es ih =>
    rw [List.forall_mem_cons] at hes
    rw [Along, Along, hiff s e hes.1 hs]
    refine and_congr_right fun hQ => forall₂_congr fun t ht => ?_
    exact ih hes.2 (hkeep s e t hes.1 ht hQ hs)

/-- A statement about states that each step keeps under a condition, and breaks for good without it,
holds at the end of the runs along which the condition holds. -/
theorem final_iff_along {I F : σ → Prop} (hkeep : ∀ s e s', step s e = some s' → I s → I s')
    (hiff : ∀ s e s', step s e = some s' → I s → (F s' ↔ F s ∧ P s e)) {s s' : σ} {es : List ε}
    (hrun : run step s es = some s') (hs : I s) : F s' ↔ F s ∧ Along step P s es := by
  induction es generalizing s with
  | nil => rw [Along, and_true, Option.some.inj hrun]
  | cons e es ih =>
    obtain ⟨t, ht, hrest⟩ := run_cons_eq_some.1 hrun
    rw [ih hrest (hkeep s e t ht hs), hiff s e t ht hs, along_cons_of_step ht, and_assoc]

theorem run_invariant_always {I : σ → Prop} (hkeep : ∀ s e s', step s e = some s' → I s → I s')
    {s s' : σ} {es : List ε} (hrun : run step s es = some s') (hs : I s) : I s' :=
  run_invariant (P := fun _ _ => True) (fun s e t ht _ => hkeep s e t ht) hrun
    (along_of_forall fun _ _ => trivial) hs

end Schedule
