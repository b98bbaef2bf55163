/-
**Dials and the health of outbounds** (`route/conn.go`).

Every connection attempt takes a slot of its outbound before it dials, and gives it back when the
dial has ended.  The number of slots is limited only while the outbound is degraded, which it is
after a series of failed dials; one dial that succeeds ends the series.  All of this is done with
atomic counters and flags and without a lock, so that attempts interleave between any two of the
operations.

The model has a place for each atomic operation of `NewConnection`, `tryAcquireSlot` and
`updateHealthAfterDial`, and a history is any interleaving of any number of attempts.  The flag is
justified only as long as no failure comes between the two operations of a success, or a success
between the two of a failure.

* `ConnectionManager.step_cases` — what a step can do;
* `ConnectionManager.budgetKept_of_run` — **the slots are accounted for in every history**;
* `ConnectionManager.justified_of_undisturbed` — **an outbound is degraded only after the
  threshold of failures, if no success is disturbed**.
-/

import SingBox.GoString
import SingBox.Schedule

namespace SingBox.ConnectionManager

open GoString List Function Option Bool

/-! ### The health of an outbound -/

/-- `cbFailThreshold`. -/
def cbFailThreshold : ℤ := 8

/-- `degradedDialBudget`. -/
def degradedDialBudget : ℤ := 32

/-- `maxConcurrentDials`. -/
def maxConcurrentDials : ℕ := 256

/-- `outboundHealth`. -/
structure OutboundHealth where
  consecFails : ℤ := 0
  degraded : Bool := false
  inFlight : ℤ := 0

/-- How a dial ends. -/
inductive DialOutcome where
  | connected
  | canceled
  | failed
  deriving DecidableEq

/-- What the health of an outbound has seen: failures that were counted, successes that were
completed. -/
inductive Record where
  | failure
  | success

/-- Where an attempt is, by the operation that comes next. -/
inductive Phase where
  /-- `inFlight.Add(1)` of `tryAcquireSlot`. -/
  | entered
  /-- There were too many in flight: `degraded.Load`. -/
  | claimed
  /-- The outbound was degraded: `inFlight.Add(-1)`. -/
  | refused
  /-- The slot is held: `tryAcquireDial`. -/
  | admitted
  /-- There were too many dials: `releaseSlot`. -/
  | overloaded
  /-- The dial is going on. -/
  | dialing
  /-- The dial has ended: `releaseDial`. -/
  | dialed (outcome : DialOutcome)
  /-- `releaseSlot`. -/
  | releasing (outcome : DialOutcome)
  /-- The first operation of `updateHealthAfterDial`. -/
  | updating (outcome : DialOutcome)
  /-- A success has set `consecFails` to zero: `degraded.Swap`. -/
  | recovering
  /-- A failure has reached the threshold: `degraded.CompareAndSwap`. -/
  | marking
  | ended
  deriving DecidableEq

/-- The slot is held. -/
def Phase.holds : Phase → Bool
  | .admitted | .overloaded | .dialing | .dialed _ | .releasing _ => true
  | _ => false

/-- A slot is claimed, and it is not clear yet whether it is held. -/
def Phase.isTentative : Phase → Bool
  | .claimed | .refused => true
  | _ => false

/-- The operations on the health of an outbound: `tryAcquireSlot`, `releaseSlot` and
`updateHealthAfterDial`. -/
def healthStep (health : OutboundHealth) :
    Phase → Option (OutboundHealth × Phase × List Record)
  | .entered =>
    some ({ health with inFlight := health.inFlight + 1 },
      if degradedDialBudget < health.inFlight + 1 then .claimed else .admitted, [])
  | .claimed => some (health, if health.degraded then .refused else .admitted, [])
  | .refused => some ({ health with inFlight := health.inFlight - 1 }, .ended, [])
  | .overloaded => some ({ health with inFlight := health.inFlight - 1 }, .ended, [])
  | .releasing outcome =>
    some ({ health with inFlight := health.inFlight - 1 }, .updating outcome, [])
  | .updating .connected => some ({ health with consecFails := 0 }, .recovering, [])
  | .updating .canceled => some (health, .ended, [])
  | .updating .failed =>
    some ({ health with consecFails := health.consecFails + 1 },
      if cbFailThreshold ≤ health.consecFails + 1 then .marking else .ended, [.failure])
  | .recovering => some ({ health with degraded := false }, .ended, [.success])
  | .marking => some ({ health with degraded := true }, .ended, [])
  | .admitted | .dialing | .dialed _ | .ended => none

/-! ### Attempts -/

/-- A call of `NewConnection`; a dialer that is no outbound has no health. -/
structure Attempt where
  tag : Option GoString
  phase : Phase

/-- `ConnectionManager` with the attempts that were made, and what was recorded for each outbound,
the latest first. -/
structure Manager where
  health : GoString → OutboundHealth := fun _ => {}
  dialSem : ℕ := 0
  attempts : List Attempt := []
  recorded : GoString → List Record := fun _ => []

/-- What can happen. -/
inductive Event where
  | connect (tag : Option GoString)
  | run (i : ℕ)
  | dialEnds (i : ℕ) (outcome : DialOutcome)

/-- An attempt that starts. -/
def newAttempt (tag : Option GoString) : Attempt :=
  { tag := tag, phase := if tag.isSome then .entered else .admitted }

/-- An attempt goes on to another place. -/
def Manager.move (m : Manager) (i : ℕ) (attempt : Attempt) (phase : Phase) : Manager :=
  { m with attempts := m.attempts.set i { attempt with phase := phase } }

/-- One operation of an attempt that is not the dial. -/
def Manager.runStep (m : Manager) (i : ℕ) (attempt : Attempt) : Option Manager :=
  match attempt.phase, attempt.tag with
  | .admitted, tag =>
    if m.dialSem < maxConcurrentDials then
      some { m.move i attempt .dialing with dialSem := m.dialSem + 1 }
    else some (m.move i attempt (if tag.isSome then .overloaded else .ended))
  | .dialed outcome, tag =>
    if m.dialSem = 0 then none
    else
      some { m.move i attempt (if tag.isSome then .releasing outcome else .ended) with
        dialSem := m.dialSem - 1 }
  | _, none => none
  | phase, some tag =>
    (healthStep (m.health tag) phase).map fun (health, phase, records) =>
      { m.move i attempt phase with
        health := Function.update m.health tag health
        recorded := Function.update m.recorded tag (records ++ m.recorded tag) }

/-- One step of one attempt. -/
def step (m : Manager) : Event → Option Manager
  | .connect tag => some { m with attempts := m.attempts ++ [newAttempt tag] }
  | .run i => m.attempts[i]?.bind fun attempt => m.runStep i attempt
  | .dialEnds i outcome =>
    m.attempts[i]?.bind fun attempt =>
      if attempt.phase = .dialing then some (m.move i attempt (.dialed outcome)) else none

/-! ### What a step can do -/

/-- The moves of an attempt that do not touch the health of its outbound. -/
inductive Passes (tag : Option GoString) : Phase → Phase → Prop where
  | dial : Passes tag .admitted .dialing
  | overload : Passes tag .admitted (if tag.isSome then .overloaded else .ended)
  | finish (outcome : DialOutcome) : Passes tag .dialing (.dialed outcome)
  | release (outcome : DialOutcome) :
      Passes tag (.dialed outcome) (if tag.isSome then .releasing outcome else .ended)

/-- **What a step can do**: an attempt starts, one passes on with its outbound untouched, or one
makes an operation on the health of its outbound. -/
inductive Moves (m : Manager) (e : Event) (m' : Manager) : Prop where
  | connect (tag : Option GoString) (health : m'.health = m.health)
      (recorded : m'.recorded = m.recorded)
      (attempts : m'.attempts = m.attempts ++ [newAttempt tag])
  | pass (i : ℕ) (attempt : Attempt) (phase : Phase) (found : m.attempts[i]? = some attempt)
      (passes : Passes attempt.tag attempt.phase phase) (health : m'.health = m.health)
      (recorded : m'.recorded = m.recorded)
      (attempts : m'.attempts = m.attempts.set i { attempt with phase := phase })
  | operate (i : ℕ) (attempt : Attempt) (tag : GoString) (health : OutboundHealth)
      (phase : Phase) (records : List Record) (event : e = .run i)
      (found : m.attempts[i]? = some attempt) (hasTag : attempt.tag = some tag)
      (operation : healthStep (m.health tag) attempt.phase = some (health, phase, records))
      (healths : m'.health = Function.update m.health tag health)
      (recorded : m'.recorded = Function.update m.recorded tag (records ++ m.recorded tag))
      (attempts : m'.attempts = m.attempts.set i { attempt with phase := phase })

variable {m m' : Manager} {e : Event}

theorem step_cases (h : step m e = some m') : Moves m e m' := by
  cases e with
  | connect tag =>
    obtain rfl := some.inj h
    exact .connect tag rfl rfl rfl
  | dialEnds i outcome =>
    obtain ⟨attempt, hfound, h⟩ := Option.bind_eq_some_iff.1 h
    obtain ⟨hdialing, ⟨⟩⟩ := ite_none_right_eq_some.1 h
    exact .pass i attempt _ hfound (hdialing ▸ .finish outcome) rfl rfl rfl
  | run i =>
    obtain ⟨attempt, hfound, h⟩ := Option.bind_eq_some_iff.1 h
    unfold Manager.runStep at h
    split at h
    · rename_i tag hphase
      split at h
      · obtain rfl := some.inj h
        exact .pass i attempt _ hfound (hphase ▸ .dial) rfl rfl rfl
      · obtain rfl := some.inj h
        exact .pass i attempt _ hfound (hphase ▸ .overload) rfl rfl rfl
    · rename_i tag outcome hphase
      obtain ⟨-, ⟨⟩⟩ := ite_none_left_eq_some.1 h
      exact .pass i attempt _ hfound (hphase ▸ .release outcome) rfl rfl rfl
    · cases h
    · rename_i tag htag _ _
      obtain ⟨⟨health, phase, records⟩, hop, rfl⟩ := Option.map_eq_some_iff.1 h
      exact .operate i attempt tag health phase records rfl hfound htag hop rfl rfl rfl

/-! ### Counting attempts -/

/-- The number of attempts at an outbound that are at certain places. -/
def tally (p : Phase → Bool) (tag : GoString) (attempts : List Attempt) : ℕ :=
  attempts.countP fun attempt => decide (attempt.tag = some tag) && p attempt.phase

variable {p : Phase → Bool}

theorem tally_append_newAttempt (hp : p .entered = false) (tag : GoString)
    (attempts : List Attempt) (tag' : Option GoString) :
    tally p tag (attempts ++ [newAttempt tag']) = tally p tag attempts := by
  have hnew : (decide ((newAttempt tag').tag = some tag) && p (newAttempt tag').phase) = false := by
    cases tag' with
    | none => rfl
    | some tag' => simp [newAttempt, hp]
  unfold tally
  rw [countP_append, countP_singleton, hnew]
  rfl

variable {tag : GoString} {attempts : List Attempt}

theorem tally_set_of_ne {i : ℕ} {attempt : Attempt} (hfound : attempts[i]? = some attempt)
    (htag : attempt.tag ≠ some tag) (phase : Phase) :
    tally p tag (attempts.set i { attempt with phase := phase }) = tally p tag attempts := by
  obtain ⟨hi, hget⟩ := List.getElem?_eq_some_iff.1 hfound
  unfold tally
  rw [countP_set hi, hget]
  simp [htag]

theorem tally_set {i : ℕ} {attempt : Attempt} (hfound : attempts[i]? = some attempt)
    (htag : attempt.tag = some tag) (phase : Phase) :
    tally p tag (attempts.set i { attempt with phase := phase }) + (p attempt.phase).toNat =
      tally p tag attempts + (p phase).toNat := by
  obtain ⟨hi, hget⟩ := List.getElem?_eq_some_iff.1 hfound
  have hmem : attempt ∈ attempts := mem_of_getElem? hfound
  unfold tally
  rw [countP_set hi, hget]
  simp only [htag, decide_true, Bool.true_and]
  cases hold : p attempt.phase with
  | false => cases p phase <;> simp
  | true =>
    -- the attempt itself is counted, so that the subtraction is exact
    have hpos : 0 < attempts.countP fun a => decide (a.tag = some tag) && p a.phase :=
      List.countP_pos_iff.2 ⟨attempt, hmem, by simp [htag, hold]⟩
    cases p phase <;> simp <;> omega

/-- Places of which no attempt is at its start, and between which attempts do not pass on with their
outbound untouched. -/
structure Apart (p : Phase → Bool) : Prop where
  entered : p .entered = false
  passes : ∀ {tag : GoString} {phase phase' : Phase}, Passes (some tag) phase phase' →
    p phase = p phase'

/-- **What a step is for one outbound**: nothing, or an operation of one attempt on its health. -/
inductive View (m : Manager) (e : Event) (m' : Manager) (tag : GoString) : Prop where
  | unchanged (health : m'.health tag = m.health tag)
      (recorded : m'.recorded tag = m.recorded tag)
      (tallies : ∀ p, Apart p → tally p tag m'.attempts = tally p tag m.attempts)
  | operate (i : ℕ) (phase phase' : Phase) (records : List Record) (event : e = .run i)
      (found : m.attempts[i]? = some ⟨some tag, phase⟩)
      (operation : healthStep (m.health tag) phase = some (m'.health tag, phase', records))
      (recorded : m'.recorded tag = records ++ m.recorded tag)
      (tallies : ∀ p, tally p tag m'.attempts + (p phase).toNat =
        tally p tag m.attempts + (p phase').toNat)

theorem step_view (h : step m e = some m') (tag : GoString) : View m e m' tag := by
  rcases step_cases h with ⟨tag', hhealth, hrecorded, hattempts⟩ |
    ⟨i, attempt, phase, hfound, hpasses, hhealth, hrecorded, hattempts⟩ |
    ⟨i, ⟨tag', phase⟩, tag'', health, phase', records, hevent, hfound, htag', hop,
      hhealths, hrecorded, hattempts⟩
  · refine .unchanged (by rw [hhealth]) (by rw [hrecorded]) fun p hp => ?_
    rw [hattempts, tally_append_newAttempt hp.entered]
  · refine .unchanged (by rw [hhealth]) (by rw [hrecorded]) fun p hp => ?_
    rw [hattempts]
    by_cases htag : attempt.tag = some tag
    · have htally := tally_set (p := p) hfound htag phase
      rw [htag] at hpasses
      rw [hp.passes hpasses] at htally
      omega
    · rw [tally_set_of_ne hfound htag]
  · dsimp only at htag' hop
    subst htag'
    by_cases htag : tag = tag''
    · subst htag
      refine .operate i phase phase' records hevent hfound ?_ ?_ fun p => ?_
      · rw [hhealths, update_self]
        exact hop
      · rw [hrecorded, update_self]
      · rw [hattempts]
        exact tally_set hfound rfl phase'
    · refine .unchanged ?_ ?_ fun p _ => ?_
      · rw [hhealths, update_of_ne htag]
      · rw [hrecorded, update_of_ne htag]
      · rw [hattempts, tally_set_of_ne hfound]
        exact fun hsome => htag (some.inj hsome).symm

/-- The number of slots of an outbound that are held. -/
def Manager.held (m : Manager) (tag : GoString) : ℕ := tally Phase.holds tag m.attempts

/-- The number of slots of an outbound that are claimed and not held. -/
def Manager.tentative (m : Manager) (tag : GoString) : ℕ :=
  tally Phase.isTentative tag m.attempts

/-! ### Slots -/

variable {health health' : OutboundHealth} {phase phase' : Phase}

theorem healthStep_inFlight
    {records : List Record} (h : healthStep health phase = some (health', phase', records)) :
    health'.inFlight + (phase.holds.toNat + phase.isTentative.toNat) =
      health.inFlight + (phase'.holds.toNat + phase'.isTentative.toNat) := by
  cases phase with
  | entered | claimed =>
    cases h
    split <;> simp [Phase.holds, Phase.isTentative]
  | updating outcome =>
    cases outcome with
    | connected | canceled =>
      cases h
      simp [Phase.holds, Phase.isTentative]
    | failed =>
      cases h
      split <;> simp [Phase.holds, Phase.isTentative]
  | refused | overloaded | releasing outcome | recovering | marking =>
    cases h
    simp [Phase.holds, Phase.isTentative]
  | admitted | dialing | dialed outcome | ended => cases h

theorem healthStep_admits
    {records : List Record} (h : healthStep health phase = some (health', phase', records))
    (hdeg : health.degraded) (hbefore : phase.holds = false)
    (hafter : phase'.holds) : health'.inFlight ≤ degradedDialBudget := by
  cases phase with
  | entered =>
    cases h
    split at hafter
    · cases hafter
    · rename_i hbudget
      exact not_lt.1 hbudget
  | claimed =>
    cases h
    rw [hdeg] at hafter
    cases hafter
  | updating outcome =>
    cases outcome with
    | connected | canceled =>
      cases h
      cases hafter
    | failed =>
      cases h
      split at hafter <;> cases hafter
  | refused | recovering | marking =>
    cases h
    cases hafter
  | admitted | overloaded | dialing | dialed outcome | releasing outcome => cases hbefore
  | ended => cases h

theorem Passes.holds (h : Passes (some tag) phase phase') : phase.holds ∧ phase'.holds := by
  cases h <;> exact ⟨rfl, rfl⟩

theorem apart_holds : Apart Phase.holds := ⟨rfl, fun h => h.holds.1.trans h.holds.2.symm⟩

theorem apart_isTentative : Apart Phase.isTentative := ⟨rfl, fun h => by cases h <;> rfl⟩

/-- The counter of an outbound is the number of slots that are held or claimed. -/
def Counted (m : Manager) : Prop :=
  ∀ tag, (m.health tag).inFlight = m.held tag + m.tentative tag

theorem counted_step (h : step m e = some m') (hm : Counted m) : Counted m' := by
  intro tag
  have hcount := hm tag
  rcases step_view h tag with ⟨hhealth, -, htally⟩ |
    ⟨i, phase, phase', records, -, -, hop, -, htally⟩
  · rw [hhealth, Manager.held, Manager.tentative, htally _ apart_holds, htally _ apart_isTentative]
    exact hcount
  · have hinFlight := healthStep_inFlight hop
    have hheld : m'.held tag + phase.holds.toNat = m.held tag + phase'.holds.toNat := htally _
    have htentative : m'.tentative tag + phase.isTentative.toNat =
        m.tentative tag + phase'.isTentative.toNat := htally _
    omega

theorem counted_run {events : List Event} (h : Schedule.run step {} events = some m) : Counted m :=
  Schedule.run_invariant_always (I := Counted) (fun _ _ _ h hm => counted_step h hm) h
    (fun _ => rfl)

/-- What is expected of the slots of an outbound: its counter is the number of slots that are held
or claimed, never negative, and zero when all attempts have ended; and a slot that is got while the
outbound is degraded does not make the slots held more than the budget. -/
structure BudgetKept (m : Manager) (tag : GoString) : Prop where
  counted : (m.health tag).inFlight = m.held tag + m.tentative tag
  nonneg : 0 ≤ (m.health tag).inFlight
  idle : (∀ attempt ∈ m.attempts, attempt.tag = some tag → attempt.phase = .ended) →
    (m.health tag).inFlight = 0
  admits : ∀ e m', step m e = some m' → (m.health tag).degraded →
    m.held tag < m'.held tag → (m'.held tag : ℤ) ≤ degradedDialBudget

theorem held_le_of_degraded (hm : Counted m)
    (h : step m e = some m') (hdeg : (m.health tag).degraded)
    (hmore : m.held tag < m'.held tag) : (m'.held tag : ℤ) ≤ degradedDialBudget := by
  have hcount := counted_step h hm tag
  rcases step_view h tag with ⟨-, -, htally⟩ |
    ⟨i, phase, phase', records, -, -, hop, -, htally⟩
  · have hsame : m'.held tag = m.held tag := htally _ apart_holds
    omega
  · have hheld : m'.held tag + phase.holds.toNat = m.held tag + phase'.holds.toNat := htally _
    -- more slots are held, so that this attempt has just got its own
    have hbefore : phase.holds = false := by
      by_contra hcontra
      rw [not_eq_false] at hcontra
      have hle := toNat_le phase'.holds
      rw [hcontra, toNat_true] at hheld
      omega
    have hafter : phase'.holds := by
      by_contra hcontra
      rw [not_eq_true] at hcontra
      rw [hbefore, hcontra] at hheld
      omega
    have hbudget := healthStep_admits hop hdeg hbefore hafter
    omega

theorem tally_of_ended (hp : p .ended = false)
    (h : ∀ attempt ∈ attempts, attempt.tag = some tag → attempt.phase = .ended) :
    tally p tag attempts = 0 := by
  unfold tally
  rw [countP_eq_zero]
  intro attempt hattempt hcounted
  rw [and_eq_true, decide_eq_true_eq] at hcounted
  rw [h attempt hattempt hcounted.1, hp] at hcounted
  exact absurd hcounted.2 (by simp)

/-- **The slots of every outbound are accounted for in every history of attempts**, and the budget
of a degraded outbound is kept. -/
theorem budgetKept_of_run {events : List Event} {m : Manager}
    (h : Schedule.run step {} events = some m) (tag : GoString) : BudgetKept m tag := by
  have hcounted := counted_run h
  have hcount := hcounted tag
  refine ⟨hcount, by omega, fun hended => ?_, fun e m' hstep hdegraded hmore =>
    held_le_of_degraded hcounted hstep hdegraded hmore⟩
  rw [hcount, Manager.held, Manager.tentative, tally_of_ended rfl hended, tally_of_ended rfl hended]
  rfl

/-- An attempt that runs on from its start, until its dial ends with a failure and it has counted
it; `i` is its number. -/
def failedDial (i : ℕ) (tag : GoString) : List Event :=
  [.connect (some tag), .run i, .run i, .dialEnds i .failed, .run i, .run i, .run i]

/-- Eight failures, with all that follows from them. -/
def eightFailures : List Event :=
  (List.range 8).flatMap (fun i => failedDial i "out") ++ [.run 7]

/-- The slots of an outbound that eight failures have degraded are accounted for. -/
theorem degraded_budgetKept :
    ∃ m, Schedule.run step {} eightFailures = some m ∧
      (m.health "out").degraded = true ∧
      BudgetKept m "out" := by
  have hsome : ((Schedule.run step {} eightFailures).map fun m =>
      (m.health "out").degraded) = some true := by decide +kernel
  obtain ⟨m, hm, hdegraded⟩ := Option.map_eq_some_iff.1 hsome
  exact ⟨m, hm, hdegraded, budgetKept_of_run hm _⟩

/-! ### The flag -/

/-- The failures that were counted since the last success that was completed. -/
def failuresSince : List Record → ℕ
  | .failure :: records => failuresSince records + 1
  | _ => 0

variable (records : List Record)

@[simp] theorem failuresSince_failure :
    failuresSince (.failure :: records) = failuresSince records + 1 := rfl

@[simp] theorem failuresSince_success : failuresSince (.success :: records) = 0 := rfl

/-- What is expected of the flag of an outbound: it is set only after the threshold of failures
since the last success, and not at all after a success that no failure has followed. -/
structure Justified (m : Manager) (tag : GoString) : Prop where
  marked : (m.health tag).degraded →
    cbFailThreshold ≤ failuresSince (m.recorded tag)
  recovered : ∀ records, m.recorded tag = .success :: records →
    (m.health tag).degraded = false

/-- The attempt has reached the threshold and not set the flag yet. -/
def Phase.isMarking (phase : Phase) : Bool := decide (phase = .marking)

/-- A success that ends is not disturbed: no failure was counted since it has reset the counter, and
no failure that has reached the threshold has still to set the flag. -/
def Undisturbed (m : Manager) : Event → Prop
  | .run i =>
    ∀ attempt ∈ m.attempts[i]?, attempt.phase = .recovering → ∀ tag ∈ attempt.tag,
      (m.health tag).consecFails = 0 ∧ tally Phase.isMarking tag m.attempts = 0
  | _ => True

instance (m : Manager) (e : Event) : Decidable (Undisturbed m e) :=
  match e with
  | .run i =>
    inferInstanceAs (Decidable (∀ attempt ∈ m.attempts[i]?, attempt.phase = .recovering →
      ∀ tag ∈ attempt.tag,
        (m.health tag).consecFails = 0 ∧ tally Phase.isMarking tag m.attempts = 0))
  | .connect _ => inferInstanceAs (Decidable True)
  | .dialEnds _ _ => inferInstanceAs (Decidable True)

theorem apart_isMarking : Apart Phase.isMarking := ⟨rfl, fun h => by cases h <;> rfl⟩

/-- The counter does not exceed the failures since the last success, and whatever sets the flag has
seen the threshold of them. -/
structure Sound (health : OutboundHealth) (records : List Record) (marking : ℕ) : Prop where
  counted : health.consecFails ≤ failuresSince records
  pending : 0 < marking → cbFailThreshold ≤ failuresSince records
  marked : health.degraded → cbFailThreshold ≤ failuresSince records

/-- **One operation keeps this**, if a success that ends is not disturbed. -/
theorem Sound.healthStep {records new : List Record}
    {marking marking' : ℕ} (h : Sound health records marking)
    (hop : healthStep health phase = some (health', phase', new))
    (hmarking : marking' + phase.isMarking.toNat = marking + phase'.isMarking.toNat)
    (hundisturbed : phase = .recovering → health.consecFails = 0 ∧ marking = 0) :
    Sound health' (new ++ records) marking' := by
  obtain ⟨hcounted, hpending, hmarked⟩ := h
  cases phase with
  | entered | claimed =>
    cases hop
    have hsame : marking' = marking := by
      split at hmarking <;> exact hmarking
    subst hsame
    exact ⟨hcounted, hpending, hmarked⟩
  | refused | overloaded | releasing outcome =>
    cases hop
    obtain rfl : marking' = marking := hmarking
    exact ⟨hcounted, hpending, hmarked⟩
  | updating outcome =>
    cases outcome with
    | connected =>
      cases hop
      obtain rfl : marking' = marking := hmarking
      exact ⟨Int.natCast_nonneg _, hpending, hmarked⟩
    | canceled =>
      cases hop
      obtain rfl : marking' = marking := hmarking
      exact ⟨hcounted, hpending, hmarked⟩
    | failed =>
      -- one more failure on both sides; if the threshold is reached, it is reached by both
      cases hop
      simp only [singleton_append]
      refine ⟨?_, fun hpos => ?_, fun hdeg => ?_⟩
      · simp only [failuresSince_failure]
        push_cast
        omega
      · simp only [failuresSince_failure]
        push_cast
        split at hmarking
        · omega
        · have hsame : marking' = marking := hmarking
          have := hpending (hsame ▸ hpos)
          omega
      · have := hmarked hdeg
        simp only [failuresSince_failure]
        push_cast
        omega
  | recovering =>
    -- a success ends: nothing of what came before may be left
    cases hop
    obtain ⟨hzero, hnone⟩ := hundisturbed rfl
    have hsame : marking' = marking := hmarking
    refine ⟨?_, fun hpos => ?_, nofun⟩
    · simp only [singleton_append, failuresSince_success]
      exact hzero.le
    · omega
  | marking =>
    -- the flag is set by an attempt that has seen the threshold
    cases hop
    have hless : marking' + 1 = marking := hmarking
    exact ⟨hcounted, fun _ => hpending (by omega), fun _ => hpending (by omega)⟩
  | admitted | dialing | dialed outcome | ended => cases hop

/-- The flags of all outbounds are sound. -/
def AllSound (m : Manager) : Prop :=
  ∀ tag, Sound (m.health tag) (m.recorded tag) (tally Phase.isMarking tag m.attempts)

theorem allSound_step (h : step m e = some m') (hm : AllSound m)
    (hundisturbed : Undisturbed m e) : AllSound m' := by
  intro tag
  rcases step_view h tag with ⟨hhealth, hrecorded, htally⟩ |
    ⟨i, phase, phase', records, rfl, hfound, hop, hrecorded, htally⟩
  · rw [hhealth, hrecorded, htally _ apart_isMarking]
    exact hm tag
  · rw [hrecorded]
    refine (hm tag).healthStep hop (htally _) fun hphase => ?_
    exact hundisturbed _ hfound hphase tag rfl

/-- **An outbound is degraded only after the threshold of failures since the last success, in every
history in which no success is disturbed.** -/
theorem justified_of_undisturbed {events : List Event} {m : Manager}
    (h : Schedule.run step {} events = some m)
    (hundisturbed : Schedule.Along step Undisturbed {} events) (tag : GoString) :
    Justified m tag := by
  have hinitial : AllSound {} := fun _ =>
    ⟨le_refl _, fun hpos => absurd hpos (Nat.lt_irrefl 0), nofun⟩
  have hsound := Schedule.run_invariant (I := AllSound) (P := Undisturbed)
    (fun m e m' hstep hundisturbed hm => allSound_step hstep hm hundisturbed) h hundisturbed
    hinitial tag
  refine ⟨hsound.marked, fun records hrecords => ?_⟩
  by_contra hdegraded
  rw [not_eq_false] at hdegraded
  have hthreshold := hsound.marked hdegraded
  rw [hrecords, failuresSince_success] at hthreshold
  exact absurd hthreshold (by decide)

/-- A dial that succeeds; `i` is the number of the attempt. -/
def succeededDial (i : ℕ) (tag : GoString) : List Event :=
  [.connect (some tag), .run i, .run i, .dialEnds i .connected, .run i, .run i, .run i, .run i]

/-- A success, and eight failures after it. -/
def successThenFailures : List Event :=
  succeededDial 0 "out" ++
    (List.range 8).flatMap (fun i => failedDial (i + 1) "out") ++ [.run 8]

theorem successThenFailures_justified :
    ∃ m, Schedule.run step {} successThenFailures = some m ∧
      Schedule.Along step Undisturbed {} successThenFailures ∧
      (m.health "out").degraded = true ∧
      Justified m "out" := by
  have hsome : ((Schedule.run step {} successThenFailures).map fun m =>
      (m.health "out").degraded) = some true := by decide +kernel
  have hundisturbed : Schedule.Along step Undisturbed {} successThenFailures := by
    decide +kernel
  obtain ⟨m, hm, hdegraded⟩ := Option.map_eq_some_iff.1 hsome
  exact ⟨m, hm, hundisturbed, hdegraded, justified_of_undisturbed hm hundisturbed _⟩

/-- The eighth failure is counted, a success comes and goes, and then the flag is set. -/
def lateMark : List Event :=
  (List.range 8).flatMap (fun i => failedDial i "out") ++
    succeededDial 8 "out" ++ [.run 7]

/-- An outbound is degraded although no failure has followed the last success. -/
theorem lateMark_not_justified :
    ∃ m, Schedule.run step {} lateMark = some m ∧
      (m.health "out").degraded = true ∧
      failuresSince (m.recorded "out") = 0 ∧
      ¬Justified m "out" := by
  have hsome : ((Schedule.run step {} lateMark).map fun m =>
      ((m.health "out").degraded, failuresSince (m.recorded "out"))) = some (true, 0) := by
    decide +kernel
  obtain ⟨m, hm, hpair⟩ := Option.map_eq_some_iff.1 hsome
  obtain ⟨hdegraded, hfailures⟩ := Prod.mk.inj hpair
  refine ⟨m, hm, hdegraded, hfailures, fun hjustified => ?_⟩
  have hthreshold := hjustified.marked hdegraded
  rw [hfailures] at hthreshold
  exact absurd hthreshold (by decide)

end SingBox.ConnectionManager
