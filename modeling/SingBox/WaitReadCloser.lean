/-
**A body that comes later** (`WaitReadCloser` in `transport/v2rayxhttp/dialer.go`).

A stream is handed out before the response is there.  `Set` gives it the body, `Read` waits for it,
and `Close` may come at any time.  The body stands behind an atomic pointer, and a signal that is
given once tells the readers not to wait any longer.
There is no lock: `Set` stores the body and then looks at the signal, `Close` gives the signal and
then takes the body, so that one of the two sees what the other has done.

Each call is a machine whose steps are the operations on the pointer, on the signal and on the body.

* `WaitReadCloser.inv_step` — **every step keeps the body in one place**;
* `WaitReadCloser.body_closed_once` — **who closes the body, and who waits**;
* `WaitReadCloser.taken_not_closed` — a call of `Close` may be over while another one still
  has the body in its hands.
-/

import SingBox.Schedule

namespace SingBox.WaitReadCloser

open Function

variable {β : Type}

/-! ### Calls -/

/-- Where the call of `Set` is; `rc` is the body that it is given. -/
inductive SetPhase (β : Type) where
  | idle
  | storing (rc : β)
  /-- Before `wait.Done`. -/
  | checking (rc : β)
  | swapping (rc : β)
  /-- Before `(*p).Close`. -/
  | closing (rc p : β)
  /-- Before `wait.Close`. -/
  | signaling (rc : β)
  | returned (rc : β)

/-- Where a call of `Close` is. -/
inductive ClosePhase (β : Type) where
  | signaling
  | swapping
  | closing (p : β)
  | returned

/-- Where a call of `Read` is. -/
inductive ReadPhase (β : Type) where
  | loading
  | waiting
  /-- After the signal. -/
  | reloading
  /-- In `Read` of the body. -/
  | reading (p : β)
  /-- It has returned what the body has returned, or `io.ErrClosedPipe`. -/
  | returned (errClosedPipe : Bool)

/-- `WaitReadCloser`, the calls of `Close` of bodies, and the calls of its own methods. -/
structure State (β : Type) where
  /-- `reader`. -/
  reader : Option β := none
  /-- `wait.Done()`. -/
  signal : Bool := false
  closes : List β := []
  set : SetPhase β := .idle
  closers : ℕ → Option (ClosePhase β) := fun _ => none
  readers : ℕ → Option (ReadPhase β) := fun _ => none

/-- What can happen. -/
inductive Event (β : Type) where
  | set (rc : β)
  | close (id : ℕ)
  | read (id : ℕ)
  | runSet
  | runClose (id : ℕ)
  | runRead (id : ℕ)

/-- One step of `Set`. -/
def setStep (s : State β) : Option (State β) :=
  match s.set with
  | .idle => none
  | .storing rc => some { s with reader := some rc, set := .checking rc }
  | .checking rc =>
    if s.signal then some { s with set := .swapping rc } else some { s with set := .signaling rc }
  | .swapping rc =>
    match s.reader with
    | some p => some { s with reader := none, set := .closing rc p }
    | none => some { s with set := .signaling rc }
  | .closing rc p => some { s with closes := p :: s.closes, set := .signaling rc }
  | .signaling rc => some { s with signal := true, set := .returned rc }
  | .returned _ => none

def State.setCloser (s : State β) (id : ℕ) (phase : ClosePhase β) : State β :=
  { s with closers := Function.update s.closers id (some phase) }

def State.setReader (s : State β) (id : ℕ) (phase : ReadPhase β) : State β :=
  { s with readers := Function.update s.readers id (some phase) }

/-- One step of a call of `Close`. -/
def closeStep (s : State β) (id : ℕ) : Option (State β) :=
  match s.closers id with
  | none => none
  | some .signaling => some ({ s with signal := true }.setCloser id .swapping)
  | some .swapping =>
    match s.reader with
    | some p => some ({ s with reader := none }.setCloser id (.closing p))
    | none => some (s.setCloser id .returned)
  | some (.closing p) => some ({ s with closes := p :: s.closes }.setCloser id .returned)
  | some .returned => none

/-- One step of a call of `Read`. -/
def readStep (s : State β) (id : ℕ) : Option (State β) :=
  match s.readers id with
  | none => none
  | some .loading =>
    match s.reader with
    | some p => some (s.setReader id (.reading p))
    | none => some (s.setReader id .waiting)
  | some .waiting => if s.signal then some (s.setReader id .reloading) else none
  | some .reloading =>
    match s.reader with
    | some p => some (s.setReader id (.reading p))
    | none => some (s.setReader id (.returned true))
  | some (.reading _) => some (s.setReader id (.returned false))
  | some (.returned _) => none

/-- One step.  `Set` is called once. -/
def step (s : State β) : Event β → Option (State β)
  | .set rc =>
    match s.set with
    | .idle => some { s with set := .storing rc }
    | _ => none
  | .close id =>
    match s.closers id with
    | none => some (s.setCloser id .signaling)
    | some _ => none
  | .read id =>
    match s.readers id with
    | none => some (s.setReader id .loading)
    | some _ => none
  | .runSet => setStep s
  | .runClose id => closeStep s id
  | .runRead id => readStep s id

/-! ### Where the body is -/

/-- The body that `Set` has stored. -/
@[grind] def SetPhase.stored? : SetPhase β → Option β
  | .idle => none
  | .storing _ => none
  | .checking rc => some rc
  | .swapping rc => some rc
  | .closing rc _ => some rc
  | .signaling rc => some rc
  | .returned rc => some rc

/-- A call of `Close` has given the signal. -/
@[grind] def ClosePhase.begun : ClosePhase β → Bool
  | .signaling => false
  | _ => true

/-- A call of `Close` has taken what there was. -/
@[grind] def ClosePhase.taken : ClosePhase β → Bool
  | .closing _ => true
  | .returned => true
  | _ => false

/-- Some call of `Close` has given the signal. -/
@[grind] def State.Begun (s : State β) : Prop :=
  ∃ id phase, s.closers id = some phase ∧ phase.begun

/-- No call of `Close` stands between taking the body and closing it. -/
@[grind] def State.HandsEmpty (s : State β) : Prop :=
  ∀ id p, s.closers id ≠ some (.closing p)

/-- The body is in one place. -/
structure Located (s : State β) : Prop where
  /-- It is behind the pointer, in the hands of `Set` or of a call of `Close`, or closed. -/
  stored : ∀ rc, s.set.stored? = some rc →
    s.reader = some rc ∨ s.set = .closing rc rc ∨ (∃ id, s.closers id = some (.closing rc)) ∨
      s.closes = [rc]
  closed : s.closes = [] ∨ ∃ rc, s.set.stored? = some rc ∧ s.closes = [rc] ∧ s.reader = none
  pointer : ∀ p, s.reader = some p →
    s.set.stored? = some p ∧ s.HandsEmpty ∧ ∀ rc p, s.set ≠ .closing rc p
  setter : ∀ rc p, s.set = .closing rc p →
    p = rc ∧ s.reader = none ∧ s.closes = [] ∧ s.HandsEmpty
  closer : ∀ id p, s.closers id = some (.closing p) →
    s.set.stored? = some p ∧ s.reader = none ∧ s.closes = [] ∧
      ∀ id' p', s.closers id' = some (.closing p') → id' = id

/-- What holds in every state: the signal tells who was there. -/
structure Inv (s : State β) : Prop where
  located : Located s
  signal_close : ∀ id phase, s.closers id = some phase → phase.begun → s.signal
  signal_swap : ∀ rc, s.set = .swapping rc → s.signal
  signal_set : ∀ rc, s.set = .returned rc → s.signal
  /-- A body that came after a call of `Close` is still to be taken by `Set`. -/
  late : ∀ id phase rc, s.closers id = some phase → phase.taken → s.reader = some rc →
    s.set = .checking rc ∨ s.set = .swapping rc
  /-- Without a call of `Close` the body stays behind the pointer. -/
  quiet : ¬s.Begun → s.reader = s.set.stored? ∧ (s.signal → ∃ rc, s.set = .returned rc)
  reloading : ∀ id, s.readers id = some .reloading → s.signal
  errors : ∀ id, s.readers id = some (.returned true) → s.Begun

variable {s s' : State β} {e : Event β}

theorem inv_init : Inv ({} : State β) := by
  refine ⟨?_, ?_, ?_, ?_, ?_, ?_, ?_, ?_⟩
  · constructor <;> simp [SetPhase.stored?]
  all_goals simp [SetPhase.stored?, State.Begun]

/-- A step of `Set`: what it stores was nowhere, and what it takes is nowhere else. -/
theorem located_setStep (hs : Located s) (h : setStep s = some s') : Located s' := by
  obtain ⟨hstored, hclosed, hpointer, hsetter, hcloser⟩ := hs
  unfold setStep at h
  split at h
  · cases h
  · cases h
    constructor <;> grind
  · split at h
    all_goals
      cases h
      constructor <;> grind
  · split at h
    all_goals
      cases h
      constructor <;> grind
  · cases h
    constructor <;> grind
  · cases h
    constructor <;> grind
  · cases h

/-- A step of `Set` keeps the calls of `Close` and `Read`, and the signal once it is given. -/
theorem Inv.of_set (hs : Inv s) (hlocated : Located s') (hclosers : s'.closers = s.closers)
    (hreaders : s'.readers = s.readers) (hsignal : s.signal → s'.signal)
    (hswap : ∀ rc, s'.set = .swapping rc → s'.signal)
    (hset : ∀ rc, s'.set = .returned rc → s'.signal)
    (hlate : ∀ id phase rc, s.closers id = some phase → phase.taken → s'.reader = some rc →
      s'.set = .checking rc ∨ s'.set = .swapping rc)
    (hquiet : ¬s.Begun → s'.reader = s'.set.stored? ∧
      (s'.signal → ∃ rc, s'.set = .returned rc)) : Inv s' := by
  have hbegun : s'.Begun ↔ s.Begun := by rw [State.Begun, State.Begun, hclosers]
  refine ⟨hlocated, ?_, hswap, hset, ?_, ?_, ?_, ?_⟩
  · rw [hclosers]
    exact fun id phase h hphase => hsignal (hs.signal_close id phase h hphase)
  · rwa [hclosers]
  · rwa [hbegun]
  · rw [hreaders]
    exact fun id h => hsignal (hs.reloading id h)
  · rw [hreaders, hbegun]
    exact hs.errors

theorem inv_setStep (hs : Inv s) (h : setStep s = some s') : Inv s' := by
  have hlocated := located_setStep hs.located h
  have hlate := hs.late
  have hquiet := hs.quiet
  unfold setStep at h
  split at h
  · cases h
  · cases h
    refine hs.of_set hlocated rfl rfl (fun h => h) ?_ ?_ ?_ ?_ <;> grind
  · rename_i hphase
    split at h
    · rename_i hsignal
      cases h
      refine hs.of_set hlocated rfl rfl (fun h => h) (fun _ _ => hsignal) ?_ ?_ ?_ <;> grind
    · -- Without the signal there was no call of `Close` for which the body could be late.
      rename_i hsignal
      cases h
      have hnone : ∀ id phase, s.closers id = some phase → phase.taken = false := by
        have hclose := hs.signal_close
        grind
      refine hs.of_set hlocated rfl rfl (fun h => h) ?_ ?_ ?_ ?_ <;> grind
  · rename_i rc hphase
    have hsignal := hs.signal_swap rc hphase
    split at h
    all_goals
      cases h
      refine hs.of_set hlocated rfl rfl (fun h => h) (fun _ _ => hsignal) ?_ ?_ ?_ <;> grind
  · rename_i rc p hphase
    have hsetter := hs.located.setter rc p hphase
    cases h
    refine hs.of_set hlocated rfl rfl (fun h => h) ?_ ?_ ?_ ?_ <;> grind
  · cases h
    refine hs.of_set hlocated rfl rfl (fun _ => rfl) (fun _ _ => rfl) (fun _ _ => rfl) ?_ ?_ <;>
      grind
  · cases h

variable {id : ℕ}

theorem Located.setCloser (hs : Located s) {phase : ClosePhase β}
    (hbefore : ∀ p, s.closers id ≠ some (.closing p)) (hafter : ∀ p, phase ≠ .closing p)
    (signal : Bool) : Located ({ s with signal := signal }.setCloser id phase) := by
  have hclosing : ∀ id' p, Function.update s.closers id (some phase) id' = some (.closing p) ↔
      s.closers id' = some (.closing p) := by
    grind [update_apply]
  obtain ⟨hstored, hclosed, hpointer, hsetter, hcloser⟩ := hs
  constructor
  all_goals simp only [State.setCloser, State.HandsEmpty, ne_eq, hclosing]
  all_goals assumption

theorem located_closeStep (hs : Located s) (h : closeStep s id = some s') : Located s' := by
  unfold closeStep State.setCloser at h
  split at h
  · cases h
  · rename_i hphase
    cases h
    exact hs.setCloser (by simp [hphase]) (by simp) true
  · rename_i hphase
    split at h
    · -- The body goes from the pointer into the hands of this call.
      rename_i p hreader
      cases h
      obtain ⟨hstored, hclosed, hpointer, hsetter, hcloser⟩ := hs
      have hself : Function.update s.closers id (some (.closing p)) id = some (.closing p) :=
        update_self _ _ _
      constructor <;> grind [update_apply]
    · cases h
      exact hs.setCloser (by simp [hphase]) (by simp) s.signal
  · rename_i p hphase
    cases h
    obtain ⟨hstored, hclosed, hpointer, hsetter, hcloser⟩ := hs
    constructor <;> grind [update_apply]
  · cases h

/-- Once a call of `Close` has given the signal, only two things are left to be kept. -/
theorem Inv.of_begun (hlocated : Located s) (hsignal : s.signal) (hbegun : s.Begun)
    (hlate : ∀ id phase rc, s.closers id = some phase → phase.taken → s.reader = some rc →
      s.set = .checking rc ∨ s.set = .swapping rc) : Inv s where
  located := hlocated
  signal_close := fun _ _ _ _ => hsignal
  signal_swap := fun _ _ => hsignal
  signal_set := fun _ _ => hsignal
  late := hlate
  quiet := fun h => absurd hbegun h
  reloading := fun _ _ => hsignal
  errors := fun _ _ => hbegun

theorem State.begun_setCloser {phase : ClosePhase β} (h : phase.begun) :
    (s.setCloser id phase).Begun :=
  ⟨id, phase, update_self _ _ _, h⟩

theorem inv_closeStep (hs : Inv s) (h : closeStep s id = some s') : Inv s' := by
  have hlocated := located_closeStep hs.located h
  unfold closeStep at h
  split at h
  · cases h
  · rename_i hphase
    cases h
    refine .of_begun hlocated rfl (State.begun_setCloser rfl) ?_
    have hlate := hs.late
    simp only [State.setCloser]
    grind [update_apply]
  · rename_i hphase
    have hsignal := hs.signal_close id _ hphase rfl
    -- After the swap the pointer is empty, so there is nothing to be late for.
    split at h
    · cases h
      exact .of_begun hlocated hsignal (State.begun_setCloser rfl) nofun
    · rename_i hnone
      cases h
      refine .of_begun hlocated hsignal (State.begun_setCloser rfl) fun _ _ rc _ _ hreader => ?_
      cases hnone.symm.trans hreader
  · rename_i p hphase
    cases h
    -- This call was late already when it had the body in its hands.
    refine .of_begun hlocated (hs.signal_close id _ hphase rfl) (State.begun_setCloser rfl) ?_
    have hlate := hs.late
    have hself := hs.late id (.closing p)
    simp only [State.setCloser]
    grind [update_apply]
  · cases h

theorem Inv.setReader (hs : Inv s) {phase : ReadPhase β}
    (hreloading : phase = .reloading → s.signal)
    (herrors : phase = .returned true → s.Begun) : Inv (s.setReader id phase) where
  located := ⟨hs.located.stored, hs.located.closed, hs.located.pointer, hs.located.setter,
    hs.located.closer⟩
  signal_close := hs.signal_close
  signal_swap := hs.signal_swap
  signal_set := hs.signal_set
  late := hs.late
  quiet := hs.quiet
  reloading := by
    have hbefore := hs.reloading
    simp only [State.setReader]
    grind [update_apply]
  errors := by
    have hbefore := hs.errors
    simp only [State.setReader]
    grind [update_apply]

/-- After the signal an empty pointer means that a call of `Close` was there: without one the signal
is that of `Set`, and what `Set` has stored is still behind the pointer. -/
theorem Inv.begun_of_empty (hs : Inv s) (hsignal : s.signal) (hreader : s.reader = none) :
    s.Begun := by
  by_contra hquiet
  obtain ⟨hstored, hreturned⟩ := hs.quiet hquiet
  obtain ⟨rc, hset⟩ := hreturned hsignal
  rw [hreader, hset] at hstored
  cases hstored

theorem inv_readStep (hs : Inv s) (h : readStep s id = some s') : Inv s' := by
  unfold readStep at h
  split at h
  · cases h
  · split at h
    · cases h
      exact hs.setReader nofun nofun
    · cases h
      exact hs.setReader nofun nofun
  · split at h
    · rename_i hsignal
      cases h
      exact hs.setReader (fun _ => hsignal) nofun
    · cases h
  · rename_i hphase
    split at h
    · cases h
      exact hs.setReader nofun nofun
    · rename_i hreader
      cases h
      exact hs.setReader nofun fun _ =>
        hs.begun_of_empty (hs.reloading id hphase) hreader
  · cases h
    exact hs.setReader nofun nofun
  · cases h

theorem Inv.startSet (hs : Inv s) (hidle : s.set = .idle) (rc : β) :
    Inv { s with set := .storing rc } := by
  obtain ⟨⟨hstored, hclosed, hpointer, hsetter, hcloser⟩, hclose, hswap, hset, hlate, hquiet,
    hreload, herrors⟩ := hs
  refine ⟨?_, ?_, ?_, ?_, ?_, ?_, ?_, ?_⟩
  · constructor <;> grind
  all_goals grind

theorem Inv.startClose (hs : Inv s) (hnew : s.closers id = none) :
    Inv (s.setCloser id .signaling) := by
  have hclosers : ∀ id' phase, (s.setCloser id .signaling).closers id' = some phase →
      phase.begun → s.closers id' = some phase := by
    simp only [State.setCloser]
    grind [update_apply]
  have hbegun : s.Begun → (s.setCloser id .signaling).Begun := by
    rintro ⟨id', phase, h, hphase⟩
    refine ⟨id', phase, (update_of_ne ?_ _ _).trans h, hphase⟩
    rintro rfl
    cases hnew.symm.trans h
  exact
    { located := hs.located.setCloser (fun _ h => by cases hnew.symm.trans h)
        (fun _ h => by cases h) s.signal
      signal_close := fun id' phase h hphase =>
        hs.signal_close id' phase (hclosers id' phase h hphase) hphase
      signal_swap := hs.signal_swap
      signal_set := hs.signal_set
      late := fun id' phase rc h htaken => hs.late id' phase rc
        (hclosers id' phase h (by cases phase <;> first | rfl | cases htaken)) htaken
      quiet := fun hquiet => hs.quiet (mt hbegun hquiet)
      reloading := hs.reloading
      errors := fun id' h => hbegun (hs.errors id' h) }

/-- **Every step keeps the body in one place.** -/
theorem inv_step (hs : Inv s) (h : step s e = some s') : Inv s' := by
  cases e with
  | set rc =>
    simp only [step] at h
    split at h
    · rename_i hidle
      cases h
      exact hs.startSet hidle rc
    · cases h
  | close id =>
    simp only [step] at h
    split at h
    · rename_i hnew
      cases h
      exact hs.startClose hnew
    · cases h
  | read id =>
    simp only [step] at h
    split at h
    · cases h
      exact hs.setReader nofun nofun
    · cases h
  | runSet => exact inv_setStep hs h
  | runClose id => exact inv_closeStep hs h
  | runRead id => exact inv_readStep hs h

/-- **In every run the body is in one place.** -/
theorem inv_run {es : List (Event β)} (h : Schedule.run step {} es = some s) : Inv s :=
  Schedule.run_invariant_always (fun _ _ _ hstep hs => inv_step hs hstep) h inv_init

/-! ### Who closes it -/

/-- When `Set` and a call of `Close` are over, the body is closed or in the hands of another call:
had it stayed behind the pointer, then it came too late for `Close`, and `Set` would still have to
take it. -/
theorem Inv.closes_of_returned (hs : Inv s) {rc : β} (hset : s.set = .returned rc)
    (hcloser : s.closers id = some .returned) (hhands : s.HandsEmpty) : s.closes = [rc] := by
  have hstored : s.set.stored? = some rc := by rw [hset]; rfl
  rcases hs.located.stored rc hstored with hreader | hclosing | ⟨id', hclosing⟩ | hclosed
  · rcases hs.late id .returned rc hcloser rfl hreader with h | h
    · cases hset.symm.trans h
    · cases hset.symm.trans h
  · cases hset.symm.trans hclosing
  · exact absurd hclosing (hhands id' rc)
  · exact hclosed

/-- `Set` is over, or some call of `Close`. -/
def State.Released (s : State β) : Prop :=
  (∃ rc, s.set = .returned rc) ∨ ∃ id, s.closers id = some .returned

theorem Inv.signal_of_released (hs : Inv s) (h : s.Released) : s.signal := by
  rcases h with ⟨rc, hset⟩ | ⟨id, hcloser⟩
  · exact hs.signal_set rc hset
  · exact hs.signal_close id .returned hcloser rfl

theorem step_of_waiting (hsignal : s.signal) (h : s.readers id = some .waiting) :
    step s (.runRead id) = some (s.setReader id .reloading) := by
  simp only [step, readStep, h, hsignal, if_true]

/-- The body is closed once when `Set` and a call of `Close` are over. -/
def ClosedOnceCompleted (s : State β) : Prop :=
  ∀ rc id, s.set = .returned rc → s.closers id = some .returned → s.closes = [rc]

/-- **Who closes the body, and who waits**: at most one call closes it; once `Set` and a call of
`Close` are over and no other call has it in its hands, one has; `io.ErrClosedPipe` needs a call of
`Close`; and no call of `Read` waits on when `Set` or a call of `Close` is over. -/
theorem body_closed_once {es : List (Event β)} (h : Schedule.run step {} es = some s) :
    (s.closes = [] ∨ ∃ rc, s.set.stored? = some rc ∧ s.closes = [rc]) ∧
      (s.HandsEmpty → ClosedOnceCompleted s) ∧
      (∀ id, s.readers id = some (.returned true) → s.Begun) ∧
      (s.Released → ∀ id, s.readers id = some .waiting →
        ∃ s', step s (.runRead id) = some s' ∧ s'.readers id = some .reloading) := by
  have hs := inv_run h
  refine ⟨?_, fun hhands rc id hset hcloser => ?_, hs.errors, fun hreleased id hid => ?_⟩
  · exact hs.located.closed.imp_right fun ⟨rc, hset, hcloses, _⟩ => ⟨rc, hset, hcloses⟩
  · exact hs.closes_of_returned hset hcloser hhands
  · exact ⟨_, step_of_waiting (hs.signal_of_released hreleased) hid, update_self _ _ _⟩

/-- A call of `Close` comes before the body: `Set` finds the signal and closes the body itself. -/
def lateBody : List (Event ℕ) :=
  [.set 7, .close 1, .runClose 1, .runClose 1, .runSet, .runSet, .runSet, .runSet, .runSet]

theorem lateBody_closed_once : ∃ s, Schedule.run step {} lateBody = some s ∧ s.closes = [7] ∧
    (s.HandsEmpty → ClosedOnceCompleted s) :=
  ⟨_, rfl, rfl, (@body_closed_once ℕ _ lateBody rfl).2.1⟩

/-- Two calls of `Close` meet the body: the first has taken it and has not closed it yet, the second
finds nothing. -/
def takenBody : List (Event ℕ) :=
  [.set 7, .close 1, .close 2, .runSet, .runClose 1, .runClose 1, .runClose 2, .runClose 2,
    .runSet, .runSet, .runSet]

/-- **The second call and `Set` are over, and the body is still open.** -/
theorem taken_not_closed :
    ∃ s, Schedule.run step {} takenBody = some s ∧ ¬ClosedOnceCompleted s := by
  refine ⟨_, rfl, fun h => ?_⟩
  cases h 7 2 rfl rfl

end SingBox.WaitReadCloser
