/-
**The connection pool leaks nothing** (`dns/transport/conn_pool.go`).

Each connection has a place: the hands of a goroutine that has still to close it or to hand it over,
the state that the pool has now, or the list of those that were closed.  Only the states that the
pool has had before, which a `Reset` or a `Close` is closing, could be disturbed by others.  No step
touches them, since every critical section looks at the state in use first.

* `ConnPool.sound_of_threadStep` — **no step loses a connection**;
* `ConnPool.inv_of_reaches` — what holds in every state;
* `ConnPool.connPool_leaks_nothing` — **every connection is accounted for**, and closed in
  the end.
-/

import SingBox.ConnPool
import SingBox.Schedule

namespace SingBox.ConnPool

open List Function Schedule Option

/-! ### Accounts -/

section

variable {T : Type}

/-- The connections that a goroutine has to close or to hand over. -/
def Phase.Hands (pool : Pool T) : Phase T → T → Prop
  | .closeIdle conn, x => x = conn
  | .installing _ conn, x => x = conn
  | .discard conn _, x => x = conn
  | .closeShared conn, x => x = conn
  | .connectDiscard _ conn _, x => x = conn
  | .connectInstalling _ (.ok conn), x => x = conn
  | .connectClose conn _, x => x = conn
  | .close conn _, x => x = conn
  | .cancelState gen, x => x ∈ (pool.states gen).all
  | .closeState gen done, x => x ∈ (pool.states gen).all ∧ x ∉ done
  | _, _ => False

/-- The state that a goroutine closes. -/
def Phase.Closes (gen : ℕ) : Phase T → Prop
  | .cancelState gen' => gen' = gen
  | .closeState gen' _ => gen' = gen
  | _ => False

/-- The goroutine is at its end. -/
def Phase.Finished : Phase T → Prop
  | .connected _ => True
  | .returned _ => True
  | _ => False

/-- What holds of the pool by itself. -/
structure Pool.Valid (pool : Pool T) : Prop where
  closed_iff : pool.closed ↔ pool.current = none
  current_lt : ∀ gen, pool.current = some gen → gen < pool.next

/-- A state that the pool has had and has no longer. -/
def Pool.Retired (pool : Pool T) (gen : ℕ) : Prop := gen < pool.next ∧ pool.current ≠ some gen

/-- A connection is in the hands of the goroutine, tracked, or closed. -/
def Located (pool : Pool T) (phase : Phase T) (conn : T) : Prop :=
  phase.Hands pool conn ∨ pool.Tracked conn ∨ pool.IsClosed conn

/-- What a step of a goroutine may do. -/
structure Sound (pool : Pool T) (phase : Phase T) (move : Move T) : Prop where
  /-- Connections are dialled into the hands of the goroutine. -/
  dialed : ∀ conn ∈ move.pool.dialed, conn ∈ pool.dialed ∨ move.phase.Hands move.pool conn
  /-- No connection is lost. -/
  located : ∀ conn, Located pool phase conn → Located move.pool move.phase conn
  /-- States that are no longer in use stay as they are, and do not come back. -/
  all_eq : ∀ gen, pool.Retired gen → (move.pool.states gen).all = (pool.states gen).all
  retired : ∀ gen, pool.Retired gen → move.pool.Retired gen
  /-- The goroutine closes a state that is no longer in use. -/
  closes : ∀ gen, move.phase.Closes gen → phase.Closes gen ∨ move.pool.Retired gen
  valid : move.pool.Valid
  /-- A closed pool stays closed. -/
  closed : pool.closed → move.pool.closed
  /-- No connection becomes idle twice. -/
  idle : ∀ gen, (pool.states gen).idle.Nodup → (move.pool.states gen).idle.Nodup
  /-- A goroutine that was started does not close a state. -/
  started : ∀ id phase', move.started = some (id, phase') → ∀ gen, ¬phase'.Closes gen

end

/-! ### No step loses a connection -/

section

variable {T : Type} {o : Options} {pool : Pool T} {phase phase' : Phase T}

theorem Pool.releaseSlot_eq :
    pool.releaseSlot o =
      { pool with slots := if o.limited then pool.slots - 1 else pool.slots } := by
  rw [releaseSlot]
  split <;> rfl

theorem PoolState.mem_removeConn [DecidableEq T] {mode : Mode} {state : PoolState T} {conn x : T} :
    x ∈ (state.removeConn mode conn).all ↔ x ∈ state.all ∧ x ≠ conn := by
  have hall : (state.removeConn mode conn).all = state.all.filter (· ≠ conn) := by
    unfold removeConn
    cases mode with
    | single =>
      dsimp only
      split <;> rfl
    | ordered => rfl
  rw [hall, mem_filter, decide_eq_true_iff]

theorem PoolState.nodup_removeConn [DecidableEq T] {mode : Mode} {state : PoolState T} {conn : T}
    (h : state.idle.Nodup) : (state.removeConn mode conn).idle.Nodup := by
  unfold removeConn
  cases mode with
  | single =>
    dsimp only
    split <;> exact h
  | ordered => exact h.filter _

variable (hvalid : pool.Valid)

include hvalid

variable (slots : ℕ)

theorem sound_same
    (hhands : ∀ conn, phase.Hands pool conn → phase'.Hands { pool with slots := slots } conn)
    (hcloses : ∀ gen, phase'.Closes gen → phase.Closes gen) :
    Sound pool phase ⟨{ pool with slots := slots }, phase', none⟩ where
  dialed := fun conn h => .inl h
  located := by
    rintro conn (h | h | h)
    · exact .inl (hhands conn h)
    · exact .inr (.inl h)
    · exact .inr (.inr h)
  all_eq := fun gen _ => rfl
  retired := fun gen h => h
  closes := fun gen h => .inl (hcloses gen h)
  valid := ⟨hvalid.closed_iff, hvalid.current_lt⟩
  closed := fun h => h
  idle := fun gen h => h
  started := nofun

/-- The phases have the same in their hands and close the same. -/
theorem sound_stay (hhands : phase'.Hands pool = phase.Hands pool)
    (hcloses : (phase'.Closes ·) = (phase.Closes ·)) : Sound pool phase ⟨pool, phase', none⟩ :=
  sound_same hvalid pool.slots (fun _ h => hhands ▸ h) fun gen h => congrFun hcloses gen ▸ h

variable {f : PoolState T → PoolState T}

theorem sound_modify {gen : ℕ} {started : Option (ℕ × Phase T)}
    (hgen : pool.current = some gen ∨ (f (pool.states gen)).all = (pool.states gen).all)
    (hall : ∀ conn ∈ (pool.states gen).all, conn ∈ (f (pool.states gen)).all ∨
      phase'.Hands { pool.modify gen f with slots := slots } conn)
    (hhands : ∀ conn, phase.Hands pool conn →
      phase'.Hands { pool.modify gen f with slots := slots } conn ∨
        pool.current = some gen ∧ conn ∈ (f (pool.states gen)).all)
    (hidle : (pool.states gen).idle.Nodup → (f (pool.states gen)).idle.Nodup)
    (hcloses : ∀ gen', phase'.Closes gen' → phase.Closes gen')
    (hstarted : ∀ id phase'', started = some (id, phase'') → ∀ gen, ¬phase''.Closes gen) :
    Sound pool phase ⟨{ pool.modify gen f with slots := slots }, phase', started⟩ where
  dialed := fun conn h => .inl h
  located := by
    -- What is in the changed state afterwards is tracked, if that state is in use.
    have htracked : ∀ {conn : T}, pool.current = some gen → conn ∈ (f (pool.states gen)).all →
        Pool.Tracked { pool.modify gen f with slots := slots } conn := by
      intro conn hcur hmem
      refine ⟨gen, hcur, ?_⟩
      simpa only [Pool.modify, update_self] using hmem
    rintro conn (h | ⟨gen', hcur, hmem⟩ | h)
    · rcases hhands conn h with h | ⟨hcur, hmem⟩
      · exact .inl h
      · exact .inr (.inl (htracked hcur hmem))
    · by_cases heq : gen' = gen
      · subst heq
        rcases hall conn hmem with h | h
        · exact .inr (.inl (htracked hcur h))
        · exact .inl h
      · refine .inr (.inl ⟨gen', hcur, ?_⟩)
        simpa only [Pool.modify, update_of_ne heq] using hmem
    · exact .inr (.inr h)
  all_eq := by
    intro gen' hretired
    simp only [Pool.modify, update_apply]
    split
    · rename_i heq
      subst heq
      exact hgen.resolve_left hretired.2
    · rfl
  retired := fun gen h => h
  closes := fun gen h => .inl (hcloses gen h)
  valid := ⟨hvalid.closed_iff, hvalid.current_lt⟩
  closed := fun h => h
  idle := by
    intro gen' hnodup
    simp only [Pool.modify, update_apply]
    split
    · exact hidle (‹gen' = gen› ▸ hnodup)
    · exact hnodup
  started := hstarted

variable {conn : T}

theorem sound_close {cause : GoError}
    (hhands : ∀ x, phase.Hands pool x →
      x = conn ∨ phase'.Hands { pool.close conn cause with slots := slots } x)
    (hcloses : ∀ gen, phase'.Closes gen → phase.Closes gen) :
    Sound pool phase ⟨{ pool.close conn cause with slots := slots }, phase', none⟩ where
  dialed := fun conn h => .inl h
  located := by
    rintro x (h | h | ⟨cause', h⟩)
    · rcases hhands x h with rfl | h
      · exact .inr (.inr ⟨cause, mem_cons_self⟩)
      · exact .inl h
    · exact .inr (.inl h)
    · exact .inr (.inr ⟨cause', mem_cons_of_mem _ h⟩)
  all_eq := fun gen _ => rfl
  retired := fun gen h => h
  closes := fun gen h => .inl (hcloses gen h)
  valid := ⟨hvalid.closed_iff, hvalid.current_lt⟩
  closed := fun h => h
  idle := fun gen h => h
  started := nofun

theorem sound_dialed (hnone : ∀ x, ¬phase.Hands pool x)
    (hhands : ∀ pool', phase'.Hands pool' conn) (hcloses : ∀ gen, ¬phase'.Closes gen) :
    Sound pool phase ⟨{ pool with dialed := conn :: pool.dialed }, phase', none⟩ where
  dialed := by
    intro x hx
    rcases List.mem_cons.1 hx with rfl | hx
    · exact .inr (hhands _)
    · exact .inl hx
  located := by
    rintro x (h | h | h)
    · exact absurd h (hnone x)
    · exact .inr (.inl h)
    · exact .inr (.inr h)
  all_eq := fun gen _ => rfl
  retired := fun gen h => h
  closes := fun gen h => absurd h (hcloses gen)
  valid := ⟨hvalid.closed_iff, hvalid.current_lt⟩
  closed := fun h => h
  idle := fun gen h => h
  started := nofun

/-- The connections of the changed state stay. -/
theorem sound_keep {gen : ℕ} {started : Option (ℕ × Phase T)}
    (hf : (f (pool.states gen)).all = (pool.states gen).all)
    (hidle : (pool.states gen).idle.Nodup → (f (pool.states gen)).idle.Nodup)
    (hhands : phase'.Hands (pool.modify gen f) = phase.Hands pool)
    (hcloses : (phase'.Closes ·) = (phase.Closes ·))
    (hstarted : ∀ id phase'', started = some (id, phase'') → ∀ gen, ¬phase''.Closes gen) :
    Sound pool phase ⟨pool.modify gen f, phase', started⟩ := by
  refine sound_modify hvalid pool.slots (.inr hf) (fun x hx => .inl ?_)
    (fun x hx => .inl (hhands ▸ hx)) hidle (fun gen h => congrFun hcloses gen ▸ h) hstarted
  rw [hf]
  exact hx

variable {gen : ℕ}

theorem sound_install (hgen : pool.current = some gen)
    (hf : (f (pool.states gen)).all = conn :: (pool.states gen).all)
    (hidle : (f (pool.states gen)).idle = (pool.states gen).idle)
    (hhands : ∀ x, phase.Hands pool x → x = conn) (hcloses : ∀ gen', ¬phase'.Closes gen') :
    Sound pool phase ⟨{ pool.modify gen f with slots := slots }, phase', none⟩ := by
  refine sound_modify hvalid slots (.inl hgen) (fun x hx => .inl ?_)
    (fun x hx => .inr ⟨hgen, ?_⟩) (hidle ▸ id) (fun gen' h => absurd h (hcloses gen')) nofun
  · rw [hf]
    exact mem_cons_of_mem _ hx
  · rw [hf, hhands x hx]
    exact mem_cons_self

theorem sound_installLock : Sound pool (.installing gen conn) (installLock o pool gen conn) := by
  rw [installLock]
  split
  · exact sound_stay hvalid rfl rfl
  split
  · exact sound_stay hvalid rfl rfl
  · rename_i hgen
    rw [not_not] at hgen
    rw [Pool.releaseSlot_eq]
    exact sound_install hvalid _ hgen rfl rfl (fun _ h => h) fun _ h => h

theorem sound_connectLock {result : Except GoError T} :
    Sound pool (.connectInstalling gen result) (connectLock pool gen result) := by
  unfold connectLock
  cases result with
  | error err => exact sound_keep hvalid rfl id rfl rfl nofun
  | ok conn =>
    dsimp only
    split
    · exact sound_keep hvalid rfl id rfl rfl nofun
    split
    · exact sound_keep hvalid rfl id rfl rfl nofun
    · rename_i hgen
      rw [not_not] at hgen
      exact sound_install (f := fun state =>
          { state with connecting := none, shared := some conn, all := conn :: state.all })
        hvalid pool.slots hgen rfl rfl (fun _ h => h) fun _ h => h

theorem sound_resetLock (hgen : pool.current = some gen) :
    Sound pool .resetting (resetLock pool gen) where
  dialed := fun conn h => .inl h
  located := by
    have hne : gen ≠ pool.next := (hvalid.current_lt gen hgen).ne
    rintro conn (h | ⟨gen', hcur, hmem⟩ | h)
    · exact h.elim
    · rw [hgen, some.injEq] at hcur
      subst hcur
      refine .inl ?_
      change conn ∈ (Function.update pool.states pool.next {} gen).all
      rw [update_of_ne hne]
      exact hmem
    · exact .inr (.inr h)
  all_eq := by
    intro gen' hretired
    exact congrArg PoolState.all (update_of_ne hretired.1.ne _ _)
  retired := by
    rintro gen' ⟨hlt, -⟩
    refine ⟨Nat.lt_succ_of_lt hlt, fun h => ?_⟩
    rw [resetLock, some.injEq] at h
    exact hlt.ne h.symm
  closes := by
    rintro gen' rfl
    have hlt := hvalid.current_lt gen hgen
    refine .inr ⟨Nat.lt_succ_of_lt hlt, fun h => ?_⟩
    rw [resetLock, some.injEq] at h
    exact hlt.ne h.symm
  valid := by
    refine ⟨?_, fun gen' h => ?_⟩
    · have hopen : pool.closed ≠ true := by
        rw [Ne, hvalid.closed_iff, hgen]
        exact Option.some_ne_none gen
      exact iff_of_false hopen (Option.some_ne_none _)
    · rw [resetLock, some.injEq] at h
      rw [← h]
      exact Nat.lt_succ_self _
  closed := fun h => h
  idle := by
    intro gen' hnodup
    simp only [resetLock, update_apply]
    split
    · exact nodup_nil
    · exact hnodup
  started := nofun

theorem sound_closeLock (hgen : pool.current = some gen) :
    Sound pool .closing (closeLock pool gen) where
  dialed := fun conn h => .inl h
  located := by
    rintro conn (h | ⟨gen', hcur, hmem⟩ | h)
    · exact h.elim
    · rw [hgen, some.injEq] at hcur
      subst hcur
      exact .inl hmem
    · exact .inr (.inr h)
  all_eq := fun gen' _ => rfl
  retired := fun gen' h => ⟨h.1, nofun⟩
  closes := by
    rintro gen' rfl
    exact .inr ⟨hvalid.current_lt gen hgen, nofun⟩
  valid := ⟨iff_of_true rfl rfl, nofun⟩
  closed := fun _ => rfl
  idle := fun gen h => h
  started := nofun

variable {move : Move T}

theorem sound_of_open {err : Phase T} {lock : ℕ → Move T}
    (h : (if pool.closed then some ⟨pool, err, none⟩ else pool.current.map lock) = some move)
    (hhands : ∀ x, phase.Hands pool x → err.Hands pool x)
    (hcloses : ∀ gen, err.Closes gen → phase.Closes gen)
    (hlock : ∀ gen, pool.current = some gen → Sound pool phase (lock gen)) :
    Sound pool phase move := by
  split at h
  · cases h
    exact sound_same hvalid pool.slots hhands hcloses
  · obtain ⟨gen, hgen, rfl⟩ := Option.map_eq_some_iff.1 h
    exact hlock gen hgen

theorem sound_closeStep (h : closeStep o pool phase = some move) : Sound pool phase move := by
  cases phase with
  | closeIdle conn
  | closeShared conn | connectDiscard gen conn err | connectClose conn err | close conn cause =>
    cases h
    exact sound_close hvalid pool.slots (fun _ h => .inl h) fun _ h => h
  | discard conn err =>
    cases h
    rw [Pool.releaseSlot_eq]
    exact sound_close hvalid _ (fun _ h => .inl h) fun _ h => h
  | _ => cases h

theorem sound_dialFailedStep {err : GoError} {dialErr : Option GoError}
    (h : dialFailedStep o pool phase err dialErr = some move) :
    Sound pool phase move := by
  cases phase with
  | dialing gen =>
    cases h
    rw [Pool.releaseSlot_eq]
    exact sound_same hvalid _ (fun _ h => h) fun _ h => h
  | connectDialing gen =>
    cases h
    exact sound_stay hvalid rfl rfl
  | _ => cases h

variable [DecidableEq T] {alive reuse : Bool}

theorem sound_remove (hgen : pool.current = some gen)
    (hf : ∀ x, x ∈ (f (pool.states gen)).all ↔ x ∈ (pool.states gen).all ∧ x ≠ conn)
    (hidle : (pool.states gen).idle.Nodup → (f (pool.states gen)).idle.Nodup)
    (hnone : phase.Hands pool = fun _ => False) (hhands : ∀ pool', phase'.Hands pool' conn)
    (hcloses : (phase'.Closes ·) = fun _ => False) :
    Sound pool phase ⟨pool.modify gen f, phase', none⟩ := by
  refine sound_modify hvalid pool.slots (.inl hgen) (fun x hx => ?_)
    (fun x hx => (congrFun hnone x ▸ hx).elim) hidle
    (fun gen h => (congrFun hcloses gen ▸ h).elim) nofun
  by_cases heq : x = conn
  · rw [heq]
    exact .inr (hhands _)
  · exact .inl ((hf x).2 ⟨hx, heq⟩)

theorem sound_removeConn (hgen : pool.current = some gen)
    (hnone : phase.Hands pool = fun _ => False) (hhands : ∀ pool', phase'.Hands pool' conn)
    (hcloses : (phase'.Closes ·) = fun _ => False) :
    Sound pool phase ⟨pool.modify gen fun state => state.removeConn o.mode conn, phase', none⟩ :=
  sound_remove hvalid hgen (fun _ => PoolState.mem_removeConn) PoolState.nodup_removeConn hnone
    hhands hcloses

theorem sound_orderedLock (hgen : pool.current = some gen) :
    Sound pool .ordered (orderedLock pool gen alive) := by
  rw [orderedLock]
  split
  · exact sound_stay hvalid rfl rfl
  rename_i conn rest hidle
  have hrest : (pool.states gen).idle.Nodup → rest.Nodup := fun h => (hidle ▸ h).of_cons
  split
  · exact sound_keep hvalid rfl hrest rfl rfl nofun
  · refine sound_remove hvalid hgen (fun x => ?_) hrest rfl (fun _ => rfl) rfl
    rw [mem_filter, decide_eq_true_iff]

theorem sound_sharedLock {goroutine : ℕ} (hgen : pool.current = some gen) :
    Sound pool .shared (sharedLock o pool gen alive goroutine) := by
  rw [sharedLock]
  split
  · split
    · exact sound_keep hvalid rfl id rfl rfl nofun
    · exact sound_removeConn hvalid hgen rfl (fun _ => rfl) rfl
  · split
    · exact sound_stay hvalid rfl rfl
    · refine sound_keep hvalid rfl id rfl rfl fun id phase'' h => ?_
      cases h
      exact fun _ h => h

theorem sound_collectShared {connect : ℕ} {startDial : Bool} {err : Option GoError} :
    Sound pool (.waiting gen connect startDial) (collectShared o pool gen err startDial alive) := by
  unfold collectShared
  split
  · cases startDial with
    | true | false => exact sound_stay hvalid rfl rfl
  split
  · exact sound_stay hvalid rfl rfl
  split
  · exact sound_stay hvalid rfl rfl
  rename_i hgen
  rw [not_not] at hgen
  split
  · exact sound_stay hvalid rfl rfl
  split
  · exact sound_keep hvalid rfl id rfl rfl nofun
  · exact sound_removeConn hvalid hgen rfl (fun _ => rfl) rfl

theorem sound_releaseLock (hgen : pool.current = some gen) :
    Sound pool (.releasing conn reuse) (releaseLock o pool gen conn reuse alive) := by
  rw [releaseLock]
  split
  · exact sound_same hvalid pool.slots (fun _ h => h.elim) fun _ h => h
  split
  · exact sound_removeConn hvalid hgen rfl (fun _ => rfl) rfl
  split
  · refine sound_keep hvalid ?_ (fun h => ?_) rfl rfl nofun
    · split <;> rfl
    · split
      · exact h
      · rename_i hnew
        simpa [nodup_append, h] using fun x hx => ne_of_mem_of_not_mem hx hnew
  · exact sound_stay hvalid rfl rfl

theorem sound_invalidateLock {cause : GoError} (hgen : pool.current = some gen) :
    Sound pool (.invalidating conn cause) (invalidateLock o pool gen conn cause) := by
  rw [invalidateLock]
  split
  · exact sound_stay hvalid rfl rfl
  · exact sound_removeConn hvalid hgen rfl (fun _ => rfl) rfl

theorem sound_lockStep {goroutine : ℕ}
    (h : lockStep o pool phase alive goroutine = some move) : Sound pool phase move := by
  cases phase with
  | installing gen conn =>
    cases h
    exact sound_installLock hvalid
  | connectInstalling gen result =>
    cases h
    exact sound_connectLock hvalid
  | ordered =>
    exact sound_of_open hvalid h (fun _ h => h) (fun _ h => h) fun gen => sound_orderedLock hvalid
  | shared =>
    exact sound_of_open hvalid h (fun _ h => h) (fun _ h => h) fun gen => sound_sharedLock hvalid
  | releasing conn reuse =>
    exact sound_of_open hvalid h (fun _ h => h.elim) (fun _ h => h) fun gen =>
      sound_releaseLock hvalid
  | invalidating conn cause =>
    exact sound_of_open hvalid h (fun _ h => h.elim) (fun _ h => h) fun gen =>
      sound_invalidateLock hvalid
  | resetting =>
    exact sound_of_open hvalid h (fun _ h => h) (fun _ h => h) fun gen => sound_resetLock hvalid
  | closing =>
    exact sound_of_open hvalid h (fun _ h => h) (fun _ h => h) fun gen => sound_closeLock hvalid
  | _ => cases h

theorem sound_dialedStep {dialErr : Option GoError}
    (h : dialedStep pool phase conn dialErr = some move) :
    Sound pool phase move := by
  unfold dialedStep at h
  dsimp only at h
  split at h
  · cases h
  split at h <;> cases h
  all_goals exact sound_dialed hvalid (fun _ h => h) (fun _ => rfl) fun _ h => h

/-- **No step loses a connection.** -/
theorem sound_of_threadStep {connectErr : ℕ → Option (Option GoError)} {action : Action T}
    (h : threadStep o pool connectErr phase action = some move) : Sound pool phase move := by
  unfold threadStep at h
  cases action <;> dsimp only at h
  case lock alive goroutine => exact sound_lockStep hvalid h
  case close => exact sound_closeStep hvalid h
  case dialed conn dialErr => exact sound_dialedStep hvalid h
  case dialFailed err dialErr => exact sound_dialFailedStep hvalid h
  case slot =>
    split at h
    · split at h
      · cases h
        exact sound_stay hvalid rfl rfl
      split at h
      · cases h
        exact sound_same hvalid _ (fun _ h => h) fun _ h => h
      · cases h
    · cases h
  case noSlot err =>
    split at h
    · cases h
      exact sound_stay hvalid rfl rfl
    · cases h
  case collect alive =>
    split at h
    · obtain ⟨err, -, rfl⟩ := Option.map_eq_some_iff.1 h
      exact sound_collectShared hvalid
    · cases h
  case giveUp err =>
    split at h
    · cases h
      exact sound_stay hvalid rfl rfl
    · cases h
  case stateDone =>
    split at h
    · split at h
      · cases h
      split at h
      · cases h
        exact sound_stay hvalid rfl rfl
      · cases h
        exact sound_stay hvalid rfl rfl
    · cases h
  case cancel =>
    split at h
    · rename_i gen
      cases h
      refine sound_keep hvalid rfl id ?_ rfl nofun
      funext x
      simp [Phase.Hands, Pool.modify]
    · cases h
  case closeNext conn =>
    split at h
    · rename_i gen done
      split at h
      · cases h
        refine sound_close hvalid pool.slots (fun x hx => ?_) fun _ h => h
        by_cases heq : x = conn
        · exact .inl heq
        · refine .inr ⟨hx.1, fun hmem => ?_⟩
          rcases List.mem_cons.1 hmem with h | h
          · exact heq h
          · exact hx.2 h
      · cases h
    · cases h
  case finish =>
    split at h
    · split at h
      · rename_i hdone
        cases h
        exact sound_same hvalid pool.slots (fun x hx => hx.2 (hdone x hx.1)) fun _ h => h.elim
      · cases h
    · cases h

end

/-! ### Runs -/

variable {T : Type}

/-- A connection is in the hands of a goroutine, tracked by the state in use, or closed. -/
def Accounted (s : State T) (conn : T) : Prop :=
  (∃ id phase, s.threads id = some phase ∧ phase.Hands s.pool conn) ∨ s.pool.Tracked conn ∨
    s.pool.IsClosed conn

/-- What holds in every state. -/
structure Inv (s : State T) : Prop where
  valid : s.pool.Valid
  accounted : ∀ conn ∈ s.pool.dialed, Accounted s conn
  closes : ∀ id phase gen, s.threads id = some phase → phase.Closes gen → s.pool.Retired gen
  /-- No connection is idle twice. -/
  nodup : ∀ gen, (s.pool.states gen).idle.Nodup

variable {phase : Phase T}

theorem Phase.Hands.of_all_eq {pool pool' : Pool T} {conn : T} (h : phase.Hands pool conn)
    (hall : ∀ gen, phase.Closes gen → (pool'.states gen).all = (pool.states gen).all) :
    phase.Hands pool' conn := by
  cases phase with
  | cancelState gen =>
    change conn ∈ (pool'.states gen).all
    rw [hall gen rfl]
    exact h
  | closeState gen done =>
    change conn ∈ (pool'.states gen).all ∧ conn ∉ done
    rw [hall gen rfl]
    exact h
  | connectInstalling gen result =>
    cases result with
    | ok conn' => exact h
    | error err => exact h
  | _ => exact h

variable {id : ℕ} {s s' : State T}

theorem State.start_eq_some (h : s.start id phase = some s') :
    s.threads id = none ∧ s' = { s with threads := Function.update s.threads id (some phase) } := by
  rw [State.start] at h
  split at h
  · rename_i hnew
    cases h
    exact ⟨hnew, rfl⟩
  · cases h

theorem Inv.start (h : Inv s)
    (hstart : s.start id phase = some s') (hcloses : ∀ gen, ¬phase.Closes gen) : Inv s' := by
  obtain ⟨hnew, rfl⟩ := State.start_eq_some hstart
  refine ⟨h.valid, fun conn hconn => ?_, fun id' phase' gen hphase' hcloses' => ?_, h.nodup⟩
  · rcases h.accounted conn hconn with ⟨id', phase', hphase', hhands⟩ | h'
    · have hne : id' ≠ id := by
        rintro rfl
        rw [hnew] at hphase'
        cases hphase'
      exact .inl ⟨id', phase', (update_of_ne hne _ _).trans hphase', hhands⟩
    · exact .inr h'
  · dsimp only at hphase'
    by_cases heq : id' = id
    · rw [heq, update_self, some.injEq] at hphase'
      rw [← hphase'] at hcloses'
      exact absurd hcloses' (hcloses gen)
    · rw [update_of_ne heq] at hphase'
      exact h.closes id' phase' gen hphase' hcloses'

theorem Inv.move (h : Inv s) {move : Move T}
    (hphase : s.threads id = some phase) (hsound : Sound s.pool phase move) :
    Inv { pool := move.pool, threads := Function.update s.threads id (some move.phase) } := by
  refine ⟨hsound.valid, fun conn hconn => ?_, fun id' phase' gen hphase' hcloses' => ?_,
    fun gen => hsound.idle gen (h.nodup gen)⟩
  · -- What the goroutine had in its hands, or the pool, is located by the step.
    have hlocated : Located s.pool phase conn → Accounted
        { pool := move.pool, threads := Function.update s.threads id (some move.phase) } conn := by
      intro hbefore
      rcases hsound.located conn hbefore with h' | h'
      · exact .inl ⟨id, move.phase, update_self _ _ _, h'⟩
      · exact .inr h'
    rcases hsound.dialed conn hconn with hold | hnew
    · rcases h.accounted conn hold with ⟨id', phase', hphase', hhands⟩ | h'
      · by_cases heq : id' = id
        · rw [heq, hphase, some.injEq] at hphase'
          rw [← hphase'] at hhands
          exact hlocated (.inl hhands)
        · refine .inl ⟨id', phase', (update_of_ne heq _ _).trans hphase', ?_⟩
          exact hhands.of_all_eq fun gen hcloses =>
            hsound.all_eq gen (h.closes id' phase' gen hphase' hcloses)
      · exact hlocated (.inr h')
    · exact .inl ⟨id, move.phase, update_self _ _ _, hnew⟩
  · dsimp only at hphase'
    by_cases heq : id' = id
    · rw [heq, update_self, some.injEq] at hphase'
      rw [← hphase'] at hcloses'
      rcases hsound.closes gen hcloses' with hbefore | hretired
      · exact hsound.retired gen (h.closes id phase gen hphase hbefore)
      · exact hretired
    · rw [update_of_ne heq] at hphase'
      exact hsound.retired gen (h.closes id' phase' gen hphase' hcloses')

theorem Phase.Finished.not_hands (h : phase.Finished) (pool : Pool T) (conn : T) :
    ¬phase.Hands pool conn := by
  cases phase with
  | connected err | returned r => exact fun h => h
  | _ => exact h.elim

/-- Calls of `Close` are at their beginning, or the pool is closed. -/
def ClosingOrClosed (id : ℕ) (s : State T) : Prop :=
  s.threads id = some .closing ∨ s.pool.closed

theorem ClosingOrClosed.start {id id' : ℕ}
    (h : ClosingOrClosed id s) (hstart : s.start id' phase = some s') : ClosingOrClosed id s' := by
  obtain ⟨hnew, rfl⟩ := State.start_eq_some hstart
  rcases h with h | h
  · refine .inl ((update_of_ne ?_ _ _).trans h)
    rintro rfl
    rw [hnew] at h
    cases h
  · exact .inr h

variable [DecidableEq T] {o : Options} {s s' : State T} {e : Event T} {es : List (Event T)}

theorem step_run_eq_some {action : Action T} (h : step o s (.run id action) = some s') :
    ∃ phase move, s.threads id = some phase ∧
      threadStep o s.pool s.connectErr phase action = some move ∧
      (move.started = none ∧
          s' = { pool := move.pool, threads := Function.update s.threads id (some move.phase) } ∨
        ∃ goroutine phase', move.started = some (goroutine, phase') ∧
          State.start
            { pool := move.pool, threads := Function.update s.threads id (some move.phase) }
            goroutine phase' = some s') := by
  rw [step] at h
  split at h
  · cases h
  · rename_i phase hphase
    split at h
    · cases h
    · rename_i move hmove
      refine ⟨phase, move, hphase, hmove, ?_⟩
      dsimp only at h
      split at h
      · rename_i hstarted
        cases h
        exact .inl ⟨hstarted, rfl⟩
      · rename_i goroutine phase' hstarted
        exact .inr ⟨goroutine, phase', hstarted, h⟩

theorem inv_step (h : step o s e = some s') (hs : Inv s) : Inv s' := by
  cases e with
  | acquire id =>
    refine hs.start h fun gen hcloses => ?_
    cases hmode : o.mode <;> rw [hmode] at hcloses <;> exact hcloses
  | release id conn reuse | invalidate id conn cause | reset id | close id =>
    exact hs.start h fun gen hcloses => hcloses
  | run id action =>
    obtain ⟨phase, move, hphase, hmove, hs'⟩ := step_run_eq_some h
    have hsound := sound_of_threadStep hs.valid hmove
    have hmoved := hs.move hphase hsound
    rcases hs' with ⟨-, rfl⟩ | ⟨goroutine, phase', hstarted, hstart⟩
    · exact hmoved
    · exact hmoved.start hstart (hsound.started _ _ hstarted)

theorem inv_of_reaches (h : Schedule.run (step o) {} es = some s) : Inv s := by
  refine run_invariant_always (fun _ _ _ ht => inv_step ht) h ⟨?_, ?_, ?_, ?_⟩
  · refine ⟨iff_of_false Bool.false_ne_true (Option.some_ne_none 0), fun gen hgen => ?_⟩
    rw [← some.inj hgen]
    exact Nat.one_pos
  · nofun
  · nofun
  · exact fun _ => nodup_nil

/-! ### The end -/

theorem closed_of_closing {pool : Pool T}
    {connectErr : ℕ → Option (Option GoError)} {action : Action T} {move : Move T}
    (h : threadStep o pool connectErr .closing action = some move) : move.pool.closed := by
  cases action with
  | lock alive goroutine =>
    change (if pool.closed then some _ else _) = some move at h
    split at h
    · rename_i hclosed
      cases h
      exact hclosed
    · obtain ⟨gen, -, rfl⟩ := Option.map_eq_some_iff.1 h
      rfl
  | dialed conn dialErr =>
    change dialedStep pool .closing conn dialErr = some move at h
    unfold dialedStep at h
    dsimp only at h
    split at h <;> cases h
  | _ => cases h

theorem closingOrClosed_step (h : step o s e = some s') (hinv : Inv s)
    (hs : ClosingOrClosed id s) : ClosingOrClosed id s' := by
  cases e with
  | run id' action =>
    obtain ⟨phase, move, hphase, hmove, hs'⟩ := step_run_eq_some h
    have hmoved : ClosingOrClosed id
        { pool := move.pool, threads := Function.update s.threads id' (some move.phase) } := by
      rcases hs with hs | hs
      · by_cases heq : id = id'
        · rw [← heq, hs, some.injEq] at hphase
          rw [← hphase] at hmove
          exact .inr (closed_of_closing hmove)
        · exact .inl ((update_of_ne heq _ _).trans hs)
      · exact .inr ((sound_of_threadStep hinv.valid hmove).closed hs)
    rcases hs' with ⟨-, rfl⟩ | ⟨goroutine, phase', -, hstart⟩
    · exact hmoved
    · exact hmoved.start hstart
  | acquire id' | release id' conn reuse | invalidate id' conn cause | reset id' | close id' =>
    exact hs.start h

theorem closingOrClosed_of_mem (h : Schedule.run (step o) {} es = some s)
    (hmem : .close id ∈ es) : ClosingOrClosed id s := by
  obtain ⟨front, back, rfl⟩ := append_of_mem hmem
  obtain ⟨t, hfront, hback⟩ := run_append.1 h
  obtain ⟨u, hclose, hrest⟩ := run_cons_eq_some.1 hback
  have hinv := inv_step hclose (inv_of_reaches hfront)
  have hu : ClosingOrClosed id u := by
    obtain ⟨-, rfl⟩ := State.start_eq_some hclose
    exact .inl (update_self _ _ _)
  exact (run_invariant_always (I := fun s => Inv s ∧ ClosingOrClosed id s)
    (fun _ _ _ ht hI => ⟨inv_step ht hI.1, closingOrClosed_step ht hI.1 hI.2⟩) hrest ⟨hinv, hu⟩).2

/-- **The pool leaks nothing.**  In either mode, after any history, every connection that was
dialled is in the hands of a goroutine that has still to close it or to hand it over, tracked by the
state in use, or closed; and if `Close` has been called and all goroutines are at their ends, then
every connection that was dialled is closed. -/
theorem connPool_leaks_nothing (h : Schedule.run (step o) {} es = some s) :
    (∀ conn ∈ s.pool.dialed, Accounted s conn) ∧
      ((∃ id, .close id ∈ es) → (∀ id phase, s.threads id = some phase → phase.Finished) →
        ∀ conn ∈ s.pool.dialed, s.pool.IsClosed conn) := by
  have hinv := inv_of_reaches h
  refine ⟨hinv.accounted, ?_⟩
  rintro ⟨id, hclose⟩ hfinished conn hconn
  have hclosed : s.pool.closed = true := by
    rcases closingOrClosed_of_mem h hclose with hclosing | hclosed
    · exact (hfinished id _ hclosing).elim
    · exact hclosed
  rcases hinv.accounted conn hconn with ⟨id', phase, hphase, hhands⟩ | ⟨gen, hcurrent, -⟩ | hc
  · exact absurd hhands ((hfinished id' phase hphase).not_hands _ _)
  · rw [hinv.valid.closed_iff.1 hclosed] at hcurrent
    cases hcurrent
  · exact hc

/-- A caller gets a connection and keeps it, and the pool is closed. -/
def sampleHistory : List (Event ℕ) :=
  [.acquire 1, .run 1 (.lock true 0), .run 1 .slot, .run 1 (.dialed 7 none), .run 1 (.lock true 0),
    .close 2, .run 2 (.lock true 0), .run 2 .cancel, .run 2 (.closeNext 7), .run 2 .finish]

theorem sampleHistory_finished :
    ∃ s, Schedule.run (step ⟨.ordered, 0⟩) {} sampleHistory = some s ∧ s.pool.dialed = [7] ∧
      ∀ id phase, s.threads id = some phase → phase.Finished := by
  refine ⟨_, rfl, rfl, fun id phase h => ?_⟩
  by_cases h2 : id = 2
  · subst h2
    cases h
    trivial
  · by_cases h1 : id = 1
    · subst h1
      cases h
      trivial
    · simp [Function.update, h1, h2] at h

theorem heldConnection_closed :
    ∃ s, Schedule.run (step ⟨.ordered, 0⟩) {} sampleHistory = some s ∧ s.pool.dialed = [7] ∧
      s.pool.IsClosed 7 := by
  obtain ⟨s, hs, hdialed, hfinished⟩ := sampleHistory_finished
  have hclosed := (connPool_leaks_nothing hs).2 ⟨2, by simp [sampleHistory]⟩ hfinished
  exact ⟨s, hs, hdialed, hclosed 7 (by rw [hdialed]; exact mem_singleton_self 7)⟩

end SingBox.ConnPool
