/-
**The connection pool of the DNS transports** (`dns/transport/conn_pool.go`).

A pool keeps connections for its callers, in one of two modes: one connection that all callers
share, or a list of idle connections, each of which serves one caller at a time.  The connections
that the pool knows are in the map `all` of its state.  `Reset` and `Close` take the state away and
close what is in it; dials that were started for that state go on, and find out when they come to
install their connection.

Every goroutine that is inside the pool is a machine whose steps are the critical sections, the
calls of the functions that the user has supplied, and what lies between.  The answers of these
functions, the cancellation of contexts, and the order of all steps are events.  Old states stay in
memory, under the number of their generation.
-/

import SingBox.GoString

namespace SingBox.ConnPool

/-! ### The pool -/

/-- `ConnPoolMode`. -/
inductive Mode where
  | single
  | ordered
  deriving DecidableEq

/-- `ConnPoolOptions` without its functions. -/
structure Options where
  mode : Mode
  maxInflight : ℕ := 0

/-- Whether there is a semaphore. -/
def Options.limited (o : Options) : Bool := o.mode = .ordered && 0 < o.maxInflight

/-- `connPoolState`. -/
structure PoolState (T : Type) where
  /-- Whether `ctx` is cancelled. -/
  canceled : Bool := false
  all : List T := []
  /-- `idle`; `idleElements` is the index of it. -/
  idle : List T := []
  /-- `shared`, `hasShared`. -/
  shared : Option T := none
  sharedClaimed : Bool := false
  /-- The goroutine of the dial. -/
  connecting : Option ℕ := none

/-- `ConnPool`, the states that it has had, and what has become of its connections. -/
structure Pool (T : Type) where
  closed : Bool := false
  /-- `state`. -/
  current : Option ℕ := some 0
  states : ℕ → PoolState T := fun _ => {}
  next : ℕ := 1
  /-- The slots that are taken. -/
  slots : ℕ := 0
  /-- The connections that have been dialled. -/
  dialed : List T := []
  /-- The calls of `options.Close`. -/
  closes : List (T × GoError) := []

/-- `net.ErrClosed`. -/
def errClosed : GoError := .new "use of closed network connection"

namespace Pool

variable {T : Type}

/-- A change of one of the states. -/
def modify (pool : Pool T) (gen : ℕ) (f : PoolState T → PoolState T) : Pool T :=
  { pool with states := Function.update pool.states gen (f (pool.states gen)) }

/-- `options.Close`. -/
def close (pool : Pool T) (conn : T) (cause : GoError) : Pool T :=
  { pool with closes := (conn, cause) :: pool.closes }

/-- `releaseSlot`. -/
def releaseSlot (pool : Pool T) (o : Options) : Pool T :=
  if o.limited then { pool with slots := pool.slots - 1 } else pool

/-- The connection is in the state that the pool has now. -/
def Tracked (pool : Pool T) (conn : T) : Prop :=
  ∃ gen, pool.current = some gen ∧ conn ∈ (pool.states gen).all

def IsClosed (pool : Pool T) (conn : T) : Prop := ∃ cause, (conn, cause) ∈ pool.closes

end Pool

/-- `removeConn`. -/
def PoolState.removeConn {T : Type} [DecidableEq T] (mode : Mode) (state : PoolState T) (conn : T) :
    PoolState T :=
  let state := { state with all := state.all.filter (· ≠ conn) }
  match mode with
  | .single =>
    if state.shared = some conn then { state with shared := none, sharedClaimed := false }
    else state
  | .ordered => { state with idle := state.idle.filter (· ≠ conn) }

/-! ### Goroutines -/

/-- Where a goroutine is. -/
inductive Phase (T : Type) where
  /-- `acquireOrdered`, at the top of its loop. -/
  | ordered
  /-- An idle connection was dead. -/
  | closeIdle (conn : T)
  /-- `dialAndInstall`: `acquireSlot`, `dial`, and the critical section. -/
  | slot (gen : ℕ)
  | dialing (gen : ℕ)
  | installing (gen : ℕ) (conn : T)
  /-- The connection is closed and the error is returned. -/
  | discard (conn : T) (err : GoError)
  /-- `acquireShared`, at the top of its loop. -/
  | shared
  /-- The shared connection was dead. -/
  | closeShared (conn : T)
  /-- The `select` of `acquireShared`. -/
  | waiting (gen connect : ℕ) (startDial : Bool)
  /-- `connectSingle`: `dial`, a connection that comes too late, and the critical section. -/
  | connectDialing (gen : ℕ)
  | connectDiscard (gen : ℕ) (conn : T) (err : GoError)
  | connectInstalling (gen : ℕ) (result : Except GoError T)
  | connectClose (conn : T) (err : GoError)
  /-- `done` is closed. -/
  | connected (err : Option GoError)
  | releasing (conn : T) (reuse : Bool)
  | invalidating (conn : T) (cause : GoError)
  /-- The connection is closed, and nothing is returned. -/
  | close (conn : T) (cause : GoError)
  | resetting
  | closing
  /-- `closeState`, before and in its loop. -/
  | cancelState (gen : ℕ)
  | closeState (gen : ℕ) (done : List T)
  /-- What `Acquire` returns; nothing for the other calls. -/
  | returned (r : Option (Except GoError (T × Bool)))

/-- What a goroutine does, with the answers that it gets. -/
inductive Action (T : Type) where
  /-- A critical section: the answer of `IsAlive`, and the number of the goroutine that it may
  start. -/
  | lock (alive : Bool) (goroutine : ℕ)
  /-- `acquireSlot`. -/
  | slot
  | noSlot (err : GoError)
  /-- The end of a dial, and `dialErr`. -/
  | dialed (conn : T) (dialErr : Option GoError)
  | dialFailed (err : GoError) (dialErr : Option GoError)
  /-- `options.Close`. -/
  | close
  | closeNext (conn : T)
  /-- `state.cancel`. -/
  | cancel
  | finish
  /-- The three cases of the `select`. -/
  | collect (alive : Bool)
  | giveUp (err : GoError)
  | stateDone

/-- A step: the pool and the goroutine after it, and a goroutine that was started. -/
structure Move (T : Type) where
  pool : Pool T
  phase : Phase T
  started : Option (ℕ × Phase T) := none

section

variable {T : Type} [DecidableEq T] (o : Options) (pool : Pool T)

/-- The critical section of `acquireOrdered`. -/
def orderedLock (gen : ℕ) (alive : Bool) : Move T :=
  match (pool.states gen).idle with
  | [] => { pool := pool, phase := .slot gen }
  | conn :: rest =>
    if alive then
      { pool := pool.modify gen fun state => { state with idle := rest }
        phase := .returned (some (.ok (conn, false))) }
    else
      { pool := pool.modify gen fun state =>
          { state with idle := rest, all := state.all.filter (· ≠ conn) }
        phase := .closeIdle conn }

/-- The critical section of `dialAndInstall`. -/
def installLock (gen : ℕ) (conn : T) : Move T :=
  if pool.closed then { pool := pool, phase := .discard conn errClosed }
  else if pool.current ≠ some gen then { pool := pool, phase := .discard conn errClosed }
  else
    { pool := (pool.modify gen fun state => { state with all := conn :: state.all }).releaseSlot o
      phase := .returned (some (.ok (conn, true))) }

/-- The critical section of `acquireShared`. -/
def sharedLock (gen : ℕ) (alive : Bool) (goroutine : ℕ) : Move T :=
  match (pool.states gen).shared with
  | some conn =>
    if alive then
      { pool := pool.modify gen fun state => { state with sharedClaimed := true }
        phase := .returned (some (.ok (conn, !(pool.states gen).sharedClaimed))) }
    else
      { pool := pool.modify gen fun state => state.removeConn o.mode conn
        phase := .closeShared conn }
  | none =>
    match (pool.states gen).connecting with
    | some connect => { pool := pool, phase := .waiting gen connect false }
    | none =>
      { pool := pool.modify gen fun state => { state with connecting := some goroutine }
        phase := .waiting gen goroutine true
        started := some (goroutine, .connectDialing gen) }

/-- The critical section of `connectSingle`. -/
def connectLock (gen : ℕ) (result : Except GoError T) : Move T :=
  let idlePool := pool.modify gen fun state => { state with connecting := none }
  match result with
  | .error err => { pool := idlePool, phase := .connected (some err) }
  | .ok conn =>
    if pool.closed then { pool := idlePool, phase := .connectClose conn errClosed }
    else if pool.current ≠ some gen then
      { pool := idlePool, phase := .connectClose conn errClosed }
    else
      { pool := pool.modify gen fun state =>
          { state with connecting := none, shared := some conn, all := conn :: state.all }
        phase := .connected none }

/-- `collectShared`. -/
def collectShared (gen : ℕ) (err : Option GoError) (startDial alive : Bool) : Move T :=
  match err with
  | some err =>
    { pool := pool, phase := if startDial then .returned (some (.error err)) else .shared }
  | none =>
    if pool.closed then { pool := pool, phase := .returned (some (.error errClosed)) }
    else if pool.current ≠ some gen then
      { pool := pool, phase := .returned (some (.error errClosed)) }
    else
      match (pool.states gen).shared with
      | none => { pool := pool, phase := .shared }
      | some conn =>
        if alive then
          { pool := pool.modify gen fun state => { state with sharedClaimed := true }
            phase := .returned (some (.ok (conn, !(pool.states gen).sharedClaimed))) }
        else
          { pool := pool.modify gen fun state => state.removeConn o.mode conn
            phase := .closeShared conn }

/-- The critical section of `Release`. -/
def releaseLock (gen : ℕ) (conn : T) (reuse alive : Bool) : Move T :=
  if conn ∉ (pool.states gen).all then { pool := pool, phase := .close conn errClosed }
  else if !reuse || !alive then
    { pool := pool.modify gen fun state => state.removeConn o.mode conn
      phase := .close conn errClosed }
  else if o.mode = .ordered then
    { pool := pool.modify gen fun state =>
        if conn ∈ state.idle then state else { state with idle := state.idle ++ [conn] }
      phase := .returned none }
  else { pool := pool, phase := .returned none }

/-- The critical section of `Invalidate`. -/
def invalidateLock (gen : ℕ) (conn : T) (cause : GoError) : Move T :=
  if conn ∉ (pool.states gen).all then { pool := pool, phase := .returned none }
  else
    { pool := pool.modify gen fun state => state.removeConn o.mode conn
      phase := .close conn cause }

/-- The critical sections of `Reset` and `Close`. -/
def resetLock (gen : ℕ) : Move T :=
  { pool := { pool with
      current := some pool.next
      states := Function.update pool.states pool.next {}
      next := pool.next + 1 }
    phase := .cancelState gen }

def closeLock (gen : ℕ) : Move T :=
  { pool := { pool with closed := true, current := none }, phase := .cancelState gen }

/-- A critical section.  All but the two at the end of a dial begin by looking at `closed`; the
state is there if the pool is not closed. -/
def lockStep (phase : Phase T) (alive : Bool) (goroutine : ℕ) : Option (Move T) :=
  match phase with
  | .installing gen conn => some (installLock o pool gen conn)
  | .connectInstalling gen result => some (connectLock pool gen result)
  | .ordered =>
    if pool.closed then some { pool := pool, phase := .returned (some (.error errClosed)) }
    else pool.current.map fun gen => orderedLock pool gen alive
  | .shared =>
    if pool.closed then some { pool := pool, phase := .returned (some (.error errClosed)) }
    else pool.current.map fun gen => sharedLock o pool gen alive goroutine
  | .releasing conn reuse =>
    if pool.closed then some { pool := pool, phase := .close conn errClosed }
    else pool.current.map fun gen => releaseLock o pool gen conn reuse alive
  | .invalidating conn cause =>
    if pool.closed then some { pool := pool, phase := .close conn cause }
    else pool.current.map fun gen => invalidateLock o pool gen conn cause
  | .resetting =>
    if pool.closed then some { pool := pool, phase := .returned none }
    else pool.current.map fun gen => resetLock pool gen
  | .closing =>
    if pool.closed then some { pool := pool, phase := .returned none }
    else pool.current.map fun gen => closeLock pool gen
  | _ => none

/-- A call of `options.Close` and what follows it. -/
def closeStep (phase : Phase T) : Option (Move T) :=
  match phase with
  | .closeIdle conn => some { pool := pool.close conn errClosed, phase := .ordered }
  | .discard conn err =>
    some { pool := (pool.close conn err).releaseSlot o, phase := .returned (some (.error err)) }
  | .closeShared conn => some { pool := pool.close conn errClosed, phase := .shared }
  | .connectDiscard gen conn err =>
    some { pool := pool.close conn err, phase := .connectInstalling gen (.error err) }
  | .connectClose conn err => some { pool := pool.close conn err, phase := .connected (some err) }
  | .close conn cause => some { pool := pool.close conn cause, phase := .returned none }
  | _ => none

/-- The end of a dial: `dialErr` comes before everything else. -/
def dialedStep (phase : Phase T) (conn : T) (dialErr : Option GoError) : Option (Move T) :=
  let dialedPool := { pool with dialed := conn :: pool.dialed }
  -- Every dial makes a new connection.
  if conn ∈ pool.dialed then none
  else
    match phase, dialErr with
    | .dialing _, some err => some { pool := dialedPool, phase := .discard conn err }
    | .dialing gen, none => some { pool := dialedPool, phase := .installing gen conn }
    | .connectDialing gen, some err =>
      some { pool := dialedPool, phase := .connectDiscard gen conn err }
    | .connectDialing gen, none =>
      some { pool := dialedPool, phase := .connectInstalling gen (.ok conn) }
    | _, _ => none

def dialFailedStep (phase : Phase T) (err : GoError) (dialErr : Option GoError) :
    Option (Move T) :=
  match phase with
  | .dialing _ =>
    some { pool := pool.releaseSlot o, phase := .returned (some (.error (dialErr.getD err))) }
  | .connectDialing gen =>
    some { pool := pool, phase := .connectInstalling gen (.error (dialErr.getD err)) }
  | _ => none

/-- One step of a goroutine.  `connectErr` says what has become of a dial whose `done` is closed. -/
def threadStep (connectErr : ℕ → Option (Option GoError)) (phase : Phase T) :
    Action T → Option (Move T)
  | .lock alive goroutine => lockStep o pool phase alive goroutine
  | .close => closeStep o pool phase
  | .dialed conn dialErr => dialedStep pool phase conn dialErr
  | .dialFailed err dialErr => dialFailedStep o pool phase err dialErr
  | .slot =>
    match phase with
    | .slot gen =>
      if !o.limited then some { pool := pool, phase := .dialing gen }
      else if pool.slots < o.maxInflight then
        some { pool := { pool with slots := pool.slots + 1 }, phase := .dialing gen }
      else none
    | _ => none
  | .noSlot err =>
    match phase with
    | .slot _ => some { pool := pool, phase := .returned (some (.error err)) }
    | _ => none
  | .collect alive =>
    match phase with
    | .waiting gen connect startDial =>
      (connectErr connect).map fun err => collectShared o pool gen err startDial alive
    | _ => none
  | .giveUp err =>
    match phase with
    | .waiting _ _ _ => some { pool := pool, phase := .returned (some (.error err)) }
    | _ => none
  | .stateDone =>
    match phase with
    | .waiting gen _ _ =>
      if !(pool.states gen).canceled then none
      else if pool.closed then
        some { pool := pool, phase := .returned (some (.error errClosed)) }
      else some { pool := pool, phase := .shared }
    | _ => none
  | .cancel =>
    match phase with
    | .cancelState gen =>
      some { pool := pool.modify gen fun state => { state with canceled := true }
             phase := .closeState gen [] }
    | _ => none
  | .closeNext conn =>
    match phase with
    | .closeState gen done =>
      if conn ∈ (pool.states gen).all ∧ conn ∉ done then
        some { pool := pool.close conn errClosed, phase := .closeState gen (conn :: done) }
      else none
    | _ => none
  | .finish =>
    match phase with
    | .closeState gen done =>
      if ∀ conn ∈ (pool.states gen).all, conn ∈ done then
        some { pool := pool, phase := .returned none }
      else none
    | _ => none

end

/-! ### All goroutines -/

/-- The pool and its goroutines. -/
structure State (T : Type) where
  pool : Pool T := {}
  threads : ℕ → Option (Phase T) := fun _ => none

/-- What can happen. -/
inductive Event (T : Type) where
  | acquire (id : ℕ)
  | release (id : ℕ) (conn : T) (reuse : Bool)
  | invalidate (id : ℕ) (conn : T) (cause : GoError)
  | reset (id : ℕ)
  | close (id : ℕ)
  | run (id : ℕ) (action : Action T)

variable {T : Type}

/-- What `done` and `err` of a dial say. -/
def State.connectErr (s : State T) (id : ℕ) : Option (Option GoError) :=
  match s.threads id with
  | some (.connected err) => some err
  | _ => none

/-- A goroutine begins under a number that is not in use. -/
def State.start (s : State T) (id : ℕ) (phase : Phase T) : Option (State T) :=
  match s.threads id with
  | none => some { s with threads := Function.update s.threads id (some phase) }
  | some _ => none

/-- One step. -/
def step [DecidableEq T] (o : Options) (s : State T) : Event T → Option (State T)
  | .acquire id => s.start id (match o.mode with | .single => .shared | .ordered => .ordered)
  | .release id conn reuse => s.start id (.releasing conn reuse)
  | .invalidate id conn cause => s.start id (.invalidating conn cause)
  | .reset id => s.start id .resetting
  | .close id => s.start id .closing
  | .run id action =>
    match s.threads id with
    | none => none
    | some phase =>
      match threadStep o s.pool s.connectErr phase action with
      | none => none
      | some move =>
        let s' : State T :=
          { pool := move.pool, threads := Function.update s.threads id (some move.phase) }
        match move.started with
        | none => some s'
        | some (goroutine, phase') => s'.start goroutine phase'

end SingBox.ConnPool
