/-
**An exchange over TLS** (`TLSTransport.Exchange` of `dns/transport/tls.go`).

An exchange takes the oldest idle connection of the pool, or dials one.  `IsAlive` is true of every
connection, so one that the server has dropped is found out by the exchange that fails on it.
There is one more attempt then, on whatever comes next in the pool.

* `TLSTransport.survives_iff` — **an exchange survives dropped connections** exactly if it does not
  meet two of them.
-/

import SingBox.ConnPool

namespace SingBox.TLSTransport

open List ConnPool

variable {T α : Type} [DecidableEq T]

/-- The options of `connections`. -/
def options : Options := { mode := .ordered, maxInflight := 8 }

/-- What a dial brings, and what an exchange brings on each connection. -/
structure Server (T α : Type) where
  dial : Except GoError T
  exchange : T → Except GoError α

/-- Where an error comes from. -/
inductive Failure where
  | dial
  | dialled
  | pooled

/-- `Acquire` with an open pool: a dial gives back the slot that it takes. -/
def acquire (server : Server T α) (gen : ℕ) (pool : Pool T) : Except GoError (T × Bool) × Pool T :=
  match orderedLock pool gen true with
  | { pool, phase := .returned (some (.ok taken)), .. } => (.ok taken, pool)
  | _ =>
    match server.dial with
    | .error err => (.error err, pool)
    | .ok conn =>
      let pool := { pool with slots := pool.slots + 1, dialed := conn :: pool.dialed }
      (.ok (conn, true), (installLock options pool gen conn).pool)

/-- The loop of `Exchange`, with the attempts that are left. -/
def exchangeLoop (server : Server T α) (gen : ℕ) :
    ℕ → GoError → Pool T → Except (Failure × GoError) α × Pool T
  | 0, lastErr, pool => (.error (.pooled, lastErr), pool)
  | n + 1, _, pool =>
    match acquire server gen pool with
    | (.error err, pool) => (.error (.dial, err), pool)
    | (.ok (conn, created), pool) =>
      match server.exchange conn with
      | .ok response => (.ok response, (releaseLock options pool gen conn true true).pool)
      | .error err =>
        let pool := (releaseLock options pool gen conn false true).pool.close conn errClosed
        if created then (.error (.dialled, err), pool) else exchangeLoop server gen n err pool

/-- `Exchange`. -/
def exchange (server : Server T α) (gen : ℕ) (pool : Pool T) :
    Except (Failure × GoError) α × Pool T :=
  exchangeLoop server gen 2 (.new []) pool

/-- Only a dial, or an exchange on the connection dialled for the call, makes the call fail. -/
def Survives (server : Server T α) (gen : ℕ) (pool : Pool T) : Prop :=
  ∀ failure err, (exchange server gen pool).1 = .error (failure, err) →
    failure = .dial ∨ failure = .dialled

/-- The server has dropped the connection. -/
def Server.Drops (server : Server T α) (conn : T) : Prop :=
  ∃ err, server.exchange conn = .error err

/-! ### The attempts -/

/-- A connection that fails is no longer in the pool. -/
theorem idle_release (pool : Pool T) (gen : ℕ) (conn : T) (hfree : conn ∉ (pool.states gen).idle) :
    ((releaseLock options pool gen conn false true).pool.states gen).idle =
      (pool.states gen).idle := by
  have hidle : (pool.states gen).idle.filter (fun x => !decide (x = conn)) =
      (pool.states gen).idle :=
    filter_eq_self.mpr fun x hx => by grind
  by_cases hall : conn ∈ (pool.states gen).all
  · simp [releaseLock, hall, Pool.modify, PoolState.removeConn, options, hidle]
  · simp [releaseLock, hall]

/-- All attempts are spent on idle connections exactly if the oldest ones are dropped. -/
theorem exchangeLoop_eq_pooled_iff (server : Server T α) (gen n : ℕ) (lastErr : GoError)
    (pool : Pool T) (hnodup : (pool.states gen).idle.Nodup) :
    (∃ err, (exchangeLoop server gen n lastErr pool).1 = .error (.pooled, err)) ↔
      n ≤ (pool.states gen).idle.length ∧
        ∀ conn ∈ (pool.states gen).idle.take n, server.Drops conn := by
  induction n generalizing pool lastErr with
  | zero => simp [exchangeLoop]
  | succ n ih =>
    rcases hidle : (pool.states gen).idle with _ | ⟨conn, rest⟩
    · simp only [exchangeLoop, acquire, orderedLock, hidle]
      grind
    rw [hidle] at hnodup
    cases hexchange : server.exchange conn with
    | ok response => simp [exchangeLoop, acquire, orderedLock, hidle, hexchange, Server.Drops]
    | error err =>
      -- The next attempt begins without the connection.
      have hrest := idle_release (pool.modify gen fun state => { state with idle := rest }) gen conn
        (by simpa [Pool.modify] using (nodup_cons.mp hnodup).1)
      rw [show ((pool.modify gen _).states gen).idle = rest by simp [Pool.modify]] at hrest
      simp only [exchangeLoop, acquire, orderedLock, hidle, if_true, hexchange]
      rw [if_neg Bool.false_ne_true, ih]
      · rw [Pool.close, hrest]
        simp [Server.Drops, hexchange]
      · rw [Pool.close, hrest]
        exact hnodup.of_cons

/-- **Exchanges over TLS and dropped connections.**  Let no connection be idle twice, which holds in
every state that the pool comes to (`ConnPool.inv_of_reaches`).  A call fails only by its own dial
or on its own connection, unless there are two idle connections and the two oldest are dropped. -/
theorem survives_iff (server : Server T α) (gen : ℕ) (pool : Pool T)
    (hnodup : (pool.states gen).idle.Nodup) :
    Survives server gen pool ↔
      ¬(2 ≤ (pool.states gen).idle.length ∧
        ∀ conn ∈ (pool.states gen).idle.take 2, server.Drops conn) := by
  rw [← exchangeLoop_eq_pooled_iff server gen 2 (.new []) pool hnodup, Survives, exchange]
  grind [Failure]

/-- A server that has dropped its first `n` connections. -/
def droppedServer (n : ℕ) : Server ℕ ℕ where
  dial := .ok 9
  exchange conn := if conn < n then .error ioEOF else .ok conn

/-- A pool with two idle connections. -/
def twoIdle : Pool ℕ := { states := fun _ => { all := [0, 1], idle := [0, 1] } }

theorem oneDropped_survives : Survives (droppedServer 1) 0 twoIdle :=
  (survives_iff _ 0 twoIdle (by decide)).mpr fun h => by
    simpa [droppedServer, Server.Drops] using h.2 1 (by simp [twoIdle])

/-- Both idle connections are dropped: the call fails although a dial would have helped. -/
theorem twoDropped_not_survives : ¬Survives (droppedServer 2) 0 twoIdle := fun h => by
  rcases h .pooled ioEOF rfl with h | h <;> cases h

end SingBox.TLSTransport
