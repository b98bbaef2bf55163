/-
**The pools of the tunnel server** (`DialContext` and `connHandler` of `protocol/tunnel/server.go`).

A registered connection waits in the channel of its user until a dial takes it and writes a request
on it.  A handler has the mutex while it sends its connection; if the channel is full, it first
receives the oldest one and closes it.  A dial has the mutex only to find the channel, and takes
connections without it.

* `ServerEndpoint.State.not_wedged_iff` — **the mutex is not held for ever** exactly if no dial
  takes the last connection from a handler that is about to receive it;
* `ServerEndpoint.State.owned_iff` — **every connection has an owner** exactly if no request has
  failed.
-/

import SingBox.Schedule

namespace SingBox.ServerEndpoint

open List Option Function

/-- The channel operation that a handler comes to. -/
inductive Operation where
  | send
  | receive
  | sendAgain
  deriving DecidableEq

/-- The capacity of the channels. -/
def capacity : ℕ := 10

/-- The channel of each user, how many dials wait on it, the connections on which dials write, and
what became of others.  `handler` has the mutex. -/
structure State (υ κ : Type) where
  conns : υ → List κ := fun _ => []
  waiting : υ → ℕ := fun _ => 0
  (writing registered returned closed failed : υ → List κ := fun _ => [])
  handler : Option (Operation × υ × κ) := none

/-- What can happen: a handler or a dial gets the mutex, the handler does its operation, and a dial
receives, gives up, has written its request or failed to. -/
inductive Event (υ κ : Type) where
  | connHandler (user : υ) (conn : κ)
  | operate
  | dialContext (user : υ)
  | receive (user : υ)
  | done (user : υ)
  | written (user : υ) (conn : κ) (ok : Bool)

variable {υ κ : Type} [DecidableEq υ] [DecidableEq κ]

def add (f : υ → List κ) (user : υ) (conn : κ) : υ → List κ := update f user (conn :: f user)

namespace State

/-- One step.  An operation that blocks cannot happen. -/
def step (s : State υ κ) : Event υ κ → Option (State υ κ)
  | .connHandler user conn =>
    if s.handler = none then
      some { s with
        handler := some (.send, user, conn), registered := add s.registered user conn }
    else none
  | .operate =>
    match s.handler with
    | none => none
    | some (.receive, user, conn) =>
      match s.conns user with
      | [] => none
      | old :: rest =>
        some { s with
          conns := update s.conns user rest
          closed := add s.closed user old
          handler := some (.sendAgain, user, conn) }
    | some (operation, user, conn) =>
      if (s.conns user).length < capacity then
        some { s with conns := update s.conns user (s.conns user ++ [conn]), handler := none }
      else if operation = .send then some { s with handler := some (.receive, user, conn) }
      else none
  | .dialContext user =>
    if s.handler = none then
      some { s with waiting := update s.waiting user (s.waiting user + 1) }
    else none
  | .receive user =>
    match s.waiting user, s.conns user with
    | n + 1, conn :: rest =>
      some { s with
        conns := update s.conns user rest
        waiting := update s.waiting user n
        writing := add s.writing user conn }
    | _, _ => none
  | .done user =>
    if 0 < s.waiting user then
      some { s with waiting := update s.waiting user (s.waiting user - 1) }
    else none
  | .written user conn ok =>
    if conn ∈ s.writing user then
      let s := { s with writing := update s.writing user ((s.writing user).erase conn) }
      some (if ok then { s with returned := add s.returned user conn }
        else { s with
          waiting := update s.waiting user (s.waiting user + 1)
          failed := add s.failed user conn })
    else none

/-- The connection of the handler with the mutex, if it is one of the user. -/
def held (s : State υ κ) (user : υ) : List κ :=
  match s.handler with
  | some (_, user', conn) => if user' = user then [conn] else []
  | none => []

/-- The connections of a user that wait, that a call handles, that a dial returned or that are
closed. -/
def owned (s : State υ κ) (user : υ) : List κ :=
  s.conns user ++ s.held user ++ s.writing user ++ s.returned user ++ s.closed user

/-- The channels are within their capacity, a handler that has received finds room, and the
connections without an owner are those on which a request has failed. -/
structure Sound (s : State υ κ) : Prop where
  conns : ∀ user, (s.conns user).length ≤ capacity
  sendAgain : ∀ user conn, s.handler = some (.sendAgain, user, conn) →
    (s.conns user).length < capacity
  owned : ∀ user conn,
    (s.owned user).count conn + (s.failed user).count conn = (s.registered user).count conn

variable {s s' : State υ κ} {e : Event υ κ} {events : List (Event υ κ)}

theorem Sound.length_update (h : s.Sound) {l : List κ} (hl : l.length ≤ capacity)
    (user other : υ) : (update s.conns user l other).length ≤ capacity := by
  rw [update_apply]
  split
  · exact hl
  · exact h.conns other

/-- **The step lemma.**  Where a connection is moved, it is counted for its user; the lists of the
others are the same. -/
theorem Sound.step (h : s.Sound) (hs' : s.step e = some s') : s'.Sound := by
  cases e with
  | connHandler user conn =>
    obtain ⟨hnone, ⟨⟩⟩ := ite_none_right_eq_some.1 hs'
    refine ⟨h.conns, nofun, fun other conn' => ?_⟩
    have howned := h.owned other conn'
    by_cases hother : other = user
    · simp [State.owned, held, hnone, add, hother, count_cons] at howned ⊢
      omega
    · simpa [State.owned, held, hnone, add, update_of_ne hother, Ne.symm hother] using howned
  | operate =>
    simp only [State.step] at hs'
    split at hs'
    · cases hs'
    case h_2 user conn hhandler =>
      split at hs'
      · cases hs'
      case h_2 old rest hold =>
        -- the oldest connection is closed
        obtain rfl := some.inj hs'
        have hroom := h.conns user
        rw [hold, length_cons] at hroom
        refine ⟨h.length_update (Nat.le_of_succ_le hroom) user, ?_, fun other conn' => ?_⟩
        · rintro _ _ ⟨⟩
          simpa using Nat.lt_of_succ_le hroom
        · have howned := h.owned other conn'
          by_cases hother : other = user
          · simp [State.owned, held, hhandler, hold, add, hother, count_cons] at howned ⊢
            omega
          · simpa [State.owned, held, hhandler, add, update_of_ne hother] using howned
    case h_3 operation user conn hne hhandler =>
      split at hs'
      case isTrue hroom =>
        -- the connection of the handler waits in the channel
        obtain rfl := some.inj hs'
        refine ⟨h.length_update (by rwa [length_append]) user, nofun, fun other conn' => ?_⟩
        have howned := h.owned other conn'
        by_cases hother : other = user
        · simpa [State.owned, held, hhandler, hother] using howned
        · simpa [State.owned, held, hhandler, update_of_ne hother, Ne.symm hother] using howned
      · obtain ⟨-, ⟨⟩⟩ := ite_none_right_eq_some.1 hs'
        have howned := h.owned
        simp only [State.owned, held, hhandler] at howned
        exact ⟨h.conns, nofun, howned⟩
  | receive user =>
    simp only [State.step] at hs'
    split at hs'
    case h_1 n conn rest hwaiting hconn =>
      obtain rfl := some.inj hs'
      have hroom := h.conns user
      rw [hconn, length_cons] at hroom
      refine ⟨h.length_update (Nat.le_of_succ_le hroom) user, fun user' conn' hhandler => ?_,
        fun other conn' => ?_⟩
      · by_cases huser : user' = user
        · simpa [huser] using Nat.lt_of_succ_le hroom
        · simpa [update_of_ne huser] using h.sendAgain user' conn' hhandler
      · have howned := h.owned other conn'
        by_cases hother : other = user
        · simp [State.owned, held, hconn, add, hother, count_cons] at howned ⊢
          omega
        · simpa [State.owned, held, add, update_of_ne hother] using howned
    · cases hs'
  | dialContext user | done user =>
    obtain ⟨-, ⟨⟩⟩ := ite_none_right_eq_some.1 hs'
    exact ⟨h.conns, h.sendAgain, h.owned⟩
  | written user conn ok =>
    obtain ⟨hmem, hs'⟩ := ite_none_right_eq_some.1 hs'
    obtain rfl := some.inj hs'
    refine ⟨by cases ok <;> exact h.conns, by cases ok <;> exact h.sendAgain, fun other conn' => ?_⟩
    have howned := h.owned other conn'
    by_cases hother : other = user
    · have hmoved := (perm_cons_erase hmem).count_eq conn'
      cases ok <;> simp [State.owned, held, add, hother, count_cons] at howned hmoved ⊢ <;> omega
    · cases ok <;> simpa [State.owned, held, add, update_of_ne hother] using howned

theorem sound_run (hrun : Schedule.run step {} events = some s) : s.Sound :=
  Schedule.run_invariant_always (fun _ _ _ hs' hs => hs.step hs') hrun
    ⟨fun _ => Nat.zero_le _, nofun, fun _ _ => rfl⟩

/-! ### The mutex -/

/-- A handler has the mutex, and whatever happens it cannot do its operation. -/
def Wedged (s : State υ κ) : Prop :=
  s.handler ≠ none ∧ ∀ events s', Schedule.run step s events = some s' → s'.step .operate = none

/-- A handler that comes to receive finds a connection. -/
def Supplied (s : State υ κ) : Prop :=
  ∀ user conn, s.handler = some (.receive, user, conn) → s.conns user ≠ []

/-- A dial leaves a connection to a handler that comes to receive from the same channel. -/
def Leaves (s : State υ κ) : Event υ κ → Prop
  | .receive user => ∀ h ∈ s.handler, h.1 = .receive → h.2.1 = user → 2 ≤ (s.conns user).length
  | _ => True

instance (s : State υ κ) : DecidablePred s.Leaves
  | .receive user =>
    inferInstanceAs (Decidable (∀ h ∈ s.handler, h.1 = .receive → h.2.1 = user → 2 ≤ _))
  | .connHandler .. | .operate | .dialContext _ | .done _ | .written .. => isTrue trivial

/-- **What a step does to the supply.**  Only a dial can take the last connection. -/
theorem supplied_step_iff (hs' : s.step e = some s') : s'.Supplied ↔ s.Supplied ∧ s.Leaves e := by
  cases e with
  | connHandler user conn | dialContext user =>
    obtain ⟨hnone, ⟨⟩⟩ := ite_none_right_eq_some.1 hs'
    simp [Supplied, Leaves, hnone]
  | operate =>
    simp only [step] at hs'
    split at hs'
    · cases hs'
    case h_2 user conn hhandler =>
      split at hs'
      · cases hs'
      case h_2 old rest hold =>
        obtain rfl := some.inj hs'
        simp [Supplied, Leaves, hhandler, hold]
    case h_3 operation user conn hne hhandler =>
      split at hs'
      · obtain rfl := some.inj hs'
        simp only [Supplied, Leaves, hhandler]
        grind
      case isFalse hfull =>
        -- a full channel is not empty
        obtain ⟨-, ⟨⟩⟩ := ite_none_right_eq_some.1 hs'
        have hsupply : s.conns user ≠ [] := fun h => hfull (by simp [h, capacity])
        simp [Supplied, Leaves, hhandler, hsupply]
  | receive user =>
    simp only [step] at hs'
    split at hs'
    case h_1 n conn rest hwaiting hconn =>
      obtain rfl := some.inj hs'
      constructor
      · intro h
        refine ⟨fun user' conn' hhandler hnil => ?_, ?_⟩
        · refine h user' conn' hhandler ?_
          by_cases huser : user' = user
          · rw [huser, hconn] at hnil
            cases hnil
          · simpa [update_of_ne huser] using hnil
        · rintro ⟨_, user, conn'⟩ hhandler rfl rfl
          have hrest : rest ≠ [] := by simpa using h user conn' hhandler
          simpa [hconn, Nat.succ_le_iff, length_pos_iff] using hrest
      · rintro ⟨h, hleaves⟩ user' conn' hhandler
        by_cases huser : user' = user
        · subst huser
          have hlength := hleaves _ hhandler rfl rfl
          simpa [hconn, Nat.succ_le_iff, length_pos_iff] using hlength
        · simpa [update_of_ne huser] using h user' conn' hhandler
    · cases hs'
  | done user =>
    obtain ⟨-, ⟨⟩⟩ := ite_none_right_eq_some.1 hs'
    simp [Supplied, Leaves]
  | written user conn ok =>
    obtain ⟨-, ⟨⟩⟩ := ite_none_right_eq_some.1 hs'
    cases ok <;> simp [Supplied, Leaves]

/-- A handler that comes to receive from an empty channel stays there: who sends needs the mutex. -/
theorem wedged_of_not_supplied (h : ¬s.Supplied) : s.Wedged := by
  have hblocked : ∀ {s : State υ κ}, ¬s.Supplied → s.handler ≠ none ∧ s.step .operate = none := by
    intro s h
    simp only [Supplied, not_forall, not_not] at h
    obtain ⟨user, conn, hhandler, hconns⟩ := h
    simp [step, hhandler, hconns]
  refine ⟨(hblocked h).1, fun events s' hrun => (hblocked ?_).2⟩
  exact Schedule.run_invariant_always (I := fun s => ¬s.Supplied)
    (fun _ _ _ hs' h h' => h ((supplied_step_iff hs').1 h').1) hrun h

theorem not_wedged_of_supplied (hs : s.Sound) (h : s.Supplied) : ¬s.Wedged := by
  rintro ⟨hsome, hstuck⟩
  have hnone := hstuck [] s rfl
  obtain ⟨⟨operation, user, conn⟩, hhandler⟩ := ne_none_iff_exists'.1 hsome
  cases operation with
  | send =>
    simp only [step, hhandler] at hnone
    split at hnone <;> cases hnone
  | receive =>
    cases hconns : s.conns user with
    | nil => exact h user conn hhandler hconns
    | cons old rest => simp [step, hhandler, hconns] at hnone
  | sendAgain =>
    simp only [step, hhandler, if_pos (hs.sendAgain user conn hhandler)] at hnone
    cases hnone

/-- **When the mutex is not held for ever.**  A run does not end with a handler that is stuck with
the mutex, if and only if in the run no dial has taken the last connection of a channel while a
handler came to receive from it. -/
theorem not_wedged_iff (hrun : Schedule.run step {} events = some s) :
    ¬s.Wedged ↔ Schedule.Along step Leaves {} events := by
  have hsupplied := Schedule.final_iff_along (I := fun _ => True) (fun _ _ _ _ _ => trivial)
    (fun _ _ _ hs' _ => supplied_step_iff hs') hrun trivial
  rw [and_iff_right (show ({} : State υ κ).Supplied from nofun)] at hsupplied
  rw [← hsupplied]
  exact ⟨fun h => not_not.1 fun h' => h (wedged_of_not_supplied h'),
    not_wedged_of_supplied (sound_run hrun)⟩

/-- Ten connections are registered, and an eleventh handler finds the channel full. -/
def crowd : List (Event Unit ℕ) :=
  replicate 10 (.dialContext ()) ++ (range 11).flatMap fun n => [.connHandler () n, .operate]

theorem crowd_not_wedged :
    ∃ s, Schedule.run step {} (crowd ++ replicate 9 (.receive ())) = some s ∧
      s.handler = some (.receive, (), 10) ∧ ¬s.Wedged := by
  obtain ⟨s, hrun, hhandler⟩ : ∃ s, Schedule.run step {} (crowd ++ replicate 9 (.receive ())) =
      some s ∧ s.handler = some (.receive, (), 10) := ⟨_, rfl, rfl⟩
  exact ⟨s, hrun, hhandler, (not_wedged_iff hrun).2 (by decide)⟩

theorem crowd_wedged :
    ∃ s, Schedule.run step {} (crowd ++ replicate 10 (.receive ())) = some s ∧ s.Wedged :=
  ⟨_, rfl, wedged_of_not_supplied fun h => h () 10 rfl rfl⟩

/-! ### The owners of the connections -/

/-- **When every connection has an owner.**  After every run, each registered connection waits in
the channel of its user, is handled by one call, was returned by one dial or is closed, exactly if
no request has failed: a dial drops the connection on which it could not write. -/
theorem owned_iff (hrun : Schedule.run step {} events = some s) :
    (∀ user, (s.owned user).Perm (s.registered user)) ↔ ∀ user, s.failed user = [] := by
  refine forall_congr' fun user => ?_
  simp only [perm_iff_count, ← (sound_run hrun).owned user, Nat.left_eq_add, count_eq_zero,
    eq_nil_iff_forall_not_mem]

/-- A connection is registered, and a dial takes it and writes. -/
def dialled (ok : Bool) : List (Event Unit ℕ) :=
  [.connHandler () 0, .operate, .dialContext (), .receive (), .written () 0 ok]

theorem dialled_owned :
    ∃ s, Schedule.run step {} (dialled true) = some s ∧ (s.owned ()).Perm [0] := by
  obtain ⟨s, hrun, hregistered, hfailed⟩ : ∃ s, Schedule.run step {} (dialled true) = some s ∧
      s.registered () = [0] ∧ s.failed () = [] := ⟨_, rfl, rfl, rfl⟩
  exact ⟨s, hrun, hregistered ▸ (owned_iff hrun).2 (fun _ => hfailed) ()⟩

theorem dialled_dropped : ∃ s, Schedule.run step {} (dialled false) = some s ∧
    s.registered () = [0] ∧ s.owned () = [] := ⟨_, rfl, rfl, rfl⟩

end State

end SingBox.ServerEndpoint
