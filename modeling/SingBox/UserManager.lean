/-
**The user manager of the Shadowsocks API** (`service/ssmapi/user.go`).

A call edits `usersMap` and then pushes all users to the server, which accepts the list or rejects
it; an edit is not undone.  The order of a range over a map is not specified, so that a list of
users is the map itself.

* `UserManager.call_inStep_iff` — what one call does to the agreement with the server;
* `UserManager.inStep_iff` — **after every call the map is the list that the server accepted last,
  exactly if the server rejects no call that has something to change**.
-/

import Mathlib.Data.Finmap
import SingBox.GoString
import SingBox.Schedule

namespace SingBox

/-- Users with their passwords. -/
abbrev Users := Finmap fun _ : GoString => GoString

/-- The manager, with what the server accepted last and what the traffic manager was told. -/
structure UserManager where
  (usersMap server : Users := ∅)
  trafficManager : Finset GoString := ∅
  deriving DecidableEq

namespace UserManager

variable (m : UserManager) (username password : GoString) (answer : Option GoError)

/-- `postUpdate`; `answer` is the error that `UpdateUsers` of the server returns. -/
def postUpdate (updated : Bool) : UserManager × Option GoError :=
  match answer with
  | some err => (m, some err)
  | none =>
    ({ m with
      server := m.usersMap
      trafficManager := if updated then m.usersMap.keys else m.trafficManager }, none)

/-- `Add`. -/
def add : UserManager × Option GoError :=
  if username ∈ m.usersMap then
    (m, some (.new ("user " ++ username ++ " already exists")))
  else postUpdate { m with usersMap := m.usersMap.insert username password } answer true

/-- `Update`. -/
def update : UserManager × Option GoError :=
  postUpdate { m with usersMap := m.usersMap.insert username password } answer true

/-- `Delete`. -/
def delete : UserManager × Option GoError :=
  postUpdate { m with usersMap := m.usersMap.erase username } answer true

/-- `List`. -/
def list : Users :=
  m.usersMap

/-- A call, with its arguments. -/
inductive Call where
  | add (username password : GoString)
  | update (username password : GoString)
  | delete (username : GoString)

/-- The manager after a call. -/
def call : Call → UserManager
  | .add username password => (m.add username password answer).1
  | .update username password => (m.update username password answer).1
  | .delete username => (m.delete username answer).1

/-- A call, with the answer of the server to its list. -/
def step (c : Call × Option GoError) : Option UserManager := some (m.call c.2 c.1)

/-- The manager and the server have the same users. -/
def InStep : Prop :=
  m.usersMap = m.server

/-- The call has nothing to change: the user to add exists, the password to set is the present one,
the user to delete is unknown. -/
def Redundant : Call → Prop
  | .add username _ => username ∈ m.usersMap
  | .update username password => m.usersMap.lookup username = some password
  | .delete username => username ∉ m.usersMap

instance : DecidablePred m.Redundant
  | .add username _ => inferInstanceAs (Decidable (username ∈ m.usersMap))
  | .update username password =>
    inferInstanceAs (Decidable (m.usersMap.lookup username = some password))
  | .delete username => inferInstanceAs (Decidable (username ∉ m.usersMap))

variable {m answer} {username password}

theorem insert_eq_self_iff {users : Users} :
    users.insert username password = users ↔ users.lookup username = some password := by
  constructor
  · intro h
    rw [← h]
    exact Finmap.lookup_insert users
  · intro h
    refine Finmap.ext_lookup fun name => ?_
    by_cases hname : name = username
    · rw [hname, Finmap.lookup_insert, h]
    · exact Finmap.lookup_insert_of_ne users hname

theorem erase_eq_self_iff {users : Users} : users.erase username = users ↔ username ∉ users := by
  constructor
  · intro h
    rw [← h]
    exact Finmap.notMem_erase_self
  · intro h
    refine Finmap.ext_lookup fun name => ?_
    by_cases hname : name = username
    · rw [hname, Finmap.lookup_erase, Finmap.lookup_eq_none.2 h]
    · exact Finmap.lookup_erase_ne hname

theorem postUpdate_inStep_iff {users : Users} (h : m.InStep) (updated : Bool) :
    (postUpdate { m with usersMap := users } answer updated).1.InStep ↔
      answer = none ∨ users = m.usersMap := by
  cases answer with
  | none => exact iff_of_true rfl (.inl rfl)
  | some err =>
    change users = m.server ↔ some err = none ∨ users = m.usersMap
    rw [← show m.usersMap = m.server from h]
    exact ⟨.inr, fun h => h.resolve_left nofun⟩

theorem call_inStep_iff (h : m.InStep) (c : Call) :
    (m.call answer c).InStep ↔ answer = none ∨ m.Redundant c := by
  cases c with
  | add username password =>
    rw [call, add]
    split
    case isTrue hmem => exact iff_of_true h (.inr hmem)
    case isFalse hmem =>
      rw [postUpdate_inStep_iff h, insert_eq_self_iff, Finmap.lookup_eq_none.2 hmem]
      exact or_congr_right (iff_of_false nofun hmem)
  | update username password =>
    exact (postUpdate_inStep_iff h true).trans (or_congr_right insert_eq_self_iff)
  | delete username =>
    exact (postUpdate_inStep_iff h true).trans (or_congr_right erase_eq_self_iff)

/-- **After every call the map is the list that the server accepted last**, if and only if the
server rejects no call that has something to change. -/
theorem inStep_iff (m : UserManager) (hm : m.InStep) (history : List (Call × Option GoError)) :
    Schedule.Along step (fun m c => (m.call c.2 c.1).InStep) m history ↔
      Schedule.Along step (fun m c => c.2 = none ∨ m.Redundant c.1) m history := by
  refine Schedule.along_congr (I := InStep) (R := fun _ => True) (fun _ _ => trivial)
    (fun m c _ hm => call_inStep_iff hm c.1) (fun m c m' _ hm' hc hm => ?_) hm
  obtain rfl := Option.some.inj hm'
  exact (call_inStep_iff hm c.1).2 hc

/-- The server accepts a user, and rejects lists that are no news to it. -/
def noNews : List (Call × Option GoError) :=
  [(.add "a" "p", none), (.update "a" "p", some (.new "busy")), (.delete "b", some (.new "busy")),
    (.add "a" "q", some (.new "busy"))]

theorem noNews_inStep : Schedule.Along step (fun m c => (m.call c.2 c.1).InStep) {} noNews :=
  (inStep_iff {} rfl noNews).2 (by decide)

/-- The server rejects the list with the first user. -/
def rejected : UserManager :=
  (add {} "a" "p" (some (.new "bad key"))).1

/-- The rejected user is listed, and `Add` cannot be repeated. -/
theorem add_rejected :
    ¬ rejected.InStep ∧ .ofString "a" ∈ rejected.list ∧ .ofString "a" ∉ rejected.server ∧
      rejected.add "a" "p" none = (rejected, some (.new "user a already exists")) := by
  unfold InStep
  decide

end UserManager

end SingBox
