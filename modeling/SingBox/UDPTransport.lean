/-
**The UDP transport of the DNS client** (`dns/transport/udp.go`).

All queries share one socket.  `exchange` gives a query a message identifier of 16 bits that no
waiting query has, leaves a callback under it, writes the query, and waits; a goroutine per socket
reads datagrams and hands each of them to the callback that it finds under the identifier of the
datagram.  The callback goes away with the query, and the identifier can then be given again.

The steps of the goroutines and the decisions of the pool of connections are events.  The server is
part of the model: what it sends on a socket is an answer to a query that was written to this
socket, with its identifier and question, at any time, any number of times, or never.

Main results:

* `UDP.nextAvailableQueryId_first` — the identifier is the first free one, and there is one
  unless all are taken;
* `UDP.registered_of_reaches` — **waiting queries have different identifiers.**
-/

import SingBox.DNSMessage
import SingBox.InverseMaps
import SingBox.Schedule

namespace SingBox.UDP

open DNS Function Option

/-! ### Identifiers -/

/-- The loop of `nextAvailableQueryId`.  There are no more rounds than identifiers. -/
def searchQueryId (callbacks : UInt16 → Option ℕ) (start : UInt16) :
    ℕ → UInt16 → UInt16 × Except GoError UInt16
  | 0, queryId => (queryId, .error (.new "no available query ID"))
  | rounds + 1, queryId =>
    if callbacks (queryId + 1) = none then (queryId + 1, .ok (queryId + 1))
    else if queryId + 1 = start then
      (queryId + 1, .error (.new "no available query ID"))
    else searchQueryId callbacks start rounds (queryId + 1)

/-- `nextAvailableQueryId`: the new value of `queryId`, and what is returned. -/
def nextAvailableQueryId (callbacks : UInt16 → Option ℕ) (queryId : UInt16) :
    UInt16 × Except GoError UInt16 :=
  searchQueryId callbacks queryId (2 ^ 16) queryId

section

variable {callbacks : UInt16 → Option ℕ} {start queryId id : UInt16} {rounds : ℕ}

/-- The identifiers from the one `k` places after `start` up to `start` itself. -/
def following (start : UInt16) (k : ℕ) : List UInt16 :=
  (List.range' k (2 ^ 16 + 1 - k)).map fun i => start + UInt16.ofNat i

theorem mem_following (start id : UInt16) : id ∈ following start 1 := by
  rw [following, List.mem_map]
  by_cases hid : id = start
  · exact ⟨2 ^ 16, by simp, by simp [hid]⟩
  · have hne : id - start ≠ 0 := fun hzero => hid (by simpa using congrArg (· + start) hzero)
    have hpos : (id - start).toNat ≠ 0 := fun hzero => hne (UInt16.toNat_inj.1 hzero)
    have hlt := UInt16.toNat_lt (id - start)
    refine ⟨(id - start).toNat, List.mem_range'_1.2 ⟨by omega, by omega⟩, ?_⟩
    rw [UInt16.ofNat_toNat, UInt16.add_comm, UInt16.sub_add_cancel]

/-- The loop finds the first free identifier. -/
theorem searchQueryId_eq {k : ℕ} (hk : k < 2 ^ 16) (hrounds : 2 ^ 16 ≤ k + rounds) :
    searchQueryId callbacks start rounds (start + UInt16.ofNat k) =
      match (following start (k + 1)).find? fun id => (callbacks id).isNone with
      | some id => (id, .ok id)
      | none => (start, .error (.new "no available query ID")) := by
  induction rounds generalizing k with
  | zero => omega
  | succ rounds ih =>
    have hnext : start + UInt16.ofNat k + 1 = start + UInt16.ofNat (k + 1) := by
      rw [UInt16.ofNat_add, UInt16.add_assoc]
      rfl
    have hcons : following start (k + 1) =
        (start + UInt16.ofNat (k + 1)) :: following start (k + 1 + 1) := by
      have hlen : 2 ^ 16 + 1 - (k + 1) = 2 ^ 16 + 1 - (k + 1 + 1) + 1 := by omega
      rw [following, hlen, List.range'_succ, List.map_cons]
      rfl
    rw [searchQueryId, hnext, hcons, List.find?_cons]
    by_cases hfree : callbacks (start + UInt16.ofNat (k + 1)) = none
    · rw [if_pos hfree, hfree]
      rfl
    · rw [if_neg hfree, isNone_eq_false_iff.2 (isSome_iff_ne_none.2 hfree)]
      by_cases hlast : k + 1 = 2 ^ 16
      · simp [hlast, following]
      · rw [if_neg]
        · exact ih (by omega) (by omega)
        · -- the counter is back at the start only after all identifiers
          intro hstart
          have hzero : UInt16.ofNat (k + 1) = 0 :=
            (UInt16.add_right_inj start).1 (hstart.trans (UInt16.add_zero start).symm)
          have hround : (k + 1) % 2 ^ 16 = 0 := by simpa using congrArg UInt16.toNat hzero
          omega

/-- More rounds than there are identifiers change nothing. -/
theorem searchQueryId_start (hrounds : 2 ^ 16 ≤ rounds) :
    searchQueryId callbacks start rounds start =
      match (following start 1).find? fun id => (callbacks id).isNone with
      | some id => (id, .ok id)
      | none => (start, .error (.new "no available query ID")) := by
  have hzero : start + UInt16.ofNat 0 = start := UInt16.add_zero start
  rw [← searchQueryId_eq (k := 0) (by decide) (hrounds.trans (Nat.le_add_left _ _)), hzero]

theorem nextAvailableQueryId_find (h : (nextAvailableQueryId callbacks queryId).2 = .ok id) :
    (following queryId 1).find? (fun id => (callbacks id).isNone) = some id := by
  rw [nextAvailableQueryId, searchQueryId_start le_rfl] at h
  split at h
  case h_1 hfind => exact Except.ok.inj h ▸ hfind
  case h_2 => cases h

/-- **The identifier is free.** -/
theorem nextAvailableQueryId_ok (h : (nextAvailableQueryId callbacks queryId).2 = .ok id) :
    callbacks id = none := by
  simpa using List.find?_some (nextAvailableQueryId_find h)

/-- **The loop ends with the first free one of the identifiers after the last one**, and with an
error exactly when all identifiers are taken.  More rounds than there are identifiers change
nothing. -/
theorem nextAvailableQueryId_first (callbacks : UInt16 → Option ℕ) (queryId : UInt16) :
    (∀ id, (nextAvailableQueryId callbacks queryId).2 = .ok id → callbacks id = none ∧
        ∃ taken rest, following queryId 1 = taken ++ id :: rest ∧ ∀ x ∈ taken, callbacks x ≠ none) ∧
      ((∃ err, (nextAvailableQueryId callbacks queryId).2 = .error err) ↔
        ∀ id, callbacks id ≠ none) ∧
      ∀ rounds ≥ 2 ^ 16, searchQueryId callbacks queryId rounds queryId =
        nextAvailableQueryId callbacks queryId := by
  refine ⟨fun id h => ⟨nextAvailableQueryId_ok h, ?_⟩, ⟨?_, fun htaken => ?_⟩,
    fun rounds hrounds => ?_⟩
  · obtain ⟨-, taken, rest, happend, htaken⟩ :=
      List.find?_eq_some_iff_append.1 (nextAvailableQueryId_find h)
    exact ⟨taken, rest, happend, fun x hx => by simpa [isSome_iff_ne_none] using htaken x hx⟩
  · rintro ⟨err, h⟩ id hfree
    rw [nextAvailableQueryId, searchQueryId_start le_rfl] at h
    split at h
    case h_1 => cases h
    case h_2 hnone => exact List.find?_eq_none.1 hnone id (mem_following queryId id) (hfree ▸ rfl)
  · cases h : (nextAvailableQueryId callbacks queryId).2 with
    | error err => exact ⟨err, rfl⟩
    | ok id => exact absurd (nextAvailableQueryId_ok h) (htaken id)
  · rw [nextAvailableQueryId, searchQueryId_start hrounds, searchQueryId_start le_rfl]

theorem nextAvailableQueryId_of_free (h : callbacks (queryId + 1) = none) :
    nextAvailableQueryId callbacks queryId = (queryId + 1, .ok (queryId + 1)) := by
  change searchQueryId callbacks queryId (65535 + 1) queryId = _
  rw [searchQueryId, if_pos h]

end

/-! ### The transport -/

/-- Where a call of `exchange` is. -/
inductive Phase where
  /-- At the start. -/
  | starting
  /-- At `AcquireShared`. -/
  | acquiring
  /-- With a connection, before the identifier is chosen. -/
  | connected (conn : ℕ)
  /-- With a callback, before the query is written. -/
  | registered (conn : ℕ) (queryId : UInt16)
  /-- At the `select`. -/
  | waiting (conn : ℕ) (queryId : UInt16)
  /-- Before the deferred removal of the callback. -/
  | leaving (queryId : UInt16) (result : Except GoError Msg)
  | returned (result : Except GoError Msg)

/-- What a call returns. -/
def Phase.result? : Phase → Option (Except GoError Msg)
  | leaving _ result => some result
  | returned result => some result
  | _ => none

/-- The identifier of a call, from its choice to the removal of the callback. -/
def Phase.queryId? : Phase → Option UInt16
  | registered _ queryId => some queryId
  | waiting _ queryId => some queryId
  | leaving queryId _ => some queryId
  | _ => none

structure Call where
  message : Msg
  phase : Phase := .starting

/-- Where `recvLoop` is. -/
inductive Loop where
  /-- At `ReadOnceFrom`. -/
  | reading
  /-- With the callback of a call, which it is about to lock. -/
  | matched (callback : ℕ) (message : Msg)
  | stopped

/-- `UDPTransport`, with its goroutines.  A callback has the number of the call it belongs to. -/
structure State where
  udpSize : ℕ := 2048
  queryId : UInt16 := 0
  callbacks : UInt16 → Option ℕ := fun _ => none
  /-- The field `response` of the callbacks; `done` is closed when it is set. -/
  responses : ℕ → Option Msg := fun _ => none
  calls : ℕ → Option Call := fun _ => none
  /-- The goroutines of the sockets for which one has been started. -/
  loops : ℕ → Option Loop := fun _ => none
  /-- The socket that the query of a call was written to, and the identifier it had. -/
  sent : ℕ → Option (ℕ × UInt16) := fun _ => none

/-- The question of a call. -/
def State.question? (s : State) (n : ℕ) : Option (List Question) :=
  (s.calls n).map (·.message.question)

/-- The call goes on in another phase. -/
def State.goto (s : State) (n : ℕ) (call : Call) (phase : Phase) : State :=
  { s with calls := Function.update s.calls n (some { call with phase := phase }) }

theorem State.goto_calls_self (s : State) (n : ℕ) (call : Call) (phase : Phase) :
    (s.goto n call phase).calls n = some { call with phase := phase } :=
  update_self _ _ _

theorem State.goto_calls_of_ne (s : State) {n m : ℕ} (h : m ≠ n) (call : Call) (phase : Phase) :
    (s.goto n call phase).calls m = s.calls m :=
  update_of_ne h _ _

theorem State.question?_goto {s : State} {n : ℕ} {call : Call} (hcall : s.calls n = some call)
    (phase : Phase) (m : ℕ) : (s.goto n call phase).question? m = s.question? m := by
  by_cases hm : m = n
  · rw [hm, question?, question?, goto_calls_self, hcall]
    rfl
  · rw [question?, question?, goto_calls_of_ne s hm]

/-- The first loop of `exchange`.  `Reset` makes the sockets fail. -/
def growSize (udpSize : ℕ) (message : Msg) : ℕ :=
  match message.isEdns0 with
  | none => udpSize
  | some edns0Opt =>
    if edns0Opt.rrclass.toNat ≤ udpSize then udpSize else edns0Opt.rrclass.toNat

/-- What can happen to a call. -/
inductive CallEvent where
  | grow
  | acquire (conn : ℕ) (created : Bool)
  | acquireFailed (err : GoError)
  | register
  | packFailed (err : GoError)
  | write
  | writeFailed (err : GoError)
  | done
  | connDone (cause : GoError)
  | ctxDone (err : GoError)
  | finish

/-- A step of `exchange`. -/
def callStep (s : State) (n : ℕ) (call : Call) : CallEvent → Option State
  | .grow =>
    match call.phase with
    | .starting =>
      some ({ s with udpSize := growSize s.udpSize call.message }.goto n call .acquiring)
    | _ => none
  | .acquire conn created =>
    match call.phase with
    | .acquiring =>
      if created then
        -- The pool says so to one caller.
        if (s.loops conn).isNone then
          some ({ s with loops := Function.update s.loops conn (some .reading) }.goto n call
            (.connected conn))
        else none
      else some (s.goto n call (.connected conn))
    | _ => none
  | .acquireFailed err =>
    match call.phase with
    | .acquiring => some (s.goto n call (.returned (.error err)))
    | _ => none
  | .register =>
    match call.phase with
    | .connected conn =>
      match nextAvailableQueryId s.callbacks s.queryId with
      | (next, .error err) =>
        some ({ s with queryId := next }.goto n call (.returned (.error err)))
      | (next, .ok queryId) =>
        some ({ s with
          queryId := next
          callbacks := Function.update s.callbacks queryId (some n) }.goto n call
            (.registered conn queryId))
    | _ => none
  | .packFailed err =>
    match call.phase with
    | .registered _ queryId => some (s.goto n call (.leaving queryId (.error err)))
    | _ => none
  | .write =>
    match call.phase with
    | .registered conn queryId =>
      some ({ s with sent := Function.update s.sent n (some (conn, queryId)) }.goto n call
        (.waiting conn queryId))
    | _ => none
  | .writeFailed err =>
    match call.phase with
    | .registered _ queryId =>
      some (s.goto n call
        (.leaving queryId (.error (.cause err "write request"))))
    | _ => none
  | .done =>
    match call.phase, s.responses n with
    | .waiting _ queryId, some response =>
      some (s.goto n call (.leaving queryId (.ok { response with id := call.message.id })))
    | _, _ => none
  | .connDone cause =>
    match call.phase with
    | .waiting _ queryId => some (s.goto n call (.leaving queryId (.error cause)))
    | _ => none
  | .ctxDone err =>
    match call.phase with
    | .waiting _ queryId => some (s.goto n call (.leaving queryId (.error err)))
    | _ => none
  | .finish =>
    match call.phase with
    | .leaving queryId result =>
      some ({ s with callbacks := Function.update s.callbacks queryId none }.goto n call
        (.returned result))
    | _ => none

/-- What can happen. -/
inductive Event where
  /-- A call of `exchange`. -/
  | exchange (n : ℕ) (message : Msg)
  | call (n : ℕ) (e : CallEvent)
  /-- A datagram arrives that the server has sent for the query of a call. -/
  | receive (conn answered : ℕ) (message : Msg)
  /-- A datagram arrives that does not unpack, perhaps because the buffer was too small for it. -/
  | malformed (conn : ℕ)
  /-- `recvLoop` locks the callback that it has found. -/
  | deliver (conn : ℕ)
  | readFailed (conn : ℕ)

/-- A server that sends genuine answers. -/
def State.Genuine (s : State) (conn answered : ℕ) (message : Msg) : Prop :=
  s.sent answered = some (conn, message.id) ∧ s.question? answered = some message.question

instance (s : State) (conn answered : ℕ) (message : Msg) :
    Decidable (s.Genuine conn answered message) :=
  inferInstanceAs (Decidable (_ ∧ _))

/-- One step. -/
def step (s : State) : Event → Option State
  | .exchange n message =>
    match s.calls n with
    | none => some { s with calls := Function.update s.calls n (some { message := message }) }
    | some _ => none
  | .call n e =>
    match s.calls n with
    | none => none
    | some call => callStep s n call e
  | .receive conn answered message =>
    match s.loops conn with
    | some .reading =>
      if s.Genuine conn answered message then
        match s.callbacks message.id with
        | none => some s
        | some callback =>
          some { s with
            loops := Function.update s.loops conn (some (.matched callback message)) }
      else none
    | _ => none
  | .malformed conn =>
    match s.loops conn with
    | some .reading => some s
    | _ => none
  | .deliver conn =>
    match s.loops conn with
    | some (.matched callback message) =>
      some { s with
        responses :=
          match s.responses callback with
          | none => Function.update s.responses callback (some message)
          | some _ => s.responses
        loops := Function.update s.loops conn (some .reading) }
    | _ => none
  | .readFailed conn =>
    match s.loops conn with
    | some .reading =>
      some { s with loops := Function.update s.loops conn (some .stopped) }
    | _ => none

/-! ### What a step does -/

/-- What a step of a call does. -/
inductive CallSteps (s : State) (n : ℕ) (call : Call) : State → Prop where
  /-- Callbacks stay as they are, and no response is returned. -/
  | moved {udpSize : ℕ} {next : UInt16} {loops : ℕ → Option Loop} {sent : ℕ → Option (ℕ × UInt16)}
      {phase : Phase}
      (hloops : ∀ conn m message, loops conn = some (.matched m message) →
        s.loops conn = some (.matched m message))
      (hid : phase.queryId? = call.phase.queryId?)
      (hresult : ∀ response, phase.result? ≠ some (.ok response)) :
      CallSteps s n call
        ({ s with udpSize := udpSize, queryId := next, loops := loops, sent := sent }.goto n call
          phase)
  | registered {conn : ℕ} {next queryId : UInt16} (hid : call.phase.queryId? = none)
      (hfree : s.callbacks queryId = none) :
      CallSteps s n call
        ({ s with
          queryId := next
          callbacks := Function.update s.callbacks queryId (some n) }.goto n call
            (.registered conn queryId))
  | answered {queryId : UInt16} {response : Msg} (hid : call.phase.queryId? = some queryId)
      (hresponse : s.responses n = some response) :
      CallSteps s n call
        (s.goto n call (.leaving queryId (.ok { response with id := call.message.id })))
  | finished {queryId : UInt16} {result : Except GoError Msg}
      (hphase : call.phase = .leaving queryId result) :
      CallSteps s n call
        ({ s with callbacks := Function.update s.callbacks queryId none }.goto n call
          (.returned result))

section

variable {s s' : State} {n : ℕ} {call : Call} {e : CallEvent}

theorem callSteps_goto {phase : Phase} (hid : phase.queryId? = call.phase.queryId?)
    (hres : ∀ response, phase.result? ≠ some (.ok response)) :
    CallSteps s n call (s.goto n call phase) :=
  .moved (fun _ _ _ h => h) hid hres

theorem matched_of_update {conn conn' m : ℕ} {message : Msg} {loop : Loop}
    (hloop : ∀ m message, loop ≠ .matched m message)
    (h : Function.update s.loops conn (some loop) conn' = some (.matched m message)) :
    s.loops conn' = some (.matched m message) := by
  by_cases hconn : conn' = conn
  · rw [hconn, update_self] at h
    exact absurd (some.inj h) (hloop m message)
  · rwa [update_of_ne hconn] at h

theorem callSteps_leaving {queryId : UInt16} {err : GoError}
    (hid : call.phase.queryId? = some queryId) :
    CallSteps s n call (s.goto n call (.leaving queryId (.error err))) :=
  callSteps_goto hid.symm nofun

theorem callSteps_of_register {conn : ℕ} (hphase : call.phase = .connected conn)
    (h : callStep s n call .register = some s') : CallSteps s n call s' := by
  have hid : call.phase.queryId? = none := by
    rw [hphase]
    rfl
  simp only [callStep, hphase] at h
  split at h
  · rename_i next err hnext
    cases h
    exact .moved (fun _ _ _ h => h) hid.symm nofun
  · rename_i next queryId hnext
    cases h
    exact .registered hid (nextAvailableQueryId_ok (congrArg Prod.snd hnext))

theorem callSteps_of_callStep (h : callStep s n call e = some s') : CallSteps s n call s' := by
  cases e with
  | register =>
    cases hphase : call.phase with
    | connected conn => exact callSteps_of_register hphase h
    | _ => simp [callStep, hphase] at h
  | done =>
    simp only [callStep] at h
    split at h
    · rename_i conn queryId response hphase hresponse
      cases h
      refine .answered ?_ hresponse
      rw [hphase]
      rfl
    · cases h
  | acquire conn created =>
    simp only [callStep] at h
    split at h
    · rename_i hphase
      split_ifs at h with hcreated hloop
      · cases h
        refine .moved (fun _ _ _ => matched_of_update nofun) ?_ nofun
        rw [hphase]
        rfl
      · cases h
        refine callSteps_goto ?_ nofun
        rw [hphase]
        rfl
    · cases h
  | _ =>
    -- One phase each, which the source leaves for one other.
    simp only [callStep] at h
    split at h
    · rename_i hphase
      cases h
      first
        | exact .finished hphase
        | refine callSteps_leaving ?_
          rw [hphase]
          rfl
        | refine .moved (fun _ _ _ h => h) ?_ nofun
          rw [hphase]
          rfl
    · cases h

theorem CallSteps.responses (h : CallSteps s n call s') : s'.responses = s.responses := by
  cases h <;> rfl

theorem CallSteps.question? (h : CallSteps s n call s') (hcall : s.calls n = some call) (m : ℕ) :
    s'.question? m = s.question? m := by
  cases h <;> exact State.question?_goto hcall _ m

theorem CallSteps.matched (h : CallSteps s n call s') {conn m : ℕ} {message : Msg}
    (hmatched : s'.loops conn = some (.matched m message)) :
    s.loops conn = some (.matched m message) := by
  cases h with
  | moved hloops hid hres => exact hloops conn m message hmatched
  | registered hid hfree | answered hid hresponse | finished hphase => exact hmatched

/-- What a step does. -/
inductive Steps (s : State) : Event → State → Prop where
  | exchange {n : ℕ} {message : Msg} (hfree : s.calls n = none) :
      Steps s (.exchange n message)
        { s with calls := Function.update s.calls n (some { message := message }) }
  | call {n : ℕ} {e : CallEvent} {call : Call} {s' : State} (hcall : s.calls n = some call)
      (h : CallSteps s n call s') : Steps s (.call n e) s'
  /-- A datagram is dropped. -/
  | dropped {e : Event} : Steps s e s
  | matched {conn answered callback : ℕ} {message : Msg}
      (hgenuine : s.Genuine conn answered message)
      (hcallback : s.callbacks message.id = some callback) :
      Steps s (.receive conn answered message)
        { s with loops := Function.update s.loops conn (some (.matched callback message)) }
  | delivered {conn callback : ℕ} {message : Msg}
      (hmatched : s.loops conn = some (.matched callback message))
      (hopen : s.responses callback = none) :
      Steps s (.deliver conn)
        { s with
          responses := Function.update s.responses callback (some message)
          loops := Function.update s.loops conn (some .reading) }
  /-- The callback has its response, or the socket has failed. -/
  | idled {e : Event} {conn : ℕ} {loop : Loop} (hloop : ∀ m message, loop ≠ .matched m message) :
      Steps s e { s with loops := Function.update s.loops conn (some loop) }

theorem steps_of_step {e : Event} (h : step s e = some s') : Steps s e s' := by
  cases e with
  | exchange n message =>
    simp only [step] at h
    split at h
    · rename_i hfree
      cases h
      exact .exchange hfree
    · cases h
  | call n e =>
    simp only [step] at h
    split at h
    · cases h
    · rename_i call hcall
      exact .call hcall (callSteps_of_callStep h)
  | receive conn answered message =>
    simp only [step] at h
    split at h
    · split_ifs at h with hgenuine
      split at h
      · cases h
        exact .dropped
      · rename_i callback hcallback
        cases h
        exact .matched hgenuine hcallback
    · cases h
  | malformed conn =>
    simp only [step] at h
    split at h
    · cases h
      exact .dropped
    · cases h
  | deliver conn =>
    simp only [step] at h
    split at h
    · rename_i callback message hmatched
      cases hopen : s.responses callback with
      | none =>
        rw [hopen] at h
        cases h
        exact .delivered hmatched hopen
      | some response =>
        rw [hopen] at h
        cases h
        exact .idled nofun
    · cases h
  | readFailed conn =>
    simp only [step] at h
    split at h
    · cases h
      exact .idled nofun
    · cases h

end

/-! ### Waiting queries -/

/-- The identifier of a call. -/
def State.queryId? (s : State) (n : ℕ) : Option UInt16 := (s.calls n).bind (·.phase.queryId?)

/-- The callbacks are those of the calls that have identifiers. -/
def Registered (s : State) : Prop := PartialMap.Inverse s.queryId? s.callbacks

variable {s s' : State} {n : ℕ} {call : Call} {phase : Phase}

theorem queryId?_goto :
    (s.goto n call phase).queryId? = Function.update s.queryId? n phase.queryId? := by
  funext m
  by_cases hm : m = n
  · rw [hm, update_self, State.queryId?, State.goto_calls_self]
    rfl
  · rw [update_of_ne hm, State.queryId?, State.queryId?, State.goto_calls_of_ne s hm]

theorem Registered.goto (hs : Registered s) (hid : phase.queryId? = s.queryId? n) :
    Registered (s.goto n call phase) := by
  rw [Registered, queryId?_goto, hid, update_eq_self]
  exact hs

theorem Registered.callStep (h : CallSteps s n call s') (hcall : s.calls n = some call)
    (hs : Registered s) : Registered s' := by
  have hown : s.queryId? n = call.phase.queryId? := by rw [State.queryId?, hcall]; rfl
  cases h with
  | moved hloops hid hres => exact Registered.goto hs (hid.trans hown.symm)
  | answered hid hresponse => exact hs.goto (hid.symm.trans hown.symm)
  | registered hid hfree =>
    have h := hs.assign (a := n) hfree
    rw [hown, hid] at h
    rw [Registered, queryId?_goto]
    exact h
  | finished hphase =>
    have h := hs.remove n
    rw [hown, hphase] at h
    rw [Registered, queryId?_goto]
    exact h

theorem Registered.step {e : Event} (h : UDP.step s e = some s') (hs : Registered s) :
    Registered s' := by
  cases steps_of_step h with
  | call hcall hstep => exact hs.callStep hstep hcall
  | @exchange n message hfree =>
    intro m id
    rw [← hs m id]
    by_cases hm : m = n
    · simp [State.queryId?, hm, hfree, Phase.queryId?]
    · simp [State.queryId?, update_of_ne hm]
  | dropped => exact hs
  | matched hgenuine hcallback => exact hs
  | delivered hmatched hopen => exact hs
  | idled hloop => exact hs

/-- **Waiting queries have different identifiers**: after any history, what is under an identifier
is the callback of the one call that has it. -/
theorem registered_of_reaches {es : List Event} (h : Schedule.run UDP.step {} es = some s) :
    Registered s := by
  refine Schedule.run_invariant_always (fun _ _ _ ht hI => hI.step ht) h fun n id => ?_
  exact iff_of_false nofun nofun

end SingBox.UDP
