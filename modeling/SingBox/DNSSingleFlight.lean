/-
**Cancelled callers of the DNS client** (`dns/client.go`).

Queries that come while an identical one is on its way wait for it, and then go on for themselves.
But a failure of the transport is remembered for five seconds, and for that time all identical
queries fail without asking.  Since the transport is asked with the context of the caller, a caller
that goes away makes it fail, and this is remembered like a failure of the network.

* `DNS.evidence_of_reaches` — every failure that is remembered or reported belongs to a call
  that has asked the same transport the same question;
* `DNS.cancellationContained_iff` — **when cancelled callers harm no one**;
* `DNS.canceledLeader_fails_waiter` — the history in which one does.
-/

import SingBox.DNSClientRuns

namespace SingBox.DNS

open Schedule (Along)

/-! ### Errors -/

/-- The failure is that of a call which has asked this transport this question; if it came from a
context, then from the context of that call. -/
def Evidence (s : State) (key : TransportKey) (failure : Failure) : Prop :=
  ∃ call err, s.calls failure.caller = some call ∧ call.query.key = key ∧
    call.phase.result? = some (.failed (.transport err)) ∧
    (failure.byContext → call.canceled)

/-- The errors that a call may return while its context is alive.  Either no context has anything
to do with it; or the transport was asked on its behalf; or the transport has failed for another
call, and not because of the context of that call. -/
def Justified (s : State) (call : Call) : ExchangeError → Prop
  | .waitTimeout => True
  | .circuitOpen _ => True
  | .loopback _ => True
  | .rejectedCached => True
  | .rcode _ => True
  | .transport _ => True
  | .rejected _ => True
  | .contextDone _ => False
  | .recentFailure _ failure => failure.byContext = false ∧ Evidence s call.query.key failure

/-- Every error of a call whose context is alive is justified. -/
def CancellationContained (s : State) : Prop :=
  ∀ id call err, s.calls id = some call → call.canceled = false →
    call.phase.result? = some (.failed err) → Justified s call err

/-- When a call whose context is alive comes to the failures that are remembered, the one for its
question and its transport did not come from a context. -/
def SeesGenuineFailures (c : Client) (s : State) : Event → Prop
  | .call id (.check rejected _) =>
    ∀ call ∈ s.calls id, call.canceled = false →
      call.query.contextTransport ≠ some call.query.transport →
      (!c.cacheDisabled call.query && call.query.checker.isSome && c.hasRDRC && rejected) =
        false →
      ∀ entry ∈ s.negFail.find (s.now / 10 ^ 6) call.query.key, entry.value.byContext = false
  | _ => True

instance (c : Client) (s : State) : ∀ e, Decidable (SeesGenuineFailures c s e)
  | .call id (.check rejected _) =>
    inferInstanceAs (Decidable (∀ call ∈ s.calls id, call.canceled = false →
      call.query.contextTransport ≠ some call.query.transport →
      (!c.cacheDisabled call.query && call.query.checker.isSome && c.hasRDRC && rejected) =
        false →
      ∀ entry ∈ s.negFail.find (s.now / 10 ^ 6) call.query.key, entry.value.byContext = false))
  | .call _ (.questionCache _) | .call _ (.load _) | .call _ (.enter _) | .call _ .wake
  | .call _ .expire | .call _ (.giveUp _) | .call _ (.respond _) | .call _ .release
  | .call _ .cancel | .exchange _ _ | .lookup .. | .pass _ | .evict _ | .forget _
  | .clearCache => isTrue trivial

/-! ### Evidence -/

section

variable {c : Client} {s s' : State} {e : Event}

theorem Evidence.step {key : TransportKey} {failure : Failure} (hstep : Steps c s e s')
    (h : Evidence s key failure) : Evidence s' key failure := by
  obtain ⟨call, err, hcall, hkey, hr, hcancel⟩ := h
  obtain ⟨call', hcall', hquery, hcancel', hr'⟩ := hstep.result hcall hr
  refine ⟨call', err, hcall', ?_, hr', ?_⟩
  · rw [Query.key, hquery]
    exact hkey
  · rw [hcancel']
    exact hcancel

/-- What is known in every state. -/
structure FailuresKnown (s : State) : Prop where
  /-- The failures that are remembered. -/
  remembered : s.negFail.All fun key entry => Evidence s key entry.value
  /-- The failures that have been reported. -/
  reported : ∀ id call name failure, s.calls id = some call →
    call.phase.result? = some (.failed (.recentFailure name failure)) →
      Evidence s call.query.key failure
  /-- Only a cancelled call gives up. -/
  gaveUp : ∀ id call err, s.calls id = some call →
    call.phase.result? = some (.failed (.contextDone err)) → call.canceled

theorem remembered_step (hstep : Steps c s e s')
    (h : s.negFail.All fun key entry => Evidence s key entry.value) :
    s'.negFail.All fun key entry => Evidence s' key entry.value := by
  have hlater : s.negFail.All fun key entry => Evidence s' key entry.value :=
    fun key entry hentry => (h key entry hentry).step hstep
  cases hstep with
  | began hnew hphase => exact hlater
  | passed hnow => exact hlater
  | lost cache negFail hcache hfail => exact hfail _ hlater
  | @moved id callEvent call move hcall hmove hres =>
    rw [State.perform_negFail]
    cases hmove.effect with
    | quiet hquiet =>
      rw [hquiet.negFail]
      exact hlater
    | store hcache httl => exact hlater
    | @fail err byContext hcancel =>
      refine hlater.insert ⟨{ call with phase := .returning (.failed (.transport err)) }, err,
        ?_, rfl, rfl, hcancel⟩
      rw [State.perform_calls]
      exact Function.update_self _ _ _

/-- Where the error of a call after a step comes from. -/
inductive ErrorCases (c : Client) (s : State) (id : ℕ) (call' : Call) :
    Event → ExchangeError → Prop
  /-- The call had it before. -/
  | kept {e : Event} {call : Call} {err : ExchangeError} (hcall : s.calls id = some call)
      (hquery : call.query = call'.query) (hcanceled : call.canceled = call'.canceled)
      (hr : call.phase.result? = some (.failed err)) : ErrorCases c s id call' e err
  /-- It is not about another call. -/
  | own {e : Event} {err : ExchangeError}
      (hfailure : ∀ name failure, err ≠ .recentFailure name failure)
      (hcanceled : ∀ err', err = .contextDone err' → call'.canceled) :
      ErrorCases c s id call' e err
  /-- It is a failure that is remembered. -/
  | remembered {call : Call} {rejected : Bool} {circuit : Option GoString}
      {entry : ExpiringEntry Failure} (hcall : s.calls id = some call)
      (hquery : call.query = call'.query) (hcanceled : call.canceled = call'.canceled)
      (hloopback : call.query.contextTransport ≠ some call.query.transport)
      (hrejected : (!c.cacheDisabled call.query && call.query.checker.isSome && c.hasRDRC &&
        rejected) = false)
      (hfind : s.negFail.find (s.now / 10 ^ 6) call.query.key = some entry) :
      ErrorCases c s id call' (.call id (.check rejected circuit))
        (.recentFailure call.query.question.name entry.value)

theorem error_step {id : ℕ} {call' : Call} {err : ExchangeError} (hstep : Steps c s e s')
    (hcall' : s'.calls id = some call') (hr : call'.phase.result? = some (.failed err)) :
    ErrorCases c s id call' e err := by
  rcases hstep.call_cases hcall' with
    hcall | ⟨q, phase, rfl, hphase⟩ | ⟨callEvent, call, move, rfl, hcall, hmove, rfl, -⟩
  · exact .kept hcall rfl rfl hr
  · rcases hphase with rfl | rfl <;> cases hr
  · cases hmove with
    | onward hnow hres =>
      rw [hres] at hr
      cases hr
    | fixed rcode => cases hr
    | found i hlooks hnow hload => cases hr
    | refused herr =>
      cases hr
      refine .own (fun name failure h => ?_) fun err' h => ?_
      · rw [h] at herr
        exact herr.elim
      · rw [h] at herr
        exact herr.elim
    | gaveUp hcancel =>
      cases hr
      exact .own (fun _ _ h => by cases h) fun _ _ => hcancel
    | recentFailure hloopback hrej hfind =>
      cases hr
      exact .remembered hcall rfl rfl hloopback hrej hfind
    | transportFailed hphase hcancel =>
      cases hr
      exact .own (fun _ _ h => by cases h) fun _ h => by cases h
    | finished response hphase =>
      rw [Client.finish] at hr
      dsimp only at hr
      split at hr
      · cases hr
        exact .own (fun _ _ h => by cases h) fun _ h => by cases h
      · cases hr
    | released hphase hquiet =>
      refine .kept hcall rfl rfl ?_
      rw [hphase]
      exact hr
    | canceled hopen =>
      rcases hopen with hsame | hopen
      · exact .kept hcall rfl hsame.symm hr
      · rw [hopen] at hr
        cases hr

theorem failuresKnown_step (h : c.step s e = some s') (hs : FailuresKnown s) :
    FailuresKnown s' := by
  have hstep := Client.steps_of_step h
  refine ⟨remembered_step hstep hs.remembered, ?_, ?_⟩
  · intro id call' name failure hcall' hr
    cases error_step hstep hcall' hr with
    | @kept e call err hcall hquery hcancel hr' =>
      rw [← hquery]
      exact (hs.reported id call name failure hcall hr').step hstep
    | own hfailure hcancel => exact absurd rfl (hfailure name failure)
    | remembered hcall hquery hcancel hloopback hrej hfind =>
      rw [← hquery]
      exact (hs.remembered.find hfind).step hstep
  · intro id call' err hcall' hr
    cases error_step hstep hcall' hr with
    | @kept e call err hcall hquery hcancel hr' =>
      rw [← hcancel]
      exact hs.gaveUp id call _ hcall hr'
    | own hfailure hcancel => exact hcancel err rfl

/-- **Failures are known**, after any history. -/
theorem evidence_of_reaches {es : List Event} (h : c.Reaches es s) : FailuresKnown s := by
  refine Schedule.run_invariant_always (fun _ _ _ hstep => failuresKnown_step hstep) h
    ⟨ExpiringMap.all_empty, ?_, ?_⟩
  · intro id call name failure hcall
    cases hcall
  · intro id call err hcall
    cases hcall

end

/-! ### Containment -/

variable {c : Client} {s s' : State} {e : Event}

theorem FailuresKnown.contained_iff (h : FailuresKnown s) :
    CancellationContained s ↔ ∀ id call name failure, s.calls id = some call →
      call.canceled = false → call.phase.result? = some (.failed (.recentFailure name failure)) →
        failure.byContext = false := by
  constructor
  · intro hs id call name failure hcall halive hr
    exact (hs id call _ hcall halive hr).1
  · intro hs id call err hcall halive hr
    cases err with
    | recentFailure name failure =>
      exact ⟨hs id call name failure hcall halive hr, h.reported id call name failure hcall hr⟩
    | contextDone err =>
      rw [h.gaveUp id call err hcall hr] at halive
      cases halive
    | waitTimeout => trivial
    | circuitOpen tag => trivial
    | loopback tag => trivial
    | rejectedCached => trivial
    | rcode code => trivial
    | transport err => trivial
    | rejected response => trivial

theorem check_reports {id : ℕ} {call : Call} {rejected : Bool} {circuit : Option GoString}
    {entry : ExpiringEntry Failure}
    (h : c.step s (.call id (.check rejected circuit)) = some s') (hcall : s.calls id = some call)
    (hloopback : call.query.contextTransport ≠ some call.query.transport)
    (hrej : (!c.cacheDisabled call.query && call.query.checker.isSome && c.hasRDRC &&
      rejected) = false)
    (hfind : s.negFail.find (s.now / 10 ^ 6) call.query.key = some entry) :
    ∃ call', s'.calls id = some call' ∧ call'.canceled = call.canceled ∧
      call'.phase.result? =
        some (.failed (.recentFailure call.query.question.name entry.value)) := by
  have hcheck : c.check s call rejected circuit =
      .returning (.failed (.recentFailure call.query.question.name entry.value)) := by
    unfold Client.check
    dsimp only
    rw [if_neg hloopback, hrej, if_neg Bool.false_ne_true, hfind]
  rw [Client.step, hcall] at h
  obtain ⟨move, hmove, rfl⟩ := Option.map_eq_some_iff.1 h
  rw [Client.callStep] at hmove
  split at hmove
  · cases hmove
    refine ⟨{ call with phase := c.check s call rejected circuit }, ?_, rfl, ?_⟩
    · rw [State.perform_calls]
      exact Function.update_self _ _ _
    · rw [hcheck]
      rfl
  · cases hmove

theorem seesGenuineFailures_of_step (h : c.step s e = some s') (hs' : CancellationContained s') :
    SeesGenuineFailures c s e := by
  rw [SeesGenuineFailures.eq_def]
  split
  · rename_i id rejected circuit
    intro call hcall halive hloopback hrej entry hfind
    obtain ⟨call', hcall', hcancel, hr⟩ := check_reports h hcall hloopback hrej hfind
    exact (hs' id call' _ hcall' (hcancel.trans halive) hr).1
  · trivial

theorem cancellationContained_step (h : c.step s e = some s') (hknown : FailuresKnown s) :
    CancellationContained s' ↔ CancellationContained s ∧ SeesGenuineFailures c s e := by
  have hstep := Client.steps_of_step h
  have hknown' := failuresKnown_step h hknown
  constructor
  · intro hs'
    refine ⟨hknown.contained_iff.2 fun id call name failure hcall halive hr => ?_,
      seesGenuineFailures_of_step h hs'⟩
    obtain ⟨call', hcall', -, hcancel, hr'⟩ := hstep.result hcall hr
    exact (hs' id call' _ hcall' (hcancel.trans halive) hr').1
  · rintro ⟨hs, hsees⟩
    refine hknown'.contained_iff.2 fun id call' name failure hcall' halive hr => ?_
    cases error_step hstep hcall' hr with
    | @kept e call err hcall hquery hcancel hr' =>
      exact (hs id call _ hcall (hcancel.trans halive) hr').1
    | own hfailure hcancel => exact absurd rfl (hfailure name failure)
    | @remembered call rejected circuit entry hcall hquery hcancel hloopback hrej hfind =>
      exact hsees call hcall (hcancel.trans halive) hloopback hrej entry hfind

/-- **When cancelled callers harm no one.**  Over any history, every error that a caller whose
context is alive returns is justified, if and only if no such caller comes to a remembered failure
that came from the context of another one. -/
theorem cancellationContained_iff {es : List Event} (h : c.Reaches es s) :
    CancellationContained s ↔ Along c.step (SeesGenuineFailures c) {} es := by
  have hinit : FailuresKnown {} := @evidence_of_reaches c {} [] rfl
  have hfinal := Schedule.final_iff_along (P := SeesGenuineFailures c) (F := CancellationContained)
    (I := FailuresKnown) (fun t e t' ht hI => failuresKnown_step ht hI)
    (fun t e t' ht hI => cancellationContained_step ht hI) h hinit
  rw [hfinal]
  exact and_iff_right fun _ _ _ hcall => by cases hcall

/-- A query, a client, and two identical calls of which the second waits for the first. -/
def flightQuery : Query where
  transport := "remote"
  message := { id := 7, question := [⟨"a.", typeA, 1⟩] }

def flightClient : Client where
  timeout := 10 ^ 10

def waitingPair : List Event :=
  [.exchange 1 flightQuery, .call 1 (.enter none), .call 1 (.load 0), .call 1 (.check false none),
    .exchange 2 flightQuery, .call 2 (.enter none)]

/-- The first call fails, and the second goes on. -/
def leaderFails (byContext : Bool) : List Event :=
  [.call 1 (.respond (.failed (.new "context canceled") byContext)),
    .call 1 .release, .call 2 .wake, .call 2 (.load 0), .call 2 (.check false none)]

theorem networkFailure_contained :
    ∃ s, flightClient.Reaches (waitingPair ++ leaderFails false) s ∧ CancellationContained s := by
  have hruns : (Schedule.run flightClient.step {} (waitingPair ++ leaderFails false)).isSome =
      true := by decide +kernel
  obtain ⟨s, hs⟩ := Option.isSome_iff_exists.1 hruns
  exact ⟨s, hs, (cancellationContained_iff hs).2 (by decide +kernel)⟩

/-- **A caller that goes away takes the one that waits with it.** -/
theorem canceledLeader_fails_waiter :
    ∃ s, flightClient.Reaches (waitingPair ++ [.call 1 .cancel] ++ leaderFails true) s ∧
      ¬CancellationContained s := by
  have hfails : ((Schedule.run flightClient.step {}
      (waitingPair ++ [.call 1 .cancel] ++ leaderFails true)).bind fun s =>
        (s.calls 2).bind fun call => call.phase.result?.bind fun r =>
          match r with
          | .failed (.recentFailure _ failure) => some (call.canceled, failure.byContext)
          | _ => none) = some (false, true) := by decide +kernel
  obtain ⟨s, hs, hfails⟩ := Option.bind_eq_some_iff.1 hfails
  obtain ⟨call, hcall, hfails⟩ := Option.bind_eq_some_iff.1 hfails
  obtain ⟨r, hr, hfails⟩ := Option.bind_eq_some_iff.1 hfails
  refine ⟨s, hs, fun h => ?_⟩
  split at hfails
  · rename_i name failure
    rw [Option.some.injEq, Prod.mk.injEq] at hfails
    have hgenuine := (h 2 call _ hcall hfails.1 hr).1
    rw [hfails.2] at hgenuine
    cases hgenuine
  · cases hfails

end SingBox.DNS
