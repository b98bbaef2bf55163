/-
**Runs of the DNS client** (`dns/client.go`).

What a step of a call can do is said once, as a relation with one constructor for each way in which
a call can go on or end, and everything about runs is derived from it.

* `DNS.Client.callSteps_of_callStep`, `DNS.Client.steps_of_step` — **what one step
  can do**;
* `DNS.Steps.call_cases` — the calls after a step;
* `DNS.Client.cache_of_reaches` — **the rule for the entries of the cache**.
-/

import SingBox.DNSClient
import SingBox.Schedule

namespace SingBox.DNS

open Function

/-! ### What a step can do -/

/-- Effects that leave both caches alone, except that a response may go. -/
def Effect.Quiet : Effect → Prop
  | .store _ _ => False
  | .fail _ _ => False
  | _ => True

/-- Phases that a call reaches only if the cache is to be used. -/
def Phase.Caching : Phase → Prop
  | .waiting _ _ => True
  | .loading => True
  | _ => False

/-- Errors that have nothing to do with a failure of a transport or with a context. -/
def ExchangeError.Local : ExchangeError → Prop
  | .waitTimeout => True
  | .circuitOpen _ => True
  | .loopback _ => True
  | .rejectedCached => True
  | _ => False

/-- The steps of a call that look into the cache, which happens at the given time. -/
inductive Looks (c : Client) (call : Call) : CallEvent → ℕ → Prop
  | lookup {timeNow : ℕ} (hphase : call.phase = .lookingUp)
      (hcache : (c.disableCache || call.query.options.disableCache) = false) :
      Looks c call (.questionCache timeNow) timeNow
  | exchange {timeNow : ℕ} (hphase : call.phase = .loading) : Looks c call (.load timeNow) timeNow

/-- The steps of a call. -/
inductive CallSteps (c : Client) (s : State) (id : ℕ) (call : Call) : CallEvent → Move → Prop
  /-- The call goes on without a result. -/
  | onward {e : CallEvent} {leads : Bool} {phase : Phase} {effect : Effect} {now : ℕ}
      (hnow : s.now ≤ now) (hresult : phase.result? = none) (hquiet : effect.Quiet)
      (hcaching : phase.Caching → call.phase.Caching ∨ c.cacheDisabled call.query = false) :
      CallSteps c s id call e ⟨{ call with leads := leads, phase := phase }, effect, now⟩
  /-- The client makes up a response. -/
  | fixed {circuit : Option GoString} (rcode : ℕ) :
      CallSteps c s id call (.enter circuit)
        ⟨{ call with phase := .returning (.fixed (fixedResponseStatus call.query.message rcode)) },
          .quiet, s.now⟩
  /-- There is a response in the cache. -/
  | found {e : CallEvent} {timeNow : ℕ} {m : Msg} {stored : Stored} (i : UInt16)
      (hlooks : Looks c call e timeNow) (hnow : s.now ≤ timeNow)
      (hload : c.loadResponse s.cache s.now timeNow (c.cacheKey call.query) = .response m stored) :
      CallSteps c s id call e
        ⟨{ call with phase := .returning (.cached { m with id := i } stored) }, .quiet, timeNow⟩
  /-- The call is refused before the transport is asked. -/
  | refused {e : CallEvent} {err : ExchangeError} (herr : err.Local) :
      CallSteps c s id call e ⟨{ call with phase := .returning (.failed err) }, .quiet, s.now⟩
  /-- The call no longer waits because its context is cancelled. -/
  | gaveUp {err : GoError} (hcanceled : call.canceled) :
      CallSteps c s id call (.giveUp err)
        ⟨{ call with phase := .returning (.failed (.contextDone err)) }, .quiet, s.now⟩
  /-- The transport has failed recently. -/
  | recentFailure {rejected : Bool} {circuit : Option GoString} {entry : ExpiringEntry Failure}
      (hloopback : call.query.contextTransport ≠ some call.query.transport)
      (hrejected : (!c.cacheDisabled call.query && call.query.checker.isSome && c.hasRDRC &&
        rejected) = false)
      (hfind : s.negFail.find (s.now / 10 ^ 6) call.query.key = some entry) :
      CallSteps c s id call (.check rejected circuit)
        ⟨{ call with phase := .returning (.failed (.recentFailure call.query.question.name
          entry.value)) }, .quiet, s.now⟩
  /-- The transport fails. -/
  | transportFailed {err : GoError} {byContext : Bool} (hphase : call.phase = .asking)
      (hcanceled : byContext → call.canceled) :
      CallSteps c s id call (.respond (.failed err byContext))
        ⟨{ call with phase := .returning (.failed (.transport err)) },
          .fail call.query.key ⟨id, byContext⟩, s.now⟩
  /-- The response of the transport is looked at. -/
  | finished {outcome : Outcome} (response : Msg) (hphase : call.phase = .asking) :
      CallSteps c s id call (.respond outcome) (c.finish s call response)
  /-- The call returns. -/
  | released {r : Return} {effect : Effect} (hphase : call.phase = .returning r)
      (hquiet : effect.Quiet) :
      CallSteps c s id call .release ⟨{ call with phase := .returned r }, effect, s.now⟩
  /-- The context of the call is cancelled. -/
  | canceled {canceled : Bool} (hopen : canceled = call.canceled ∨ call.phase.result? = none) :
      CallSteps c s id call .cancel ⟨{ call with canceled := canceled }, .quiet, s.now⟩

namespace Client

variable {c : Client} {s s' : State} {id : ℕ} {call : Call}

theorem callSteps_enter (circuit : Option GoString) :
    CallSteps c s id call (.enter circuit) (c.enter s id call circuit) := by
  rw [enter]
  dsimp only
  split
  · exact .fixed rcodeFormatError
  split
  · exact .fixed rcodeSuccess
  split
  · exact .onward le_rfl rfl trivial fun h => h.elim
  rename_i hcache
  rw [Bool.not_eq_true] at hcache
  split
  · exact .onward le_rfl rfl trivial fun _ => .inr hcache
  split
  · exact .refused trivial
  split
  · exact .refused trivial
  · exact .onward le_rfl rfl trivial fun _ => .inr hcache

variable {e : CallEvent}

theorem callSteps_look {timeNow : ℕ} {phase : Phase} {f : Msg → Msg}
    (hlooks : Looks c call e timeNow) (hnow : s.now ≤ timeNow) (hres : phase.result? = none)
    (hcaching : ¬ phase.Caching) (hf : ∀ m, ∃ i, f m = { m with id := i }) :
    CallSteps c s id call e (c.look s call timeNow phase f) := by
  rw [look]
  split
  · exact .onward hnow hres trivial fun h => absurd h hcaching
  · exact .onward hnow hres trivial fun h => absurd h hcaching
  · rename_i m stored hload
    obtain ⟨i, hi⟩ := hf m
    rw [hi]
    exact .found i hlooks hnow hload

theorem callSteps_check (rejected : Bool) (circuit : Option GoString) :
    CallSteps c s id call (.check rejected circuit)
      ⟨{ call with phase := c.check s call rejected circuit }, .quiet, s.now⟩ := by
  unfold check
  dsimp only
  split
  · exact .refused trivial
  rename_i hloopback
  split
  · exact .refused trivial
  rename_i hrej
  split
  · rename_i entry hfind
    exact .recentFailure hloopback (Bool.not_eq_true _ ▸ hrej) hfind
  split
  · exact .refused trivial
  · exact .onward le_rfl rfl trivial fun h => h.elim

variable {move : Move}

theorem callSteps_respond {outcome : Outcome} (hphase : call.phase = .asking)
    (h : c.respond s id call outcome = some move) :
    CallSteps c s id call (.respond outcome) move := by
  cases outcome with
  | failed err byContext =>
    obtain ⟨hcancel, ⟨⟩⟩ := Option.ite_none_left_eq_some.1 h
    refine .transportFailed hphase fun hby => ?_
    simpa [hby] using hcancel
  | rcode code | answered response =>
    cases h
    exact .finished _ hphase

/-- **What one step of a call can do.** -/
theorem callSteps_of_callStep
    (h : c.callStep s id call e = some move) : CallSteps c s id call e move := by
  cases e with
  | questionCache timeNow =>
    rw [callStep] at h
    split at h
    · rename_i hphase
      split at h
      · cases h
      · rename_i hnow
        rw [Nat.not_lt] at hnow
        split at h
        · cases h
          exact .onward hnow rfl trivial fun h => h.elim
        · rename_i hcache
          cases h
          rw [Bool.not_eq_true] at hcache
          exact callSteps_look (.lookup hphase hcache) hnow rfl (fun h => h) fun m => ⟨m.id, rfl⟩
    · cases h
  | enter circuit =>
    rw [callStep] at h
    split at h
    · cases h
      exact callSteps_enter circuit
    · cases h
  | wake =>
    rw [callStep] at h
    split at h
    · rename_i leader deadline hphase
      obtain ⟨-, ⟨⟩⟩ := Option.ite_none_right_eq_some.1 h
      refine .onward le_rfl rfl trivial fun _ => .inl ?_
      rw [hphase]
      trivial
    · cases h
  | expire =>
    rw [callStep] at h
    split at h
    · split at h
      · cases h
        exact .refused trivial
      · cases h
    · cases h
  | giveUp err =>
    rw [callStep] at h
    split at h
    · split at h
      · rename_i hcancel
        cases h
        exact .gaveUp hcancel
      · cases h
    · cases h
  | load timeNow =>
    rw [callStep] at h
    split at h
    · rename_i hphase
      split at h
      · cases h
      · rename_i hnow
        cases h
        exact callSteps_look (.exchange hphase) (Nat.not_lt.1 hnow) rfl (fun h => h)
          fun m => ⟨call.query.message.id, rfl⟩
    · cases h
  | check rejected circuit =>
    rw [callStep] at h
    split at h
    · cases h
      exact callSteps_check rejected circuit
    · cases h
  | respond outcome =>
    rw [callStep] at h
    split at h
    · rename_i hphase
      exact callSteps_respond hphase h
    · cases h
  | release =>
    rw [callStep] at h
    split at h
    · rename_i r hphase
      cases h
      refine .released hphase ?_
      split <;> trivial
    · cases h
  | cancel =>
    cases h
    split
    · rename_i hopen
      exact .canceled (.inr (Option.isNone_iff_eq_none.1 hopen))
    · exact .canceled (.inl rfl)

theorem callStep_result {r : Return}
    (h : c.callStep s id call e = some move) (hr : call.phase.result? = some r) :
    move.call.phase.result? = some r ∧ move.call.canceled = call.canceled := by
  obtain ⟨query, leads, canceled, phase⟩ := call
  cases phase with
  | returning r' =>
    cases e <;> cases h
    · exact ⟨hr, rfl⟩
    · exact ⟨hr, rfl⟩
  | returned r' =>
    cases e <;> cases h
    exact ⟨hr, rfl⟩
  | lookingUp | entering => cases hr
  | waiting leader deadline => cases hr
  | loading | checking | asking => cases hr

end Client

/-- The steps of the client. -/
inductive Steps (c : Client) (s : State) : Event → State → Prop
  /-- A call begins. -/
  | began {e : Event} {id : ℕ} {q : Query} {phase : Phase} (hnew : s.calls id = none)
      (hphase : phase = .entering ∨ phase = .lookingUp) :
      Steps c s e (s.setCall id { query := q, phase := phase })
  /-- A call takes a step. -/
  | moved {id : ℕ} {e : CallEvent} {call : Call} {move : Move} (hcall : s.calls id = some call)
      (hmove : CallSteps c s id call e move)
      (hresult : ∀ r, call.phase.result? = some r →
        move.call.phase.result? = some r ∧ move.call.canceled = call.canceled) :
      Steps c s (.call id e) (s.perform id move)
  /-- Time passes. -/
  | passed {now : ℕ} (hnow : s.now ≤ now) : Steps c s (.pass now) { s with now := now }
  /-- The caches lose entries. -/
  | lost {e : Event} (cache : ExpiringMap CacheKey Stored)
      (negFail : ExpiringMap TransportKey Failure)
      (hcache : ∀ P, s.cache.All P → cache.All P) (hfail : ∀ P, s.negFail.All P → negFail.All P) :
      Steps c s e { s with cache := cache, negFail := negFail }

namespace Client

variable {c : Client} {s s' : State} {e : Event}

theorem steps_of_begin {id : ℕ} {q : Query} {phase : Phase}
    (hphase : phase = .entering ∨ phase = .lookingUp)
    (h : s.begin id { query := q, phase := phase } = some s') : Steps c s e s' := by
  rw [State.begin] at h
  split at h
  · rename_i hnew
    cases h
    exact .began hnew hphase
  · cases h

/-- **What one step can do.** -/
theorem steps_of_step (h : c.step s e = some s') : Steps c s e s' := by
  cases e with
  | exchange id q => exact steps_of_begin (.inl rfl) h
  | lookup id transport domain options checker contextTransport i =>
    rw [step] at h
    split at h
    · cases h
    · exact steps_of_begin (.inr rfl) h
  | call id e =>
    rw [step] at h
    split at h
    · cases h
    · rename_i call hcall
      obtain ⟨move, hmove, rfl⟩ := Option.map_eq_some_iff.1 h
      exact .moved hcall (callSteps_of_callStep hmove) fun r => callStep_result hmove
  | pass now =>
    obtain ⟨hnow, ⟨⟩⟩ := Option.ite_none_left_eq_some.1 h
    exact .passed (Nat.not_lt.1 hnow)
  | evict key =>
    cases h
    exact .lost _ _ (fun P hall => hall.remove key) fun P hall => hall
  | forget key =>
    cases h
    exact .lost _ _ (fun P hall => hall) fun P hall => hall.remove key
  | clearCache =>
    cases h
    exact .lost _ _ (fun P _ => ExpiringMap.all_empty) fun P hall => hall

end Client

/-! ### What stays and what changes -/

section

variable {c : Client} {s s' : State} {e : Event} {id : ℕ} {call : Call} {callEvent : CallEvent}
  {move : Move}

@[simp] theorem State.apply_now (s : State) (effect : Effect) : (s.apply effect).now = s.now := by
  cases effect <;> rfl

@[simp] theorem State.apply_calls (s : State) (effect : Effect) :
    (s.apply effect).calls = s.calls := by
  cases effect <;> rfl

section

variable (s id move)

@[simp] theorem State.perform_now : (s.perform id move).now = move.now := State.apply_now _ _

@[simp] theorem State.perform_cache :
    (s.perform id move).cache = ({ s with now := move.now }.apply move.effect).cache := rfl

@[simp] theorem State.perform_negFail :
    (s.perform id move).negFail = ({ s with now := move.now }.apply move.effect).negFail := rfl

theorem State.perform_calls :
    (s.perform id move).calls = Function.update s.calls id (some move.call) := by
  rw [perform, setCall, apply_calls]

end

theorem Effect.Quiet.negFail {effect : Effect} (h : effect.Quiet) (s : State) :
    (s.apply effect).negFail = s.negFail := by
  cases effect with
  | store key entry => exact h.elim
  | fail key failure => exact h.elim
  | quiet => rfl
  | lead key flight => rfl
  | land key => rfl
  | drop key => rfl

theorem Effect.Quiet.cache {effect : Effect} (h : effect.Quiet) {s : State}
    {P : CacheKey → ExpiringEntry Stored → Prop} (hall : s.cache.All P) :
    (s.apply effect).cache.All P := by
  cases effect with
  | store key entry => exact h.elim
  | fail key failure => exact h.elim
  | quiet => exact hall
  | lead key flight => exact hall
  | land key => exact hall
  | drop key => exact hall.remove key

/-- What a step of a call does to the caches. -/
inductive EffectCases (c : Client) (s : State) (id : ℕ) (call : Call) : CallEvent → Move → Prop
  | quiet {e : CallEvent} {move : Move} (hquiet : move.effect.Quiet) :
      EffectCases c s id call e move
  | store {e : CallEvent} {call' : Call} {response : Msg}
      (hcache : c.cacheDisabled call.query = false) (httl : call.query.storeTTL response ≠ 0) :
      EffectCases c s id call e
        ⟨call', .store (c.cacheKey call.query) (c.entry s.now call.query response), s.now⟩
  | fail {err : GoError} {byContext : Bool} (hcanceled : byContext → call.canceled) :
      EffectCases c s id call (.respond (.failed err byContext))
        ⟨{ call with phase := .returning (.failed (.transport err)) },
          .fail call.query.key ⟨id, byContext⟩, s.now⟩

theorem CallSteps.effect (h : CallSteps c s id call callEvent move) :
    EffectCases c s id call callEvent move := by
  cases h with
  | onward hnow hres hquiet hcaching => exact .quiet hquiet
  | fixed rcode | found i hlooks hnow hload | refused herr | gaveUp hcancel
  | recentFailure hloopback hrej hfind | canceled hopen => exact .quiet trivial
  | transportFailed hphase hcancel => exact .fail hcancel
  | finished response hphase =>
    rw [Client.finish]
    dsimp only
    split
    · exact .quiet trivial
    split
    · exact .quiet trivial
    · rename_i hstore
      simp only [Bool.or_eq_true, decide_eq_true_eq, not_or, Bool.not_eq_true] at hstore
      exact .store hstore.1.1 hstore.2
  | released hphase hquiet => exact .quiet hquiet

theorem CallSteps.now_le (h : CallSteps c s id call callEvent move) : s.now ≤ move.now := by
  cases h with
  | onward hnow => exact hnow
  | found i hlooks hnow hload => exact hnow
  | finished response hphase =>
    rw [Client.finish]
    dsimp only
    split <;> exact le_rfl
  | fixed rcode => exact le_rfl
  | refused herr => exact le_rfl
  | gaveUp hcancel => exact le_rfl
  | recentFailure hloopback hrej hfind => exact le_rfl
  | transportFailed hphase hcancel => exact le_rfl
  | released hphase hquiet => exact le_rfl
  | canceled hopen => exact le_rfl

theorem CallSteps.query (h : CallSteps c s id call callEvent move) :
    move.call.query = call.query := by
  cases h with
  | finished response hphase =>
    rw [Client.finish]
    dsimp only
    split <;> rfl
  | onward hnow => rfl
  | found i hlooks hnow hload => rfl
  | fixed rcode => rfl
  | refused herr => rfl
  | gaveUp hcancel => rfl
  | recentFailure hloopback hrej hfind => rfl
  | transportFailed hphase hcancel => rfl
  | released hphase hquiet => rfl
  | canceled hopen => rfl

theorem Steps.call_cases (h : Steps c s e s') {call' : Call} (hcall' : s'.calls id = some call') :
    s.calls id = some call' ∨
      (∃ q phase, call' = { query := q, phase := phase } ∧
        (phase = .entering ∨ phase = .lookingUp)) ∨
      ∃ callEvent call move, e = .call id callEvent ∧ s.calls id = some call ∧
        CallSteps c s id call callEvent move ∧ call' = move.call ∧ s' = s.perform id move := by
  cases h with
  | @began e id₀ q phase hnew hphase =>
    rw [State.setCall] at hcall'
    dsimp only at hcall'
    by_cases hid : id = id₀
    · rw [hid, update_self, Option.some.injEq] at hcall'
      exact .inr (.inl ⟨q, phase, hcall'.symm, hphase⟩)
    · rw [update_of_ne hid] at hcall'
      exact .inl hcall'
  | @moved id₀ callEvent call move hcall hmove hres =>
    rw [State.perform_calls] at hcall'
    by_cases hid : id = id₀
    · subst hid
      rw [update_self, Option.some.injEq] at hcall'
      exact .inr (.inr ⟨callEvent, call, move, rfl, hcall, hmove, hcall'.symm, rfl⟩)
    · rw [update_of_ne hid] at hcall'
      exact .inl hcall'
  | passed hnow | lost cache negFail hcache hfail => exact .inl hcall'

theorem Steps.result (h : Steps c s e s') {r : Return}
    (hcall : s.calls id = some call) (hr : call.phase.result? = some r) :
    ∃ call', s'.calls id = some call' ∧ call'.query = call.query ∧
      call'.canceled = call.canceled ∧ call'.phase.result? = some r := by
  cases h with
  | @began e id₀ q phase hnew hphase =>
    have hid : id ≠ id₀ := by
      rintro rfl
      rw [hnew] at hcall
      cases hcall
    exact ⟨call, (update_of_ne hid _ _).trans hcall, rfl, rfl, hr⟩
  | @moved id₀ callEvent call₀ move hcall₀ hmove hres =>
    rw [State.perform_calls]
    by_cases hid : id = id₀
    · subst hid
      rw [hcall, Option.some.injEq] at hcall₀
      subst hcall₀
      obtain ⟨hr', hcancel⟩ := hres r hr
      exact ⟨move.call, update_self _ _ _, hmove.query, hcancel, hr'⟩
    · exact ⟨call, (update_of_ne hid _ _).trans hcall, rfl, rfl, hr⟩
  | passed hnow | lost cache negFail hcache hfail => exact ⟨call, hcall, rfl, rfl, hr⟩

end

/-! ### Runs -/

/-- The states that a client can be in. -/
def Client.Reaches (c : Client) (es : List Event) (s : State) : Prop :=
  Schedule.run c.step {} es = some s

variable {c : Client} {P : ℕ → CacheKey → ExpiringEntry Stored → Prop}
  (hmono : ∀ now now' key entry, now ≤ now' → P now key entry → P now' key entry)
  (hstore : ∀ now q response, c.cacheDisabled q = false → q.storeTTL response ≠ 0 →
    P now (c.cacheKey q) (c.entry now q response))

include hmono hstore

theorem Client.cache_of_step {s s' : State} {e : Event} (h : c.step s e = some s')
    (hall : s.cache.All (P s.now)) : s'.cache.All (P s'.now) := by
  have hlater : ∀ now, s.now ≤ now → s.cache.All (P now) := fun now hnow key entry hentry =>
    hmono s.now now key entry hnow (hall key entry hentry)
  cases steps_of_step h with
  | began hnew hphase => exact hall
  | passed hnow => exact hlater _ hnow
  | lost cache negFail hcache hfail => exact hcache _ hall
  | moved hcall hmove hres =>
    rw [State.perform_now, State.perform_cache]
    have hnow := hmove.now_le
    cases hmove.effect with
    | quiet hquiet => exact hquiet.cache (hlater _ hnow)
    | store hcache httl => exact hall.insert (hstore s.now _ _ hcache httl)
    | fail hcancel => exact hall

/-- **The rule for statements about the entries of the cache.** -/
theorem Client.cache_of_reaches {es : List Event} {s : State} (h : c.Reaches es s) :
    s.cache.All (P s.now) :=
  Schedule.run_invariant_always (fun _ _ _ hstep => cache_of_step hmono hstore hstep) h
    ExpiringMap.all_empty

end SingBox.DNS
