/-
**Answers to the right question** (`dns/transport/udp.go`).

`recvLoop` looks at nothing but the identifier of a datagram.  An answer to a query that still waits
finds the callback of this query, since waiting queries have different identifiers.  An answer that
comes after its query has given up finds no callback, or, once the counter has gone round, that of a
later query, which may have asked something else.

There are 65536 identifiers, and after as many queries the counter is back where it was: the answer
to the first query is then returned for another one.

Main results:

* `UDP.inTime_of_holds` — answers to queries that still wait are in time;
* `UDP.answersRight_of_inTime` — **answers in time are answers to the right question**;
* `UDP.run_abandonedQueries` — the counter after any number of queries;
* `UDP.lateAnswer_returned` — a late answer is returned for another question.
-/

import SingBox.UDPTransport

namespace SingBox.UDP

open DNS Schedule Function

/-! ### The property and the condition -/

/-- Every response that a call returns has the question of its query. -/
def AnswersRight (s : State) : Prop :=
  ∀ n call response, s.calls n = some call → call.phase.result? = some (.ok response) →
    response.question = call.message.question

/-- When a datagram arrives for the query of a call, the call that waits without a response under
its identifier, if there is one, has asked the same question. -/
def InTime (s : State) : Event → Prop
  | .receive _ answered message =>
    ∀ n ∈ s.callbacks message.id, s.responses n = none → s.question? n = s.question? answered
  | _ => True

instance (s : State) : ∀ e, Decidable (InTime s e)
  | .receive _ answered message =>
    inferInstanceAs (Decidable (∀ n ∈ s.callbacks message.id, s.responses n = none →
      s.question? n = s.question? answered))
  | .exchange _ _ => .isTrue trivial
  | .call _ _ => .isTrue trivial
  | .malformed _ => .isTrue trivial
  | .deliver _ => .isTrue trivial
  | .readFailed _ => .isTrue trivial

variable {message : Msg}

/-- **Answers to queries that still wait are in time**, after any history: what is under the
identifier is the callback of that query, and no other call has the identifier. -/
theorem inTime_of_holds {s : State} {es : List Event} {conn answered : ℕ}
    (h : run step {} es = some s) (hid : s.queryId? answered = some message.id) :
    InTime s (.receive conn answered message) ∧
      ∀ n, s.queryId? n = some message.id → n = answered := by
  have hregistered := registered_of_reaches h
  have hanswered := (hregistered answered message.id).1 hid
  refine ⟨fun n hn _ => ?_, fun n hn => ?_⟩
  · rw [Option.mem_def, hanswered] at hn
    rw [Option.some.inj hn]
  · rw [(hregistered n message.id).1 hn] at hanswered
    exact Option.some.inj hanswered

/-! ### Answers in time -/

/-- What the callbacks have been given, and are about to be given, has the right question. -/
structure Faithful (s : State) : Prop where
  matched : ∀ conn n message, s.loops conn = some (.matched n message) → s.responses n = none →
    s.question? n = some message.question
  stored : ∀ n message, s.responses n = some message → s.question? n = some message.question
  returned : AnswersRight s

section

variable {s s' : State} {n : ℕ} {call : Call} {phase : Phase} {e : Event}

theorem AnswersRight.goto (hs : AnswersRight s)
    (hphase : ∀ response, phase.result? = some (.ok response) →
      response.question = call.message.question) : AnswersRight (s.goto n call phase) := by
  intro m call' response hcall' hres
  by_cases hm : m = n
  · rw [hm, State.goto_calls_self] at hcall'
    cases hcall'
    exact hphase response hres
  · rw [State.goto_calls_of_ne s hm] at hcall'
    exact hs m call' response hcall' hres

theorem Faithful.answersRight (h : CallSteps s n call s') (hcall : s.calls n = some call)
    (hs : Faithful s) : AnswersRight s' := by
  cases h with
  | moved hloops hid hres =>
    exact AnswersRight.goto hs.returned fun response h => absurd h (hres response)
  | registered hid hfree => exact AnswersRight.goto hs.returned nofun
  | @answered queryId response hid hresponse =>
    refine AnswersRight.goto hs.returned fun response' h => ?_
    have hquestion := hs.stored n response hresponse
    rw [State.question?, hcall] at hquestion
    cases h
    exact (Option.some.inj hquestion).symm
  | finished hphase =>
    refine AnswersRight.goto hs.returned fun response h => ?_
    refine hs.returned n call response hcall ?_
    rw [hphase]
    exact h

theorem Faithful.callStep (h : CallSteps s n call s') (hcall : s.calls n = some call)
    (hs : Faithful s) : Faithful s' := by
  refine ⟨?_, ?_, hs.answersRight h hcall⟩
  · intro conn m message hmatched hopen
    rw [h.question? hcall]
    rw [h.responses] at hopen
    exact hs.matched conn m message (h.matched hmatched) hopen
  · intro m message hstored
    rw [h.question? hcall]
    rw [h.responses] at hstored
    exact hs.stored m message hstored

theorem Faithful.exchange (hfree : s.calls n = none) (hs : Faithful s) :
    Faithful { s with calls := Function.update s.calls n (some { message := message }) } := by
  have hkeep : ∀ {m : ℕ} {question : List Question}, s.question? m = some question →
      State.question?
        { s with calls := Function.update s.calls n (some { message := message }) } m =
          some question := by
    intro m question h
    have hm : m ≠ n := by
      rintro rfl
      rw [State.question?, hfree] at h
      cases h
    dsimp only [State.question?]
    rw [update_of_ne hm]
    exact h
  refine ⟨?_, ?_, ?_⟩
  · intro conn m message' hmatched hopen
    exact hkeep (hs.matched conn m message' hmatched hopen)
  · intro m message' hstored
    exact hkeep (hs.stored m message' hstored)
  · have hstart : AnswersRight (s.goto n { message := message } .starting) :=
      hs.returned.goto fun _ h => by cases h
    exact hstart

theorem Faithful.receive {conn answered callback : ℕ} (hgenuine : s.Genuine conn answered message)
    (hquestion : s.responses callback = none → s.question? callback = s.question? answered)
    (hs : Faithful s) :
    Faithful { s with
      loops := Function.update s.loops conn (some (.matched callback message)) } := by
  refine ⟨?_, hs.stored, hs.returned⟩
  intro conn' m message' hmatched hopen
  dsimp only at hmatched
  by_cases hconn : conn' = conn
  · rw [hconn, update_self] at hmatched
    cases hmatched
    exact (hquestion hopen).trans hgenuine.2
  · rw [update_of_ne hconn] at hmatched
    exact hs.matched conn' m message' hmatched hopen

theorem Faithful.deliver {conn callback : ℕ}
    (hmatched : s.loops conn = some (.matched callback message))
    (hopen : s.responses callback = none) (hs : Faithful s) :
    Faithful { s with
      responses := Function.update s.responses callback (some message)
      loops := Function.update s.loops conn (some .reading) } := by
  refine ⟨?_, ?_, hs.returned⟩
  · intro conn' m message' hmatched' hopen'
    dsimp only at hopen'
    have hm : m ≠ callback := by
      rintro rfl
      rw [update_self] at hopen'
      cases hopen'
    rw [update_of_ne hm] at hopen'
    exact hs.matched conn' m message' (matched_of_update (fun _ _ h => by cases h) hmatched') hopen'
  · intro m message' hstored
    dsimp only at hstored
    by_cases hm : m = callback
    · rw [hm, update_self] at hstored
      cases hstored
      rw [hm]
      exact hs.matched conn callback message hmatched hopen
    · rw [update_of_ne hm] at hstored
      exact hs.stored m message' hstored

theorem Faithful.step (h : UDP.step s e = some s') (htime : InTime s e) (hs : Faithful s) :
    Faithful s' := by
  cases steps_of_step h with
  | exchange hfree => exact hs.exchange hfree
  | call hcall hstep => exact hs.callStep hstep hcall
  | dropped => exact hs
  | matched hgenuine hcallback => exact hs.receive hgenuine (htime _ hcallback)
  | delivered hmatched hopen => exact hs.deliver hmatched hopen
  | idled hloop =>
    refine ⟨?_, hs.stored, hs.returned⟩
    intro conn m message hmatched hopen
    exact hs.matched conn m message (matched_of_update hloop hmatched) hopen

/-- **Answers in time are answers to the right question.**  After any history, with any loss, delay,
reordering and duplication of the answers, in which no answer arrives while a query with another
question waits under its identifier, every response that is returned has the question of its
query. -/
theorem answersRight_of_inTime {es : List Event} (h : run UDP.step {} es = some s)
    (htime : Along UDP.step InTime {} es) : AnswersRight s := by
  have hinit : Faithful {} := by
    refine ⟨?_, ?_, ?_⟩
    · nofun
    · nofun
    · intro m call response hcall
      cases hcall
  exact (run_invariant (fun _ _ _ ht htime hI => Faithful.step ht htime hI) h htime hinit).returned

end

/-- A query for the addresses of a name. -/
def queryFor (id : UInt16) (name : String) : Msg :=
  { id := id, recursionDesired := true, question := [⟨.ofString name, 1, 1⟩] }

/-- The answer that a server without any records gives. -/
def answerTo (query : Msg) (id : UInt16) : Msg := { query with id := id, response := true }

/-- The steps of a call up to the `select`. -/
def asking (query : Msg) (created : Bool) (n : ℕ) : List Event :=
  [.exchange n query, .call n .grow, .call n (.acquire 0 created), .call n .register,
    .call n .write]

/-- Two queries that wait at the same time. -/
def bothAsking : List Event :=
  asking (queryFor 7 "a.") true 0 ++ asking (queryFor 7 "b.") false 1

theorem bothAsking_inTime : ∃ s, run step {} bothAsking = some s ∧
    InTime s (.receive 0 0 (answerTo (queryFor 7 "a.") 1)) ∧
      ∀ n, s.queryId? n = some 1 → n = 0 := by
  have hrun : run step {} bothAsking = some _ := rfl
  exact ⟨_, hrun, inTime_of_holds hrun rfl⟩

/-- The second one is answered first, and the answer to it arrives once more when the first one
still waits. -/
def reordered : List Event :=
  bothAsking ++
    [.receive 0 1 (answerTo (queryFor 7 "b.") 2), .deliver 0, .call 1 .done,
      .receive 0 1 (answerTo (queryFor 7 "b.") 2), .deliver 0, .call 1 .finish,
      .receive 0 0 (answerTo (queryFor 7 "a.") 1), .deliver 0, .call 0 .done, .call 0 .finish]

theorem reordered_answered : ∃ s, run step {} reordered = some s ∧
    Along step InTime {} reordered ∧ AnswersRight s := by
  have hsome : (run step {} reordered).isSome = true := by decide +kernel
  have htime : Along step InTime {} reordered := by decide +kernel
  obtain ⟨s, hs⟩ := Option.isSome_iff_exists.1 hsome
  exact ⟨s, hs, htime, answersRight_of_inTime hs htime⟩

/-! ### The counter goes round -/

/-- A query on the socket with the number 0 that is given up before it has an answer. -/
def abandoned (query : Msg) (created : Bool) (n : ℕ) : List Event :=
  asking query created n ++
    [.call n (.ctxDone (.new "context canceled")), .call n .finish]

section

variable {s : State} {query : Msg} {n : ℕ}

/-- Where a query is when it waits. -/
def State.asked (s : State) (query : Msg) (n : ℕ) : State :=
  { s with
    queryId := s.queryId + 1
    callbacks := Function.update s.callbacks (s.queryId + 1) (some n)
    calls := Function.update s.calls n (some ⟨query, .waiting 0 (s.queryId + 1)⟩)
    sent := Function.update s.sent n (some (0, s.queryId + 1)) }

theorem State.asked_of_ne {m : ℕ} (h : m ≠ n) :
    (s.asked query n).calls m = s.calls m ∧ (s.asked query n).sent m = s.sent m :=
  ⟨update_of_ne h _ _, update_of_ne h _ _⟩

theorem run_asking (hedns : query.isEdns0 = none) (hcall : s.calls n = none)
    (hfree : s.callbacks (s.queryId + 1) = none) :
    run step s (asking query false n) = some (s.asked query n) := by
  simp [asking, run, step, callStep, hcall, State.goto, growSize, hedns, State.asked,
    nextAvailableQueryId_of_free hfree]

/-- What is left of a query that was given up. -/
def State.gaveUp (s : State) (query : Msg) (n : ℕ) : State :=
  { s with
    queryId := s.queryId + 1
    calls := Function.update s.calls n
      (some ⟨query, .returned (.error (.new "context canceled"))⟩)
    sent := Function.update s.sent n (some (0, s.queryId + 1)) }

theorem State.gaveUp_of_ne {m : ℕ} (h : m ≠ n) :
    (s.gaveUp query n).calls m = s.calls m ∧ (s.gaveUp query n).sent m = s.sent m :=
  ⟨update_of_ne h _ _, update_of_ne h _ _⟩

theorem run_abandoned (hedns : query.isEdns0 = none) (hcall : s.calls n = none)
    (hfree : s.callbacks (s.queryId + 1) = none) :
    run step s (abandoned query false n) = some (s.gaveUp query n) := by
  refine run_append.2 ⟨s.asked query n, run_asking hedns hcall hfree, ?_⟩
  have hcallbacks : Function.update s.callbacks (s.queryId + 1) none = s.callbacks := by
    rw [← hfree, update_eq_self]
  simp [run, step, callStep, State.asked, State.goto, State.gaveUp, hcallbacks]

theorem run_abandoned_created (hcall : s.calls n = none) (hloop : s.loops 0 = none) :
    run step s (abandoned query true n) =
      run step { s with loops := Function.update s.loops 0 (some .reading) }
        (abandoned query false n) := by
  simp [abandoned, asking, run, step, callStep, hcall, hloop, State.goto]

/-- **The counter after any number of queries** that are given up one after the other.  Nothing else
is left of them. -/
theorem run_abandonedQueries (hedns : query.isEdns0 = none) (k : ℕ)
    (hcalls : ∀ m, n ≤ m → s.calls m = none) (hcallbacks : ∀ id, s.callbacks id = none) :
    ∃ s', run step s ((List.range' n k).flatMap (abandoned query false)) = some s' ∧
      s'.queryId = s.queryId + UInt16.ofNat k ∧ s'.callbacks = s.callbacks ∧
      s'.responses = s.responses ∧ s'.loops = s.loops ∧
      (∀ m, m < n → s'.calls m = s.calls m ∧ s'.sent m = s.sent m) ∧
      ∀ m, n + k ≤ m → s'.calls m = none := by
  induction k generalizing s n with
  | zero =>
    exact ⟨s, rfl, (UInt16.add_zero _).symm, rfl, rfl, rfl, fun m _ => ⟨rfl, rfl⟩, hcalls⟩
  | succ k ih =>
    have hfirst := run_abandoned hedns (hcalls n le_rfl) (hcallbacks _)
    have hcalls' : ∀ m, n + 1 ≤ m → (s.gaveUp query n).calls m = none := by
      intro m hm
      rw [(State.gaveUp_of_ne (Nat.ne_of_gt hm)).1]
      exact hcalls m (Nat.le_of_succ_le hm)
    obtain ⟨s', hrun, hid, hcb, hresponses, hloops, hold, hnew⟩ := ih hcalls' hcallbacks
    refine ⟨s', ?_, ?_, hcb, hresponses, hloops, ?_, ?_⟩
    · rw [List.range'_succ, List.flatMap_cons]
      exact run_append.2 ⟨_, hfirst, hrun⟩
    · rw [hid, State.gaveUp, UInt16.add_assoc, UInt16.add_comm 1, UInt16.ofNat_add]
      rfl
    · intro m hm
      obtain ⟨hcall, hsent⟩ := hold m (Nat.lt_succ_of_lt hm)
      rw [hcall, hsent]
      exact State.gaveUp_of_ne (Nat.ne_of_lt hm)
    · intro m hm
      exact hnew m (by omega)

end

section

variable {s : State} {query answer : Msg} {n answered : ℕ} (hresponse : s.responses n = none)
  (hloop : s.loops 0 = some .reading) (hgenuine : s.Genuine 0 answered answer)

include hresponse hloop hgenuine

theorem run_answer {queryId : UInt16} (hcall : s.calls n = some ⟨query, .waiting 0 queryId⟩)
    (hmatched : s.callbacks answer.id = some n) :
    ∃ s', run step s
        [.receive 0 answered answer, .deliver 0, .call n .done, .call n .finish] = some s' ∧
      s'.calls n = some ⟨query, .returned (.ok { answer with id := query.id })⟩ := by
  simp [run, step, callStep, hloop, hgenuine, hmatched, hresponse, hcall, State.goto]

/-- **A late answer is returned.**  Once the counter has come to the identifier that some query was
sent with, the answer to that query is returned for the next one, whatever that one asks. -/
theorem run_late (hedns : query.isEdns0 = none) (hcall : s.calls n = none)
    (hfree : s.callbacks (s.queryId + 1) = none) (hne : answered ≠ n)
    (hid : answer.id = s.queryId + 1) :
    ∃ s', run step s (asking query false n ++
        [.receive 0 answered answer, .deliver 0, .call n .done, .call n .finish]) = some s' ∧
      s'.calls n = some ⟨query, .returned (.ok { answer with id := query.id })⟩ := by
  have hstill : (s.asked query n).Genuine 0 answered answer := by
    obtain ⟨hcalls, hsent⟩ := @State.asked_of_ne s query n answered hne
    rw [State.Genuine, State.question?, hcalls, hsent]
    exact hgenuine
  have hmatched : (s.asked query n).callbacks answer.id = some n := by
    rw [hid]
    exact update_self _ _ _
  obtain ⟨s', hrun, hs'⟩ := run_answer (s := s.asked query n) hresponse hloop hstill
    (update_self _ _ _) hmatched
  exact ⟨s', run_append.2 ⟨_, run_asking hedns hcall hfree, hrun⟩, hs'⟩

end

/-- A query for one name is given up, and so are 65535 others; a query for another name follows, and
then the answer to the first one arrives. -/
def lateAnswer : List Event :=
  abandoned (queryFor 7 "a.") true 0 ++
    ((List.range' 1 65535).flatMap (abandoned (queryFor 7 "a.") false) ++
      (asking (queryFor 7 "b.") false 65536 ++
        [.receive 0 0 (answerTo (queryFor 7 "a.") 1), .deliver 0, .call 65536 .done,
          .call 65536 .finish]))

/-- **The answer to the first query is returned for the last one.** -/
theorem lateAnswer_returned : ∃ s, run step {} lateAnswer = some s ∧ ¬ AnswersRight s := by
  let opened : State := { loops := Function.update (fun _ => none) 0 (some .reading) }
  have hfirst : run step {} (abandoned (queryFor 7 "a.") true 0) =
      some (opened.gaveUp (queryFor 7 "a.") 0) :=
    (run_abandoned_created rfl rfl).trans (run_abandoned rfl rfl rfl)
  -- Of the first query, it is known with which identifier it was sent.
  have hcalls : ∀ m, 1 ≤ m → (opened.gaveUp (queryFor 7 "a.") 0).calls m = none := by
    intro m hm
    exact (State.gaveUp_of_ne (Nat.ne_of_gt hm)).1
  obtain ⟨s, hrun, hid, hcallbacks, hresponses, hloops, hold, hnew⟩ :=
    @run_abandonedQueries (opened.gaveUp (queryFor 7 "a.") 0) (queryFor 7 "a.") 1 rfl 65535 hcalls
      fun _ => rfl
  obtain ⟨hcall, hsent⟩ := hold 0 Nat.one_pos
  have hround : s.queryId + 1 = 1 := by
    rw [hid]
    decide
  have hgenuine : s.Genuine 0 0 (answerTo (queryFor 7 "a.") 1) := by
    rw [State.Genuine, State.question?, hcall, hsent]
    exact ⟨rfl, rfl⟩
  obtain ⟨s', hlate, hs'⟩ := @run_late s (queryFor 7 "b.") (answerTo (queryFor 7 "a.") 1) 65536 0
    (by rw [hresponses]; rfl) (by rw [hloops]; rfl) hgenuine rfl (hnew 65536 le_rfl)
    (by rw [hcallbacks]; rfl) (by decide) hround.symm
  refine ⟨s', run_append.2 ⟨_, hfirst, run_append.2 ⟨s, hrun, hlate⟩⟩, fun hright => ?_⟩
  have hquestion := hright 65536 _ _ hs' rfl
  exact absurd hquestion (by decide)

end SingBox.UDP
