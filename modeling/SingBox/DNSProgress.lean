/-
**The retry loops of the DNS router make progress** (`dns/router.go`).

`matchDNS` returns the index of the rule that it has stopped at, and is called again with it; the
index `-1` stands for the beginning of the list and for its end.  Beside the run of a loop we keep
what it does: a rule is only left behind for the rules below it, and nothing is left behind after
the default server.

* `DNSRouter.tracedFrom_fst`, `DNSRouter.tracedExchange_fst`, `DNSRouter.tracedLookup_fst` — what a
  loop does is recorded and changes nothing;
* `DNSRouter.exists_tracedFrom` — a loop ends, and progresses from where it starts;
* `DNSRouter.queries_progress` — **`Exchange` and `Lookup` end, and progress**.
-/

import SingBox.DNSRouter

namespace SingBox.DNSRouter

open List

/-! ### What a loop does -/

/-- The loop looks at a rule, or asks a server. -/
inductive QueryEvent where
  | consult (index : ℕ)
  | ask (attempt : Attempt)

namespace QueryEvent

/-- The rule that is looked at. -/
def consulted? : QueryEvent → Option ℕ
  | .consult index => some index
  | .ask _ => none

/-- The attempt for which a server is asked. -/
def asked? : QueryEvent → Option Attempt
  | .consult _ => none
  | .ask attempt => some attempt

end QueryEvent

section

variable {β : Type} (env : Environment) (router : DNSRouter)

/-- The rules that the loop of `matchDNS` looks at, from `index` on. -/
def consultedFrom (kind : QueryKind) : ℕ → List DNSRouterRule → InboundContext → List ℕ
  | _, [], _ => []
  | index, r :: rs, metadata =>
    index ::
      match router.visit env kind r metadata with
      | (.pass, metadata) => consultedFrom kind (index + 1) rs metadata
      | (.fold _, metadata) => consultedFrom kind (index + 1) rs metadata
      | (.serve _ _, _) => []
      | (.stop, _) => []

/-- One call of `matchDNS`. -/
def consultEvents (kind : QueryKind) (start : ℕ) (metadata : InboundContext) : List QueryEvent :=
  (router.consultedFrom env kind start (router.rules.drop start) metadata).map .consult

/-- The loop of `queryFrom`, with what it does. -/
def tracedFrom (loop : QueryLoop β) (caller : DNSQueryOptions) :
    ℕ → ℕ → ℕ → InboundContext → Option (QueryRun β × List QueryEvent)
  | 0, _, _, _ => none
  | fuel + 1, n, start, metadata =>
    let matched := router.matchDNS env loop.toQueryKind start metadata caller
    let consulted := router.consultEvents env loop.toQueryKind start metadata
    match matched.rule.filter fun rule => loop.stops rule.2.action with
    | some (index, rule) => some (⟨[], .stopped index rule⟩, consulted)
    | none =>
      let attempt : Attempt := ⟨matched.rule, matched.transport,
        matched.options.fillStrategy router.defaultDomainStrategy⟩
      let answer := loop.ask n attempt
      if loop.retry attempt answer then
        (tracedFrom loop caller fuel (n + 1) attempt.next matched.metadata).map fun traced =>
          ({ traced.1 with skipped := attempt :: traced.1.skipped },
            consulted ++ .ask attempt :: traced.2)
      else some (⟨[], .used attempt answer⟩, consulted ++ [.ask attempt])

/-- What `Exchange` and `Lookup` do for a query with one question. -/
def tracedRoute (loop : QueryLoop β) (caller : DNSQueryOptions) (metadata : InboundContext) :
    Option (Routed β × List QueryEvent) :=
  match caller.transport with
  | some transport =>
    let attempt := router.direct transport caller
    some (.direct attempt (loop.ask 0 attempt), [.ask attempt])
  | none =>
    (router.tracedFrom env loop caller (router.rules.length + 1) 0 0 metadata).map fun traced =>
      (.byRules traced.1, traced.2)

/-- `Exchange`, with what it does. -/
def tracedExchange {ρ : Type} (client : ExchangeClient ρ) (questions : List DNSQuestion)
    (metadata : InboundContext) (caller : DNSQueryOptions) :
    Option (Routed (Except ClientError ρ × Bool) × List QueryEvent) :=
  match questions with
  | [question] =>
    router.tracedRoute env (exchangeLoop (isAddressQuery questions) client) caller
      (metadata.forExchange question)
  | _ => some (.formatError, [])

/-- `Lookup`, with what it does. -/
def tracedLookup (client : ℕ → Attempt → List Addr × Option ClientError) (domain : GoString)
    (metadata : InboundContext) (caller : DNSQueryOptions) :
    Option (Routed (List Addr × Option ClientError) × List QueryEvent) :=
  router.tracedRoute env (lookupLoop client) caller (metadata.forLookup domain)

end

/-! ### The record changes nothing -/

section

variable {β : Type} {env : Environment} {router : DNSRouter} {loop : QueryLoop β}
  {caller : DNSQueryOptions}

theorem tracedFrom_fst (fuel n start : ℕ) (metadata : InboundContext) :
    (router.tracedFrom env loop caller fuel n start metadata).map Prod.fst =
      router.queryFrom env loop caller fuel n start metadata := by
  induction fuel generalizing n start metadata with
  | zero => rfl
  | succ fuel ih =>
    unfold tracedFrom queryFrom
    generalize router.matchDNS env loop.toQueryKind start metadata caller = matched
    dsimp only
    cases matched.rule.filter fun rule => loop.stops rule.2.action with
    | some rule => rfl
    | none =>
      dsimp only
      split
      · rw [← ih, Option.map_map, Option.map_map]
        rfl
      · rfl

variable (metadata : InboundContext)

theorem tracedRoute_fst (hcaller : caller.transport = none) :
    (router.tracedRoute env loop caller metadata).map Prod.fst =
      (router.query env loop caller metadata).map .byRules := by
  rw [tracedRoute, hcaller, query, ← tracedFrom_fst, Option.map_map, Option.map_map]
  rfl

theorem tracedExchange_fst {ρ : Type} (client : ExchangeClient ρ) (questions : List DNSQuestion) :
    (router.tracedExchange env client questions metadata caller).map Prod.fst =
      router.exchange env client questions metadata caller := by
  match questions with
  | [] => rfl
  | [question] =>
    rw [tracedExchange, exchange]
    dsimp only
    cases hcaller : caller.transport with
    | none => exact tracedRoute_fst _ hcaller
    | some transport =>
      rw [tracedRoute, hcaller]
      rfl
  | _ :: _ :: _ => rfl

theorem tracedLookup_fst (client : ℕ → Attempt → List Addr × Option ClientError)
    (domain : GoString) :
    (router.tracedLookup env client domain metadata caller).map Prod.fst =
      router.lookup env client domain metadata caller := by
  unfold tracedLookup lookup
  dsimp only
  cases hcaller : caller.transport with
  | none => exact tracedRoute_fst _ hcaller
  | some transport =>
    rw [tracedRoute, hcaller]
    rfl

end

/-! ### Progress -/

/-- The rules that are looked at, and the places in the list of those for which a server is asked.
The default server has the place after all rules. -/
def consulted (events : List QueryEvent) : List ℕ := events.filterMap QueryEvent.consulted?

def asked (router : DNSRouter) (events : List QueryEvent) : List ℕ :=
  (events.filterMap QueryEvent.asked?).map router.attemptPosition

/-- **Progress from a rule on**: the rules that are looked at come in the order of the list, and so
do the servers that are asked, so that there is at most one for a rule and the default server comes
last, if at all. -/
structure ProgressesFrom (router : DNSRouter) (start : ℕ) (events : List QueryEvent) : Prop where
  consulted_increasing : (consulted events).Pairwise (· < ·)
  consulted_range : ∀ index ∈ consulted events, start ≤ index ∧ index < router.rules.length
  asked_increasing : (asked router events).Pairwise (· < ·)
  asked_range : ∀ place ∈ asked router events, start ≤ place ∧ place ≤ router.rules.length

/-- **Progress**, with no more than one exchange for each rule and one for the default server. -/
structure Progresses (router : DNSRouter) (events : List QueryEvent) : Prop
    extends ProgressesFrom router 0 events where
  asked_le : (events.filterMap QueryEvent.asked?).length ≤ router.rules.length + 1

theorem consulted_append (events events' : List QueryEvent) :
    consulted (events ++ events') = consulted events ++ consulted events' :=
  filterMap_append

theorem asked_append (router : DNSRouter) (events events' : List QueryEvent) :
    asked router (events ++ events') = asked router events ++ asked router events' := by
  rw [asked, filterMap_append, map_append]
  rfl

theorem consulted_map_consult (indices : List ℕ) : consulted (indices.map .consult) = indices := by
  induction indices with
  | nil => rfl
  | cons index indices ih => exact congrArg (index :: ·) ih

theorem asked_map_consult (router : DNSRouter) (indices : List ℕ) :
    asked router (indices.map .consult) = [] := by
  induction indices with
  | nil => rfl
  | cons index indices ih => exact ih

theorem length_le_of_increasing {l : List ℕ} {n : ℕ} (h : l.Pairwise (· < ·))
    (hrange : ∀ i ∈ l, i ≤ n) : l.length ≤ n + 1 := by
  have hnodup : l.Nodup := h.imp fun hlt => ne_of_lt hlt
  have hsubset : l ⊆ List.range (n + 1) := by
    intro i hi
    have hle := hrange i hi
    rw [mem_range]
    omega
  have hlen := (hnodup.subperm hsubset).length_le
  rwa [length_range] at hlen

theorem ProgressesFrom.progresses {router : DNSRouter} {events : List QueryEvent}
    (h : ProgressesFrom router 0 events) : Progresses router events where
  toProgressesFrom := h
  asked_le := by
    have hlen := length_le_of_increasing h.asked_increasing fun i hi => (h.asked_range i hi).2
    rwa [asked, length_map] at hlen

section

variable {env : Environment} {router : DNSRouter} {kind : QueryKind}

/-- One call of `matchDNS` looks at the rules in their order, up to the one that it returns. -/
theorem consultedFrom_spec (index : ℕ) (rs : List DNSRouterRule) (metadata : InboundContext)
    (options : DNSQueryOptions) :
    (router.consultedFrom env kind index rs metadata).Pairwise (· < ·) ∧
      ∀ i ∈ router.consultedFrom env kind index rs metadata, index ≤ i ∧ i < index + rs.length ∧
        i ≤ position (index + rs.length)
          (router.matchDNSFrom env kind index rs metadata options).rule := by
  induction rs generalizing index metadata options with
  | nil => exact ⟨.nil, by simp [consultedFrom]⟩
  | cons r rs ih =>
    have hcount : index + (r :: rs).length = index + 1 + rs.length := by
      rw [length_cons]
      omega
    rw [hcount]
    unfold consultedFrom matchDNSFrom
    -- the rules below the first one come after it
    have hcons : ∀ (l : List ℕ) (place : ℕ), index ≤ place → l.Pairwise (· < ·) →
        (∀ i ∈ l, index + 1 ≤ i ∧ i < index + 1 + rs.length ∧ i ≤ place) →
        (index :: l).Pairwise (· < ·) ∧
          ∀ i ∈ index :: l, index ≤ i ∧ i < index + 1 + rs.length ∧ i ≤ place := by
      intro l place hplace hl hrange
      refine ⟨List.pairwise_cons.2 ⟨fun i hi => ?_, hl⟩, fun i hi => ?_⟩
      · have hi' := hrange i hi
        omega
      · rcases List.mem_cons.1 hi with rfl | hi
        · exact ⟨le_rfl, by omega, hplace⟩
        · have hi' := hrange i hi
          exact ⟨by omega, hi'.2⟩
    have hplace : ∀ metadata options, index ≤ position (index + 1 + rs.length)
        (router.matchDNSFrom env kind (index + 1) rs metadata options).rule := by
      intro metadata options
      obtain ⟨n, hfound⟩ := @exists_found env router kind (index + 1) rs metadata options
      rw [hfound.position_eq]
      omega
    rcases router.visit env kind r metadata with ⟨verdict, metadata'⟩
    cases verdict with
    | pass =>
      obtain ⟨hl, hrange⟩ := ih (index + 1) metadata' options
      exact hcons _ _ (hplace _ _) hl hrange
    | fold action =>
      obtain ⟨hl, hrange⟩ := ih (index + 1) metadata' (options.apply action)
      exact hcons _ _ (hplace _ _) hl hrange
    | serve transport action | stop => exact hcons [] index le_rfl .nil (by simp)

end

section

variable {β : Type} {env : Environment} {router : DNSRouter} {loop : QueryLoop β}
  {caller : DNSQueryOptions}

theorem progressesFrom_consult (kind : QueryKind) {start : ℕ} (hstart : start ≤ router.rules.length)
    (metadata : InboundContext) :
    ProgressesFrom router start (router.consultEvents env kind start metadata) := by
  obtain ⟨hincreasing, hrange⟩ := @consultedFrom_spec env router kind start
    (router.rules.drop start) metadata {}
  rw [add_length_drop hstart] at hrange
  refine ⟨?_, ?_, ?_, ?_⟩
  · rw [consultEvents, consulted_map_consult]
    exact hincreasing
  · rw [consultEvents, consulted_map_consult]
    intro i hi
    exact ⟨(hrange i hi).1, (hrange i hi).2.1⟩
  · rw [consultEvents, asked_map_consult]
    exact .nil
  · rw [consultEvents, asked_map_consult]
    simp

theorem ProgressesFrom.cons {kind : QueryKind} {start next : ℕ} {metadata : InboundContext}
    {attempt : Attempt} {events : List QueryEvent} (hstart : start ≤ router.rules.length)
    (hattempt : attempt.rule = (router.matchDNS env kind start metadata caller).rule)
    (hnext : router.attemptPosition attempt < next) (h : ProgressesFrom router next events) :
    ProgressesFrom router start
      (router.consultEvents env kind start metadata ++ .ask attempt :: events) := by
  obtain ⟨hincreasing, hrange⟩ := @consultedFrom_spec env router kind start
    (router.rules.drop start) metadata caller
  obtain ⟨-, hplace, -⟩ := round_spec env router kind start hstart metadata caller
  have hcount := add_length_drop hstart
  rw [hcount] at hrange
  have hposition : position router.rules.length
      (router.matchDNSFrom env kind start (router.rules.drop start) metadata caller).rule =
        router.attemptPosition attempt := by
    rw [attemptPosition, hattempt]
    rfl
  rw [hposition] at hrange
  rw [← hattempt] at hplace
  have hle : router.attemptPosition attempt ≤ router.rules.length := by
    obtain ⟨n, hfound⟩ := @exists_found env router kind start (router.rules.drop start) metadata
      caller
    have hn := hfound.le_length
    rw [length_drop] at hn
    rw [← hposition, ← hcount, hfound.position_eq]
    omega
  have hconsulted : consulted (router.consultEvents env kind start metadata ++
      .ask attempt :: events) =
        router.consultedFrom env kind start (router.rules.drop start) metadata ++
          consulted events := by
    rw [consulted_append, consultEvents, consulted_map_consult]
    rfl
  have hasked : asked router (router.consultEvents env kind start metadata ++
      .ask attempt :: events) = router.attemptPosition attempt :: asked router events := by
    rw [asked_append, consultEvents, asked_map_consult]
    rfl
  refine ⟨?_, ?_, ?_, ?_⟩
  · rw [hconsulted, pairwise_append]
    refine ⟨hincreasing, h.consulted_increasing, fun i hi j hj => ?_⟩
    have hi' := hrange i hi
    have hj' := h.consulted_range j hj
    omega
  · rw [hconsulted]
    intro i hi
    rcases List.mem_append.1 hi with hi | hi
    · exact ⟨(hrange i hi).1, (hrange i hi).2.1⟩
    · have hi' := h.consulted_range i hi
      exact ⟨hplace.trans (hnext.le.trans hi'.1), hi'.2⟩
  · rw [hasked, pairwise_cons]
    refine ⟨fun j hj => ?_, h.asked_increasing⟩
    have hj' := h.asked_range j hj
    omega
  · rw [hasked]
    intro j hj
    rcases List.mem_cons.1 hj with rfl | hj
    · exact ⟨hplace, hle⟩
    · have hj' := h.asked_range j hj
      exact ⟨hplace.trans (hnext.le.trans hj'.1), hj'.2⟩

theorem progressesFrom_nil (router : DNSRouter) (start : ℕ) : ProgressesFrom router start [] :=
  ⟨.nil, by simp [consulted], .nil, by simp [asked]⟩

theorem exists_tracedFrom (fuel n start : ℕ) (hstart : start ≤ router.rules.length)
    (hfuel : router.rules.length < fuel + start) (metadata : InboundContext) :
    ∃ run events, router.tracedFrom env loop caller fuel n start metadata = some (run, events) ∧
      ProgressesFrom router start events := by
  -- a round that is given up ends at a rule, so the next one has fewer rules to walk over
  induction fuel generalizing n start metadata with
  | zero => omega
  | succ fuel ih =>
    obtain ⟨-, -, hrule, -⟩ := round_spec env router loop.toQueryKind start hstart metadata caller
    have hconsult := @progressesFrom_consult env router loop.toQueryKind start hstart metadata
    have hcons := @ProgressesFrom.cons env router caller loop.toQueryKind start
    unfold tracedFrom
    dsimp only
    cases (router.matchDNS env loop.toQueryKind start metadata caller).rule.filter
      fun rule => loop.stops rule.2.action with
    | some rule => exact ⟨_, _, rfl, hconsult⟩
    | none =>
      dsimp only
      split
      case isTrue hretry =>
        obtain ⟨⟨index, rule⟩, hsome⟩ :=
          Option.isSome_iff_exists.1 (loop.isSome_of_retry _ _ hretry)
        dsimp only at hsome
        obtain ⟨hindex, hlt⟩ := hrule index rule hsome
        have hnext : ∀ transport options, Attempt.next
            ⟨(router.matchDNS env loop.toQueryKind start metadata caller).rule, transport,
              options⟩ = index + 1 := by
          intro transport options
          simp only [Attempt.next, hsome]
        have hplace : ∀ transport options, router.attemptPosition
            ⟨(router.matchDNS env loop.toQueryKind start metadata caller).rule, transport,
              options⟩ = index := by
          intro transport options
          simp only [attemptPosition, position, hsome]
        obtain ⟨run, events, hrun, hprogress⟩ := ih (n + 1) (index + 1) hlt (by omega)
          (router.matchDNS env loop.toQueryKind start metadata caller).metadata
        rw [hnext, hrun]
        refine ⟨_, _, rfl, hcons hstart rfl ?_ hprogress⟩
        rw [hplace]
        exact Nat.lt_succ_self index
      case isFalse =>
        refine ⟨_, _, rfl, hcons hstart rfl (Nat.lt_succ_self _) (progressesFrom_nil router _)⟩

theorem exists_tracedRoute (metadata : InboundContext) :
    ∃ routed events, router.tracedRoute env loop caller metadata = some (routed, events) ∧
      Progresses router events := by
  rw [tracedRoute]
  cases caller.transport with
  | some transport =>
    refine ⟨_, _, rfl, ProgressesFrom.progresses ⟨.nil, ?_, pairwise_singleton _ _, ?_⟩⟩
    · simp [consulted, QueryEvent.consulted?]
    · -- a server that the caller has named stands where the default server does
      intro place hplace
      have hlast : place = router.rules.length := List.mem_singleton.1 hplace
      omega
  | none =>
    obtain ⟨run, events, hrun, hprogress⟩ := @exists_tracedFrom β env router loop caller
      (router.rules.length + 1) 0 0 (Nat.zero_le _) (by omega) metadata
    dsimp only
    rw [hrun]
    exact ⟨_, _, rfl, hprogress.progresses⟩

end

/-- **`Exchange` and `Lookup` make progress.**  For every list of rules, every query and every
sequence of answers they end; the rules are looked at in the order of the list, at most one server
is asked for a rule and the default server once, after all others. -/
theorem queries_progress {ρ : Type} (env : Environment) (router : DNSRouter)
    (metadata : InboundContext) (caller : DNSQueryOptions) :
    (∀ (client : ExchangeClient ρ) (questions : List DNSQuestion), ∃ routed events,
      router.exchange env client questions metadata caller = some routed ∧
        router.tracedExchange env client questions metadata caller = some (routed, events) ∧
          Progresses router events) ∧
    ∀ (client : ℕ → Attempt → List Addr × Option ClientError) (domain : GoString),
      ∃ routed events, router.lookup env client domain metadata caller = some routed ∧
        router.tracedLookup env client domain metadata caller = some (routed, events) ∧
          Progresses router events := by
  constructor
  · intro client questions
    obtain ⟨routed, events, htraced, hprogress⟩ : ∃ routed events,
        router.tracedExchange env client questions metadata caller = some (routed, events) ∧
          Progresses router events := by
      match questions with
      | [] => exact ⟨_, _, rfl, (progressesFrom_nil router 0).progresses⟩
      | [question] => exact exists_tracedRoute _
      | _ :: _ :: _ => exact ⟨_, _, rfl, (progressesFrom_nil router 0).progresses⟩
    refine ⟨routed, events, ?_, htraced, hprogress⟩
    rw [← tracedExchange_fst, htraced]
    rfl
  · intro client domain
    obtain ⟨routed, events, htraced, hprogress⟩ :=
      @exists_tracedRoute _ env router (lookupLoop client) caller (metadata.forLookup domain)
    refine ⟨routed, events, ?_, htraced, hprogress⟩
    rw [← tracedLookup_fst, tracedLookup, htraced]
    rfl

end SingBox.DNSRouter
