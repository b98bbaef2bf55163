/-
**The DNS router** (`dns/router.go`, the DNS actions of `route/rule/rule_action.go`).

A query walks down the list of DNS rules.  `matchDNS` folds the actions of matching `route-options`
rules into the query options until a rule names a server, stops the query, or the list ends with the
default server.  `Exchange` and `Lookup` ask that server and, if the address filter of the rule
rejects the response or the rule is to be bypassed on failure, call `matchDNS` again from the next
rule on. The two loops differ only in what they take for a failure, so they are two instances of one
loop.

Each round of the loop starts from a copy of the caller's options.  What the `route-options` rules
above a skipped rule have set is therefore lost, unless something set it again.

* `DNSRouter.exists_query` — **the loop ends**, and the options it ends with are folded from the
  last restart on;
* `foldl_apply_eq_iff` — when a fold of options does not depend on its first part;
* `DNSRouter.usesDocumented_iff_nothingLost` — **the documented options are used exactly when
  nothing is lost**, for `Exchange` and for `Lookup`.
-/

import SingBox.RuleDNS

namespace SingBox

open List GoString Nat

/-! ### Options and actions -/

/-- `C.DomainStrategy`. -/
inductive DomainStrategy where
  | asIS
  | preferIPv4
  | preferIPv6
  | ipv4Only
  | ipv6Only
  deriving DecidableEq

/-- `adapter.DNSTransport`; a legacy transport brings a strategy and a client subnet. -/
structure DNSTransport where
  tag : GoString
  isFakeIP : Bool := false
  legacy : Option (DomainStrategy × Prefix) := none
  deriving DecidableEq

/-- `adapter.DNSQueryOptions`. -/
@[ext] structure DNSQueryOptions where
  transport : Option DNSTransport := none
  (strategy lookupStrategy : DomainStrategy := .asIS)
  disableCache : Bool := false
  rewriteTTL : Option UInt32 := none
  clientSubnet : Prefix := ⟨.zero, 0⟩
  deriving DecidableEq

/-- `rule.RuleActionDNSRouteOptions`. -/
structure DNSRouteOptions where
  strategy : DomainStrategy := .asIS
  disableCache : Bool := false
  rewriteTTL : Option UInt32 := none
  clientSubnet : Prefix := ⟨.zero, 0⟩
  bypassIfFailed : Bool := false

/-- The methods of a `reject` action. -/
inductive RejectMethod where
  | default
  | drop
  | reply
  deriving DecidableEq

/-- The actions of a DNS rule.  A nested rule has none. -/
inductive DNSRuleAction where
  | none
  | route (server : GoString) (options : DNSRouteOptions)
  | routeOptions (options : DNSRouteOptions)
  | reject (method : RejectMethod)
  | predefined

/-- A route to a FakeIP server never uses the cache. -/
def DNSRouteOptions.routedTo (action : DNSRouteOptions) (transport : DNSTransport) :
    DNSRouteOptions :=
  { action with disableCache := transport.isFakeIP || action.disableCache }

namespace DNSQueryOptions

/-- The four assignments with which `matchDNS` puts an action into the options. -/
def apply (options : DNSQueryOptions) (action : DNSRouteOptions) : DNSQueryOptions :=
  let options := if action.strategy ≠ .asIS then { options with strategy := action.strategy }
    else options
  let options := if action.disableCache then { options with disableCache := true } else options
  let options := if action.rewriteTTL.isSome then { options with rewriteTTL := action.rewriteTTL }
    else options
  if action.clientSubnet.isValid then { options with clientSubnet := action.clientSubnet }
  else options

/-- What a legacy transport brings fills what is still open. -/
def fillLegacy (options : DNSQueryOptions) (transport : DNSTransport) : DNSQueryOptions :=
  match transport.legacy with
  | none => options
  | some (strategy, clientSubnet) =>
    let options := if options.strategy = .asIS then { options with strategy := strategy }
      else options
    if !options.clientSubnet.isValid then { options with clientSubnet := clientSubnet }
    else options

/-- The default strategy fills what is still open. -/
def fillStrategy (options : DNSQueryOptions) (strategy : DomainStrategy) : DNSQueryOptions :=
  if options.strategy = .asIS then { options with strategy := strategy } else options

/-- All that is filled in before a server, if there is one, is asked. -/
def fill (options : DNSQueryOptions) (transport : Option DNSTransport)
    (strategy : DomainStrategy) : DNSQueryOptions :=
  (match transport with
    | none => options
    | some transport => options.fillLegacy transport).fillStrategy strategy

end DNSQueryOptions

open DNSQueryOptions

/-! ### When a fold of options does not depend on its first part -/

/-- The options that an action can set. -/
inductive OptionField where
  | strategy
  | disableCache
  | rewriteTTL
  | clientSubnet

/-- Whether an action sets an option. -/
def DNSRouteOptions.sets (action : DNSRouteOptions) : OptionField → Bool
  | .strategy => action.strategy ≠ .asIS
  | .disableCache => action.disableCache
  | .rewriteTTL => action.rewriteTTL.isSome
  | .clientSubnet => action.clientSubnet.isValid

/-- Two option records agree on an option. -/
def OptionField.Agree : OptionField → DNSQueryOptions → DNSQueryOptions → Prop
  | .strategy, a, b => a.strategy = b.strategy
  | .disableCache, a, b => a.disableCache = b.disableCache
  | .rewriteTTL, a, b => a.rewriteTTL = b.rewriteTTL
  | .clientSubnet, a, b => a.clientSubnet = b.clientSubnet

namespace OptionField

variable {f : OptionField} {a b c : DNSQueryOptions}

theorem Agree.symm (h : f.Agree a b) : f.Agree b a := by
  cases f <;> exact Eq.symm h

theorem Agree.trans (h : f.Agree a b) (h' : f.Agree b c) : f.Agree a c := by
  cases f <;> exact Eq.trans h h'

theorem agree_apply_of_sets {action : DNSRouteOptions} (h : action.sets f) :
    f.Agree (a.apply action) (b.apply action) := by
  cases f <;> simp only [DNSRouteOptions.sets, decide_eq_true_eq] at h <;> grind [Agree, apply]

theorem agree_apply_self {action : DNSRouteOptions} (h : action.sets f = false) :
    f.Agree (a.apply action) a := by
  cases f <;> simp only [DNSRouteOptions.sets, decide_eq_false_iff_not, not_not] at h <;>
    grind [Agree, apply]

theorem Agree.apply (h : f.Agree a b) (action : DNSRouteOptions) :
    f.Agree (a.apply action) (b.apply action) := by
  cases hset : action.sets f with
  | true => exact agree_apply_of_sets hset
  | false => exact ((agree_apply_self hset).trans h).trans (agree_apply_self hset).symm

theorem Agree.foldl (h : f.Agree a b) (actions : List DNSRouteOptions) :
    f.Agree (actions.foldl .apply a) (actions.foldl .apply b) := by
  induction actions generalizing a b with
  | nil => exact h
  | cons action actions ih => exact ih (h.apply action)

variable {actions : List DNSRouteOptions}

theorem agree_foldl_of_sets (h : ∃ action ∈ actions, action.sets f) :
    f.Agree (actions.foldl .apply a) (actions.foldl .apply b) := by
  induction actions generalizing a b with
  | nil => simp at h
  | cons action actions ih =>
    rcases (exists_mem_cons_iff _ _ _).1 h with hhead | htail
    · exact (agree_apply_of_sets hhead).foldl actions
    · exact ih htail

theorem agree_foldl_self
    (h : ¬∃ action ∈ actions, action.sets f) : f.Agree (actions.foldl .apply a) a := by
  induction actions generalizing a with
  | nil => cases f <;> rfl
  | cons action actions ih =>
    rw [exists_mem_cons_iff, not_or, Bool.not_eq_true] at h
    exact (ih h.2).trans (agree_apply_self h.1)

theorem Agree.fill (h : f.Agree a b) (transport : Option DNSTransport) (strategy : DomainStrategy) :
    f.Agree (a.fill transport strategy) (b.fill transport strategy) := by
  rcases transport with _ | ⟨tag, isFakeIP, _ | ⟨legacyStrategy, legacySubnet⟩⟩ <;> cases f <;>
    grind [Agree, fill, fillLegacy, fillStrategy]

end OptionField

open OptionField

/-- What no action can set. -/
def DNSQueryOptions.fixed (options : DNSQueryOptions) : Option DNSTransport × DomainStrategy :=
  (options.transport, options.lookupStrategy)

variable (options : DNSQueryOptions)

theorem fixed_apply (action : DNSRouteOptions) : (options.apply action).fixed = options.fixed := by
  grind [fixed, apply]

theorem fixed_foldl (actions : List DNSRouteOptions) :
    (actions.foldl .apply options).fixed = options.fixed := by
  induction actions generalizing options with
  | nil => rfl
  | cons action actions ih => exact (ih _).trans (fixed_apply options action)

theorem fixed_fill (transport : Option DNSTransport)
    (strategy : DomainStrategy) : (options.fill transport strategy).fixed = options.fixed := by
  rcases transport with _ | ⟨tag, isFakeIP, _ | ⟨legacyStrategy, legacySubnet⟩⟩ <;>
    grind [fixed, fill, fillLegacy, fillStrategy]

theorem eq_iff_agree {a b : DNSQueryOptions} (hfixed : a.fixed = b.fixed) :
    a = b ↔ ∀ f : OptionField, f.Agree a b := by
  constructor
  · intro h f
    subst h
    cases f <;> rfl
  · intro h
    have htransport : a.transport = b.transport := congrArg Prod.fst hfixed
    have hlookup : a.lookupStrategy = b.lookupStrategy := congrArg Prod.snd hfixed
    exact DNSQueryOptions.ext htransport (h .strategy) hlookup (h .disableCache) (h .rewriteTTL)
      (h .clientSubnet)

/-- What the actions `lost` set is overridden: each option is set again by one of the actions
`kept`, or the server is asked with the value that it would have been asked with anyway. -/
def Overridden (caller : DNSQueryOptions) (transport : Option DNSTransport)
    (strategy : DomainStrategy) (lost kept : List DNSRouteOptions) : Prop :=
  ∀ f : OptionField, (∃ action ∈ kept, action.sets f) ∨
    f.Agree ((lost.foldl .apply caller).fill transport strategy) (caller.fill transport strategy)

theorem foldl_apply_eq_iff (caller : DNSQueryOptions) (transport : Option DNSTransport)
    (strategy : DomainStrategy) (lost kept : List DNSRouteOptions) :
    (kept.foldl .apply caller).fill transport strategy =
        ((lost ++ kept).foldl .apply caller).fill transport strategy ↔
      Overridden caller transport strategy lost kept := by
  rw [foldl_append, eq_iff_agree (by simp only [fixed_fill, fixed_foldl])]
  refine forall_congr' fun f => ?_
  by_cases hset : ∃ action ∈ kept, action.sets f
  · have hagree : f.Agree (kept.foldl .apply caller)
        (kept.foldl .apply (lost.foldl .apply caller)) :=
      agree_foldl_of_sets hset
    exact iff_of_true (hagree.fill transport strategy) (.inl hset)
  · have hcaller := (agree_foldl_self (a := caller) hset).fill transport strategy
    have hlost := (agree_foldl_self (a := lost.foldl .apply caller) hset).fill transport strategy
    constructor
    · intro h
      exact .inr ((hlost.symm.trans h.symm).trans hcaller)
    · intro h
      exact (hcaller.trans (h.resolve_left hset).symm).trans hlost.symm

/-! ### The router -/

/-- A rule of the router: its conditions and its action. -/
structure DNSRouterRule where
  rule : DNSRule
  action : DNSRuleAction

/-- `rule.BypassIfFailed`. -/
def DNSRouterRule.bypassIfFailed (r : DNSRouterRule) : Bool :=
  match r.action with
  | .route _ options => options.bypassIfFailed
  | _ => false

/-- `dns.Router`, with its transport manager. -/
structure DNSRouter where
  rules : List DNSRouterRule
  transport : GoString → Option DNSTransport
  defaultTransport : DNSTransport
  defaultDomainStrategy : DomainStrategy := .asIS

/-- What `matchDNS` is told about a query. -/
structure QueryKind where
  (allowFakeIP isAddressQuery : Bool)

/-- What `matchDNS` does at a rule: go on, fold its options, ask its server, or stop. -/
inductive Verdict where
  | pass
  | fold (action : DNSRouteOptions)
  | serve (transport : DNSTransport) (action : DNSRouteOptions)
  | stop

/-- What `matchDNS` returns, with the metadata it leaves behind. -/
structure MatchedDNS where
  transport : Option DNSTransport
  rule : Option (ℕ × DNSRouterRule)
  options : DNSQueryOptions
  metadata : InboundContext

/-- The metadata without what the rules write into it. -/
def InboundContext.withoutRuleCache (metadata : InboundContext) : InboundContext :=
  { metadata.resetRuleCache with ignoreDestinationIPCIDRMatch := false }

namespace DNSRouter

section

variable (env : Environment) (router : DNSRouter) (kind : QueryKind)

/-- The action of a rule that matches. -/
def verdict : DNSRuleAction → Verdict
  | .none => .pass
  | .route server options =>
    match router.transport server with
    | none => .pass
    | some transport =>
      if transport.isFakeIP && !kind.allowFakeIP then .pass else .serve transport options
  | .routeOptions options => .fold options
  | .reject _ => .stop
  | .predefined => .stop

/-- One rule in the loop of `matchDNS`. -/
def visit (r : DNSRouterRule) (metadata : InboundContext) : Verdict × InboundContext :=
  if r.rule.withAddressLimit && !kind.isAddressQuery then (.pass, metadata)
  else
    let result := r.rule.Match env metadata.resetRuleCache
    (if result.1 then router.verdict kind r.action else .pass, result.2)

/-- The loop of `matchDNS`, over the rules from `index` on. -/
def matchDNSFrom : ℕ → List DNSRouterRule → InboundContext → DNSQueryOptions → MatchedDNS
  | _, [], metadata, options =>
    ⟨some router.defaultTransport, none, options.fillLegacy router.defaultTransport, metadata⟩
  | index, r :: rs, metadata, options =>
    match router.visit env kind r metadata with
    | (.pass, metadata) => matchDNSFrom (index + 1) rs metadata options
    | (.fold action, metadata) => matchDNSFrom (index + 1) rs metadata (options.apply action)
    | (.serve transport action, metadata) =>
      ⟨some transport, some (index, r),
        (options.apply (action.routedTo transport)).fillLegacy transport, metadata⟩
    | (.stop, metadata) => ⟨none, some (index, r), options, metadata⟩

/-- `Router.matchDNS`, where `start` is the rule after `ruleIndex`. -/
def matchDNS (start : ℕ) (metadata : InboundContext) (options : DNSQueryOptions) : MatchedDNS :=
  router.matchDNSFrom env kind start (router.rules.drop start) metadata options

/-- The `route-options` actions of the matching rules among `rs`. -/
def foldedOptions (metadata : InboundContext) (rs : List DNSRouterRule) : List DNSRouteOptions :=
  rs.flatMap fun r =>
    match (router.visit env kind r metadata).1 with
    | .fold action => [action]
    | _ => []

end

/-- The action of the rule that a server comes from. -/
def ownOptions (rule : Option (ℕ × DNSRouterRule)) (transport : Option DNSTransport) :
    List DNSRouteOptions :=
  match transport, rule with
  | some transport, some (_, ⟨_, .route _ action⟩) => [action.routedTo transport]
  | _, _ => []

/-- Where a rule stands among `count` rules; without a rule, after all of them. -/
def position (count : ℕ) (rule : Option (ℕ × DNSRouterRule)) : ℕ :=
  match rule with
  | none => count
  | some (index, _) => index

section

variable {env : Environment} {router : DNSRouter} {kind : QueryKind} {options : DNSRouteOptions}

theorem verdict_eq_serve {action : DNSRuleAction} {transport : DNSTransport}
    (h : router.verdict kind action = .serve transport options) :
    ∃ server, action = .route server options := by
  cases action with
  | route server options' =>
    simp only [verdict] at h
    split at h
    · cases h
    · split at h
      · cases h
      · cases h
        exact ⟨server, rfl⟩
  | none => cases h
  | routeOptions options' => cases h
  | reject method => cases h
  | predefined => cases h

variable {r : DNSRouterRule} {metadata metadata' : InboundContext}

theorem visit_eq_serve {transport : DNSTransport}
    (h : (router.visit env kind r metadata).1 = .serve transport options) :
    ∃ server, r.action = .route server options := by
  unfold visit at h
  split at h
  · cases h
  · dsimp only at h
    split at h
    · exact verdict_eq_serve h
    · cases h

theorem visit_withoutRuleCache :
    (router.visit env kind r metadata).1 =
      (router.visit env kind r metadata.withoutRuleCache).1 := by
  unfold visit
  split <;> rfl

theorem withoutRuleCache_visit :
    (router.visit env kind r metadata).2.withoutRuleCache = metadata.withoutRuleCache := by
  unfold visit
  split <;> rfl

theorem foldedOptions_congr
    (h : metadata.withoutRuleCache = metadata'.withoutRuleCache) (rs : List DNSRouterRule) :
    router.foldedOptions env kind metadata rs = router.foldedOptions env kind metadata' rs := by
  unfold foldedOptions
  congr 1
  funext r
  rw [visit_withoutRuleCache, h, ← visit_withoutRuleCache]

theorem ownOptions_route {index : ℕ} {server : GoString}
    (h : r.action = .route server options) (transport : DNSTransport) :
    ownOptions (some (index, r)) (some transport) = [options.routedTo transport] := by
  obtain ⟨rule, action⟩ := r
  subst h
  rfl

/-- What a walk over `rs` that passes `n` of them has found: the options are those folded on the
way, with the action of the rule that it ended at. -/
structure Found (env : Environment) (router : DNSRouter) (kind : QueryKind) (index : ℕ)
    (rs : List DNSRouterRule) (metadata : InboundContext) (options : DNSQueryOptions)
    (matched : MatchedDNS) (n : ℕ) : Prop where
  metadata_eq : matched.metadata.withoutRuleCache = metadata.withoutRuleCache
  position_eq : position (index + rs.length) matched.rule = index + n
  le_length : n ≤ rs.length
  lt_length : matched.rule.isSome → n < rs.length
  options_eq : ∀ strategy : DomainStrategy, matched.options.fillStrategy strategy =
    ((router.foldedOptions env kind metadata (rs.take n) ++
      ownOptions matched.rule matched.transport).foldl .apply options).fill matched.transport
        strategy

theorem Found.cons {index n : ℕ} {rs : List DNSRouterRule} {options : DNSQueryOptions}
    {matched : MatchedDNS} (hmeta : metadata'.withoutRuleCache = metadata.withoutRuleCache)
    (h : Found env router kind (index + 1) rs metadata'
      ((router.foldedOptions env kind metadata [r]).foldl .apply options) matched n) :
    Found env router kind index (r :: rs) metadata options matched (n + 1) where
  metadata_eq := h.metadata_eq.trans hmeta
  position_eq := by
    have hcount : index + (r :: rs).length = index + 1 + rs.length := by
      rw [length_cons]
      omega
    rw [hcount, h.position_eq]
    omega
  le_length := succ_le_succ h.le_length
  lt_length hrule := succ_lt_succ (h.lt_length hrule)
  options_eq strategy := by
    have hsplit : router.foldedOptions env kind metadata ((r :: rs).take (n + 1)) =
        router.foldedOptions env kind metadata [r] ++
          router.foldedOptions env kind metadata' (rs.take n) := by
      rw [foldedOptions_congr hmeta, take_succ_cons]
      simp only [foldedOptions, flatMap_cons, flatMap_nil, append_nil]
    rw [h.options_eq, hsplit, append_assoc, ← foldl_append]

theorem foldedOptions_singleton :
    router.foldedOptions env kind metadata [r] =
      match (router.visit env kind r metadata).1 with
      | .fold action => [action]
      | _ => [] := by
  rw [foldedOptions, flatMap_cons, flatMap_nil, append_nil]

theorem exists_found (index : ℕ) (rs : List DNSRouterRule) (metadata : InboundContext)
    (options : DNSQueryOptions) :
    ∃ n, Found env router kind index rs metadata options
      (router.matchDNSFrom env kind index rs metadata options) n := by
  induction rs generalizing index metadata options with
  | nil => exact ⟨0, rfl, rfl, le_rfl, by simp [matchDNSFrom], fun _ => rfl⟩
  | cons r rs ih =>
    have hmeta : (router.visit env kind r metadata).2.withoutRuleCache =
        metadata.withoutRuleCache := withoutRuleCache_visit
    have hfold : router.foldedOptions env kind metadata [r] = _ := foldedOptions_singleton
    unfold matchDNSFrom
    rcases hvisit : router.visit env kind r metadata with ⟨verdict, metadata'⟩
    rw [hvisit] at hmeta hfold
    cases verdict with
    | pass =>
      obtain ⟨n, hn⟩ := ih (index + 1) metadata' options
      refine ⟨n + 1, .cons hmeta ?_⟩
      rw [hfold]
      exact hn
    | fold action =>
      obtain ⟨n, hn⟩ := ih (index + 1) metadata' (options.apply action)
      refine ⟨n + 1, .cons hmeta ?_⟩
      rw [hfold]
      exact hn
    | serve transport action =>
      obtain ⟨server, haction⟩ := visit_eq_serve (congrArg Prod.fst hvisit)
      refine ⟨0, hmeta, rfl, Nat.zero_le _, fun _ => succ_pos _, fun strategy => ?_⟩
      rw [ownOptions_route haction]
      rfl
    | stop => exact ⟨0, hmeta, rfl, Nat.zero_le _, fun _ => succ_pos _, fun _ => rfl⟩

end

end DNSRouter

/-! ### The retry loop -/

/-- One round of the loop: the server to ask and the options to ask it with. -/
structure Attempt where
  rule : Option (ℕ × DNSRouterRule)
  transport : Option DNSTransport
  options : DNSQueryOptions

namespace Attempt

/-- The rule after the one of the attempt; the index `-1` of no rule leads back to the first. -/
def next (attempt : Attempt) : ℕ :=
  match attempt.rule with
  | none => 0
  | some (index, _) => index + 1

/-- Whether `addressLimitResponseCheck` returns a check. -/
def hasResponseCheck (attempt : Attempt) : Bool :=
  match attempt.rule with
  | none => false
  | some (_, r) => r.rule.withAddressLimit

/-- Whether the rule is left when its server fails. -/
def bypassIfFailed (attempt : Attempt) : Bool :=
  match attempt.rule with
  | none => false
  | some (_, r) => r.bypassIfFailed

theorem isSome_rule_of_hasResponseCheck {attempt : Attempt}
    (h : attempt.hasResponseCheck) : attempt.rule.isSome := by
  unfold hasResponseCheck at h
  split at h
  · cases h
  · simp [*]

theorem isSome_rule_of_bypassIfFailed {attempt : Attempt}
    (h : attempt.bypassIfFailed) : attempt.rule.isSome := by
  unfold bypassIfFailed at h
  split at h
  · cases h
  · simp [*]

end Attempt

/-- What tells the loops of `Exchange` and `Lookup` apart: which actions end the query, how the
client answers the `n`-th attempt, and which answers make the loop go on.  Only a rule is ever left
behind, never the default server. -/
structure QueryLoop (β : Type) extends QueryKind where
  stops : DNSRuleAction → Bool
  ask : ℕ → Attempt → β
  retry : Attempt → β → Bool
  isSome_of_retry : ∀ attempt answer, retry attempt answer → attempt.rule.isSome

/-- How the loop ends: at a rule that stops the query, or with an answer. -/
inductive QueryEnd (β : Type) where
  | stopped (index : ℕ) (rule : DNSRouterRule)
  | used (attempt : Attempt) (answer : β)

/-- A run of the loop: the attempts that were given up, in order, and how it ended. -/
structure QueryRun (β : Type) where
  skipped : List Attempt
  ending : QueryEnd β

/-- The rule from which the last round of a run that began at `start` has walked. -/
def QueryRun.restart {β : Type} (run : QueryRun β) (start : ℕ) : ℕ :=
  run.skipped.foldl (fun _ attempt => attempt.next) start

namespace DNSRouter

variable {β : Type}

section

variable (env : Environment) (router : DNSRouter) (loop : QueryLoop β) (caller : DNSQueryOptions)

/-- The loop, with the number of rounds bounded by `fuel`. -/
def queryFrom : ℕ → ℕ → ℕ → InboundContext → Option (QueryRun β)
  | 0, _, _, _ => none
  | fuel + 1, n, start, metadata =>
    -- every round starts again from the caller's options
    let matched := router.matchDNS env loop.toQueryKind start metadata caller
    match matched.rule.filter fun rule => loop.stops rule.2.action with
    | some (index, rule) => some ⟨[], .stopped index rule⟩
    | none =>
      let attempt : Attempt := ⟨matched.rule, matched.transport,
        matched.options.fillStrategy router.defaultDomainStrategy⟩
      let answer := loop.ask n attempt
      if loop.retry attempt answer then
        (queryFrom fuel (n + 1) attempt.next matched.metadata).map fun run =>
          { run with skipped := attempt :: run.skipped }
      else some ⟨[], .used attempt answer⟩

/-- The loop from the first rule on, with a round for each rule and one for the default server. -/
def query (metadata : InboundContext) : Option (QueryRun β) :=
  router.queryFrom env loop caller (router.rules.length + 1) 0 0 metadata

/-- The actions of the `route-options` rules that match and stand between two positions. -/
def optionsBetween (kind : QueryKind) (metadata : InboundContext) (start stop : ℕ) :
    List DNSRouteOptions :=
  router.foldedOptions env kind metadata ((router.rules.take stop).drop start)

/-- Where the rule of an attempt stands. -/
def attemptPosition (attempt : Attempt) : ℕ := position router.rules.length attempt.rule

/-- The options with which the server of an attempt is documented to be asked: those of the caller,
folded with every matching `route-options` rule above the rule of the attempt and with its own
action. -/
def documentedOptions (kind : QueryKind) (metadata : InboundContext) (attempt : Attempt) :
    DNSQueryOptions :=
  ((router.optionsBetween env kind metadata 0 (router.attemptPosition attempt) ++
    ownOptions attempt.rule attempt.transport).foldl .apply caller).fill attempt.transport
      router.defaultDomainStrategy

end

variable {env : Environment} {router : DNSRouter} {loop : QueryLoop β} {caller : DNSQueryOptions}

/-- What is known of a run whose first round walks from `start`. -/
structure RunFound (env : Environment) (router : DNSRouter) (kind : QueryKind)
    (caller : DNSQueryOptions) (start : ℕ) (metadata : InboundContext) (run : QueryRun β) :
    Prop where
  restart_le : ∀ attempt answer, run.ending = .used attempt answer →
    run.restart start ≤ router.attemptPosition attempt
  options_eq : ∀ attempt answer, run.ending = .used attempt answer → attempt.options =
    ((router.optionsBetween env kind metadata (run.restart start)
      (router.attemptPosition attempt) ++ ownOptions attempt.rule attempt.transport).foldl .apply
        caller).fill attempt.transport router.defaultDomainStrategy

variable {metadata metadata' : InboundContext}

theorem optionsBetween_congr {kind : QueryKind}
    (h : metadata.withoutRuleCache = metadata'.withoutRuleCache) (start stop : ℕ) :
    router.optionsBetween env kind metadata start stop =
      router.optionsBetween env kind metadata' start stop :=
  foldedOptions_congr h _

theorem RunFound.cons {kind : QueryKind} {start : ℕ} {attempt : Attempt} {run : QueryRun β}
    (hmeta : metadata'.withoutRuleCache = metadata.withoutRuleCache)
    (h : RunFound env router kind caller attempt.next metadata' run) :
    RunFound env router kind caller start metadata
      { run with skipped := attempt :: run.skipped } where
  restart_le used answer hused := h.restart_le used answer hused
  options_eq used answer hused := by
    rw [h.options_eq used answer hused, optionsBetween_congr hmeta]
    rfl

theorem add_length_drop {α : Type} {l : List α} {start : ℕ} (hstart : start ≤ l.length) :
    start + (l.drop start).length = l.length := by
  rw [length_drop, add_sub_of_le hstart]

theorem round_spec (env : Environment) (router : DNSRouter) (kind : QueryKind) (start : ℕ)
    (hstart : start ≤ router.rules.length) (metadata : InboundContext) (caller : DNSQueryOptions) :
    let matched := router.matchDNS env kind start metadata caller
    matched.metadata.withoutRuleCache = metadata.withoutRuleCache ∧
      start ≤ position router.rules.length matched.rule ∧
      (∀ index rule, matched.rule = some (index, rule) → start ≤ index ∧
        index < router.rules.length) ∧
      matched.options.fillStrategy router.defaultDomainStrategy =
        ((router.optionsBetween env kind metadata start
          (position router.rules.length matched.rule) ++
          ownOptions matched.rule matched.transport).foldl .apply caller).fill matched.transport
            router.defaultDomainStrategy := by
  intro matched
  obtain ⟨n, hfound⟩ : ∃ n, Found env router kind start (router.rules.drop start) metadata caller
    matched n := exists_found start (router.rules.drop start) metadata caller
  have hcount := add_length_drop hstart
  have hposition := hfound.position_eq
  rw [hcount] at hposition
  refine ⟨hfound.metadata_eq, by omega, fun index rule hrule => ?_, ?_⟩
  · have hlt := hfound.lt_length (by rw [hrule]; rfl)
    have hindex : index = start + n := by
      rw [← hposition, hrule]
      rfl
    omega
  · have hsegment : (router.rules.take (start + n)).drop start =
        (router.rules.drop start).take n := by
      rw [drop_take, Nat.add_sub_cancel_left]
    rw [hfound.options_eq, hposition, optionsBetween, hsegment]

theorem exists_queryFrom (fuel n start : ℕ) (hstart : start ≤ router.rules.length)
    (hfuel : router.rules.length < fuel + start) (metadata : InboundContext) :
    ∃ run, router.queryFrom env loop caller fuel n start metadata = some run ∧
      RunFound env router loop.toQueryKind caller start metadata run := by
  -- a round that is given up ends at a rule, so the next one has fewer rules to walk over
  induction fuel generalizing n start metadata with
  | zero => omega
  | succ fuel ih =>
    obtain ⟨hmeta, hle, hrule, hopts⟩ :=
      round_spec env router loop.toQueryKind start hstart metadata caller
    unfold queryFrom
    generalize router.matchDNS env loop.toQueryKind start metadata caller = matched at *
    dsimp only
    split
    · exact ⟨_, rfl, by simp, by simp⟩
    · split
      case isTrue hretry =>
        obtain ⟨⟨index, rule⟩, hsome⟩ :=
          Option.isSome_iff_exists.1 (loop.isSome_of_retry _ _ hretry)
        obtain ⟨hindex, hlt⟩ := hrule index rule hsome
        have hnext : Attempt.next ⟨matched.rule, matched.transport,
            matched.options.fillStrategy router.defaultDomainStrategy⟩ = index + 1 := by
          dsimp only at hsome
          simp only [Attempt.next, hsome]
        obtain ⟨run, hrun, hfound⟩ := ih (n + 1) (index + 1) hlt (by omega) matched.metadata
        rw [hnext, hrun]
        refine ⟨_, rfl, .cons hmeta ?_⟩
        rw [hnext]
        exact hfound
      case isFalse =>
        refine ⟨_, rfl, ?_, ?_⟩
        · intro attempt answer hused
          cases hused
          exact hle
        · intro attempt answer hused
          cases hused
          exact hopts

variable (env : Environment) (router : DNSRouter) (loop : QueryLoop β) (caller : DNSQueryOptions)
  (metadata : InboundContext)

/-- **The loop ends**, and the server it ends with is asked with the caller's options folded with
the actions that it has met since its last restart. -/
theorem exists_query :
    ∃ run, router.query env loop caller metadata = some run ∧
      RunFound env router loop.toQueryKind caller 0 metadata run :=
  exists_queryFrom _ 0 0 (Nat.zero_le _) (by omega) metadata

theorem optionsBetween_split (kind : QueryKind) {start stop : ℕ} (h : start ≤ stop) :
    router.optionsBetween env kind metadata 0 stop =
      router.optionsBetween env kind metadata 0 start ++
        router.optionsBetween env kind metadata start stop := by
  have htake : router.rules.take start = (router.rules.take stop).take start := by
    rw [take_take, Nat.min_eq_left h]
  simp only [optionsBetween, drop_zero]
  rw [htake, foldedOptions, foldedOptions, foldedOptions, ← flatMap_append, take_append_drop]

/-- The server that a run ends with, if it ends with one, is asked with the documented options. -/
def UsesDocumented (env : Environment) (router : DNSRouter) (kind : QueryKind)
    (caller : DNSQueryOptions) (metadata : InboundContext) (run : QueryRun β) : Prop :=
  ∀ attempt answer, run.ending = .used attempt answer →
    attempt.options = router.documentedOptions env caller kind metadata attempt

/-- What the matching `route-options` rules above the last rule that was given up have set is set
again below it, by such a rule or by the rule that is used, or makes no difference to its server. -/
def NothingLost (env : Environment) (router : DNSRouter) (kind : QueryKind)
    (caller : DNSQueryOptions) (metadata : InboundContext) (run : QueryRun β) : Prop :=
  ∀ attempt answer, run.ending = .used attempt answer →
    Overridden caller attempt.transport router.defaultDomainStrategy
      (router.optionsBetween env kind metadata 0 (run.restart 0))
      (router.optionsBetween env kind metadata (run.restart 0) (router.attemptPosition attempt) ++
        ownOptions attempt.rule attempt.transport)

/-- **The loop ends, with the documented options exactly when nothing is lost**, whatever the rules,
the query and the answers of the servers that were given up. -/
theorem exists_query_usesDocumented_iff :
    ∃ run, router.query env loop caller metadata = some run ∧
      (UsesDocumented env router loop.toQueryKind caller metadata run ↔
        NothingLost env router loop.toQueryKind caller metadata run) := by
  obtain ⟨run, hrun, hfound⟩ := exists_query env router loop caller metadata
  refine ⟨run, hrun, forall₃_congr fun attempt answer hused => ?_⟩
  rw [hfound.options_eq attempt answer hused, documentedOptions,
    optionsBetween_split env router metadata _ (hfound.restart_le attempt answer hused),
    append_assoc]
  exact foldl_apply_eq_iff caller attempt.transport _ _ _

end DNSRouter

/-! ### `Exchange` and `Lookup` -/

/-- The errors of the DNS client that the loops tell apart. -/
inductive ClientError where
  | responseRejected
  | other
  deriving DecidableEq

/-- How the client answers the attempts of `Exchange` in turn, and whether the context of the query
is done by then. -/
structure ExchangeClient (ρ : Type) where
  exchange : ℕ → Attempt → Except ClientError ρ
  done : ℕ → Bool

/-- The loop of `Exchange`: a rule is left when the address filter rejects the response, or when it
is to be bypassed, its server fails and the query still has time.  A `reject` action with the method
`reply` does not end the query, but leaves it without a server. -/
def exchangeLoop {ρ : Type} (isAddressQuery : Bool) (client : ExchangeClient ρ) :
    QueryLoop (Except ClientError ρ × Bool) where
  allowFakeIP := true
  isAddressQuery := isAddressQuery
  stops
    | .reject method => method ≠ .reply
    | .predefined => true
    | _ => false
  ask n attempt := (client.exchange n attempt, client.done n)
  retry attempt answer :=
    match answer with
    | (.ok _, _) => false
    | (.error err, done) => attempt.hasResponseCheck && decide (err = .responseRejected) ||
        attempt.bypassIfFailed && !done
  isSome_of_retry attempt answer h := by
    rcases answer with ⟨err | response, done⟩
    · simp only [Bool.or_eq_true, Bool.and_eq_true] at h
      rcases h with ⟨hcheck, -⟩ | ⟨hbypass, -⟩
      · exact Attempt.isSome_rule_of_hasResponseCheck hcheck
      · exact Attempt.isSome_rule_of_bypassIfFailed hbypass
    · cases h

/-- The loop of `Lookup`: a rule is left when it is to be bypassed and there are no addresses, or
when it filters addresses and there is any error. -/
def lookupLoop (client : ℕ → Attempt → List Addr × Option ClientError) :
    QueryLoop (List Addr × Option ClientError) where
  allowFakeIP := false
  isAddressQuery := true
  stops
    | .reject _ => true
    | .predefined => true
    | _ => false
  ask := client
  retry attempt answer := answer.1.isEmpty && attempt.bypassIfFailed ||
    attempt.hasResponseCheck && answer.2.isSome
  isSome_of_retry attempt answer h := by
    simp only [Bool.or_eq_true, Bool.and_eq_true] at h
    rcases h with ⟨-, hbypass⟩ | ⟨hcheck, -⟩
    · exact Attempt.isSome_rule_of_bypassIfFailed hbypass
    · exact Attempt.isSome_rule_of_hasResponseCheck hcheck

/-- A question of a DNS message. -/
structure DNSQuestion where
  name : GoString
  qtype : UInt16

/-- `isAddressQuery`: the types `A`, `AAAA` and `HTTPS`. -/
def isAddressQuery (questions : List DNSQuestion) : Bool :=
  questions.any fun q => q.qtype = 1 || q.qtype = 28 || q.qtype = 65

/-- `FqdnToDomain`: a final dot that is not escaped is dropped. -/
def fqdnToDomain (fqdn : GoString) : GoString :=
  match fqdn.reverse with
  | 46 :: rest => if (rest.takeWhile (· = 92)).length % 2 = 0 then rest.reverse else fqdn
  | _ => fqdn

/-- The metadata with which `Exchange` matches. -/
def InboundContext.forExchange (metadata : InboundContext) (question : DNSQuestion) :
    InboundContext :=
  { metadata with
    destination := {}
    queryType := question.qtype
    ipVersion := if question.qtype = 1 then 4 else if question.qtype = 28 then 6
      else metadata.ipVersion
    domain := fqdnToDomain question.name }

/-- The metadata with which `Lookup` matches. -/
def InboundContext.forLookup (metadata : InboundContext) (domain : GoString) : InboundContext :=
  { metadata with destination := {}, domain := fqdnToDomain domain }

/-- How a query comes to its server: the message is malformed, the caller names the server, or the
rules do. -/
inductive Routed (β : Type) where
  | formatError
  | direct (attempt : Attempt) (answer : β)
  | byRules (run : QueryRun β)

namespace DNSRouter

section

variable {ρ : Type} (env : Environment) (router : DNSRouter)

/-- A query whose server the caller has named. -/
def direct (transport : DNSTransport) (caller : DNSQueryOptions) : Attempt :=
  ⟨none, some transport, caller.fill (some transport) router.defaultDomainStrategy⟩

/-- `Router.Exchange`, up to the answer of the client. -/
def exchange (client : ExchangeClient ρ) (questions : List DNSQuestion)
    (metadata : InboundContext) (caller : DNSQueryOptions) :
    Option (Routed (Except ClientError ρ × Bool)) :=
  match questions with
  | [question] =>
    let loop := exchangeLoop (isAddressQuery questions) client
    match caller.transport with
    | some transport =>
      let attempt := router.direct transport caller
      some (.direct attempt (loop.ask 0 attempt))
    | none => (router.query env loop caller (metadata.forExchange question)).map .byRules
  | _ => some .formatError

/-- `Router.Lookup`, up to the answer of the client. -/
def lookup (client : ℕ → Attempt → List Addr × Option ClientError) (domain : GoString)
    (metadata : InboundContext) (caller : DNSQueryOptions) :
    Option (Routed (List Addr × Option ClientError)) :=
  let loop := lookupLoop client
  match caller.transport with
  | some transport =>
    let attempt := router.direct transport caller
    some (.direct attempt (loop.ask 0 attempt))
  | none => (router.query env loop caller (metadata.forLookup domain)).map .byRules

end

/-- **When a query is sent with the documented options.**  `Exchange` and `Lookup` end for every
list of rules, every query and every sequence of answers, and the server that they end with is asked
with the documented options exactly when nothing is lost. -/
theorem usesDocumented_iff_nothingLost {ρ : Type} (env : Environment) (router : DNSRouter)
    (caller : DNSQueryOptions) (hcaller : caller.transport = none) (metadata : InboundContext) :
    (∀ (client : ExchangeClient ρ) (question : DNSQuestion),
      let kind : QueryKind := ⟨true, isAddressQuery [question]⟩
      ∃ run, router.exchange env client [question] metadata caller = some (.byRules run) ∧
        (UsesDocumented env router kind caller (metadata.forExchange question) run ↔
          NothingLost env router kind caller (metadata.forExchange question) run)) ∧
    (∀ (client : ℕ → Attempt → List Addr × Option ClientError) (domain : GoString),
      let kind : QueryKind := ⟨false, true⟩
      ∃ run, router.lookup env client domain metadata caller = some (.byRules run) ∧
        (UsesDocumented env router kind caller (metadata.forLookup domain) run ↔
          NothingLost env router kind caller (metadata.forLookup domain) run)) := by
  constructor
  · intro client question
    obtain ⟨run, hrun, hiff⟩ := exists_query_usesDocumented_iff env router
      (exchangeLoop (isAddressQuery [question]) client) caller (metadata.forExchange question)
    refine ⟨run, ?_, hiff⟩
    simp only [exchange, hcaller, hrun, Option.map_some]
  · intro client domain
    obtain ⟨run, hrun, hiff⟩ := exists_query_usesDocumented_iff env router (lookupLoop client)
      caller (metadata.forLookup domain)
    refine ⟨run, ?_, hiff⟩
    simp only [lookup, hcaller, hrun, Option.map_some]

/-- A rule that matches every query. -/
def everyQuery : DNSRule := .default { settled := by simp [AbstractDefaultRule.conditionItems] }

/-- A rule that wants addresses in `1.1.1.0/24`. -/
def wantsNet : DNSRule :=
  .default
    { destinationIPCIDRItems := [.ipCIDR false [⟨.v4 0x01010100, .v4 0x010101ff⟩]]
      settled := by simp [AbstractDefaultRule.conditionItems] }

/-- The cache is turned off for all queries; then one server is asked for addresses in a network and
another for the rest. -/
def uncached : DNSRouter where
  rules := [⟨everyQuery, .routeOptions { disableCache := true }⟩,
    ⟨wantsNet, .route "local" {}⟩,
    ⟨everyQuery, .route "remote" {}⟩]
  transport tag := some { tag := tag }
  defaultTransport := { tag := "local" }

/-- A client that rejects the first response. -/
def rejectsFirst : ExchangeClient Unit where
  exchange n _ := if n = 0 then .error .responseRejected else .ok ()
  done _ := false

theorem uncached_accepted :
    ∃ run, uncached.exchange .offline ⟨fun _ _ => .ok (), fun _ => false⟩
        [⟨"example.", 1⟩] {} {} = some (.byRules run) ∧
      (UsesDocumented .offline uncached ⟨true, true⟩ {}
          (InboundContext.forExchange {} ⟨"example.", 1⟩) run ↔
        NothingLost .offline uncached ⟨true, true⟩ {}
          (InboundContext.forExchange {} ⟨"example.", 1⟩) run) :=
  (usesDocumented_iff_nothingLost (ρ := Unit) .offline uncached {} rfl {}).1
    ⟨fun _ _ => .ok (), fun _ => false⟩ ⟨"example.", 1⟩

/-- **The cache is used although a matching rule turns it off**, once the response of the first
server is rejected. -/
theorem uncached_rejected :
    ∃ run, uncached.exchange .offline rejectsFirst [⟨"example.", 1⟩] {} {} =
        some (.byRules run) ∧
      ¬UsesDocumented .offline uncached ⟨true, true⟩ {}
        (InboundContext.forExchange {} ⟨"example.", 1⟩) run := by
  refine ⟨_, rfl, fun h => ?_⟩
  have hcache := congrArg disableCache (h _ _ rfl)
  revert hcache
  decide

end DNSRouter

end SingBox
