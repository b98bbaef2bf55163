/-
**What the DNS cache serves to whom** (`dns/client.go`).

The cache is keyed by the question alone, or by the question and the transport.  Two parts of a
query that are not in the key change what a caller should get:

* the strategy, which takes the hints of the other family out of `HTTPS` answers.  The filter stands
  behind the transport and in front of the store, so that an answer from the cache is filtered for
  the call that stored it;
* the client subnet.  `Exchange` does not use the cache for a query with a subnet, but
  `lookupToExchange` looks into the cache before it calls `Exchange`, whatever the subnet.

Main results:

* `DNS.hints_respected`, `DNS.subnetsIsolated_iff` — **the conditions suffice**, and
  the second is necessary too;
* `DNS.unfilteredHint_served`, `DNS.plainAnswer_served` — histories without them.
-/

import SingBox.DNSClientRuns

namespace SingBox.DNS

open Bool

open Schedule (Along)

/-! ### Hints -/

/-- The hint that must not be in the answer to an `HTTPS` query. -/
def Query.unwanted (q : Query) : Option UInt16 :=
  if q.question.qtype = typeHTTPS then unwantedHint q.options.strategy else none

/-- No caller has got a hint that its strategy rules out. -/
def HintsRespected (s : State) : Prop :=
  ∀ id call m hint, s.calls id = some call → call.response? = some m →
    call.query.unwanted = some hint → hint ∉ m.hintKeys

/-- What is in the cache for this call, if its answers are to be filtered, was stored by a call with
the same strategy. -/
def FindsOwnStrategy (c : Client) (s : State) (id : ℕ) : Prop :=
  ∀ call ∈ s.calls id, ∀ entry ∈ s.cache.find (s.now / 10 ^ 6) (c.cacheKey call.query),
    call.query.unwanted = none ∨ entry.value.query.options.strategy = call.query.options.strategy

/-- Every look into the cache meets the condition. -/
def OwnStrategy (c : Client) (s : State) : Event → Prop
  | .call id (.questionCache _) => FindsOwnStrategy c s id
  | .call id (.load _) => FindsOwnStrategy c s id
  | _ => True

instance (c : Client) (s : State) (id : ℕ) : Decidable (FindsOwnStrategy c s id) :=
  inferInstanceAs (Decidable (∀ call ∈ s.calls id,
    ∀ entry ∈ s.cache.find (s.now / 10 ^ 6) (c.cacheKey call.query), _ ∨ _))

instance (c : Client) (s : State) : ∀ e, Decidable (OwnStrategy c s e)
  | .call _ (.questionCache _) => inferInstanceAs (Decidable (FindsOwnStrategy c s _))
  | .call _ (.load _) => inferInstanceAs (Decidable (FindsOwnStrategy c s _))
  | .call _ (.enter _) | .call _ .wake | .call _ .expire | .call _ (.giveUp _)
  | .call _ (.check _ _) | .call _ (.respond _) | .call _ .release | .call _ .cancel
  | .exchange _ _ | .lookup .. | .pass _ | .evict _ | .forget _ | .clearCache => isTrue trivial

section

variable {c : Client} {s s' : State} {e : Event}

theorem Query.unwanted_not_mem_prepare {q : Query} {hint : UInt16} (h : q.unwanted = some hint)
    (response : Msg) : hint ∉ (q.prepare response).hintKeys := by
  rw [Query.unwanted] at h
  split at h
  · rename_i hhttps
    rw [Query.prepare, if_pos hhttps, Msg.hintKeys_mapRecords (RR.data_setTTL _)]
    exact Msg.unwantedHint_not_mem h response
  · cases h

theorem Msg.hintKeys_aged (m : Msg) (nowTTL : ℕ) : (m.aged nowTTL).hintKeys = m.hintKeys := by
  rw [Msg.aged]
  dsimp only
  split
  · refine Msg.hintKeys_mapRecords (fun r => ?_) m
    split <;> rfl
  · exact Msg.hintKeys_mapRecords (RR.data_setTTL _) m

theorem Msg.hintKeys_matchEdns0 (request response : Msg) :
    (request.matchEdns0 response).hintKeys = response.hintKeys := by
  rw [Msg.matchEdns0]
  split
  · rfl
  split
  · rfl
  split <;> rfl

/-- The entries are answers to their own question, prepared for the call that stored them. -/
def Prepared (c : Client) (key : CacheKey) (entry : ExpiringEntry Stored) : Prop :=
  key = c.cacheKey entry.value.query ∧
    ∃ response, entry.value.msg = entry.value.query.prepare response

theorem prepared_step (h : c.step s e = some s') (hall : s.cache.All (Prepared c)) :
    s'.cache.All (Prepared c) :=
  Client.cache_of_step (P := fun _ => Prepared c) (fun _ _ _ _ _ h => h)
    (fun _ _ response _ _ => ⟨rfl, response, rfl⟩) h hall

theorem unwanted_not_mem_loaded {call : Call} {id timeNow : ℕ} {m : Msg} {stored : Stored}
    {hint : UInt16} (hcall : s.calls id = some call) (hown : FindsOwnStrategy c s id)
    (hall : s.cache.All (Prepared c))
    (hload : c.loadResponse s.cache s.now timeNow (c.cacheKey call.query) = .response m stored)
    (hhint : call.query.unwanted = some hint) : hint ∉ m.hintKeys := by
  obtain ⟨entry, hfind, -, hm⟩ := Client.loadResponse_eq.1 hload
  obtain ⟨hkey, response, hresponse⟩ := hall.find hfind
  have hquestion : call.query.question = entry.value.query.question := congrArg Prod.fst hkey
  have hstrategy : entry.value.query.options.strategy = call.query.options.strategy := by
    rcases hown call hcall entry hfind with hnone | heq
    · rw [hhint] at hnone
      cases hnone
    · exact heq
  have hstored : entry.value.query.unwanted = some hint := by
    rw [← hhint, Query.unwanted, Query.unwanted, hquestion, hstrategy]
  have hkeys : m.hintKeys = entry.value.msg.hintKeys := by
    rcases hm with ⟨-, rfl⟩ | ⟨-, -, rfl⟩
    · rfl
    · exact Msg.hintKeys_aged _ _
  rw [hkeys, hresponse]
  exact Query.unwanted_not_mem_prepare hstored response

theorem OwnStrategy.finds {id timeNow : ℕ} {call : Call} {callEvent : CallEvent}
    (h : OwnStrategy c s (.call id callEvent)) (hlooks : Looks c call callEvent timeNow) :
    FindsOwnStrategy c s id := by
  cases hlooks with
  | lookup hphase hcache => exact h
  | exchange hphase => exact h

theorem hintsRespected_step (h : c.step s e = some s') (hown : OwnStrategy c s e)
    (hall : s.cache.All (Prepared c)) (hs : HintsRespected s) : HintsRespected s' := by
  intro id call' m hint hcall' hm hhint
  rcases (Client.steps_of_step h).call_cases hcall' with
    hcall | ⟨q, phase, rfl, hphase⟩ | ⟨callEvent, call, move, rfl, hcall, hmove, rfl, -⟩
  · exact hs id call' m hint hcall hm hhint
  · rcases hphase with rfl | rfl <;> cases hm
  · rw [hmove.query] at hhint
    cases hmove with
    | onward hnow hres =>
      rw [Call.response?, hres] at hm
      cases hm
    | fixed rcode =>
      cases hm
      exact List.not_mem_nil
    | found i hlooks hnow hload =>
      cases hm
      -- The new message id does not matter.
      have hloaded := unwanted_not_mem_loaded hcall (hown.finds hlooks) hall hload hhint
      exact hloaded
    | refused herr => cases hm
    | gaveUp hcancel => cases hm
    | recentFailure hloopback hrej hfind => cases hm
    | transportFailed hphase hcancel => cases hm
    | finished response hphase =>
      rw [Client.finish] at hm
      dsimp only at hm
      split at hm
      · cases hm
      · cases hm
        rw [Msg.hintKeys_matchEdns0]
        exact Query.unwanted_not_mem_prepare hhint response
    | released hphase hquiet =>
      refine hs id call m hint hcall ?_ hhint
      rw [Call.response?, hphase]
      exact hm
    | canceled hopen => exact hs id call m hint hcall hm hhint

/-- **Hints.**  If every caller with a strategy for one family that finds the answer to an `HTTPS`
query in the cache finds what a call with the same strategy has stored, then no caller gets a hint
of the other family, from the transport or from the cache. -/
theorem hints_respected {es : List Event} (h : c.Reaches es s)
    (hown : Along c.step (OwnStrategy c) {} es) : HintsRespected s := by
  have hinv : s.cache.All (Prepared c) ∧ HintsRespected s := by
    refine Schedule.run_invariant (I := fun s => s.cache.All (Prepared c) ∧ HintsRespected s)
      (fun t e t' ht hP hI => ?_) h hown ⟨ExpiringMap.all_empty, fun _ _ _ _ hcall => ?_⟩
    · exact ⟨prepared_step ht hI.1, hintsRespected_step ht hP hI.1 hI.2⟩
    · cases hcall
  exact hinv.2

/-- A client, an `HTTPS` query with a strategy, and an answer with a hint for IPv6. -/
def sampleClient : Client where
  timeout := 10 ^ 10

def httpsQuery (strategy : DomainStrategy) : Query where
  transport := "remote"
  message := { id := 7, question := [⟨"a.", typeHTTPS, 1⟩] }
  options := { strategy := strategy }

def httpsAnswer : Msg where
  id := 7
  question := [⟨"a.", typeHTTPS, 1⟩]
  answer := [⟨"a.", 1, 300, .https 1 [46] [⟨ipv6Hint, "2001:db8::1"⟩]⟩]

/-- A call that asks the transport, and one that is answered from the cache. -/
def askedCall (id : ℕ) (q : Query) (answer : Msg) : List Event :=
  [.exchange id q, .call id (.enter none), .call id (.load 0), .call id (.check false none),
    .call id (.respond (.answered answer)), .call id .release]

def cachedCall (id : ℕ) (q : Query) : List Event :=
  [.exchange id q, .call id (.enter none), .call id (.load 0), .call id .release]

theorem sameStrategy_respected :
    Along sampleClient.step (OwnStrategy sampleClient) {}
        (askedCall 1 (httpsQuery .ipv4Only) httpsAnswer ++ cachedCall 2 (httpsQuery .ipv4Only)) ∧
      ∃ s, sampleClient.Reaches (askedCall 1 (httpsQuery .ipv4Only) httpsAnswer ++
        cachedCall 2 (httpsQuery .ipv4Only)) s ∧ HintsRespected s := by
  have hown : Along sampleClient.step (OwnStrategy sampleClient) {}
      (askedCall 1 (httpsQuery .ipv4Only) httpsAnswer ++ cachedCall 2 (httpsQuery .ipv4Only)) := by
    decide +kernel
  have hruns : (Schedule.run sampleClient.step {} (askedCall 1 (httpsQuery .ipv4Only) httpsAnswer ++
      cachedCall 2 (httpsQuery .ipv4Only))).isSome = true := by decide +kernel
  obtain ⟨s, hs⟩ := Option.isSome_iff_exists.1 hruns
  exact ⟨hown, s, hs, hints_respected hs hown⟩

/-- **A caller that wants no IPv6 gets a hint for it** that was stored for a caller without a
strategy. -/
theorem unfilteredHint_served :
    ∃ s, sampleClient.Reaches (askedCall 1 (httpsQuery .asIS) httpsAnswer ++
      cachedCall 2 (httpsQuery .ipv4Only)) s ∧ ¬HintsRespected s := by
  have hserved : ((Schedule.run sampleClient.step {} (askedCall 1 (httpsQuery .asIS) httpsAnswer ++
      cachedCall 2 (httpsQuery .ipv4Only))).bind fun s => (s.calls 2).bind fun call =>
        call.response?.map fun m => (call.query.unwanted, m.hintKeys)) =
      some (some ipv6Hint, [ipv6Hint]) := by decide +kernel
  obtain ⟨s, hs, hserved⟩ := Option.bind_eq_some_iff.1 hserved
  obtain ⟨call, hcall, hserved⟩ := Option.bind_eq_some_iff.1 hserved
  obtain ⟨m, hm, hserved⟩ := Option.map_eq_some_iff.1 hserved
  rw [Prod.mk.injEq] at hserved
  refine ⟨s, hs, fun h => h 2 call m ipv6Hint hcall hm hserved.1 ?_⟩
  rw [hserved.2]
  exact List.mem_singleton_self _

end

/-! ### Subnets -/

/-- Whether a call is made with a client subnet, its own or that of the client. -/
def Client.withSubnet (c : Client) (q : Query) : Bool := (c.subnet q).isValid

/-- What was stored by a call with a subnet has been served to such calls only, and what was stored
by a call without one to calls without one. -/
def SubnetsIsolated (c : Client) (s : State) : Prop :=
  ∀ id call m stored, s.calls id = some call → call.phase.result? = some (.cached m stored) →
    c.withSubnet call.query = c.withSubnet stored.query

/-- The cache has an answer whose time has not come, neither when the cache looks at the clock nor
when `loadResponse` does. -/
def Live (c : Client) (s : State) (timeNow : ℕ) (key : CacheKey) : Prop :=
  ∃ entry ∈ s.cache.find (s.now / 10 ^ 6) key,
    c.disableExpire ∨ timeNow ≤ entry.expire * 10 ^ 6

/-- When `lookupToExchange` looks into the cache on behalf of a call with a subnet, there is no
answer to its question. -/
def NoSubnetHit (c : Client) (s : State) : Event → Prop
  | .call id (.questionCache timeNow) =>
    ∀ call ∈ s.calls id, c.withSubnet call.query → c.disableCache = false →
      call.query.options.disableCache = false → ¬Live c s timeNow (c.cacheKey call.query)
  | _ => True

instance (c : Client) (s : State) (timeNow : ℕ) (key : CacheKey) :
    Decidable (Live c s timeNow key) :=
  inferInstanceAs (Decidable (∃ entry ∈ s.cache.find (s.now / 10 ^ 6) key, _ ∨ _))

instance (c : Client) (s : State) : ∀ e, Decidable (NoSubnetHit c s e)
  | .call id (.questionCache timeNow) =>
    inferInstanceAs (Decidable (∀ call ∈ s.calls id, c.withSubnet call.query →
      c.disableCache = false → call.query.options.disableCache = false →
        ¬Live c s timeNow (c.cacheKey call.query)))
  | .call _ (.load _) | .call _ (.enter _) | .call _ .wake | .call _ .expire
  | .call _ (.giveUp _) | .call _ (.check _ _) | .call _ (.respond _) | .call _ .release
  | .call _ .cancel | .exchange _ _ | .lookup .. | .pass _ | .evict _ | .forget _
  | .clearCache => isTrue trivial

variable {c : Client} {s s' : State} {e : Event}

theorem withSubnet_of_cacheDisabled {q : Query} (h : c.cacheDisabled q = false) :
    c.withSubnet q = false := by
  rw [Client.cacheDisabled, or_eq_false_iff, or_eq_false_iff, not_eq_false'] at h
  obtain ⟨⟨hsimple, -⟩, -⟩ := h
  rw [isSimpleRequest, and_eq_true, and_eq_true, not_eq_true'] at hsimple
  obtain ⟨⟨-, hextra⟩, hopts⟩ := hsimple
  cases hvalid : c.withSubnet q with
  | false => rfl
  | true =>
    -- The subnet is that of the client, and the request has an option that holds it.
    rw [Client.withSubnet] at hvalid
    rw [Client.request, if_pos hvalid] at hextra
    obtain ⟨front, record, back, option, options, hset, hrecord⟩ :=
      exists_option_setExtra (c.subnet q) q.message.extra
    rw [Msg.setClientSubnet, hset] at hextra
    cases front with
    | nil =>
      cases back with
      | nil => simp [hrecord] at hextra
      | cons r back => cases hextra
    | cons r front => cases front <;> cases hextra

/-- The entries were stored by calls that may use the cache. -/
def StoredPlain (c : Client) (_ : CacheKey) (entry : ExpiringEntry Stored) : Prop :=
  c.withSubnet entry.value.query = false

/-- The calls that look into the cache inside `Exchange` may use it. -/
def CachingPlain (c : Client) (s : State) : Prop :=
  ∀ id call, s.calls id = some call → call.phase.Caching → c.cacheDisabled call.query = false

theorem storedPlain_step (h : c.step s e = some s') (hall : s.cache.All (StoredPlain c)) :
    s'.cache.All (StoredPlain c) :=
  Client.cache_of_step (P := fun _ => StoredPlain c) (fun _ _ _ _ _ h => h)
    (fun _ _ _ hcache _ => withSubnet_of_cacheDisabled hcache) h hall

theorem cachingPlain_step (h : c.step s e = some s') (hs : CachingPlain c s) :
    CachingPlain c s' := by
  intro id call' hcall' hcaching
  rcases (Client.steps_of_step h).call_cases hcall' with
    hcall | ⟨q, phase, rfl, hphase⟩ | ⟨callEvent, call, move, rfl, hcall, hmove, rfl, -⟩
  · exact hs id call' hcall hcaching
  · rcases hphase with rfl | rfl <;> exact hcaching.elim
  · rw [hmove.query]
    cases hmove with
    | onward hnow hres hquiet hphase =>
      rcases hphase hcaching with hbefore | hcache
      · exact hs id call hcall hbefore
      · exact hcache
    | finished response hphase =>
      rw [Client.finish] at hcaching
      dsimp only at hcaching
      split at hcaching <;> exact hcaching.elim
    | canceled hopen => exact hs id call hcall hcaching
    | fixed rcode | found i hlooks hnow hload | refused herr | gaveUp hcancel
    | recentFailure hloopback hrej hfind | transportFailed hphase hcancel
    | released hphase hquiet => exact hcaching.elim

theorem live_of_load {timeNow : ℕ} {key : CacheKey} {m : Msg} {stored : Stored}
    (h : c.loadResponse s.cache s.now timeNow key = .response m stored) :
    Live c s timeNow key := by
  obtain ⟨entry, hfind, -, hexpire⟩ := Client.loadResponse_eq.1 h
  refine ⟨entry, hfind, ?_⟩
  rcases hexpire with ⟨h, -⟩ | ⟨-, h, -⟩
  · exact .inl h
  · exact .inr h

theorem withSubnet_of_looks {id timeNow : ℕ} {call : Call} {callEvent : CallEvent}
    (hcall : s.calls id = some call) (hlooks : Looks c call callEvent timeNow)
    (hmiss : NoSubnetHit c s (.call id callEvent)) (hcaching : CachingPlain c s)
    (hlive : Live c s timeNow (c.cacheKey call.query)) : c.withSubnet call.query = false := by
  cases hlooks with
  | lookup hphase hcache =>
    rw [or_eq_false_iff] at hcache
    cases hvalid : c.withSubnet call.query with
    | false => rfl
    | true => exact absurd hlive (hmiss call hcall hvalid hcache.1 hcache.2)
  | exchange hphase =>
    refine withSubnet_of_cacheDisabled (hcaching id call hcall ?_)
    rw [hphase]
    trivial

theorem subnetsIsolated_step (h : c.step s e = some s') (hall : s.cache.All (StoredPlain c))
    (hcaching : CachingPlain c s) (hs : SubnetsIsolated c s) (hmiss : NoSubnetHit c s e) :
    SubnetsIsolated c s' := by
  intro id call' m stored hcall' hr
  rcases (Client.steps_of_step h).call_cases hcall' with
    hcall | ⟨q, phase, rfl, hphase⟩ | ⟨callEvent, call, move, rfl, hcall, hmove, rfl, -⟩
  · exact hs id call' m stored hcall hr
  · rcases hphase with rfl | rfl <;> cases hr
  · rw [hmove.query]
    cases hmove with
    | found i hlooks hnow hload =>
      cases hr
      obtain ⟨entry, hfind, hstored, -⟩ := Client.loadResponse_eq.1 hload
      rw [withSubnet_of_looks hcall hlooks hmiss hcaching (live_of_load hload), hstored]
      exact (hall.find hfind).symm
    | released hphase hquiet =>
      refine hs id call m stored hcall ?_
      rw [hphase]
      exact hr
    | canceled hopen => exact hs id call m stored hcall hr
    | onward hnow hres =>
      rw [hres] at hr
      cases hr
    | finished response hphase =>
      rw [Client.finish] at hr
      dsimp only at hr
      split at hr <;> cases hr
    | fixed rcode => cases hr
    | refused herr => cases hr
    | gaveUp hcancel => cases hr
    | recentFailure hloopback hrej hfind => cases hr
    | transportFailed hphase hcancel => cases hr

theorem subnetsIsolated_of_step (h : c.step s e = some s') (hs' : SubnetsIsolated c s') :
    SubnetsIsolated c s := by
  intro id call m stored hcall hr
  obtain ⟨call', hcall', hquery, -, hr'⟩ := (Client.steps_of_step h).result hcall hr
  rw [← hquery]
  exact hs' id call' m stored hcall' hr'

theorem questionCache_found {id timeNow : ℕ} {call : Call}
    (h : c.step s (.call id (.questionCache timeNow)) = some s') (hcall : s.calls id = some call)
    (hclient : c.disableCache = false) (hopts : call.query.options.disableCache = false)
    (hlive : Live c s timeNow (c.cacheKey call.query)) :
    ∃ call' m stored, s'.calls id = some call' ∧ call'.query = call.query ∧
      call'.phase.result? = some (.cached m stored) ∧
      ∃ entry, s.cache.find (s.now / 10 ^ 6) (c.cacheKey call.query) = some entry ∧
        stored = entry.value := by
  obtain ⟨entry, hfind, hexpire⟩ := hlive
  obtain ⟨m, hload⟩ : ∃ m, c.loadResponse s.cache s.now timeNow (c.cacheKey call.query) =
      .response m entry.value := by
    cases hdisable : c.disableExpire with
    | true => exact ⟨_, Client.loadResponse_eq.2 ⟨entry, hfind, rfl, .inl ⟨hdisable, rfl⟩⟩⟩
    | false =>
      rw [hdisable, or_iff_right Bool.false_ne_true] at hexpire
      exact ⟨_, Client.loadResponse_eq.2
        ⟨entry, hfind, rfl, .inr ⟨hdisable, hexpire, rfl⟩⟩⟩
  rw [Client.step, hcall] at h
  obtain ⟨move, hmove, rfl⟩ := Option.map_eq_some_iff.1 h
  rw [Client.callStep] at hmove
  split at hmove
  · split at hmove
    · cases hmove
    · rw [hclient, hopts, Bool.or_self, if_neg Bool.false_ne_true, Client.look, hload] at hmove
      cases hmove
      refine ⟨{ call with phase := .returning (.cached m entry.value) }, m, entry.value, ?_, rfl,
        rfl, entry, hfind, rfl⟩
      rw [State.perform_calls]
      exact Function.update_self _ _ _
  · cases hmove

theorem noSubnetHit_of_step (h : c.step s e = some s') (hall : s.cache.All (StoredPlain c))
    (hs' : SubnetsIsolated c s') : NoSubnetHit c s e := by
  rw [NoSubnetHit.eq_def]
  split
  · rename_i id timeNow
    intro call hcall hvalid hclient hopts hlive
    obtain ⟨call', m, stored, hcall', hquery, hr, entry, hfind, hstored⟩ :=
      questionCache_found h hcall hclient hopts hlive
    have hplain : c.withSubnet entry.value.query = false := hall.find hfind
    have heq := hs' id call' m stored hcall' hr
    rw [hquery, hvalid, hstored, hplain] at heq
    cases heq
  · trivial

/-- **Subnets.**  Answers from the cache stay on their side of the subnets, over a whole history of
calls, if and only if no lookup with a subnet finds an answer to its question in the cache. -/
theorem subnetsIsolated_iff {es : List Event} (h : c.Reaches es s) :
    SubnetsIsolated c s ↔ Along c.step (NoSubnetHit c) {} es := by
  have hfinal := Schedule.final_iff_along (P := NoSubnetHit c) (F := SubnetsIsolated c)
    (I := fun s => s.cache.All (StoredPlain c) ∧ CachingPlain c s)
    (fun t e t' ht hI => ⟨storedPlain_step ht hI.1, cachingPlain_step ht hI.2⟩)
    (fun t e t' ht hI => ⟨fun hF => ⟨subnetsIsolated_of_step ht hF,
      noSubnetHit_of_step ht hI.1 hF⟩, fun hF => subnetsIsolated_step ht hI.1 hI.2 hF.1 hF.2⟩) h
    ⟨ExpiringMap.all_empty, fun _ _ hcall => by cases hcall⟩
  rw [hfinal]
  exact and_iff_right fun _ _ _ _ hcall => by cases hcall

/-- A lookup for an IPv4 address with a subnet, and an answer. -/
def sampleLookup (id : ℕ) (subnet : Prefix) : Event :=
  .lookup id "remote" "a"
    { strategy := .ipv4Only, clientSubnet := subnet } none none 0

def addressAnswer : Msg where
  id := 0
  question := [⟨"a.", typeA, 1⟩]
  answer := [⟨"a.", 1, 300, .a [192, 0, 2, 1]⟩]

/-- A lookup without a subnet that asks the transport. -/
def plainLookup (id : ℕ) : List Event :=
  [sampleLookup id ⟨.zero, 0⟩, .call id (.questionCache 0), .call id (.enter none),
    .call id (.load 0), .call id (.check false none), .call id (.respond (.answered addressAnswer)),
    .call id .release]

/-- A lookup with a subnet looks into the empty cache; two without one follow. -/
def subnetFirst : List Event :=
  [sampleLookup 3 samplePrefix, .call 3 (.questionCache 0)] ++ plainLookup 1 ++
    [sampleLookup 2 ⟨.zero, 0⟩, .call 2 (.questionCache 0)]

theorem subnetFirst_isolated :
    ∃ s, sampleClient.Reaches subnetFirst s ∧ SubnetsIsolated sampleClient s := by
  have hruns : (Schedule.run sampleClient.step {} subnetFirst).isSome = true := by decide +kernel
  obtain ⟨s, hs⟩ := Option.isSome_iff_exists.1 hruns
  exact ⟨s, hs, (subnetsIsolated_iff hs).2 (by decide +kernel)⟩

/-- **A lookup with a subnet gets an answer that was obtained without one.** -/
theorem plainAnswer_served :
    ∃ s, sampleClient.Reaches (plainLookup 1 ++
        [sampleLookup 2 samplePrefix, .call 2 (.questionCache 0)]) s ∧
      ¬SubnetsIsolated sampleClient s := by
  have hserved : ((Schedule.run sampleClient.step {} (plainLookup 1 ++
      [sampleLookup 2 samplePrefix, .call 2 (.questionCache 0)])).bind fun s =>
        (s.calls 2).bind fun call => call.phase.result?.bind fun r =>
          match r with
          | .cached _ stored =>
            some (sampleClient.withSubnet call.query, sampleClient.withSubnet stored.query)
          | _ => none) = some (true, false) := by decide +kernel
  obtain ⟨s, hs, hserved⟩ := Option.bind_eq_some_iff.1 hserved
  obtain ⟨call, hcall, hserved⟩ := Option.bind_eq_some_iff.1 hserved
  obtain ⟨r, hr, hserved⟩ := Option.bind_eq_some_iff.1 hserved
  refine ⟨s, hs, fun h => ?_⟩
  split at hserved
  · rename_i m stored
    rw [Option.some.injEq, Prod.mk.injEq] at hserved
    have heq := h 2 call m stored hcall hr
    rw [hserved.1, hserved.2] at heq
    cases heq
  · cases hserved

end SingBox.DNS
