/-
**The DNS client** (`dns/client.go`).

Calls of `Exchange` and `Lookup` go on at the same time and meet in three places: the cache of
responses, the cache of recent network failures, and the table of flights, through which identical
queries wait for the one that came first.  A call is a machine whose steps are the stretches of code
between two such meetings; the client is all its calls together with what they share, and what
happens is a list of events.

What a transport answers and when, when contexts are cancelled, what is said about an outbound, and
what the caches evict are events.  Times are nanoseconds, and those of the caches are milliseconds,
as in the code.  The entries of the two caches also carry the query that stored a response and
whether a failure came from the context of its caller.
-/

import SingBox.Binary64
import SingBox.ClientSubnet
import SingBox.ExpiringMap

namespace SingBox.DNS

/-! ### Clients and queries -/

/-- The fields of `Client` that do not change. -/
structure Client where
  timeout : ℕ
  (disableCache disableExpire independentCache : Bool := false)
  clientSubnet : Prefix := ⟨.zero, 0⟩
  /-- Whether there is a store for rejected responses. -/
  hasRDRC : Bool := false

/-- The arguments of `Exchange`. -/
structure Query where
  /-- `transport.Tag()`. -/
  transport : GoString
  message : Msg
  options : DNSQueryOptions := {}
  /-- `responseChecker`. -/
  checker : Option (List Addr → Bool) := none
  /-- `transportTagFromContext`. -/
  contextTransport : Option GoString := none

/-- The first question.  `Exchange` returns early if there is none. -/
def Query.question (q : Query) : Question := q.message.question.headD ⟨[], 0, 0⟩

/-- `dns.TypeA`, `dns.TypeAAAA`, `dns.TypeHTTPS`. -/
def typeA : UInt16 := 1

def typeAAAA : UInt16 := 28

def typeHTTPS : UInt16 := 65

/-- `dns.Fqdn` of a name from which `FqdnToDomain` has taken the final dot. -/
def fqdn (name : GoString) : GoString := if fqdnToDomain name = name then name ++ [46] else name

/-- The query that `lookupToExchange` makes of its arguments. -/
def Query.ofLookup (transport name : GoString) (qtype : UInt16) (options : DNSQueryOptions)
    (checker : Option (List Addr → Bool)) (contextTransport : Option GoString) : Query where
  transport := transport
  message := { id := 0, recursionDesired := true, question := [⟨name, qtype, 1⟩] }
  options := options
  checker := checker
  contextTransport := contextTransport

/-- The queries that `Lookup` makes, which are made at the same time. -/
def lookupQueries (transport domain : GoString) (options : DNSQueryOptions)
    (checker : Option (List Addr → Bool)) (contextTransport : Option GoString) : List Query :=
  let dnsName := fqdn (fqdnToDomain domain)
  let strategy :=
    if options.lookupStrategy ≠ .asIS then options.lookupStrategy else options.strategy
  let lookupOptions :=
    if options.lookupStrategy ≠ .asIS then { options with strategy := strategy } else options
  let query := fun qtype =>
    Query.ofLookup transport dnsName qtype lookupOptions checker contextTransport
  match strategy with
  | .ipv4Only => [query typeA]
  | .ipv6Only => [query typeAAAA]
  | _ => [query typeA, query typeAAAA]

/-- `transportCacheKey`. -/
abbrev TransportKey : Type := Question × GoString

def Query.key (q : Query) : TransportKey := (q.question, q.transport)

/-- The key of a response in the cache. -/
abbrev CacheKey : Type := Question × Option GoString

namespace Client

def cacheKey (c : Client) (q : Query) : CacheKey :=
  (q.question, if c.independentCache then some q.transport else none)

/-- The subnet that is sent with a query. -/
def subnet (c : Client) (q : Query) : Prefix :=
  if q.options.clientSubnet.isValid then q.options.clientSubnet else c.clientSubnet

/-- The message that is sent. -/
def request (c : Client) (q : Query) : Msg :=
  if (c.subnet q).isValid then q.message.setClientSubnet (c.subnet q) else q.message

end Client

/-- `isSimpleRequest`. -/
def isSimpleRequest (message : Msg) (options : DNSQueryOptions) : Bool :=
  message.question.length = 1 && message.ns.length = 0 &&
    (match message.extra with
      | [] => true
      | [r] => r.rrtype = 41 && r.rrclass > 0 && r.ttl = 0 && r.options? = some []
      | _ => false) &&
    !options.clientSubnet.isValid

/-- `disableCache` of `Exchange`, before the response is known. -/
def Client.cacheDisabled (c : Client) (q : Query) : Bool :=
  !isSimpleRequest (c.request q) q.options || c.disableCache || q.options.disableCache

/-! ### The cache -/

/-- A response in the cache, with the query that has stored it. -/
structure Stored where
  msg : Msg
  query : Query

/-- The loops of `loadResponse` that reduce the times to live. -/
def Msg.aged (m : Msg) (nowTTL : ℕ) : Msg :=
  let originTTL := (leastTTL m.records).toNat
  if 0 < originTTL then
    let duration := UInt32.ofBitVec (.ofInt 32 (originTTL - nowTTL))
    m.mapRecords fun r => if r.isOPT then r else { r with ttl := r.ttl - duration }
  else m.mapRecords (RR.setTTL (.ofNat nowTTL))

/-- What `loadResponse` can find. -/
inductive Loaded where
  | missing
  /-- The entry has expired since it was read. -/
  | expired
  | response (m : Msg) (stored : Stored)

/-- `loadResponse`.  The cache reads the clock at `now` and the function itself at `timeNow`. -/
def Client.loadResponse (c : Client) (cache : ExpiringMap CacheKey Stored) (now timeNow : ℕ)
    (key : CacheKey) : Loaded :=
  match cache.find (now / 10 ^ 6) key with
  | none => .missing
  | some entry =>
    if c.disableExpire then .response entry.value.msg entry.value
    else if entry.expire * 10 ^ 6 < timeNow then .expired
    else
      .response (entry.value.msg.aged (Binary64.seconds (entry.expire * 10 ^ 6 - timeNow)))
        entry.value

theorem Client.loadResponse_eq {c : Client} {cache : ExpiringMap CacheKey Stored}
    {now timeNow : ℕ} {key : CacheKey} {m : Msg} {stored : Stored} :
    c.loadResponse cache now timeNow key = .response m stored ↔
      ∃ entry, cache.find (now / 10 ^ 6) key = some entry ∧ stored = entry.value ∧
        (c.disableExpire = true ∧ m = entry.value.msg ∨
          c.disableExpire = false ∧ timeNow ≤ entry.expire * 10 ^ 6 ∧
            m = entry.value.msg.aged (Binary64.seconds (entry.expire * 10 ^ 6 - timeNow))) := by
  rw [loadResponse]
  cases cache.find (now / 10 ^ 6) key with
  | none =>
    refine iff_of_false (fun h => by cases h) ?_
    rintro ⟨entry, h, -⟩
    cases h
  | some entry =>
    have hentry : ∀ Q : ExpiringEntry Stored → Prop,
        (∃ entry', some entry = some entry' ∧ Q entry') ↔ Q entry := by simp
    rw [hentry]
    dsimp only
    cases c.disableExpire with
    | true => simp [eq_comm, and_comm]
    | false =>
      generalize entry.expire * 10 ^ 6 = expireAt
      by_cases hexpired : expireAt < timeNow
      · simp [hexpired]
      · simp [hexpired, Nat.not_lt.1 hexpired, eq_comm, and_comm]

/-! ### Results -/

/-- A failure of a transport: the call for which it was asked, and whether the failure came from the
cancelled context of that call.  The code stores only that there was one. -/
structure Failure where
  caller : ℕ
  byContext : Bool

/-- The errors of `Exchange` and `lookupToExchange`. -/
inductive ExchangeError where
  | waitTimeout
  /-- `ctx.Err()`. -/
  | contextDone (err : GoError)
  | circuitOpen (tag : GoString)
  | loopback (tag : GoString)
  | rejectedCached
  | recentFailure (name : GoString) (failure : Failure)
  /-- The error of the transport. -/
  | transport (err : GoError)
  /-- The response is returned too. -/
  | rejected (response : Msg)
  /-- `RcodeError`. -/
  | rcode (code : ℕ)

/-- What a call of `Exchange` returns, and where it comes from. -/
inductive Return where
  /-- A response that the client makes up. -/
  | fixed (m : Msg)
  /-- A response from the cache. -/
  | cached (m : Msg) (stored : Stored)
  /-- A response of the transport. -/
  | answered (m : Msg)
  | failed (err : ExchangeError)

/-- The response of a call that has no error. -/
def Return.response? : Return → Option Msg
  | fixed m => some m
  | cached m _ => some m
  | answered m => some m
  | failed _ => none

/-! ### The answer of a transport -/

/-- Whether a response has one of the codes that may be cached. -/
def Msg.rcodeCacheable (m : Msg) : Bool := m.rcode = rcodeSuccess || m.rcode = rcodeNameError

/-- Whether the `responseChecker` rejects the response. -/
def Query.rejects (q : Query) (response : Msg) : Bool :=
  match q.checker with
  | none => false
  | some check =>
    if !response.rcodeCacheable then true
    else if response.answer.length = 0 then !check []
    else !check (messageToAddresses response)

/-- The time to live that a response gets. -/
def timeToLive (options : DNSQueryOptions) (response : Msg) : UInt32 :=
  let negative :=
    if response.answer.length = 0 then (extractNegativeTTL response).getD 0 else 0
  let ttl := if negative = 0 then leastTTL response.records else negative
  options.rewriteTTL.getD ttl

/-- The response with its hints filtered and its times to live set. -/
def Query.prepare (q : Query) (response : Msg) : Msg :=
  let response :=
    if q.question.qtype = typeHTTPS then response.filterHints q.options.strategy else response
  response.mapRecords (RR.setTTL (timeToLive q.options response))

/-- The time to live with which the response is stored. -/
def Query.storeTTL (q : Query) (response : Msg) : UInt32 :=
  timeToLive q.options
    (if q.question.qtype = typeHTTPS then response.filterHints q.options.strategy else response)

/-! ### Calls -/

/-- Where a call is. -/
inductive Phase where
  /-- At the beginning of `lookupToExchange`. -/
  | lookingUp
  /-- At the beginning of `Exchange`. -/
  | entering
  /-- In `awaitFlight`. -/
  | waiting (leader deadline : ℕ)
  /-- Before `loadResponse`. -/
  | loading
  /-- After the cache. -/
  | checking
  /-- In `transport.Exchange`. -/
  | asking
  /-- Before the deferred functions. -/
  | returning (r : Return)
  | returned (r : Return)

/-- The result of a call that has one. -/
def Phase.result? : Phase → Option Return
  | returning r => some r
  | returned r => some r
  | _ => none

structure Call where
  query : Query
  /-- Whether other calls wait for this one. -/
  leads : Bool := false
  /-- Whether its context was cancelled before it had a result. -/
  canceled : Bool := false
  phase : Phase

/-- The response that a call returns without an error. -/
def Call.response? (call : Call) : Option Msg := call.phase.result?.bind Return.response?

/-- `exchangeFlight`. -/
structure Flight where
  (leader deadline : ℕ)

/-- What the calls share, and the calls. -/
structure State where
  now : ℕ := 0
  cache : ExpiringMap CacheKey Stored := .empty
  negFail : ExpiringMap TransportKey Failure := .empty
  flights : TransportKey → Option Flight := fun _ => none
  calls : ℕ → Option Call := fun _ => none

/-- What a transport comes back with. -/
inductive Outcome where
  /-- An error that is not an `RcodeError`, and whether it is due to the cancelled context. -/
  | failed (err : GoError) (byContext : Bool)
  | rcode (code : ℕ)
  | answered (response : Msg)

/-- What can happen to a call. -/
inductive CallEvent where
  /-- The first look of `lookupToExchange` into the cache. -/
  | questionCache (timeNow : ℕ)
  /-- `circuit` is the outbound that `transportCircuitOpen` reports. -/
  | enter (circuit : Option GoString)
  | wake
  | expire
  | giveUp (err : GoError)
  | load (timeNow : ℕ)
  /-- `rejected` is what `LoadRDRC` says. -/
  | check (rejected : Bool) (circuit : Option GoString)
  | respond (outcome : Outcome)
  | release
  | cancel

/-- What a step of a call does to the things that are shared. -/
inductive Effect where
  | quiet
  | lead (key : TransportKey) (flight : Flight)
  | land (key : TransportKey)
  | store (key : CacheKey) (entry : ExpiringEntry Stored)
  | drop (key : CacheKey)
  | fail (key : TransportKey) (failure : Failure)

/-- `negFailTTL` in milliseconds. -/
def negFailTTL : ℕ := 5000

def State.apply (s : State) : Effect → State
  | .quiet => s
  | .lead key flight => { s with flights := Function.update s.flights key (some flight) }
  | .land key => { s with flights := Function.update s.flights key none }
  | .store key entry => { s with cache := s.cache.insert key entry }
  | .drop key => { s with cache := s.cache.remove key }
  | .fail key failure =>
    { s with negFail := s.negFail.insert key ⟨failure, s.now / 10 ^ 6 + negFailTTL⟩ }

/-- A step of a call: the call after it, the effect, and the clock. -/
structure Move where
  call : Call
  effect : Effect := .quiet
  now : ℕ

namespace Client

/-- The beginning of `Exchange`, as far as the flights. -/
def enter (c : Client) (s : State) (id : ℕ) (call : Call) (circuit : Option GoString) : Move :=
  let q := call.query
  let toPhase := fun phase => { call := { call with phase := phase }, now := s.now : Move }
  if q.message.question.length = 0 then
    toPhase (.returning (.fixed (fixedResponseStatus q.message rcodeFormatError)))
  else if q.question.qtype = typeA && q.options.strategy = .ipv6Only ||
      q.question.qtype = typeAAAA && q.options.strategy = .ipv4Only then
    toPhase (.returning (.fixed (fixedResponseStatus q.message rcodeSuccess)))
  else if c.cacheDisabled q then toPhase .checking
  else
    match s.flights q.key with
    | none =>
      { call := { call with leads := true, phase := .loading }
        effect := .lead q.key ⟨id, s.now + c.timeout⟩
        now := s.now }
    | some flight =>
      match circuit with
      | some tag => toPhase (.returning (.failed (.circuitOpen tag)))
      | none =>
        if flight.deadline ≤ s.now then toPhase (.returning (.failed .waitTimeout))
        else toPhase (.waiting flight.leader flight.deadline)

/-- A look into the cache: `f` is what becomes of the response, `phase` is where a call goes on that
finds none. -/
def look (c : Client) (s : State) (call : Call) (timeNow : ℕ) (phase : Phase) (f : Msg → Msg) :
    Move :=
  let key := c.cacheKey call.query
  match c.loadResponse s.cache s.now timeNow key with
  | .missing => { call := { call with phase := phase }, now := timeNow }
  | .expired => { call := { call with phase := phase }, effect := .drop key, now := timeNow }
  | .response m stored =>
    { call := { call with phase := .returning (.cached (f m) stored) }, now := timeNow }

/-- What follows the cache, as far as the transport. -/
def check (c : Client) (s : State) (call : Call) (rejected : Bool) (circuit : Option GoString) :
    Phase :=
  let q := call.query
  if q.contextTransport = some q.transport then .returning (.failed (.loopback q.transport))
  else if !c.cacheDisabled q && q.checker.isSome && c.hasRDRC && rejected then
    .returning (.failed .rejectedCached)
  else
    match s.negFail.find (s.now / 10 ^ 6) q.key with
    | some entry => .returning (.failed (.recentFailure q.question.name entry.value))
    | none =>
      match circuit with
      | some tag => .returning (.failed (.circuitOpen tag))
      | none => .asking

/-- The entry of `storeCache`. -/
def entry (c : Client) (now : ℕ) (q : Query) (response : Msg) : ExpiringEntry Stored where
  value := ⟨q.prepare response, q⟩
  expire := if c.disableExpire then 0 else now / 10 ^ 6 + (q.storeTTL response).toNat * 1000

/-- The end of `Exchange`. -/
def finish (c : Client) (s : State) (call : Call) (response : Msg) : Move :=
  let q := call.query
  if q.rejects response then
    { call := { call with phase := .returning (.failed (.rejected response)) }, now := s.now }
  else
    let answer := (c.request q).matchEdns0 { q.prepare response with id := q.message.id }
    { call := { call with phase := .returning (.answered answer) }
      effect :=
        if c.cacheDisabled q || !response.rcodeCacheable || q.storeTTL response = 0 then .quiet
        else .store (c.cacheKey q) (c.entry s.now q response)
      now := s.now }

/-- What follows the transport. -/
def respond (c : Client) (s : State) (id : ℕ) (call : Call) : Outcome → Option Move
  | .failed err byContext =>
    if byContext && !call.canceled then none
    else some
      { call := { call with phase := .returning (.failed (.transport err)) }
        effect := .fail call.query.key ⟨id, byContext⟩
        now := s.now }
  | .rcode code => some (c.finish s call (fixedResponseStatus (c.request call.query) code))
  | .answered response => some (c.finish s call response.stripPadding)

/-- Whether the call that others wait for has returned. -/
def hasReturned (s : State) (id : ℕ) : Bool :=
  match s.calls id with
  | some { phase := .returned _, .. } => true
  | _ => false

/-- One step of a call. -/
def callStep (c : Client) (s : State) (id : ℕ) (call : Call) : CallEvent → Option Move
  | .questionCache timeNow =>
    match call.phase with
    | .lookingUp =>
      if timeNow < s.now then none
      else if c.disableCache || call.query.options.disableCache then
        some { call := { call with phase := .entering }, now := timeNow }
      else some (c.look s call timeNow .entering fun m => m)
    | _ => none
  | .enter circuit =>
    match call.phase with
    | .entering => some (c.enter s id call circuit)
    | _ => none
  | .wake =>
    match call.phase with
    | .waiting leader _ =>
      if hasReturned s leader then
        some { call := { call with phase := .loading }, now := s.now }
      else none
    | _ => none
  | .expire =>
    match call.phase with
    | .waiting _ deadline =>
      if deadline ≤ s.now then
        some { call := { call with phase := .returning (.failed .waitTimeout) }, now := s.now }
      else none
    | _ => none
  | .giveUp err =>
    match call.phase with
    | .waiting _ _ =>
      if call.canceled then
        some { call := { call with phase := .returning (.failed (.contextDone err)) }
               now := s.now }
      else none
    | _ => none
  | .load timeNow =>
    match call.phase with
    | .loading =>
      if timeNow < s.now then none
      else
        some (c.look s call timeNow .checking fun m => { m with id := call.query.message.id })
    | _ => none
  | .check rejected circuit =>
    match call.phase with
    | .checking =>
      some { call := { call with phase := c.check s call rejected circuit }, now := s.now }
    | _ => none
  | .respond outcome =>
    match call.phase with
    | .asking => c.respond s id call outcome
    | _ => none
  | .release =>
    match call.phase with
    | .returning r =>
      some { call := { call with phase := .returned r }
             effect := if call.leads then .land call.query.key else .quiet
             now := s.now }
    | _ => none
  | .cancel =>
    -- A call that has its result no longer looks at its context.
    some { call := if call.phase.result?.isNone then { call with canceled := true } else call
           now := s.now }

end Client

/-! ### The client -/

/-- What can happen. -/
inductive Event where
  | exchange (id : ℕ) (q : Query)
  /-- One of the queries of a call of `Lookup`. -/
  | lookup (id : ℕ) (transport domain : GoString) (options : DNSQueryOptions)
      (checker : Option (List Addr → Bool)) (contextTransport : Option GoString) (i : ℕ)
  | call (id : ℕ) (e : CallEvent)
  | pass (now : ℕ)
  | evict (key : CacheKey)
  | forget (key : TransportKey)
  | clearCache

def State.setCall (s : State) (id : ℕ) (call : Call) : State :=
  { s with calls := Function.update s.calls id (some call) }

def State.perform (s : State) (id : ℕ) (move : Move) : State :=
  ({ s with now := move.now }.apply move.effect).setCall id move.call

/-- A call begins under a number that is not in use. -/
def State.begin (s : State) (id : ℕ) (call : Call) : Option State :=
  match s.calls id with
  | none => some (s.setCall id call)
  | some _ => none

/-- One step of the client. -/
def Client.step (c : Client) (s : State) : Event → Option State
  | .exchange id q => s.begin id { query := q, phase := .entering }
  | .lookup id transport domain options checker contextTransport i =>
    match (lookupQueries transport domain options checker contextTransport)[i]? with
    | none => none
    | some q => s.begin id { query := q, phase := .lookingUp }
  | .call id e =>
    match s.calls id with
    | none => none
    | some call => (c.callStep s id call e).map (s.perform id)
  | .pass now => if now < s.now then none else some { s with now := now }
  | .evict key => some { s with cache := s.cache.remove key }
  | .forget key => some { s with negFail := s.negFail.remove key }
  | .clearCache => some { s with cache := .empty }

end SingBox.DNS
