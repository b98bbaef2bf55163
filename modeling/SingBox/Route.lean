/-
**The router** (`route/route.go`, the actions of `route/rule/rule_action.go`).

A connection walks down the route rules.  A rule that matches may set options, sniff, resolve the
destination, or decide where the connection goes; then what was read while sniffing is put back in
front of the connection, buffer by buffer, and the connection is handed to the outbound or to the
DNS hijacker.

Everything around the scan over the rules that only looks things up is a field of `Router`: the
process and FakeIP tables, the reverse DNS mapping, the DNS router behind a `resolve` action, and
the outbounds.

* `Router.ruleStep_stream`, `Router.ruleStep_packet` — **what a rule can do to a connection**:
  nothing, or what its sniff action does.
-/

import SingBox.DNSRouter
import SingBox.Scan
import SingBox.Sniff

namespace SingBox

open GoString

/-! ### Actions -/

/-- `Socksaddr.IsDomain`. -/
def Socksaddr.isDomain (s : Socksaddr) : Bool := s.fqdn ≠ []

/-- `Socksaddr.IsValid`. -/
def Socksaddr.isValid (s : Socksaddr) : Bool := s.isIP || s.isDomain

/-- `rule.RuleActionRouteOptions`, without the options for dialling. -/
structure RouteOptions where
  overrideAddress : Socksaddr := {}
  overridePort : UInt16 := 0
  overrideTunnelDestination : GoString := []

/-- The options are written into the metadata. -/
def RouteOptions.apply (options : RouteOptions) (metadata : InboundContext) : InboundContext :=
  let metadata :=
    if options.overrideAddress.isValid then
      { metadata with
        destination := { options.overrideAddress with port := metadata.destination.port }
        destinationAddresses := [] }
    else metadata
  let metadata :=
    if 0 < options.overridePort then
      { metadata with destination := { metadata.destination with port := options.overridePort } }
    else metadata
  if options.overrideTunnelDestination ≠ [] then
    { metadata with tunnelDestination := options.overrideTunnelDestination }
  else metadata

/-- `rule.RuleActionResolve`. -/
structure ResolveAction where
  server : GoString := []
  strategy : DomainStrategy := .asIS
  disableCache : Bool := false
  rewriteTTL : Option UInt32 := none
  clientSubnet : Prefix := ⟨.zero, 0⟩

/-- The actions of a route rule. -/
inductive RouteAction where
  | route (outbound : GoString) (options : RouteOptions)
  | routeOptions (options : RouteOptions)
  | bypass (outbound : GoString)
  | direct
  | reject (method : RejectMethod)
  | hijackDNS
  | sniff (action : SniffAction)
  | resolve (action : ResolveAction)

/-- The options of an action, written when its rule matches. -/
def RouteAction.applyOptions (action : RouteAction) (metadata : InboundContext) : InboundContext :=
  match action with
  | .route _ options => options.apply metadata
  | .routeOptions options => options.apply metadata
  | _ => metadata

/-- A route rule: its conditions and its action. -/
structure RouteRule where
  rule : Rule
  action : RouteAction

/-! ### The router -/

/-- An outbound and the networks that it supports. -/
structure Outbound where
  tag : GoString
  network : List GoString
  deriving DecidableEq

/-- `FakeIPStore`. -/
structure FakeIPStore where
  contains : Addr → Bool
  lookup : Addr → Option GoString

/-- Why a connection is not routed. -/
inductive RouteError where
  | error (err : GoError)
  | rejected (method : RejectMethod)
  | packet (err : PacketError)

/-- `route.Router`, with what it looks up elsewhere. -/
structure Router where
  env : Environment
  sniff : SniffEnvironment
  rules : List RouteRule
  searchProcessInfo : InboundContext → InboundContext
  fakeIP : Option FakeIPStore
  lookupReverseMapping : Addr → Option GoString
  lookup : InboundContext → ResolveAction → Except GoError (List Addr)
  outbound : GoString → Option Outbound
  defaultOutbound : Outbound
  deprecatedDestination : GoString → Option GoString

/-- Which of the two connections of `matchRule` is there. -/
inductive ConnKind where
  | stream
  | packet

/-- The variables of `matchRule`: the metadata, the connection, and what was read from it. -/
structure RouteState where
  metadata : InboundContext
  kind : ConnKind
  conn : StreamConn := []
  packetConn : PacketConn := []
  buffers : List (List UInt8) := []
  heap : PacketHeap := []
  packetBuffers : List ℕ := []

/-- The payloads of the packets that are buffered. -/
def RouteState.payloads (s : RouteState) : List (List UInt8) := s.packetBuffers.map s.heap.payload

/-- `actionSniff` and what `matchRule` does with its results. -/
def RouteState.sniff (env : SniffEnvironment) (action : SniffAction) (s : RouteState) :
    Scan.Outcome RouteState RouteRule RouteError :=
  match s.kind with
  | .stream =>
    let result := sniffStream env action s.buffers s.conn s.metadata
    .next
      { s with
        metadata := result.metadata
        conn := result.conn
        buffers := s.buffers ++ result.buffer.toList }
  | .packet =>
    let result := sniffPackets env action s.packetBuffers s.heap s.packetConn s.metadata
    let s' : RouteState :=
      { s with
        metadata := result.metadata
        packetConn := result.conn
        heap := result.heap
        packetBuffers := s.packetBuffers ++ result.packetBuffers }
    match result.fatal with
    | none => .next s'
    | some err => .fail (.packet err) s'

theorem RouteState.state_sniff_packet {s : RouteState} (hkind : s.kind = .packet)
    (env : SniffEnvironment) (action : SniffAction) :
    let result := sniffPackets env action s.packetBuffers s.heap s.packetConn s.metadata
    (s.sniff env action).state =
      { s with
        metadata := result.metadata
        packetConn := result.conn
        heap := result.heap
        packetBuffers := s.packetBuffers ++ result.packetBuffers } := by
  obtain ⟨metadata, kind, conn, packetConn, buffers, heap, packetBuffers⟩ := s
  obtain rfl : kind = .packet := hkind
  simp only [RouteState.sniff]
  split <;> rfl

namespace Router

variable (router : Router)

/-- `Router.actionResolve`. -/
def actionResolve (action : ResolveAction) (metadata : InboundContext) :
    Except RouteError InboundContext :=
  if metadata.destination.isDomain then
    match router.lookup metadata action with
    | .ok addresses => .ok { metadata with destinationAddresses := addresses }
    | .error err => .error (.error err)
  else .ok metadata

/-- The action of a rule that matches, for a connection that is really routed. -/
def act (r : RouteRule) (s : RouteState) : Scan.Outcome RouteState RouteRule RouteError :=
  match r.action with
  | .sniff action => s.sniff router.sniff action
  | .resolve action =>
    match router.actionResolve action s.metadata with
    | .ok metadata => .next { s with metadata := metadata }
    | .error err => .fail err s
  | .route _ _ => .done r s
  | .reject _ => .done r s
  | .hijackDNS => .done r s
  | .bypass outbound => if outbound = [] then .next s else .done r s
  | .routeOptions _ => .next s
  | .direct => .next s

/-- One rule in the loop of `matchRule`. -/
def ruleStep (s : RouteState) (r : RouteRule) : Scan.Outcome RouteState RouteRule RouteError :=
  let metadata := s.metadata.resetRuleCache
  if r.rule.Match router.env metadata then
    router.act r { s with metadata := r.action.applyOptions metadata }
  else .next { s with metadata := metadata }

/-- What `matchRule` finds out before it looks at the rules. -/
def prepare (metadata : InboundContext) : Except RouteError InboundContext := do
  let metadata := router.searchProcessInfo metadata
  let addr := metadata.destination.addr
  let metadata ←
    match router.fakeIP.filter fun store => addr.isValid && store.contains addr with
    | some store =>
      match store.lookup addr with
      | none => .error (.error (.new (ofString
          "missing fakeip record, try enable `experimental.cache_file`")))
      | some domain =>
        .ok (if domain ≠ [] then
          { metadata with destination := { fqdn := domain, port := metadata.destination.port } }
        else metadata)
    | none =>
      .ok (if metadata.domain = [] then
        match router.lookupReverseMapping addr with
        | some domain => { metadata with domain := domain }
        | none => metadata
      else metadata)
  return { metadata with
    ipVersion :=
      if metadata.destination.addr.is4 then 4
      else if metadata.destination.addr.is6 then 6
      else metadata.ipVersion }

/-- `Router.matchRule`: the rule that decides, if any, and the variables at the end. -/
def matchRule (start : RouteState) : Except RouteError (Option RouteRule × RouteState) :=
  (router.prepare start.metadata).bind fun metadata =>
    match Scan.run router.ruleStep { start with metadata := metadata } router.rules with
    | .next s => .ok (none, s)
    | .done r s => .ok (some r, s)
    | .fail err _ => .error err

/-! ### What a rule can do -/

/-- A rule matches and sniffs. -/
def Sniffs (s : RouteState) (r : RouteRule) (action : SniffAction) : Prop :=
  r.rule.Match router.env s.metadata.resetRuleCache ∧ r.action = .sniff action

variable {router}

theorem ruleStep_cases (s : RouteState) (r : RouteRule) :
    (∃ action, router.Sniffs s r action ∧ router.ruleStep s r =
      RouteState.sniff router.sniff action { s with metadata := s.metadata.resetRuleCache }) ∨
    ((∀ action, ¬router.Sniffs s r action) ∧
      ∃ metadata, (router.ruleStep s r).state = { s with metadata := metadata }) := by
  by_cases hmatch : r.rule.Match router.env s.metadata.resetRuleCache
  · have hstep : router.ruleStep s r = router.act r
        { s with metadata := r.action.applyOptions s.metadata.resetRuleCache } := if_pos hmatch
    rw [hstep]
    by_cases hsniff : ∃ action, r.action = .sniff action
    · obtain ⟨action, haction⟩ := hsniff
      refine .inl ⟨action, ⟨hmatch, haction⟩, ?_⟩
      rw [act, haction]
      rfl
    · refine .inr ⟨fun action h => hsniff ⟨action, h.2⟩, ?_⟩
      unfold act
      cases haction : r.action with
      | sniff action => exact absurd ⟨action, haction⟩ hsniff
      | resolve action | bypass outbound =>
        dsimp only
        split <;> exact ⟨_, rfl⟩
      | route outbound options | routeOptions options | direct | reject method | hijackDNS =>
        exact ⟨_, rfl⟩
  · refine .inr ⟨fun _ h => hmatch h.1, s.metadata.resetRuleCache, ?_⟩
    rw [ruleStep, if_neg hmatch]
    rfl

/-- **What a rule can do to a stream**: bytes move from the connection into one new buffer, unless
the rule does not sniff, its action is skipped or the next read brings nothing. -/
theorem ruleStep_stream {s : RouteState} (hkind : s.kind = .stream) (r : RouteRule) :
    ∃ (metadata : InboundContext) (conn : StreamConn) (buffer : Option (List UInt8)),
      (router.ruleStep s r).state =
          { s with metadata := metadata, conn := conn, buffers := s.buffers ++ buffer.toList } ∧
        buffer.getD [] ++ conn.bytes = s.conn.bytes ∧ buffer ≠ some [] ∧
        (buffer = none ↔ ∀ action, router.Sniffs s r action →
          action.skipsStream s.metadata ∨ s.conn.speaks = false) := by
  rcases ruleStep_cases s r with ⟨action, hsniffs, hstep⟩ | ⟨hnot, metadata, hstep⟩
  · obtain ⟨metadata, kind, conn, packetConn, buffers, heap, packetBuffers⟩ := s
    obtain rfl : kind = .stream := hkind
    rw [hstep]
    refine ⟨_, _, (sniffStream router.sniff action buffers conn metadata.resetRuleCache).buffer,
      rfl, sniffStream_bytes router.sniff action buffers conn _,
      sniffStream_buffer_ne_nil router.sniff action buffers conn _, ?_⟩
    rw [sniffStream_buffer_eq_none_iff]
    constructor
    · intro h action' hsniffs'
      obtain rfl : action = action' := RouteAction.sniff.inj (hsniffs.2.symm.trans hsniffs'.2)
      exact h
    · intro h
      exact h action hsniffs
  · exact ⟨metadata, s.conn, none, by simp [hstep], rfl, by simp,
      iff_of_true rfl fun action h => absurd h (hnot action)⟩

/-- **What a rule can do to a packet connection**: nothing, unless it sniffs and reads on; then the
packets that were buffered are appended once more, followed by those that were read. -/
theorem ruleStep_packet {s : RouteState} (hkind : s.kind = .packet) (r : RouteRule) :
    ((∀ action, router.Sniffs s r action →
        action.readsOn router.sniff s.payloads s.metadata.resetRuleCache = false) ∧
      ∃ metadata, (router.ruleStep s r).state = { s with metadata := metadata }) ∨
    ∃ action, router.Sniffs s r action ∧
      action.readsOn router.sniff s.payloads s.metadata.resetRuleCache ∧
      ∃ (metadata : InboundContext) (conn : PacketConn) (packets : List Datagram),
        (router.ruleStep s r).state =
            { s with
              metadata := metadata
              packetConn := conn
              heap := s.heap ++ packets.map some
              packetBuffers := s.packetBuffers ++
                (s.packetBuffers ++ List.range' s.heap.length packets.length) } ∧
          s.packetConn.datagrams = packets ++ conn.datagrams ∧
          (s.packetBuffers = [] → (packets.length ≤ 1 ↔
            action.readsTwo router.sniff s.packetConn s.metadata.resetRuleCache = false)) := by
  rcases ruleStep_cases s r with ⟨action, hsniffs, hstep⟩ | ⟨hnot, hstep⟩
  · have hstate := RouteState.state_sniff_packet
      (s := { s with metadata := s.metadata.resetRuleCache }) hkind router.sniff action
    rw [hstep, hstate]
    dsimp only
    cases hon : action.readsOn router.sniff s.payloads s.metadata.resetRuleCache with
    | false =>
      refine .inl ⟨fun action' hsniffs' => ?_, ?_⟩
      · obtain rfl : action = action' := RouteAction.sniff.inj (hsniffs.2.symm.trans hsniffs'.2)
        exact hon
      · obtain ⟨metadata', hres⟩ := sniffPackets_of_not_readsOn s.packetConn hon
        rw [hres]
        exact ⟨metadata', by simp⟩
    | true =>
      refine .inr ⟨action, hsniffs, hon, ?_⟩
      obtain ⟨packets, hheap, hbuffers, hconn, htwo⟩ := sniffPackets_spec s.packetConn hon
      generalize sniffPackets router.sniff action s.packetBuffers s.heap s.packetConn
        s.metadata.resetRuleCache = result at hheap hbuffers hconn ⊢
      exact ⟨result.metadata, result.conn, packets, by rw [← hheap, ← hbuffers], hconn, htwo⟩
  · exact .inl ⟨fun action h => absurd h (hnot action), hstep⟩

theorem matchRule_eq_ok {start : RouteState} {result : Option RouteRule × RouteState}
    (h : router.matchRule start = .ok result) :
    ∃ metadata, router.prepare start.metadata = .ok metadata ∧
      result.2 =
        (Scan.run router.ruleStep { start with metadata := metadata } router.rules).state := by
  obtain ⟨metadata, hprepare, hrun⟩ := exceptBind_eq_ok.1 h
  refine ⟨metadata, hprepare, ?_⟩
  revert hrun
  cases Scan.run router.ruleStep { start with metadata := metadata } router.rules with
  | next s | done r s =>
    intro hrun
    cases hrun
    rfl
  | fail err s =>
    intro hrun
    cases hrun

end Router

/-! ### Where a connection goes -/

/-- Where a connection is handed to: the DNS hijacker, an outbound, or nothing at all. -/
inductive Target where
  | hijackDNS
  | outbound (outbound : Outbound)
  | none
  deriving DecidableEq

/-- What the routing of TCP and of UDP call differently. -/
structure NetworkNames where
  (network label unsupportedDefault : GoString)

/-- The names for TCP. -/
def NetworkNames.tcp : NetworkNames where
  network := "tcp"
  label := "TCP"
  unsupportedDefault := "TCP is not supported by default outbound: "

/-- The names for UDP. -/
def NetworkNames.udp : NetworkNames where
  network := "udp"
  label := "UDP"
  unsupportedDefault := "UDP is not supported by outbound: "

/-- The variables with which `routeConnection` calls `matchRule`. -/
def RouteState.ofStream (conn : StreamConn) (metadata : InboundContext) : RouteState :=
  { metadata := { metadata with network := NetworkNames.tcp.network }, kind := .stream,
    conn := conn }

/-- The variables with which `routePacketConnection` calls `matchRule`. -/
def RouteState.ofPackets (conn : PacketConn) (metadata : InboundContext) : RouteState :=
  { metadata := { metadata with network := NetworkNames.udp.network }
    kind := .packet
    packetConn := conn }

/-- The loop that puts what was read from a stream back in front of it. -/
def stackBuffers (buffers : List (List UInt8)) (conn : StreamConn) : CachedConn :=
  buffers.foldl .cached (.base conn)

/-- The loop that puts the packets back in front of a packet connection.  Each packet buffer is put
into its pool at once, which empties it; there is no result if an empty one is met. -/
def stackPackets : List ℕ → PacketHeap → CachedPacketConn → Option CachedPacketConn
  | [], _, conn => some conn
  | id :: ids, heap, conn =>
    match heap[id]? with
    | some (some packet) => stackPackets ids (heap.set id none) (.cached conn packet)
    | _ => none

/-- How a TCP connection is handed over. -/
structure RoutedStream where
  target : Target
  conn : CachedConn
  metadata : InboundContext

/-- How a packet connection is handed over: an outbound gets the packets in front of the connection,
the DNS hijacker gets them beside it.  If a packet buffer is used that is in its pool already, the
program dereferences a nil pointer. -/
inductive RoutedPackets where
  | outbound (target : Target) (conn : CachedPacketConn) (metadata : InboundContext)
  | hijackDNS (conn : PacketConn) (heap : PacketHeap) (packetBuffers : List ℕ)
      (metadata : InboundContext)
  | nilDereference

/-- The packet connection and the packets read from it are handed over. -/
def RouteState.handPackets (s : RouteState) (target : Target) : RoutedPackets :=
  if target = .hijackDNS then .hijackDNS s.packetConn s.heap s.packetBuffers s.metadata
  else
    match stackPackets s.packetBuffers s.heap (.base s.packetConn) with
    | some conn => .outbound target conn s.metadata
    | none => .nilDereference

/-- What an outbound receives are the given packets; the DNS hijacker is not one. -/
def RoutedPackets.Delivers (packets : List Datagram) : RoutedPackets → Prop
  | .outbound _ conn _ => conn.datagrams = packets
  | .hijackDNS _ _ _ _ => True
  | .nilDereference => False

instance (packets : List Datagram) : DecidablePred (RoutedPackets.Delivers packets)
  | .outbound _ conn _ => inferInstanceAs (Decidable (conn.datagrams = packets))
  | .hijackDNS _ _ _ _ => .isTrue trivial
  | .nilDereference => .isFalse id

namespace Router

variable (router : Router)

/-- An outbound by its tag, if it supports the network. -/
def namedOutbound (names : NetworkNames) (tag : GoString) : Except RouteError Target :=
  match router.outbound tag with
  | none => .error (.error (.new ("outbound not found: " ++ tag)))
  | some outbound =>
    if outbound.network.contains names.network then .ok (.outbound outbound)
    else .error (.error (.new
      (names.label ++ " is not supported by outbound: " ++ outbound.tag)))

/-- The switch over the action of the selected rule. -/
def selectTarget (names : NetworkNames) (selected : Option RouteRule) : Except RouteError Target :=
  match selected with
  | none =>
    if router.defaultOutbound.network.contains names.network then
      .ok (.outbound router.defaultOutbound)
    else .error (.error (.new (names.unsupportedDefault ++ router.defaultOutbound.tag)))
  | some r =>
    match r.action with
    | .route outbound _ => router.namedOutbound names outbound
    | .bypass outbound => if outbound = [] then .ok .none else router.namedOutbound names outbound
    | .reject method =>
      if method = .reply then .error (.error (.new (ofString
        "reject method `reply` is not supported for " ++ names.label ++
          " connections")))
      else .error (.rejected method)
    | .hijackDNS => .ok .hijackDNS
    | _ => .ok .none

/-- `Router.routeConnection`. -/
def routeConnection (conn : StreamConn) (metadata : InboundContext) :
    Except RouteError RoutedStream :=
  match router.deprecatedDestination metadata.destination.fqdn with
  | some message => .error (.error (.new message))
  | none =>
    (router.matchRule (.ofStream conn metadata)).bind fun (selected, s) =>
      (router.selectTarget .tcp selected).map fun target =>
        ⟨target, stackBuffers s.buffers s.conn, s.metadata⟩

/-- `Router.routePacketConnection`. -/
def routePacketConnection (conn : PacketConn) (metadata : InboundContext) :
    Except RouteError RoutedPackets :=
  (router.matchRule (.ofPackets conn metadata)).bind fun (selected, s) =>
    (router.selectTarget .udp selected).map s.handPackets

end Router

end SingBox
