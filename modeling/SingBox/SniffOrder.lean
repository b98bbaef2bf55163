/-
**Sniffing and the order of what was read.**

What sniff actions read from a connection is put back in front of it buffer by buffer, each around
what is there already, so that the buffer that was filled last is read first.  A single buffer is no
harm; two buffers change places.  For packets there is a second effect: a sniff action that reads on
returns the packets that it was given together with the new ones, and they are all appended to those
that are there, so that a packet buffer is put back into its pool and then used again.

The conditions are about the state in which a sniff action is taken and what the network brings
then.  They are enough for every run of the rules, and needed if no byte (or packet) occurs twice.

* `Router.stream_preserved` — **a TCP stream reaches the outbound as the client sent it**, under the
  condition and essentially only then;
* `Router.packets_preserved` — **UDP packets reach the outbound as they arrived**, likewise.
-/

import SingBox.Route

namespace SingBox

open RouteState List GoString

/-! ### Blocks in reverse order -/

section

variable {α : Type}

/-- Blocks without repetitions cannot be reversed without notice, unless there is at most one. -/
theorem length_le_one_of_flatten_reverse {blocks : List (List α)} (hne : ∀ b ∈ blocks, b ≠ [])
    (hnodup : blocks.flatten.Nodup) (h : blocks.reverse.flatten = blocks.flatten) :
    blocks.length ≤ 1 := by
  rcases blocks with _ | ⟨first, rest⟩
  · exact Nat.zero_le 1
  rcases eq_nil_or_concat rest with rfl | ⟨middle, last, rfl⟩
  · exact le_rfl
  -- the first block and the last one begin with the same element
  exfalso
  obtain ⟨x, first, rfl⟩ := exists_cons_of_ne_nil (hne first mem_cons_self)
  obtain ⟨y, last, rfl⟩ := exists_cons_of_ne_nil (hne last (by simp))
  have hxy : x = y := by
    have hhead := congrArg List.head? h
    simp at hhead
    exact hhead.symm
  subst hxy
  simp at hnodup

theorem flatten_reverse_of_length_le_one {blocks : List (List α)} (h : blocks.length ≤ 1) :
    blocks.reverse.flatten = blocks.flatten := by
  rcases blocks with _ | ⟨b, _ | ⟨c, bs⟩⟩
  · rfl
  · rfl
  · simp at h

end

theorem bytes_stackBuffers (buffers : List (List UInt8)) (conn : StreamConn) :
    (stackBuffers buffers conn).bytes = buffers.reverse.flatten ++ conn.bytes := by
  induction buffers using List.reverseRecOn with
  | nil => rfl
  | append_singleton buffers buffer ih =>
    rw [stackBuffers, foldl_append, foldl_cons, foldl_nil, CachedConn.bytes, ← stackBuffers, ih]
    simp

namespace Router

variable {router : Router}

/-! ### Streams -/

/-- A rule does not sniff a stream from which bytes are buffered already, unless its action is
skipped or the next read brings nothing. -/
def StreamSafe (router : Router) (s : RouteState) (r : RouteRule) : Prop :=
  s.kind = .stream → ∀ action, router.Sniffs s r action → s.buffers ≠ [] →
    action.skipsStream s.metadata = true ∨ s.conn.speaks = false

/-- The condition, at every rule that is reached. -/
def StreamUndisturbed (router : Router) (conn : StreamConn) (metadata : InboundContext) : Prop :=
  ∀ metadata', router.prepare (ofStream conn metadata).metadata = .ok metadata' →
    Scan.Along router.ruleStep router.StreamSafe
      { ofStream conn metadata with metadata := metadata' } router.rules

/-- The buffers and the connection together hold what the client sends. -/
structure StreamInv (bytes : List UInt8) (s : RouteState) : Prop where
  kind_eq : s.kind = .stream
  buffers_ne_nil : ∀ b ∈ s.buffers, b ≠ []
  bytes_eq : s.buffers.flatten ++ s.conn.bytes = bytes

theorem streamInv_ruleStep (bytes : List UInt8) (s : RouteState) (r : RouteRule)
    (h : StreamInv bytes s) : StreamInv bytes (router.ruleStep s r).state := by
  obtain ⟨metadata, conn, buffer, hstate, hbytes, hne, -⟩ := router.ruleStep_stream h.kind_eq r
  rw [hstate]
  refine ⟨h.kind_eq, ?_, ?_⟩
  · intro b hb
    rcases List.mem_append.1 hb with hold | hnew
    · exact h.buffers_ne_nil b hold
    · intro hnil
      subst hnil
      exact hne (Option.mem_toList.1 hnew)
  · rw [← h.bytes_eq, ← hbytes]
    cases buffer <;> simp

variable (s : RouteState) (r : RouteRule)

theorem buffers_ruleStep_of_safe (hsafe : router.StreamSafe s r)
    (h : s.kind = .stream ∧ s.buffers.length ≤ 1) :
    (router.ruleStep s r).state.kind = .stream ∧
      (router.ruleStep s r).state.buffers.length ≤ 1 := by
  obtain ⟨hkind, hlen⟩ := h
  obtain ⟨metadata, conn, buffer, hstate, -, -, hnone⟩ := router.ruleStep_stream hkind r
  rw [hstate]
  refine ⟨hkind, ?_⟩
  by_cases hempty : s.buffers = []
  · cases buffer <;> simp [hempty]
  · have hbuffer : buffer = none := hnone.2 fun action hsniffs => hsafe hkind action hsniffs hempty
    simpa [hbuffer] using hlen

theorem buffers_ruleStep_of_not_safe (hsafe : ¬router.StreamSafe s r) :
    (router.ruleStep s r).state.kind = .stream ∧
      1 < (router.ruleStep s r).state.buffers.length := by
  simp only [StreamSafe, not_forall] at hsafe
  obtain ⟨hkind, action, hsniffs, hempty, hspeaks⟩ := hsafe
  obtain ⟨metadata, conn, buffer, hstate, -, -, hnone⟩ := router.ruleStep_stream hkind r
  rw [hstate]
  refine ⟨hkind, ?_⟩
  have hold : 0 < s.buffers.length := List.length_pos_iff.2 hempty
  cases buffer with
  | none => exact absurd (hnone.1 rfl action hsniffs) hspeaks
  | some buffer =>
    rw [length_append, Option.toList_some, length_singleton]
    omega

theorem buffers_ruleStep_mono (h : s.kind = .stream ∧ 1 < s.buffers.length) :
    (router.ruleStep s r).state.kind = .stream ∧
      1 < (router.ruleStep s r).state.buffers.length := by
  obtain ⟨hkind, hlen⟩ := h
  obtain ⟨metadata, conn, buffer, hstate, -⟩ := router.ruleStep_stream hkind r
  rw [hstate, length_append]
  exact ⟨hkind, by omega⟩

variable {metadata : InboundContext}

theorem routeConnection_eq_ok {conn : StreamConn}
    {routed : RoutedStream} (h : router.routeConnection conn metadata = .ok routed) :
    ∃ metadata', router.prepare (ofStream conn metadata).metadata = .ok metadata' ∧
      let s := (Scan.run router.ruleStep
        { ofStream conn metadata with metadata := metadata' } router.rules).state
      routed.conn = stackBuffers s.buffers s.conn := by
  unfold routeConnection at h
  split at h
  · cases h
  · obtain ⟨⟨selected, s⟩, hmatch, htarget⟩ := exceptBind_eq_ok.1 h
    obtain ⟨metadata', hprepare, hs⟩ := matchRule_eq_ok hmatch
    refine ⟨metadata', hprepare, ?_⟩
    dsimp only at htarget hs ⊢
    cases hselect : router.selectTarget .tcp selected with
    | error err =>
      rw [hselect] at htarget
      cases htarget
    | ok target =>
      rw [hselect] at htarget
      cases htarget
      rw [hs]

/-- **A TCP stream reaches the outbound as the client sent it**, however the network cuts it and
whatever the sniffers say, in every run in which no rule sniffs a stream that is buffered already
and still speaks.  If no byte occurs twice, in these runs only. -/
theorem stream_preserved (router : Router) (conn : StreamConn) (metadata : InboundContext)
    (routed : RoutedStream) (h : router.routeConnection conn metadata = .ok routed) :
    (router.StreamUndisturbed conn metadata → routed.conn.bytes = conn.bytes) ∧
      (conn.bytes.Nodup → routed.conn.bytes = conn.bytes →
        router.StreamUndisturbed conn metadata) := by
  obtain ⟨metadata', hprepare, hrouted⟩ := routeConnection_eq_ok h
  set start : RouteState := { ofStream conn metadata with metadata := metadata' }
  have hinv : StreamInv conn.bytes (Scan.run router.ruleStep start router.rules).state :=
    Scan.run_invariant_always (streamInv_ruleStep conn.bytes) router.rules
      ⟨rfl, by simp [start, ofStream], rfl⟩
  generalize hs : (Scan.run router.ruleStep start router.rules).state = s at hinv hrouted
  rw [hrouted, bytes_stackBuffers]
  rw [← hinv.bytes_eq, append_left_inj]
  constructor
  · intro hsafe
    have hlength := Scan.run_invariant buffers_ruleStep_of_safe (hsafe metadata' hprepare)
      ⟨rfl, Nat.zero_le 1⟩
    rw [hs] at hlength
    exact flatten_reverse_of_length_le_one hlength.2
  · intro hnodup hbytes metadata'' hprepare'
    obtain rfl : metadata' = metadata'' := Except.ok.inj (hprepare.symm.trans hprepare')
    have hlength : s.buffers.length ≤ 1 :=
      length_le_one_of_flatten_reverse hinv.buffers_ne_nil (List.Nodup.of_append_left hnodup) hbytes
    refine Scan.along_of_not_marked buffers_ruleStep_of_not_safe buffers_ruleStep_mono ?_
    rw [hs]
    exact fun hmarked => absurd hmarked.2 (Nat.not_lt.2 hlength)

/-- A client hello that is still incomplete, and none of the other protocols. -/
def incompleteHello : Sniffers where
  tlsClientHello metadata _ := (some .needMoreData, metadata)
  httpHost metadata _ := (some .other, metadata)
  streamDomainNameQuery metadata _ := (some .other, metadata)
  bitTorrent metadata _ := (some .other, metadata)
  ssh metadata _ := (some .other, metadata)
  rdp metadata _ := (some .other, metadata)
  domainNameQuery metadata _ := (some .other, metadata)
  quicClientHello metadata _ := (some .needMoreData, { metadata with protocol := "quic" })
  stunMessage metadata _ := (some .other, metadata)
  utp metadata _ := (some .other, metadata)
  udpTracker metadata _ := (some .other, metadata)
  dtlsRecord metadata _ := (some .other, metadata)
  ntp metadata _ := (some .other, metadata)

/-- A router with an outbound for everything and the given sniff actions. -/
def sniffing (actions : List SniffAction) : Router where
  env := .offline
  sniff := ⟨incompleteHello, 16 * 1024, by decide, fun _ => false⟩
  rules := actions.map fun action => ⟨.default {}, .sniff action⟩
  searchProcessInfo := id
  fakeIP := none
  lookupReverseMapping _ := none
  lookup _ _ := .ok []
  outbound _ := none
  defaultOutbound :=
    ⟨"direct", ["tcp", "udp"]⟩
  deprecatedDestination _ := none

/-- The action `sniff(tls)`. -/
def sniffTLS : SniffAction where
  snifferNames := ["tls"]
  streamSniffers := [incompleteHello.tlsClientHello]

/-- The beginning of a TLS record, in two segments with a pause between them. -/
def twoSegments : StreamConn :=
  [.data [0x16, 0x03] (by decide) false, .failed, .data [0x01] (by decide) false]

theorem stream_preserved_twoSegments :
    ∃ routed, (sniffing [sniffTLS]).routeConnection twoSegments {} = .ok routed ∧
      routed.conn.bytes = twoSegments.bytes := by
  refine ⟨_, rfl, (stream_preserved (sniffing [sniffTLS]) twoSegments {} _ rfl).1 ?_⟩
  intro metadata _
  refine ⟨fun _ _ _ hbuffers => absurd rfl hbuffers, fun _ _ => trivial⟩

/-- **Two sniff actions exchange what they have read.** -/
theorem twoSegments_exchanged :
    ∃ routed, (sniffing [sniffTLS, sniffTLS]).routeConnection twoSegments {} = .ok routed ∧
      routed.conn.bytes = [0x01, 0x16, 0x03] ∧ routed.conn.bytes ≠ twoSegments.bytes :=
  ⟨_, rfl, rfl, by decide⟩

/-! ### Packets -/

/-- A rule that sniffs packets reads on only if nothing is buffered, and then not beyond a first
packet. -/
def PacketSafe (router : Router) (s : RouteState) (r : RouteRule) : Prop :=
  s.kind = .packet → ∀ action, router.Sniffs s r action →
    action.readsOn router.sniff s.payloads s.metadata.resetRuleCache = true →
      s.packetBuffers = [] ∧
        action.readsTwo router.sniff s.packetConn s.metadata.resetRuleCache = false

/-- The condition, at every rule that is reached. -/
def PacketsUndisturbed (router : Router) (conn : PacketConn) (metadata : InboundContext) : Prop :=
  ∀ metadata', router.prepare (ofPackets conn metadata).metadata = .ok metadata' →
    Scan.Along router.ruleStep router.PacketSafe
      { ofPackets conn metadata with metadata := metadata' } router.rules

/-- The heap and the connection together hold what arrives; packet buffers that are all different
are those of the heap, in order. -/
structure PacketInv (packets : List Datagram) (s : RouteState) : Prop where
  kind_eq : s.kind = .packet
  packets_eq : ∃ read : List Datagram, s.heap = read.map some ∧
    read ++ s.packetConn.datagrams = packets
  heap_eq_nil : s.packetBuffers = [] → s.heap = []
  buffers_eq : s.packetBuffers.Nodup → s.packetBuffers = List.range s.heap.length

variable (packets : List Datagram)

theorem packetInv_ruleStep (s : RouteState) (r : RouteRule)
    (h : PacketInv packets s) : PacketInv packets (router.ruleStep s r).state := by
  rcases router.ruleStep_packet h.kind_eq r with ⟨-, metadata, hstate⟩ |
    ⟨action, -, -, metadata, conn, new, hstate, hconn, -⟩
  · rw [hstate]
    exact ⟨h.kind_eq, h.packets_eq, h.heap_eq_nil, h.buffers_eq⟩
  · obtain ⟨read, hheap, hread⟩ := h.packets_eq
    rw [hstate]
    refine ⟨h.kind_eq, ⟨read ++ new, ?_, ?_⟩, ?_, ?_⟩
    · rw [hheap, map_append]
    · rw [← hread, hconn, append_assoc]
    · intro hnil
      obtain ⟨hold, hnew⟩ := List.append_eq_nil_iff.1 hnil
      rw [hold, nil_append, range'_eq_nil_iff] at hnew
      rw [h.heap_eq_nil hold, eq_nil_of_length_eq_zero hnew]
      rfl
    · intro hnodup
      -- what was buffered occurs twice now, so nothing was
      have hold : s.packetBuffers = [] := by
        have hdisjoint := disjoint_of_nodup_append hnodup
        refine List.eq_nil_iff_forall_not_mem.2 fun id hid => ?_
        exact hdisjoint hid (mem_append_left _ hid)
      rw [hold, h.heap_eq_nil hold]
      simp [range_eq_range']

theorem datagrams_foldl_cached (conn : CachedPacketConn) :
    (packets.foldl .cached conn).datagrams = packets.reverse ++ conn.datagrams := by
  induction packets generalizing conn with
  | nil => rfl
  | cons packet packets ih =>
    rw [foldl_cons, ih, CachedPacketConn.datagrams, reverse_cons, append_assoc]
    rfl

theorem stackPackets_range' (n : ℕ) (packets : List Datagram) (conn : CachedPacketConn) :
    stackPackets (List.range' n packets.length) (List.replicate n none ++ packets.map some) conn =
      some (packets.foldl .cached conn) := by
  induction packets generalizing n conn with
  | nil => rfl
  | cons packet packets ih =>
    have hget : (List.replicate n none ++ (packet :: packets).map some)[n]? =
        some (some packet) := by
      simp
    have hset : (List.replicate n none ++ (packet :: packets).map some).set n none =
        List.replicate (n + 1) none ++ packets.map some := by
      simp [replicate_succ']
    rw [length_cons, range'_succ, stackPackets, hget]
    dsimp only
    rw [hset]
    exact ih (n + 1) (.cached conn packet)

theorem nodup_of_stackPackets {ids : List ℕ} {heap : PacketHeap} {conn conn' : CachedPacketConn}
    (h : stackPackets ids heap conn = some conn') :
    ids.Nodup ∧ ∀ id ∈ ids, heap[id]? ≠ some none := by
  induction ids generalizing heap conn with
  | nil => exact ⟨nodup_nil, by simp⟩
  | cons id ids ih =>
    rw [stackPackets] at h
    split at h
    case h_1 packet hget =>
      obtain ⟨hnodup, hlive⟩ := ih h
      have hlt : id < heap.length := (List.getElem?_eq_some_iff.1 hget).1
      have hid : id ∉ ids := fun hmem => hlive id hmem (by simp [hlt])
      refine ⟨List.nodup_cons.2 ⟨hid, hnodup⟩, fun other hother => ?_⟩
      rcases List.mem_cons.1 hother with rfl | hmem
      · simp [hget]
      · have hne : id ≠ other := fun heq => hid (heq ▸ hmem)
        simpa [getElem?_set_ne hne] using hlive other hmem
    case h_2 => cases h

theorem packets_ruleStep_of_safe (hsafe : router.PacketSafe s r)
    (h : s.kind = .packet ∧ s.packetBuffers.length ≤ 1) :
    (router.ruleStep s r).state.kind = .packet ∧
      (router.ruleStep s r).state.packetBuffers.length ≤ 1 := by
  obtain ⟨hkind, hlen⟩ := h
  rcases router.ruleStep_packet hkind r with ⟨-, metadata, hstate⟩ |
    ⟨action, hsniffs, hon, metadata, conn, new, hstate, -, htwo⟩
  · rw [hstate]
    exact ⟨hkind, hlen⟩
  · obtain ⟨hnil, hnotTwo⟩ := hsafe hkind action hsniffs hon
    rw [hstate]
    refine ⟨hkind, ?_⟩
    have hnew : new.length ≤ 1 := (htwo hnil).2 hnotTwo
    simpa [hnil] using hnew

theorem packets_ruleStep_of_not_safe (hsafe : ¬router.PacketSafe s r) :
    (router.ruleStep s r).state.kind = .packet ∧
      1 < (router.ruleStep s r).state.packetBuffers.length := by
  simp only [PacketSafe, not_forall] at hsafe
  obtain ⟨hkind, action, hsniffs, hon, hbad⟩ := hsafe
  rcases router.ruleStep_packet hkind r with ⟨hoff, -⟩ |
    ⟨action', hsniffs', -, metadata, conn, new, hstate, -, htwo⟩
  · rw [hoff action hsniffs] at hon
    cases hon
  · obtain rfl : action = action' := RouteAction.sniff.inj (hsniffs.2.symm.trans hsniffs'.2)
    rw [hstate]
    refine ⟨hkind, ?_⟩
    simp only [length_append, length_range']
    by_cases hnil : s.packetBuffers = []
    · have hnew : ¬new.length ≤ 1 := fun hle => hbad ⟨hnil, (htwo hnil).1 hle⟩
      omega
    · have hold : 0 < s.packetBuffers.length := List.length_pos_iff.2 hnil
      omega

theorem packets_ruleStep_mono (h : s.kind = .packet ∧ 1 < s.packetBuffers.length) :
    (router.ruleStep s r).state.kind = .packet ∧
      1 < (router.ruleStep s r).state.packetBuffers.length := by
  obtain ⟨hkind, hlen⟩ := h
  rcases router.ruleStep_packet hkind r with ⟨-, metadata, hstate⟩ |
    ⟨action, -, -, metadata, conn, new, hstate, -⟩
  · rw [hstate]
    exact ⟨hkind, hlen⟩
  · rw [hstate, length_append]
    exact ⟨hkind, by omega⟩

theorem routePacketConnection_eq_ok {conn : PacketConn}
    {routed : RoutedPackets} (h : router.routePacketConnection conn metadata = .ok routed) :
    ∃ metadata' target,
      router.prepare (ofPackets conn metadata).metadata = .ok metadata' ∧
        routed = (Scan.run router.ruleStep
          { ofPackets conn metadata with metadata := metadata' }
          router.rules).state.handPackets target := by
  obtain ⟨⟨selected, s⟩, hmatch, htarget⟩ := exceptBind_eq_ok.1 h
  obtain ⟨metadata', hprepare, hs⟩ := matchRule_eq_ok hmatch
  dsimp only at htarget hs
  cases hselect : router.selectTarget .udp selected with
  | error err =>
    rw [hselect] at htarget
    cases htarget
  | ok target =>
    rw [hselect] at htarget
    exact ⟨metadata', target, hprepare, hs ▸ (Except.ok.inj htarget).symm⟩

theorem delivers_of_length_le_one {packets : List Datagram} {s : RouteState}
    (hinv : PacketInv packets s) (hlen : s.packetBuffers.length ≤ 1) (target : Target) :
    (s.handPackets target).Delivers packets := by
  obtain ⟨read, hheap, hread⟩ := hinv.packets_eq
  have hnodup : s.packetBuffers.Nodup := by
    rcases hbuffers : s.packetBuffers with _ | ⟨id, _ | ⟨id', ids⟩⟩
    · exact nodup_nil
    · exact nodup_singleton id
    · simp [hbuffers] at hlen
  have hbuffers : s.packetBuffers = List.range' 0 read.length := by
    rw [hinv.buffers_eq hnodup, hheap, length_map, range_eq_range']
  have hstack := stackPackets_range' 0 read (.base s.packetConn)
  rw [replicate_zero, nil_append, ← hheap, ← hbuffers] at hstack
  unfold handPackets
  split
  · trivial
  · rw [hstack]
    have hone : read.length ≤ 1 := by
      rwa [hbuffers, length_range'] at hlen
    rw [RoutedPackets.Delivers, datagrams_foldl_cached, CachedPacketConn.datagrams, ← hread]
    rcases read with _ | ⟨packet, _ | ⟨packet', read⟩⟩
    · rfl
    · rfl
    · simp at hone

theorem length_le_one_of_delivers {packets : List Datagram} (hpackets : packets.Nodup)
    {s : RouteState} (hinv : PacketInv packets s) {target : Target} (htarget : target ≠ .hijackDNS)
    (h : (s.handPackets target).Delivers packets) : s.packetBuffers.length ≤ 1 := by
  obtain ⟨read, hheap, hread⟩ := hinv.packets_eq
  rw [handPackets, if_neg htarget] at h
  split at h
  case h_1 conn hstack =>
    have hbuffers : s.packetBuffers = List.range' 0 read.length := by
      rw [hinv.buffers_eq (nodup_of_stackPackets hstack).1, hheap, length_map, range_eq_range']
    have hstack' := stackPackets_range' 0 read (.base s.packetConn)
    rw [replicate_zero, nil_append, ← hheap, ← hbuffers, hstack] at hstack'
    obtain rfl := Option.some.inj hstack'
    rw [RoutedPackets.Delivers, datagrams_foldl_cached, CachedPacketConn.datagrams, ← hread,
      append_left_inj] at h
    rw [hbuffers, length_range']
    -- each packet is a block of its own
    have hblocks : (read.map fun packet => [packet]).reverse.flatten =
        (read.map fun packet => [packet]).flatten := by
      simpa [← map_reverse, ← flatMap_def] using h
    have hnodup : (read.map fun packet => [packet]).flatten.Nodup := by
      simpa [← flatMap_def] using List.Nodup.of_append_left (hread ▸ hpackets)
    simpa using length_le_one_of_flatten_reverse (by simp) hnodup hblocks
  case h_2 => exact h.elim

/-- **UDP packets reach the outbound as they arrived**, each once, in order and with its own
destination, whatever the sniffers say, in every run in which no rule reads on with packets in hand
or reads a second packet.  If no packet occurs twice, in these runs only. -/
theorem packets_preserved (router : Router) (conn : PacketConn) (metadata : InboundContext)
    (routed : RoutedPackets) (h : router.routePacketConnection conn metadata = .ok routed) :
    (router.PacketsUndisturbed conn metadata → routed.Delivers conn.datagrams) ∧
      (conn.datagrams.Nodup → (∀ heap conn packetBuffers metadata,
          routed ≠ .hijackDNS heap conn packetBuffers metadata) →
        routed.Delivers conn.datagrams → router.PacketsUndisturbed conn metadata) := by
  obtain ⟨metadata', target, hprepare, hrouted⟩ := routePacketConnection_eq_ok h
  set start : RouteState := { ofPackets conn metadata with metadata := metadata' }
  have hinv : PacketInv conn.datagrams (Scan.run router.ruleStep start router.rules).state :=
    Scan.run_invariant_always (packetInv_ruleStep conn.datagrams) router.rules
      ⟨rfl, ⟨[], rfl, rfl⟩, fun _ => rfl, fun _ => rfl⟩
  rw [hrouted]
  constructor
  · intro hsafe
    have hlength := Scan.run_invariant packets_ruleStep_of_safe (hsafe metadata' hprepare)
      ⟨rfl, Nat.zero_le 1⟩
    exact delivers_of_length_le_one hinv hlength.2 target
  · intro hnodup houtbound hdelivers metadata'' hprepare'
    obtain rfl : metadata' = metadata'' := Except.ok.inj (hprepare.symm.trans hprepare')
    have htarget : target ≠ .hijackDNS := by
      intro heq
      subst heq
      exact houtbound _ _ _ _ rfl
    have hlength := length_le_one_of_delivers hnodup hinv htarget hdelivers
    refine Scan.along_of_not_marked packets_ruleStep_of_not_safe packets_ruleStep_mono ?_
    exact fun hmarked => absurd hmarked.2 (Nat.not_lt.2 hlength)

/-- The actions `sniff(dns)` and `sniff(quic)`. -/
def sniffDNS : SniffAction where
  snifferNames := ["dns"]
  streamSniffers := [incompleteHello.streamDomainNameQuery]
  packetSniffers := [incompleteHello.domainNameQuery]

def sniffQUIC : SniffAction where
  snifferNames := ["quic"]
  packetSniffers := [incompleteHello.quicClientHello]

/-- Two packets with parts of a QUIC client hello. -/
def twoPackets : PacketConn :=
  [.datagram ⟨[0xc0, 1], { addr := .v4 0x01010101, port := 443 }⟩,
    .datagram ⟨[0xc0, 2], { addr := .v4 0x01010101, port := 443 }⟩]

/-- The same two packets, the second after the sniff action has stopped waiting for it. -/
def twoSlowPackets : PacketConn :=
  [.datagram ⟨[0xc0, 1], { addr := .v4 0x01010101, port := 443 }⟩, .timeout,
    .datagram ⟨[0xc0, 2], { addr := .v4 0x01010101, port := 443 }⟩]

theorem packets_preserved_twoSlowPackets :
    ∃ routed, (sniffing [sniffQUIC]).routePacketConnection twoSlowPackets {} = .ok routed ∧
      routed.Delivers twoSlowPackets.datagrams := by
  refine ⟨_, rfl, (packets_preserved (sniffing [sniffQUIC]) twoSlowPackets {} _ rfl).1 ?_⟩
  intro metadata _
  refine ⟨fun _ _ _ _ => ⟨rfl, rfl⟩, fun _ _ => trivial⟩

/-- **Two packets read by one sniff action change places**, and a packet that a second sniff action
finds in hand is used after it was put back. -/
theorem twoPackets_disturbed :
    (∃ routed, (sniffing [sniffQUIC]).routePacketConnection twoPackets {} = .ok routed ∧
      ¬routed.Delivers twoPackets.datagrams) ∧
    (sniffing [sniffDNS, sniffQUIC]).routePacketConnection twoSlowPackets {} =
      .ok .nilDereference :=
  ⟨⟨_, rfl, by decide⟩, rfl⟩

end Router

end SingBox
