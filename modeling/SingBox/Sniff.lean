/-
**Sniffing** (`common/sniff/sniff.go`, `Router.actionSniff` of `route/route.go`, the `sniff` action
of `route/rule/rule_action.go`, the cached connections of `replace/sing/common/bufio/cache.go`).

To find out what a connection carries, a sniff action reads from it and hands the bytes to its
sniffers.  What was read is kept in buffers and put back in front of the connection later.

A connection is what the reads from it bring, one event for each read: all that the client sends,
cut as the network cuts it, and the failures of reads and deadlines.  A read that finds no event
times out.  The sniffers are arbitrary functions: they see the metadata and the buffers, and may
write the metadata whether they succeed or not.

* `peekStream_bytes` — **no byte is lost between buffer and connection**;
* `sniffStream_buffer_eq_none_iff` — when a sniff action brings no bytes;
* `sniffPackets_spec` — what a sniff action does to the packets.
-/

import SingBox.InboundContext

namespace SingBox

open List GoString

/-! ### Connections -/

/-- What a read from a TCP connection brings: bytes, possibly together with an error; an error
alone; or nothing, because the deadline could not be set. -/
inductive ReadEvent where
  | data (bytes : List UInt8) (nonempty : bytes ≠ []) (failed : Bool)
  | failed
  | noDeadline

/-- The bytes of a read. -/
def ReadEvent.bytes : ReadEvent → List UInt8
  | .data bytes _ _ => bytes
  | .failed => []
  | .noDeadline => []

/-- `net.Conn`, as seen by its reader. -/
abbrev StreamConn : Type := List ReadEvent

/-- All that is still to be read from a connection. -/
def StreamConn.bytes (conn : StreamConn) : List UInt8 := conn.flatMap ReadEvent.bytes

@[simp] theorem StreamConn.bytes_cons (event : ReadEvent) (conn : StreamConn) :
    StreamConn.bytes (event :: conn) = event.bytes ++ StreamConn.bytes conn :=
  flatMap_cons

/-- `bufio.CachedConn`: a connection behind a buffer. -/
inductive CachedConn where
  | base (conn : StreamConn)
  | cached (conn : CachedConn) (buffer : List UInt8)

/-- What is read from a cached connection: its buffer first. -/
def CachedConn.bytes : CachedConn → List UInt8
  | .base conn => conn.bytes
  | .cached conn buffer => buffer ++ conn.bytes

/-- A UDP packet, with its destination. -/
structure Datagram where
  payload : List UInt8
  destination : Socksaddr
  deriving DecidableEq

/-- What a read from a packet connection brings. -/
inductive PacketEvent where
  | datagram (packet : Datagram)
  | timeout
  | failed
  | canceled

/-- The packet of a read. -/
def PacketEvent.datagram? : PacketEvent → Option Datagram
  | .datagram packet => some packet
  | _ => none

/-- `N.PacketConn`, as seen by its reader. -/
abbrev PacketConn : Type := List PacketEvent

/-- All that is still to be read from a packet connection. -/
def PacketConn.datagrams (conn : PacketConn) : List Datagram := conn.filterMap PacketEvent.datagram?

/-- `bufio.CachedPacketConn`: a packet connection behind a packet. -/
inductive CachedPacketConn where
  | base (conn : PacketConn)
  | cached (conn : CachedPacketConn) (packet : Datagram)

/-- What is read from a cached packet connection: its packet first. -/
def CachedPacketConn.datagrams : CachedPacketConn → List Datagram
  | .base conn => conn.datagrams
  | .cached conn packet => packet :: conn.datagrams

/-! ### Sniffers -/

/-- A sniffer looks at its input, writes what it finds into the metadata, and fails or succeeds. -/
abbrev Sniffer (α : Type) : Type := InboundContext → α → Option SniffError × InboundContext

/-- `StreamSniffer`, which reads the buffers one after the other. -/
abbrev StreamSniffer : Type := Sniffer (List (List UInt8))

/-- `PacketSniffer`. -/
abbrev PacketSniffer : Type := Sniffer (List UInt8)

/-- The sniffers of the `sniff` package. -/
structure Sniffers where
  (tlsClientHello httpHost streamDomainNameQuery bitTorrent ssh rdp : StreamSniffer)
  (domainNameQuery quicClientHello stunMessage utp udpTracker dtlsRecord ntp : PacketSniffer)

/-- The stream sniffers of an action that names none. -/
def Sniffers.stream (sniffers : Sniffers) : List StreamSniffer :=
  [sniffers.tlsClientHello, sniffers.httpHost, sniffers.streamDomainNameQuery, sniffers.bitTorrent,
    sniffers.ssh, sniffers.rdp]

/-- The packet sniffers of an action that names none. -/
def Sniffers.packet (sniffers : Sniffers) : List PacketSniffer :=
  [sniffers.domainNameQuery, sniffers.quicClientHello, sniffers.stunMessage, sniffers.utp,
    sniffers.udpTracker, sniffers.dtlsRecord, sniffers.ntp]

/-- `rule.RuleActionSniff`; its timeout shows in the events of the connection. -/
structure SniffAction where
  snifferNames : List GoString := []
  streamSniffers : List StreamSniffer := []
  packetSniffers : List PacketSniffer := []
  overrideDestination : Bool := false

/-- The sniffers behind a name, for streams and for packets. -/
def Sniffers.named (sniffers : Sniffers) (name : GoString) :
    Option (List StreamSniffer × List PacketSniffer) :=
  if name = "tls" then some ([sniffers.tlsClientHello], [])
  else if name = "http" then some ([sniffers.httpHost], [])
  else if name = "quic" then some ([], [sniffers.quicClientHello])
  else if name = "dns" then
    some ([sniffers.streamDomainNameQuery], [sniffers.domainNameQuery])
  else if name = "stun" then some ([], [sniffers.stunMessage])
  else if name = "bittorrent" then
    some ([sniffers.bitTorrent], [sniffers.utp, sniffers.udpTracker])
  else if name = "dtls" then some ([], [sniffers.dtlsRecord])
  else if name = "ssh" then some ([sniffers.ssh], [])
  else if name = "rdp" then some ([sniffers.rdp], [])
  else if name = "ntp" then some ([], [sniffers.ntp])
  else none

/-- The loop of `RuleActionSniff.build`. -/
def SniffAction.build (sniffers : Sniffers) (action : SniffAction) :
    List GoString → Except GoError SniffAction
  | [] => .ok action
  | name :: names =>
    match sniffers.named name with
    | none => .error (.new ("unknown sniffer: " ++ name))
    | some (stream, packet) =>
      build sniffers
        { action with
          streamSniffers := action.streamSniffers ++ stream
          packetSniffers := action.packetSniffers ++ packet } names

/-- `E.Errors`: the errors of several sniffers need more data if one of them does. -/
def joinErrors : Option SniffError → SniffError → Option SniffError
  | _, .needMoreData => some .needMoreData
  | some .needMoreData, .other => some .needMoreData
  | _, .other => some .other

/-- The loop over the sniffers, which the first success ends. -/
def runSniffers {α : Type} (input : α) :
    List (Sniffer α) → InboundContext → Option SniffError → Option SniffError × InboundContext
  | [], metadata, err => (err, metadata)
  | sniffer :: sniffers, metadata, err =>
    match sniffer metadata input with
    | (none, metadata) => (none, metadata)
    | (some err', metadata) => runSniffers input sniffers metadata (joinErrors err err')

/-- `PeekPacket`. -/
def peekPacket (sniffers : List PacketSniffer) (metadata : InboundContext) (packet : List UInt8) :
    Option SniffError × InboundContext :=
  runSniffers packet sniffers metadata none

/-! ### `PeekStream` -/

/-- What `PeekStream` leaves behind. -/
structure PeekResult where
  err : Option SniffError
  buffer : List UInt8
  conn : StreamConn
  metadata : InboundContext

/-- A read that fails is an error in the first round, and ends the loop in a later one. -/
def readFailed (first : Bool) (err : Option SniffError) : Option SniffError :=
  if first then some .other else err

section

variable (capacity : ℕ) (buffers : List (List UInt8)) (sniffers : List StreamSniffer)

/-- The loop of `PeekStream`; `first` tells its first round and `err` is the verdict of the round
before.  The sniffers see the earlier buffers and the new one. -/
def peekStream (first : Bool) : StreamConn → List UInt8 → InboundContext → Option SniffError →
    PeekResult
  | [], buffer, metadata, err => ⟨readFailed first err, buffer, [], metadata⟩
  | .noDeadline :: conn, buffer, metadata, _ => ⟨some .other, buffer, conn, metadata⟩
  | .failed :: conn, buffer, metadata, err => ⟨readFailed first err, buffer, conn, metadata⟩
  | .data bytes nonempty failed :: conn, buffer, metadata, err =>
    let free := capacity - buffer.length
    if free = 0 then ⟨readFailed first err, buffer, .data bytes nonempty failed :: conn, metadata⟩
    else if h : bytes.length ≤ free then
      if failed then ⟨readFailed first err, buffer ++ bytes, conn, metadata⟩
      else
        match runSniffers (buffers ++ [buffer ++ bytes]) sniffers metadata none with
        | (some .needMoreData, metadata) =>
          peekStream false conn (buffer ++ bytes) metadata (some .needMoreData)
        | (err, metadata) => ⟨err, buffer ++ bytes, conn, metadata⟩
    else
      -- the buffer is full now, so the next read, if there is one, fails for want of space
      let result := runSniffers (buffers ++ [buffer ++ bytes.take free]) sniffers metadata none
      ⟨result.1, buffer ++ bytes.take free,
        .data (bytes.drop free) (by simpa [List.drop_eq_nil_iff] using h) failed :: conn,
        result.2⟩

variable (first : Bool) (conn : StreamConn) (buffer : List UInt8) (metadata : InboundContext)
  (err : Option SniffError)

/-- **No byte is lost between buffer and connection.** -/
theorem peekStream_bytes :
    let result := peekStream capacity buffers sniffers first conn buffer metadata err
    result.buffer ++ result.conn.bytes = buffer ++ conn.bytes := by
  induction conn generalizing first buffer metadata err with
  | nil => rfl
  | cons event conn ih =>
    cases event with
    | noDeadline | failed => rfl
    | data bytes nonempty failed =>
      simp only [peekStream]
      split
      · rfl
      · split
        · split
          · simp [ReadEvent.bytes]
          · split
            · rw [ih]
              simp [ReadEvent.bytes]
            · simp [ReadEvent.bytes]
        · simp only [StreamConn.bytes_cons, ReadEvent.bytes, append_assoc]
          rw [← append_assoc (List.take _ bytes), take_append_drop]

theorem length_le_peekStream :
    buffer.length ≤
      (peekStream capacity buffers sniffers first conn buffer metadata err).buffer.length := by
  induction conn generalizing first buffer metadata err with
  | nil => exact le_rfl
  | cons event conn ih =>
    cases event with
    | noDeadline | failed => exact le_rfl
    | data bytes nonempty failed =>
      have hgrow : buffer.length ≤ (buffer ++ bytes).length := by simp
      simp only [peekStream]
      split
      · exact le_rfl
      · split
        · split
          · exact hgrow
          · split
            · exact hgrow.trans (ih _ _ _ _)
            · exact hgrow
        · simp

end

/-! ### `actionSniff` -/

/-- What the sniff actions of a router share: the sniffers, the size of a packet buffer and
`M.IsDomainName`. -/
structure SniffEnvironment where
  sniffers : Sniffers
  udpBufferSize : ℕ
  udpBufferSize_pos : 0 < udpBufferSize
  isDomainName : GoString → Bool

/-- `sniff.Skip`: the ports of protocols in which the server speaks first. -/
def sniffSkip (metadata : InboundContext) : Bool :=
  [25, 465, 587, 143, 993, 110, 995].contains metadata.destination.port

namespace SniffAction

variable (action : SniffAction)

/-- The tests with which `actionSniff` begins, `own` being the sniffers for the kind of connection
and `other` those for the other kind. -/
def skips {α β : Type} (own : List α) (other : List β) (metadata : InboundContext) : Bool :=
  sniffSkip metadata || decide (metadata.protocol ≠ []) || own.isEmpty && !other.isEmpty ||
    decide (metadata.snifferNames = action.snifferNames) &&
      decide (metadata.sniffError = some .other)

/-- The tests for a stream. -/
def skipsStream (metadata : InboundContext) : Bool :=
  action.skips action.streamSniffers action.packetSniffers metadata

/-- The tests for packets. -/
def skipsPackets (metadata : InboundContext) : Bool :=
  action.skips action.packetSniffers action.streamSniffers metadata

/-- What is written into the metadata after sniffing. -/
def record (metadata : InboundContext) (err : Option SniffError) : InboundContext :=
  { metadata with snifferNames := action.snifferNames, sniffError := err }

/-- A sniffed domain can take the place of the destination. -/
def overridden (env : SniffEnvironment) (metadata : InboundContext) : InboundContext :=
  if action.overrideDestination && env.isDomainName metadata.domain then
    { metadata with
      destination := { fqdn := metadata.domain, port := metadata.destination.port } }
  else metadata

end SniffAction

/-! ### Sniffing a stream -/

/-- What `actionSniff` returns for a TCP connection, with the connection it leaves behind. -/
structure StreamSniffed where
  buffer : Option (List UInt8)
  conn : StreamConn
  metadata : InboundContext

/-- A buffer that stayed empty is released. -/
def keepBuffer (buffer : List UInt8) : Option (List UInt8) :=
  if buffer.isEmpty then none else some buffer

variable (buffer : List UInt8)

theorem getD_keepBuffer : (keepBuffer buffer).getD [] = buffer := by
  cases buffer <;> rfl

theorem keepBuffer_eq_none_iff : keepBuffer buffer = none ↔ buffer = [] := by
  cases buffer <;> simp [keepBuffer]

theorem keepBuffer_ne_some_nil : keepBuffer buffer ≠ some [] := by
  cases buffer <;> simp [keepBuffer]

/-- The call of `PeekStream`. -/
def SniffAction.peek (env : SniffEnvironment) (action : SniffAction) (buffers : List (List UInt8))
    (conn : StreamConn) (metadata : InboundContext) : PeekResult :=
  peekStream env.udpBufferSize buffers
    (if action.streamSniffers.isEmpty then env.sniffers.stream else action.streamSniffers)
    true conn [] metadata none

/-- `actionSniff` for a TCP connection. -/
def sniffStream (env : SniffEnvironment) (action : SniffAction) (buffers : List (List UInt8))
    (conn : StreamConn) (metadata : InboundContext) : StreamSniffed :=
  if action.skipsStream metadata then ⟨none, conn, metadata⟩
  else
    let result := action.peek env buffers conn metadata
    let metadata := action.record result.metadata result.err
    ⟨keepBuffer result.buffer, result.conn,
      if result.err.isNone then action.overridden env metadata else metadata⟩

/-- Whether the next read from a connection brings bytes. -/
def StreamConn.speaks : StreamConn → Bool
  | .data _ _ _ :: _ => true
  | _ => false

section

variable (env : SniffEnvironment) (action : SniffAction) (buffers : List (List UInt8))
  (conn : StreamConn) (metadata : InboundContext)

theorem sniffStream_bytes :
    let result := sniffStream env action buffers conn metadata
    result.buffer.getD [] ++ result.conn.bytes = conn.bytes := by
  intro result
  by_cases hskip : action.skipsStream metadata
  · have hres : result = ⟨none, conn, metadata⟩ := if_pos hskip
    rw [hres]
    rfl
  · have hres : result = _ := if_neg hskip
    rw [hres, getD_keepBuffer]
    exact peekStream_bytes _ _ _ _ _ _ _ _

theorem sniffStream_buffer_ne_nil :
    (sniffStream env action buffers conn metadata).buffer ≠ some [] := by
  unfold sniffStream
  split
  · intro h
    cases h
  · exact keepBuffer_ne_some_nil _

theorem peek_buffer_eq_nil_iff :
    (action.peek env buffers conn metadata).buffer = [] ↔ conn.speaks = false := by
  have hpos := env.udpBufferSize_pos
  unfold SniffAction.peek
  generalize (if action.streamSniffers.isEmpty then env.sniffers.stream
    else action.streamSniffers) = sniffers
  cases conn with
  | nil => exact iff_of_true rfl rfl
  | cons event conn =>
    cases event with
    | noDeadline | failed => exact iff_of_true rfl rfl
    | data bytes nonempty failed =>
      refine iff_of_false ?_ Bool.noConfusion
      have hfree : env.udpBufferSize - ([] : List UInt8).length ≠ 0 := by
        rw [length_nil]
        omega
      rw [peekStream, if_neg hfree]
      split
      · split
        · exact nonempty
        · split
          · have hgrow := length_le_peekStream env.udpBufferSize buffers sniffers false conn
              ([] ++ bytes) ‹_› (some .needMoreData)
            intro hnil
            rw [hnil] at hgrow
            exact nonempty (List.length_eq_zero_iff.1 (Nat.le_zero.1 hgrow))
          · exact nonempty
      · simpa [nonempty] using hpos.ne'

theorem sniffStream_buffer_eq_none_iff :
    (sniffStream env action buffers conn metadata).buffer = none ↔
      action.skipsStream metadata ∨ conn.speaks = false := by
  unfold sniffStream
  split
  case isTrue hskip => exact iff_of_true rfl (.inl hskip)
  case isFalse hskip =>
    rw [← peek_buffer_eq_nil_iff env action buffers conn metadata, or_iff_right hskip]
    exact keepBuffer_eq_none_iff _

end

/-! ### Sniffing packets -/

/-- The packet buffers that are allocated; one that has been put back is empty. -/
abbrev PacketHeap : Type := List (Option Datagram)

/-- The payload of a packet buffer. -/
def PacketHeap.payload (heap : PacketHeap) (id : ℕ) : List UInt8 :=
  match heap[id]? with
  | some (some packet) => packet.payload
  | _ => []

/-- Why packets cannot be sniffed. -/
inductive PacketError where
  | read
  | canceled

/-- What `actionSniff` returns for a packet connection, with what it leaves behind. -/
structure PacketSniffed where
  packetBuffers : List ℕ
  fatal : Option PacketError
  conn : PacketConn
  heap : PacketHeap
  metadata : InboundContext

variable (env : SniffEnvironment) (action : SniffAction)

/-- One packet is sniffed.  While a QUIC client hello is incomplete, only its sniffer is asked. -/
def sniffPacket (metadata : InboundContext) (packet : List UInt8) :
    Option SniffError × InboundContext :=
  let quicMoreData := metadata.snifferNames = action.snifferNames ∧
    metadata.sniffError = some .needMoreData
  let sniffers :=
    if quicMoreData then [env.sniffers.quicClientHello]
    else if action.packetSniffers.isEmpty then env.sniffers.packet else action.packetSniffers
  let result := peekPacket sniffers metadata packet
  (result.1, action.record result.2 result.1)

/-- The loop over the packets that are buffered already: a verdict, or none if all of them need more
data. -/
def resniff : List (List UInt8) → InboundContext → Option (Option SniffError) × InboundContext
  | [], metadata => (none, metadata)
  | packet :: packets, metadata =>
    match sniffPacket env action metadata packet with
    | (some .needMoreData, metadata) => resniff packets metadata
    | (err, metadata) => (some err, metadata)

/-- The label `finally`. -/
def sniffFinally (err : Option SniffError) (metadata : InboundContext) : InboundContext :=
  if err.isNone then action.overridden env metadata else metadata

/-- The loop that reads packets, appending them to `packetBuffers`. -/
def readPackets :
    PacketConn → PacketHeap → List ℕ → InboundContext → PacketSniffed
  | [], heap, packetBuffers, metadata => ⟨packetBuffers, none, [], heap, metadata⟩
  | .timeout :: conn, heap, packetBuffers, metadata => ⟨packetBuffers, none, conn, heap, metadata⟩
  | .failed :: conn, heap, packetBuffers, metadata =>
    ⟨packetBuffers, some .read, conn, heap, metadata⟩
  | .canceled :: conn, heap, packetBuffers, metadata =>
    ⟨packetBuffers, some .canceled, conn, heap, metadata⟩
  | .datagram packet :: conn, heap, packetBuffers, metadata =>
    match sniffPacket env action metadata packet.payload with
    | (some .needMoreData, metadata) =>
      readPackets conn (heap ++ [some packet]) (packetBuffers ++ [heap.length]) metadata
    | (err, metadata) =>
      ⟨packetBuffers ++ [heap.length], none, conn, heap ++ [some packet],
        sniffFinally env action err metadata⟩

/-- `actionSniff` for a packet connection. -/
def sniffPackets (inputPacketBuffers : List ℕ) (heap : PacketHeap) (conn : PacketConn)
    (metadata : InboundContext) : PacketSniffed :=
  if action.skipsPackets metadata then ⟨[], none, conn, heap, metadata⟩
  else
    match resniff env action (inputPacketBuffers.map heap.payload) metadata with
    | (some err, metadata) => ⟨[], none, conn, heap, sniffFinally env action err metadata⟩
    | (none, metadata) => readPackets env action conn heap inputPacketBuffers metadata

variable {env action}

/-- What reading packets does: those that were read are on the heap, and their buffers follow those
that were there. -/
theorem readPackets_spec (conn : PacketConn) (heap : PacketHeap) (packetBuffers : List ℕ)
    (metadata : InboundContext) :
    let result := readPackets env action conn heap packetBuffers metadata
    ∃ packets : List Datagram, result.heap = heap ++ packets.map some ∧
      result.packetBuffers = packetBuffers ++ List.range' heap.length packets.length ∧
      conn.datagrams = packets ++ result.conn.datagrams := by
  induction conn generalizing heap packetBuffers metadata with
  | nil => exact ⟨[], by simp [readPackets], by simp [readPackets], rfl⟩
  | cons event conn ih =>
    cases event with
    | timeout | failed | canceled => exact ⟨[], by simp [readPackets], by simp [readPackets], rfl⟩
    | datagram packet =>
      simp only [readPackets]
      split
      · obtain ⟨packets, hheap, hbuffers, hconn⟩ :=
          ih (heap ++ [some packet]) (packetBuffers ++ [heap.length]) ‹_›
        refine ⟨packet :: packets, by simp [hheap], ?_, ?_⟩
        · rw [hbuffers]
          simp [range'_succ]
        · exact congrArg (packet :: ·) hconn
      · exact ⟨[packet], rfl, rfl, rfl⟩

/-- Whether a sniff action comes to read packets: it is not skipped, and all that is buffered needs
more data. -/
def SniffAction.readsOn (env : SniffEnvironment) (action : SniffAction)
    (payloads : List (List UInt8)) (metadata : InboundContext) : Bool :=
  !action.skipsPackets metadata && (resniff env action payloads metadata).1.isNone

/-- Whether two packets arrive and the first of them needs more data. -/
def SniffAction.readsTwo (env : SniffEnvironment) (action : SniffAction) (conn : PacketConn)
    (metadata : InboundContext) : Bool :=
  match conn with
  | .datagram packet :: .datagram _ :: _ =>
    decide ((sniffPacket env action metadata packet.payload).1 = some .needMoreData)
  | _ => false

variable {metadata : InboundContext} {packetBuffers : List ℕ} {heap : PacketHeap}

theorem sniffPackets_of_not_readsOn (conn : PacketConn)
    (h : action.readsOn env (packetBuffers.map heap.payload) metadata = false) :
    ∃ metadata', sniffPackets env action packetBuffers heap conn metadata =
      ⟨[], none, conn, heap, metadata'⟩ := by
  unfold sniffPackets
  split
  · exact ⟨_, rfl⟩
  case isFalse hskip =>
    rw [SniffAction.readsOn, Bool.eq_false_of_not_eq_true hskip] at h
    split
    · exact ⟨_, rfl⟩
    case h_2 heq =>
      rw [heq] at h
      cases h

theorem sniffPackets_of_readsOn {conn : PacketConn}
    (h : action.readsOn env (packetBuffers.map heap.payload) metadata) :
    sniffPackets env action packetBuffers heap conn metadata =
      readPackets env action conn heap packetBuffers
        (resniff env action (packetBuffers.map heap.payload) metadata).2 := by
  rw [SniffAction.readsOn, Bool.and_eq_true, Bool.not_eq_true'] at h
  obtain ⟨hskip, hnone⟩ := h
  unfold sniffPackets
  rw [hskip, if_neg Bool.false_ne_true]
  rcases hresniff : resniff env action (packetBuffers.map heap.payload) metadata with
    ⟨verdict, metadata'⟩
  rw [hresniff] at hnone
  cases verdict with
  | none => rfl
  | some err => cases hnone

theorem length_lt_readPackets (packet : Datagram) (conn : PacketConn) :
    packetBuffers.length <
      (readPackets env action (.datagram packet :: conn) heap packetBuffers
        metadata).packetBuffers.length := by
  rw [readPackets]
  split
  · obtain ⟨packets, -, hbuffers, -⟩ :=
      readPackets_spec conn (heap ++ [some packet]) (packetBuffers ++ [heap.length]) ‹_›
    rw [hbuffers, append_assoc, length_append, length_append, length_singleton]
    omega
  · rw [length_append, length_singleton]
    omega

theorem length_readPackets_le_one_iff (conn : PacketConn) :
    (readPackets env action conn heap [] metadata).packetBuffers.length ≤ 1 ↔
      action.readsTwo env conn metadata = false := by
  rcases conn with _ | ⟨packet | _ | _ | _, conn⟩
  case cons.datagram =>
    rcases hverdict : sniffPacket env action metadata packet.payload with ⟨_ | _ | _, metadata'⟩
    case some.needMoreData =>
      rcases conn with _ | ⟨second | _ | _ | _, conn⟩
      case cons.datagram =>
        rw [readPackets, hverdict]
        refine iff_of_false (Nat.not_le.2 ?_) (by simp [SniffAction.readsTwo, hverdict])
        exact @length_lt_readPackets _ _ metadata' [heap.length] _ second conn
      all_goals simp [readPackets, hverdict, SniffAction.readsTwo]
    all_goals
      refine iff_of_true (by simp [readPackets, hverdict]) ?_
      rcases conn with _ | ⟨second | _ | _ | _, conn⟩ <;> simp [SniffAction.readsTwo, hverdict]
  all_goals simp [readPackets, SniffAction.readsTwo]

/-- **What a sniff action does to the packets when it reads on**: it returns the buffers that it was
given, followed by those of the packets that it has read. -/
theorem sniffPackets_spec (conn : PacketConn)
    (h : action.readsOn env (packetBuffers.map heap.payload) metadata) :
    let result := sniffPackets env action packetBuffers heap conn metadata
    ∃ packets : List Datagram, result.heap = heap ++ packets.map some ∧
      result.packetBuffers = packetBuffers ++ List.range' heap.length packets.length ∧
      conn.datagrams = packets ++ result.conn.datagrams ∧
      (packetBuffers = [] → (packets.length ≤ 1 ↔ action.readsTwo env conn metadata = false)) := by
  intro result
  have hres : result = readPackets env action conn heap packetBuffers
      (resniff env action (packetBuffers.map heap.payload) metadata).2 := sniffPackets_of_readsOn h
  obtain ⟨packets, hheap, hbuffers, hconn⟩ := readPackets_spec conn heap packetBuffers
    (resniff env action (packetBuffers.map heap.payload) metadata).2
  rw [← hres] at hheap hbuffers hconn
  refine ⟨packets, hheap, hbuffers, hconn, fun hnil => ?_⟩
  subst hnil
  -- nothing was buffered, so the metadata is still the one that the action began with
  rw [← @length_readPackets_le_one_iff env action metadata heap]
  have hlen : result.packetBuffers.length = packets.length := by
    rw [hbuffers, nil_append, length_range']
  rw [← hlen, hres]
  rfl

end SingBox
