/-
**The server side of the fake TLS handshake** (`readClientHello` in
`transport/utproto/tls_server.go`, `Accept` in `server.go`, and `handleHandshakeFailure` in
`protocol/utproto/inbound.go`).

When `Accept` fails, its error carries the bytes that are to be replayed to a fallback server, to
which the rest of the stream is then copied.  They are the client hello in every case.  What is read
after the hello was answered, the change of the cipher and the records with the header of the
tunnel, is in no error, and nothing marks an error that cannot be replayed.

A connection is what the client sends, in segments, and the error with which reads fail after that.

* `readClientHello_spec` — what is read is returned, also with an error;
* `acceptTunnel_spec` — what is read after the answer is not;
* `replays_iff` — **when the fallback server sees the stream of the client**.
-/

import SingBox.TLSServer
import SingBox.Obfuscated

namespace SingBox.UTProto

open List GoString

open ByteReader (ofBigEndian)
open Segment (content)

/-! ### Reading the hello -/

/-- The error of `io.ReadFull` after the bytes `read`: an end after some of them is unexpected. -/
def shortRead (failure : GoError) (read : List UInt8) : GoError :=
  if failure = ioEOF ∧ read ≠ [] then ioErrUnexpectedEOF else failure

/-- `io.ReadFull`: the bytes, the error, and what is left of the connection. -/
def readFull (failure : GoError) (n : ℕ) (conn : List Segment) :
    List UInt8 × Option GoError × List Segment :=
  match Segment.readFull n conn with
  | some (bytes, conn) => (bytes, none, conn)
  | none => (content conn, some (shortRead failure (content conn)), [])

def errBadClientHello : GoError := .new "utproto: bad client hello"

def errClientHelloTooLarge : GoError :=
  .new "utproto: client hello exceeds 16KB"

def clientHelloMinSize : ℕ := 517

def clientHelloMaxSize : ℕ := 16384

/-- `readClientHello`: the bytes read, the error, and what is left of the connection. -/
def readClientHello (failure : GoError) (conn : List Segment) :
    List UInt8 × Option GoError × List Segment :=
  match readFull failure 5 conn with
  | (hdr, some err, conn) => (hdr, some err, conn)
  | (hdr, none, conn) =>
    let recordLen := ofBigEndian (hdr.drop 3)
    if hdr.take 3 ≠ [0x16, 0x03, 0x01] then (hdr, some errBadClientHello, conn)
    else if recordLen + 5 < clientHelloMinSize then (hdr, some errClientHelloTooSmall, conn)
    else if clientHelloMaxSize < recordLen then (hdr, some errClientHelloTooLarge, conn)
    else
      let (body, err, conn) := readFull failure recordLen conn
      (hdr ++ body, err, conn)

/-! ### Accepting -/

/-- `Kind`: where `Accept` has failed. -/
inductive FailureKind where
  | readClientHello
  | identifyUser
  | parseClientHello
  | writeServerHello
  | readCCS
  | badCCS
  | readObfHeader
  | obfSetup
  deriving DecidableEq

/-- `HandshakeError`. -/
structure HandshakeError where
  kind : FailureKind
  err : GoError
  buffer : List UInt8
  deriving DecidableEq

/-- The errors of `Accept`. -/
inductive AcceptError where
  | plain (err : GoError)
  | handshake (he : HandshakeError)

/-- What `Accept` finds: the clock, the random sources, how reads fail after the last segment, and
whether the answer can be written. -/
structure Surroundings where
  handshake : HandshakeCrypto
  tunnel : UTCrypto
  now : Int64
  entropy : Entropy
  failure : GoError
  writeError : Option GoError

/-- What `Accept` returns, and what it leaves of the connection. -/
abbrev Accepted : Type := Except AcceptError (ServerUser × ObfConn) × List Segment

/-- A `HandshakeError` is returned. -/
def failed (kind : FailureKind) (err : GoError) (buffer : List UInt8) (conn : List Segment) :
    Accepted :=
  (.error (.handshake ⟨kind, err, buffer⟩), conn)

/-- The error of reading through the framer when the connection ends.  The end is unexpected unless
it comes where nothing has been read: before the first record, or between its header and its
body. -/
def framerFailure (failure : GoError) (conn : List Segment) : GoError :=
  if (content conn).length = 5 then failure
  else shortRead failure (content conn)

/-- The second half of `Accept`, from `read_ccs` on. -/
def acceptTunnel (w : Surroundings) (user : ServerUser) (clientHello : List UInt8)
    (conn : List Segment) : Accepted :=
  match readFull w.failure 6 conn with
  | (_, some err, conn) => failed .readCCS err clientHello conn
  | (ccs, none, conn) =>
    if ccs ≠ [0x14, 0x03, 0x03, 0x00, 0x01, 0x01] then
      failed .badCCS (.new "utproto: bad client ccs") clientHello conn
    else
      match FakeTLSConn.readFull { conn := conn } 64 with
      | none => failed .readObfHeader (framerFailure w.failure conn) clientHello []
      | some (.error err, framer) => failed .readObfHeader err clientHello framer.conn
      | some (.ok bytes, framer) =>
        if h : bytes.length = 64 then
          match newObfConnServer w.tunnel framer ⟨bytes, h⟩ user.secret with
          | .error err => failed .obfSetup err clientHello framer.conn
          | .ok conn => (.ok (user, conn), framer.conn)
        else
          -- `io.ReadFull` fills the header or fails.
          failed .readObfHeader ioErrUnexpectedEOF clientHello framer.conn

/-- The part of `Accept` that answers a hello: the user, or where it fails. -/
def answerHello (w : Surroundings) (users : List ServerUser) (clientHello : List UInt8) :
    Except (FailureKind × GoError) ServerUser :=
  match identifyUser w.handshake clientHello users w.now with
  | .error err => .error (.identifyUser, err)
  | .ok (user, clientRand) =>
    if clientHello.length < 76 ∨ clientHello[43]? ≠ some 0x20 then
      .error (.parseClientHello, errBadClientHello)
    else
      let sessionID := (clientHello.drop 44).take 32
      match writeServerHello w.handshake user.secret clientRand sessionID w.entropy,
          w.writeError with
      | .error err, _ => .error (.writeServerHello, err)
      | .ok _, some err => .error (.writeServerHello, err)
      | .ok _, none => .ok user

/-- `Accept`. -/
def accept (w : Surroundings) (users : List ServerUser) (conn : List Segment) : Accepted :=
  if users = [] then
    (.error (.plain (.new "utproto: no users configured")), conn)
  else
    match readClientHello w.failure conn with
    | (clientHello, some err, conn) => failed .readClientHello err clientHello conn
    | (clientHello, none, conn) =>
      match answerHello w users clientHello with
      | .error (kind, err) => failed kind err clientHello conn
      | .ok user => acceptTunnel w user clientHello conn

/-- How the fallback server is reached. -/
structure Upstream where
  (dialError writeError : Option GoError)

/-- What becomes of a connection that is not accepted: it is closed, or the bytes are written to the
fallback server and the rest is copied. -/
inductive FailureOutcome where
  | closed (err : AcceptError)
  | piped (written : List UInt8)

/-- `handleHandshakeFailure`, with the fallback server if one is configured. -/
def handleHandshakeFailure (fallback : Option Upstream) : AcceptError → FailureOutcome
  | .plain err => .closed (.plain err)
  | .handshake he =>
    match fallback with
    | none => .closed (.handshake he)
    | some upstream =>
      if upstream.dialError.isSome then .closed (.handshake he)
      else if he.buffer ≠ [] ∧ upstream.writeError.isSome then .closed (.handshake he)
      else .piped he.buffer

/-- No fallback server is given anything for the error. -/
def NotReplayable (he : HandshakeError) : Prop :=
  ∀ fallback, ∃ err, handleHandshakeFailure fallback (.handshake he) = .closed err

/-- Every error is replayed. -/
theorem not_notReplayable (he : HandshakeError) : ¬NotReplayable he := by
  intro h
  obtain ⟨err, herr⟩ := h (some ⟨none, none⟩)
  rw [handleHandshakeFailure, if_neg (by decide), if_neg fun hw => nomatch hw.2] at herr
  cases herr

/-! ### What is read -/

variable {failure : GoError} {conn rest : List Segment}

theorem readFull_of_le (failure : GoError) {n : ℕ} (h : n ≤ (content conn).length) :
    ∃ rest, readFull failure n conn = ((content conn).take n, none, rest) ∧
      content rest = (content conn).drop n := by
  obtain ⟨rest, hread, hrest⟩ := Segment.readFull_of_le h
  exact ⟨rest, by rw [readFull, hread], hrest⟩

theorem readFull_of_lt {n : ℕ} (h : (content conn).length < n) :
    readFull failure n conn = (content conn, some (shortRead failure (content conn)), []) := by
  rw [readFull, Segment.readFull_of_lt h]

/-- The size of the record at the beginning of a stream. -/
def helloSize (stream : List UInt8) : ℕ := 5 + ofBigEndian ((stream.drop 3).take 2)

/-- A stream begins with a record that can be a client hello. -/
structure HelloAhead (stream : List UInt8) : Prop where
  type : stream.take 3 = [0x16, 0x03, 0x01]
  min : clientHelloMinSize ≤ helloSize stream
  max : helloSize stream ≤ 5 + clientHelloMaxSize
  there : helloSize stream ≤ stream.length

/-- What reading the hello of a stream has given. -/
structure HelloRead (stream hello rest : List UInt8) (err : Option GoError) : Prop where
  stream_eq : stream = hello ++ rest
  ahead_iff : err = none ↔ HelloAhead stream
  size : err = none → hello.length = helloSize stream

theorem HelloRead.rejected {stream hello rest : List UInt8} {err : GoError}
    (hstream : stream = hello ++ rest) (hnot : ¬HelloAhead stream) :
    HelloRead stream hello rest (some err) :=
  ⟨hstream, iff_of_false (Option.some_ne_none err) hnot, fun h => nomatch h⟩

/-- **Reading the hello.**  Whatever is read is returned, and the error tells whether it is a
hello. -/
theorem readClientHello_spec {hello : List UInt8} {err : Option GoError}
    (h : readClientHello failure conn = (hello, err, rest)) :
    HelloRead (content conn) hello (content rest) err := by
  rw [readClientHello] at h
  by_cases hthere : 5 ≤ (content conn).length
  · obtain ⟨conn₁, hread, hconn₁⟩ := readFull_of_le failure hthere
    have hheader : content conn = (content conn).take 5 ++ content conn₁ := by
      rw [hconn₁, take_append_drop]
    have htype : ((content conn).take 5).take 3 = (content conn).take 3 := by
      rw [take_take]
      rfl
    have hlen : ofBigEndian (((content conn).take 5).drop 3) + 5 = helloSize (content conn) := by
      rw [drop_take, helloSize, Nat.add_comm]
    rw [hread] at h
    dsimp only at h
    generalize ofBigEndian (((content conn).take 5).drop 3) = recordLen at h hlen
    rw [htype] at h
    split at h
    · rename_i hne
      cases h
      exact .rejected hheader fun ha => hne ha.type
    split at h
    · rename_i hsmall
      cases h
      exact .rejected hheader fun ha => absurd ha.min (by omega)
    split at h
    · rename_i hlarge
      cases h
      exact .rejected hheader fun ha => absurd ha.max (by omega)
    rename_i hne hsmall hlarge
    have hlength : (content conn₁).length = (content conn).length - 5 := by
      rw [hconn₁, length_drop]
    by_cases hbody : recordLen ≤ (content conn₁).length
    · obtain ⟨conn₂, hread₂, hconn₂⟩ := readFull_of_le failure hbody
      rw [hread₂] at h
      cases h
      refine ⟨?_, iff_of_true rfl ⟨not_not.1 hne, by omega, by omega, by omega⟩, fun _ => ?_⟩
      · rw [hconn₂, append_assoc, take_append_drop, ← hheader]
      · rw [length_append, length_take, length_take]
        omega
    · rw [readFull_of_lt (Nat.lt_of_not_le hbody)] at h
      cases h
      refine .rejected ?_ fun ha => absurd ha.there (by omega)
      rw [Segment.content_nil, append_nil, ← hheader]
  · rw [readFull_of_lt (Nat.lt_of_not_le hthere)] at h
    cases h
    refine .rejected (by simp) fun ha => ?_
    have hmin := ha.min.trans ha.there
    rw [clientHelloMinSize] at hmin
    omega

/-! ### After the answer -/

theorem suffix_of_readFull {n : ℕ} {bytes : List UInt8}
    (h : Segment.readFull n conn = some (bytes, rest)) :
    content rest <:+ content conn := by
  by_cases hn : n ≤ (content conn).length
  · obtain ⟨rest', hread, hrest⟩ := Segment.readFull_of_le hn
    obtain ⟨-, rfl⟩ := Prod.mk.inj (Option.some.inj (h.symm.trans hread))
    exact hrest ▸ drop_suffix _ _
  · rw [Segment.readFull_of_lt (Nat.lt_of_not_le hn)] at h
    cases h

section

variable {f f' : FakeTLSConn}

theorem readOneRecord_suffix {err : Option GoError} (h : f.readOneRecord = some (err, f')) :
    content f'.conn <:+ content f.conn := by
  rw [FakeTLSConn.readOneRecord] at h
  split at h
  · cases h
  rename_i hdr conn hread
  have hhdr := suffix_of_readFull hread
  dsimp only at h
  split at h
  · cases h
    exact hhdr
  split at h
  · cases h
    exact hhdr
  split at h
  · cases h
  rename_i body conn' hread'
  cases h
  exact (suffix_of_readFull hread').trans hhdr

variable {result : Except GoError (List UInt8)}

theorem read_suffix {n : ℕ}
    (h : f.read n = some (result, f')) : content f'.conn <:+ content f.conn := by
  rw [FakeTLSConn.read] at h
  split at h
  · split at h
    · cases h
    · rename_i hrecord
      cases h
      exact readOneRecord_suffix hrecord
    · rename_i f₁ hrecord
      cases h
      have hsuffix : content f₁.conn <:+ content f.conn := readOneRecord_suffix hrecord
      exact hsuffix
  · cases h
    exact suffix_rfl

theorem readFullLoop_suffix {fuel n : ℕ}
    (h : FakeTLSConn.readFullLoop fuel n f = some (result, f')) :
    content f'.conn <:+ content f.conn := by
  induction fuel generalizing n f result with
  | zero =>
    cases h
    exact suffix_rfl
  | succ fuel ih =>
    rw [FakeTLSConn.readFullLoop] at h
    split at h
    · cases h
      exact suffix_rfl
    split at h
    · cases h
    · rename_i hread
      cases h
      exact read_suffix hread
    · rename_i hread
      split at h
      · cases h
      · rename_i hrest
        cases h
        exact (ih hrest).trans (read_suffix hread)
      · rename_i hrest
        cases h
        exact (ih hrest).trans (read_suffix hread)

end

variable {w : Surroundings} {users : List ServerUser} {he : HandshakeError}

/-- **After the answer**, the buffer is the hello, and nothing has been read only if nothing is
there. -/
theorem acceptTunnel_spec {user : ServerUser} {clientHello : List UInt8}
    (h : acceptTunnel w user clientHello conn = (.error (.handshake he), rest)) :
    he.buffer = clientHello ∧ ∃ consumed, content conn = consumed ++ content rest ∧
      (consumed = [] ↔ content conn = []) := by
  rw [acceptTunnel] at h
  by_cases hthere : 6 ≤ (content conn).length
  · obtain ⟨conn₁, hread, hconn₁⟩ := readFull_of_le w.failure hthere
    rw [hread] at h
    have hpos : (content conn).take 6 ≠ [] := by
      intro hnil
      have hlen := length_take_of_le hthere
      rw [hnil] at hlen
      cases hlen
    -- Whatever is left, the six bytes are gone.
    have hsix : ∀ {conn₂}, content conn₂ <:+ content conn₁ → ∃ consumed,
        content conn = consumed ++ content conn₂ ∧ (consumed = [] ↔ content conn = []) := by
      rintro conn₂ ⟨more, hmore⟩
      refine ⟨(content conn).take 6 ++ more, ?_, iff_of_false ?_ ?_⟩
      · rw [append_assoc, hmore, hconn₁, take_append_drop]
      · exact fun hnil => hpos (List.append_eq_nil_iff.1 hnil).1
      · exact fun hnil => hpos (by rw [hnil, take_nil])
    dsimp only at h
    split at h
    · cases h
      exact ⟨rfl, hsix suffix_rfl⟩
    split at h
    · cases h
      exact ⟨rfl, hsix nil_suffix⟩
    · rename_i hheader
      cases h
      exact ⟨rfl, hsix (readFullLoop_suffix hheader)⟩
    · rename_i framer hheader
      have hframer := hsix (readFullLoop_suffix hheader)
      split at h
      · split at h <;> cases h
        exact ⟨rfl, hframer⟩
      · cases h
        exact ⟨rfl, hframer⟩
  · rw [readFull_of_lt (Nat.lt_of_not_le hthere)] at h
    cases h
    exact ⟨rfl, content conn, by simp, Iff.rfl⟩

/-- The stream begins with a hello that is answered. -/
def Answered (w : Surroundings) (users : List ServerUser) (stream : List UInt8) : Prop :=
  HelloAhead stream ∧ ∃ user, answerHello w users (stream.take (helloSize stream)) = .ok user

/-- **When the fallback server sees the stream of the client.**  The buffer of an error holds the
bytes that have been read exactly if the hello was not answered or nothing came after it; and no
error is marked as one that cannot be replayed. -/
theorem replays_iff (h : accept w users conn = (.error (.handshake he), rest)) :
    ∃ consumed, content conn = consumed ++ content rest ∧
      ((he.buffer = consumed ∨ NotReplayable he) ↔
        ¬Answered w users (content conn) ∨ (content conn).length = helloSize (content conn)) := by
  rw [accept] at h
  split at h
  · cases h
  rcases hhello : readClientHello w.failure conn with ⟨hello, err, conn₁⟩
  obtain ⟨hstream, hahead, hsize⟩ := readClientHello_spec hhello
  rw [hhello] at h
  cases err with
  | some e =>
    cases h
    exact ⟨hello, hstream, iff_of_true (.inl rfl) (.inl fun ha => nomatch hahead.2 ha.1)⟩
  | none =>
    have htake : (content conn).take (helloSize (content conn)) = hello := by
      rw [← hsize rfl, hstream, take_left]
    dsimp only at h
    cases hanswer : answerHello w users hello with
    | error e =>
      obtain ⟨kind, e⟩ := e
      rw [hanswer] at h
      cases h
      refine ⟨hello, hstream, iff_of_true (.inl rfl) (.inl ?_)⟩
      rintro ⟨-, user, huser⟩
      rw [htake, hanswer] at huser
      cases huser
    | ok user =>
      -- From here on the bytes that are read are in no error.
      rw [hanswer] at h
      have hyes : Answered w users (content conn) := ⟨hahead.1 rfl, user, by rw [htake, hanswer]⟩
      obtain ⟨hbuffer, consumed, hconsumed, hnothing⟩ := acceptTunnel_spec h
      refine ⟨hello ++ consumed, ?_, ?_⟩
      · rw [append_assoc, ← hconsumed, hstream]
      · rw [or_iff_left (not_notReplayable he), or_iff_right (not_not.2 hyes), hbuffer,
          self_eq_append_right, hnothing, ← hsize rfl, hstream, length_append,
          Nat.add_eq_left, length_eq_zero_iff]

/-! ### A byte after the hello -/

/-- A hello of the user with the number 7, at the time 0. -/
def sevenHello : List UInt8 :=
  [0x16, 0x03, 0x01, 0x02, 0x00] ++ List.replicate 6 0 ++ List.replicate 32 7 ++ [0x20] ++
    List.replicate 473 0

def sevenSurroundings : Surroundings where
  handshake := sampleHandshake
  tunnel := ⟨fun _ => ⟨List.replicate 32 0, by simp⟩, fun _ _ _ => 0⟩
  now := 0
  entropy := ⟨List.replicate 65 0, []⟩
  failure := ioEOF
  writeError := none

/-- The stream as a fallback server sees it. -/
def replayed : Accepted → Option (List UInt8)
  | (.error (.handshake he), rest) => some (he.buffer ++ content rest)
  | (.error (.plain _), _) => none
  | (.ok _, _) => none

theorem exists_of_replayed {a : Accepted} {bytes : List UInt8} (h : replayed a = some bytes) :
    ∃ he rest, a = (.error (.handshake he), rest) ∧ he.buffer ++ content rest = bytes := by
  obtain ⟨(_ | he) | _, rest⟩ := a
  · cases h
  · exact ⟨he, rest, rfl, Option.some.inj h⟩
  · cases h

/-- A client that sends its hello and then more. -/
def helloThen (more : List UInt8) : List Segment :=
  [⟨sevenHello ++ more, List.cons_ne_nil _ _⟩]

/-- A client that sends its hello and then nothing. -/
theorem onlyHello_replayed :
    ∃ he rest, accept sevenSurroundings [sampleUser 7] (helloThen []) =
        (.error (.handshake he), rest) ∧
      ∃ consumed, content (helloThen []) = consumed ++ content rest ∧ he.buffer = consumed := by
  have hrun : replayed (accept sevenSurroundings [sampleUser 7] (helloThen [])) =
      some sevenHello := by decide +kernel
  obtain ⟨he, rest, h, -⟩ := exists_of_replayed hrun
  obtain ⟨consumed, hconsumed, hiff⟩ := replays_iff h
  refine ⟨he, rest, h, consumed, hconsumed, ?_⟩
  exact (hiff.2 (.inr (by decide +kernel))).resolve_right (not_notReplayable he)

/-- The byte after the hello is read and not replayed. -/
theorem oneMore_lost :
    ∃ he rest, accept sevenSurroundings [sampleUser 7] (helloThen [0x14]) =
        (.error (.handshake he), rest) ∧
      he.buffer ++ content rest = sevenHello ∧
      content (helloThen [0x14]) ≠ sevenHello ∧ ¬NotReplayable he := by
  have hrun : replayed (accept sevenSurroundings [sampleUser 7] (helloThen [0x14])) =
      some sevenHello := by decide +kernel
  obtain ⟨he, rest, h, hbytes⟩ := exists_of_replayed hrun
  exact ⟨he, rest, h, hbytes, by decide +kernel, not_notReplayable he⟩

end SingBox.UTProto
