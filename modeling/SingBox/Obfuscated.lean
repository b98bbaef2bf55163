/-
**The obfuscated tunnel** (`transport/utproto/obfuscated.go`, `newObfConnServer` and the ends of
`Dial` and `Accept` in `transport/utproto/dialer.go` and `server.go`).

A client draws 64 bytes, the init header, and sends them as the first bytes of its side of the
connection.  Both sides derive the keys of two AES-CTR streams from it and from the secret that they
share, one from the header and one from the reversed header.  The last eight bytes of the header are
sent encrypted, so that its key stream is at position 64 when the data begins, and the server can
check the protocol tag.  From then on every byte is combined with the next byte of the key stream of
its direction and travels in the records of `FakeTLS`.

AES-CTR is an arbitrary key stream here, and SHA-256 an arbitrary function.

* `newObfConnServer_spec` — the server accepts the header and derives the same streams;
* `Tunnel.sound_step` — **the step lemma**: the streams of both directions stay aligned;
* `Tunnel.tunnel_transparent` — whatever happens in whatever order, the tunnel is
  transparent.
-/

import SingBox.FakeTLS
import SingBox.KeyStream
import SingBox.Schedule

namespace SingBox

open KeyStream List Option

open ByteReader (littleEndianUint32)

/-! ### The init header -/

abbrev InitHeader : Type := List.Vector UInt8 64

/-- The first words of other protocols, and the tags. -/
def reservedWords : List UInt32 :=
  [0x44414548, 0x54534f50, 0x20544547, 0x4954504f, 0xdddddddd, 0xeeeeeeee]

/-- The draws after which `genInitHeader` draws again. -/
def headerReserved (h : InitHeader) : Bool :=
  h.toList.head? = some 0xef || reservedWords.contains (littleEndianUint32 h.toList) ||
    littleEndianUint32 (h.toList.drop 4) = 0

/-- The header with the tag and the number of the data centre. -/
def stampHeader (dcID : Int16) (h : InitHeader) : InitHeader :=
  ⟨h.toList.take 56 ++
    [0xdd, 0xdd, 0xdd, 0xdd, dcID.toUInt16.toUInt8, (dcID >>> 8).toUInt16.toUInt8] ++
    h.toList.drop 62, by simp⟩

/-- `genInitHeader` on what the random reader returns, until it fails. -/
def genInitHeader (dcID : Int16) : List InitHeader → Option InitHeader
  | [] => none
  | h :: draws => if headerReserved h then genInitHeader dcID draws else some (stampHeader dcID h)

theorem tag_of_genInitHeader {dcID : Int16} {draws : List InitHeader} {h : InitHeader}
    (hgen : genInitHeader dcID draws = some h) :
    littleEndianUint32 (h.toList.drop 56) = 0xdddddddd := by
  induction draws with
  | nil => cases hgen
  | cons draw draws ih =>
    rw [genInitHeader] at hgen
    split at hgen
    · exact ih hgen
    · obtain rfl := some.inj hgen
      have hlen : (draw.toList.take 56).length = 56 := by simp
      rw [stampHeader, List.Vector.toList_mk, append_assoc, drop_left' hlen]
      rfl

/-! ### The streams -/

/-- The primitives of the crypto packages. -/
structure UTCrypto where
  sha256 : List UInt8 → List.Vector UInt8 32
  /-- The byte at a position of the key stream that AES-CTR has for a key and an initial vector. -/
  keyStream : List UInt8 → List UInt8 → ℕ → UInt8

/-- A `cipher.Stream` and the bytes that it has processed. -/
structure CTRStream where
  (key iv : List UInt8)
  pos : ℕ := 0

variable (crypto : UTCrypto)

/-- `aes.NewCipher` and `cipher.NewCTR`. -/
def newCTR (key iv : List UInt8) : Except GoError CTRStream :=
  if key.length = 16 ∨ key.length = 24 ∨ key.length = 32 then .ok { key := key, iv := iv }
  else .error (.library "crypto/aes: invalid key size" key)

/-- `XORKeyStream`. -/
def CTRStream.xorKeyStream (s : CTRStream) (src : List UInt8) : List UInt8 × CTRStream :=
  (xorAt (crypto.keyStream s.key s.iv) s.pos src, { s with pos := s.pos + src.length })

/-- `deriveKey`. -/
def deriveKey (header : InitHeader) (secret : UTSecret) : List UInt8 × List UInt8 :=
  ((crypto.sha256 ((header.toList.drop 8).take 32 ++ secret.toList)).toList,
    (header.toList.drop 40).take 16)

/-- `obfConn`. -/
structure ObfConn where
  conn : FakeTLSConn
  (enc dec : CTRStream)

/-- The header as it is sent: the last eight bytes are encrypted. -/
def wireHeader (encStream : CTRStream) (initHeader : InitHeader) : InitHeader :=
  ⟨initHeader.toList.take 56 ++ (encStream.xorKeyStream crypto initHeader.toList).1.drop 56,
    by simp [CTRStream.xorKeyStream]⟩

/-- `newObfConn`: the connection and the header as it is sent. -/
def newObfConn (rawConn : FakeTLSConn) (initHeader : InitHeader) (secret : UTSecret) :
    Except GoError (ObfConn × InitHeader) := do
  let (encKey, encIV) := deriveKey crypto initHeader secret
  let encStream ← newCTR encKey encIV
  let (decKey, decIV) := deriveKey crypto initHeader.reverse secret
  let decStream ← newCTR decKey decIV
  return ({ conn := rawConn, enc := (encStream.xorKeyStream crypto initHeader.toList).2,
            dec := decStream },
    wireHeader crypto encStream initHeader)

def errBadObfTag : GoError :=
  .new "utproto: bad obf2 protocol tag (wrong secret?)"

/-- `newObfConnServer`. -/
def newObfConnServer (rawConn : FakeTLSConn) (wireHeader : InitHeader) (secret : UTSecret) :
    Except GoError ObfConn := do
  let (decKey, decIV) := deriveKey crypto wireHeader secret
  let decStream ← newCTR decKey decIV
  let (decrypted, decStream) := decStream.xorKeyStream crypto wireHeader.toList
  if littleEndianUint32 (decrypted.drop 56) ≠ 0xdddddddd then throw errBadObfTag
  let (encKey, encIV) := deriveKey crypto wireHeader.reverse secret
  let encStream ← newCTR encKey encIV
  return { conn := rawConn, enc := encStream, dec := decStream }

namespace ObfConn

/-- `Read` with a buffer of length `n`. -/
def read (c : ObfConn) (n : ℕ) : Option (Except GoError (List UInt8) × ObfConn) :=
  match c.conn.read n with
  | none => none
  | some (.error err, conn) => some (.error err, { c with conn := conn })
  | some (.ok bytes, conn) =>
    let (bytes, dec) := c.dec.xorKeyStream crypto bytes
    some (.ok bytes, { c with conn := conn, dec := dec })

/-- What a call of `Write` returns, the frames that it writes to the raw connection, and the
connection after it. -/
structure Written where
  n : ℕ
  frames : List (List UInt8)
  conn : ObfConn

/-- `Write`. -/
def write (c : ObfConn) (p : List UInt8) : Written where
  n := (FakeTLSConn.write (c.enc.xorKeyStream crypto p).1).1
  frames := (FakeTLSConn.write (c.enc.xorKeyStream crypto p).1).2
  conn := { c with enc := (c.enc.xorKeyStream crypto p).2 }

theorem n_write (c : ObfConn) (p : List UInt8) : (c.write crypto p).n = p.length := by
  rw [write, (FakeTLSConn.write_spec _).1, CTRStream.xorKeyStream, length_xorAt]

end ObfConn

/-! ### Both sides derive the same streams -/

/-- The stream for a header, at a position. -/
def headerStream (header : InitHeader) (secret : UTSecret) (pos : ℕ) : CTRStream :=
  ⟨(deriveKey crypto header secret).1, (deriveKey crypto header secret).2, pos⟩

variable {crypto} {secret : UTSecret}

theorem newCTR_deriveKey (header : InitHeader) :
    newCTR (deriveKey crypto header secret).1 (deriveKey crypto header secret).2 =
      .ok (headerStream crypto header secret 0) :=
  if_pos (.inr (.inr (List.Vector.toList_length _)))

variable (rawConn : FakeTLSConn) (encStream : CTRStream) (initHeader : InitHeader)

theorem newObfConn_eq :
    newObfConn crypto rawConn initHeader secret =
      .ok ({ conn := rawConn
             enc := headerStream crypto initHeader secret 64
             dec := headerStream crypto initHeader.reverse secret 0 },
        wireHeader crypto (headerStream crypto initHeader secret 0) initHeader) := by
  simp only [newObfConn, newCTR_deriveKey, CTRStream.xorKeyStream, List.Vector.toList_length]
  rfl

theorem headerStream_congr {header header' : InitHeader}
    (h : (header.toList.drop 8).take 48 = (header'.toList.drop 8).take 48) :
    headerStream crypto header secret = headerStream crypto header' secret := by
  funext pos
  have hkey := congrArg (List.take 32) h
  have hiv := congrArg (List.drop 32) h
  rw [take_take, take_take] at hkey
  rw [drop_take, drop_take, drop_drop, drop_drop] at hiv
  have hkey' : (header.toList.drop 8).take 32 = (header'.toList.drop 8).take 32 := hkey
  have hiv' : (header.toList.drop 40).take 16 = (header'.toList.drop 40).take 16 := hiv
  rw [headerStream, headerStream, deriveKey, deriveKey, hkey', hiv']

variable (crypto) in
theorem take_wireHeader :
    (wireHeader crypto encStream initHeader).toList.take 56 = initHeader.toList.take 56 :=
  take_left' (by simp)

theorem headerStream_wireHeader :
    headerStream crypto (wireHeader crypto encStream initHeader) secret =
      headerStream crypto initHeader secret := by
  refine headerStream_congr ?_
  have h := congrArg (List.drop 8) (take_wireHeader crypto encStream initHeader)
  rw [drop_take, drop_take] at h
  exact h

theorem headerStream_reverse_wireHeader :
    headerStream crypto (wireHeader crypto encStream initHeader).reverse secret =
      headerStream crypto initHeader.reverse secret := by
  refine headerStream_congr ?_
  have h := congrArg List.reverse (take_wireHeader crypto encStream initHeader)
  rw [List.Vector.toList_reverse, List.Vector.toList_reverse, drop_reverse, drop_reverse,
    List.Vector.toList_length, List.Vector.toList_length]
  exact congrArg (List.take 48) h

variable (crypto secret) in
theorem drop_decrypted :
    ((headerStream crypto initHeader secret 0).xorKeyStream crypto
      (wireHeader crypto (headerStream crypto initHeader secret 0) initHeader).toList).1.drop 56 =
      initHeader.toList.drop 56 := by
  have hlen : (initHeader.toList.take 56).length = 56 := by simp
  rw [CTRStream.xorKeyStream, drop_xorAt, wireHeader, List.Vector.toList_mk,
    drop_left' hlen, CTRStream.xorKeyStream, drop_xorAt, xorAt_xorAt]

/-- **The server accepts the header and derives the streams of the client**, the other way round. -/
theorem newObfConnServer_spec {initHeader : InitHeader}
    (htag : littleEndianUint32 (initHeader.toList.drop 56) = 0xdddddddd) :
    newObfConnServer crypto rawConn
        (wireHeader crypto (headerStream crypto initHeader secret 0) initHeader) secret =
      .ok { conn := rawConn
            enc := headerStream crypto initHeader.reverse secret 0
            dec := headerStream crypto initHeader secret 64 } := by
  have hdrop := drop_decrypted crypto secret initHeader
  rw [newObfConnServer]
  simp only [newCTR_deriveKey, headerStream_wireHeader, headerStream_reverse_wireHeader]
  refine exceptBind_eq_ok.2 ⟨_, rfl, ?_⟩
  rw [hdrop, htag, if_neg (not_not.2 rfl), CTRStream.xorKeyStream, List.Vector.toList_length]
  rfl

/-! ### The tunnel -/

/-- The server side of a connection: it reads the header, or has a connection, or has given up. -/
inductive TunnelServer where
  | accepting (framer : FakeTLSConn)
  | accepted (conn : ObfConn)
  | failed (err : GoError)

/-- A segment arrives at the server. -/
def TunnelServer.receive (seg : Segment) : TunnelServer → TunnelServer
  | .accepting framer => .accepting { framer with conn := framer.conn ++ [seg] }
  | .accepted conn =>
    .accepted { conn with conn := { conn.conn with conn := conn.conn.conn ++ [seg] } }
  | .failed err => .failed err

/-- A client and a server, the bytes on the way between them, what `Write` has reported as written
and what the reads have returned. -/
structure Tunnel where
  client : ObfConn
  server : TunnelServer := .accepting {}
  up : List UInt8
  (down clientWrote serverGot serverWrote clientGot : List UInt8 := [])
  errors : List GoError := []

inductive TunnelEvent where
  | clientWrite (p : List UInt8)
  | serverWrite (p : List UInt8)
  /-- The next bytes on the way arrive, as one segment. -/
  | arriveUp (n : ℕ)
  | arriveDown (n : ℕ)
  /-- `Accept` reads the header. -/
  | accept
  | clientRead (n : ℕ)
  | serverRead (n : ℕ)

namespace Tunnel

variable (crypto) (secret)

/-- The end of `Dial`: the header is written through the framer. -/
def dial (initHeader : InitHeader) : Except GoError Tunnel := do
  let (conn, wireHeader) ← newObfConn crypto {} initHeader secret
  return { client := conn, up := (FakeTLSConn.write wireHeader.toList).2.flatten }

/-- The end of `Accept`. -/
def acceptHeader (framer : FakeTLSConn) : Option (Except GoError ObfConn) :=
  match framer.readFull 64 with
  | none => none
  | some (.error err, _) => some (.error err)
  | some (.ok bytes, framer) =>
    if h : bytes.length = 64 then some (newObfConnServer crypto framer ⟨bytes, h⟩ secret)
    else none

/-- One step, if it can happen.  Reads and `Accept` wait while less than they need has arrived. -/
def step (s : Tunnel) : TunnelEvent → Option Tunnel
  | .clientWrite p =>
    some { s with
      client := (s.client.write crypto p).conn
      up := s.up ++ (s.client.write crypto p).frames.flatten
      clientWrote := s.clientWrote ++ p.take (s.client.write crypto p).n }
  | .serverWrite p =>
    match s.server with
    | .accepted conn =>
      some { s with
        server := .accepted (conn.write crypto p).conn
        down := s.down ++ (conn.write crypto p).frames.flatten
        serverWrote := s.serverWrote ++ p.take (conn.write crypto p).n }
    | .accepting _ => none
    | .failed _ => none
  | .arriveUp n =>
    if h : s.up.take n = [] then none
    else some { s with server := s.server.receive ⟨s.up.take n, h⟩, up := s.up.drop n }
  | .arriveDown n =>
    if h : s.down.take n = [] then none
    else
      let framer := { s.client.conn with conn := s.client.conn.conn ++ [⟨s.down.take n, h⟩] }
      some { s with client := { s.client with conn := framer }, down := s.down.drop n }
  | .accept =>
    match s.server with
    | .accepting framer =>
      match acceptHeader crypto secret framer with
      | none => none
      | some (.error err) =>
        some { s with server := .failed err, errors := s.errors ++ [err] }
      | some (.ok conn) => some { s with server := .accepted conn }
    | .accepted _ => none
    | .failed _ => none
  | .clientRead n =>
    match s.client.read crypto n with
    | none => none
    | some (.error err, conn) => some { s with client := conn, errors := s.errors ++ [err] }
    | some (.ok bytes, conn) => some { s with client := conn, clientGot := s.clientGot ++ bytes }
  | .serverRead n =>
    match s.server with
    | .accepted conn =>
      match conn.read crypto n with
      | none => none
      | some (.error err, conn) =>
        some { s with server := .accepted conn, errors := s.errors ++ [err] }
      | some (.ok bytes, conn) =>
        some { s with server := .accepted conn, serverGot := s.serverGot ++ bytes }
    | .accepting _ => none
    | .failed _ => none

/-- **Each side reads what the other one has written**: nothing fails, the bytes come in order, a
read brings at least one byte, and when everything has arrived a read waits only if everything has
been read. -/
structure Transparent (s : Tunnel) : Prop where
  errors : s.errors = []
  serverOrder : s.serverGot <+: s.clientWrote
  clientOrder : s.clientGot <+: s.serverWrote
  serverProgress : ∀ n s', 0 < n → step crypto secret s (.serverRead n) = some s' →
    s.serverGot.length < s'.serverGot.length
  clientProgress : ∀ n s', 0 < n → step crypto secret s (.clientRead n) = some s' →
    s.clientGot.length < s'.clientGot.length
  serverComplete : ∀ n, s.up = [] → step crypto secret s .accept = none →
    step crypto secret s (.serverRead n) = none → s.serverGot = s.clientWrote
  clientComplete : ∀ n, s.down = [] → step crypto secret s (.clientRead n) = none →
    s.clientGot = s.serverWrote

variable {crypto secret}

/-! ### One direction -/

variable (crypto) in
/-- What one side has written travels to the other: after the bytes `header`, `f` receives a text
that `dec` decrypts to what has been written and not been read. -/
structure Carries (header : List UInt8) (enc : CTRStream) (onWay : List UInt8) (f : FakeTLSConn)
    (dec : CTRStream) (wrote got : List UInt8) : Prop where
  key : enc.key = dec.key
  iv : enc.iv = dec.iv
  aligned : ∃ text, f.Incoming onWay (header ++ text) ∧ enc.pos = dec.pos + text.length ∧
    wrote = got ++ xorAt (crypto.keyStream dec.key dec.iv) dec.pos text

section

variable {header onWay wrote got : List UInt8} {enc dec : CTRStream} {f : FakeTLSConn} {c : ObfConn}

theorem Carries.write (h : Carries crypto header c.enc onWay f dec wrote got) (p : List UInt8) :
    Carries crypto header (c.write crypto p).conn.enc
      (onWay ++ (c.write crypto p).frames.flatten) f dec (wrote ++ p.take (c.write crypto p).n)
      got := by
  obtain ⟨hkey, hiv, text, hincoming, hpos, htext⟩ := h
  rw [c.n_write, take_length]
  refine ⟨hkey, hiv, text ++ (c.enc.xorKeyStream crypto p).1, ?_, ?_, ?_⟩
  · rw [← append_assoc]
    exact hincoming.write _
  · simp only [ObfConn.write, CTRStream.xorKeyStream, length_append, length_xorAt]
    omega
  · -- The new bytes are decrypted at the position at which they were encrypted.
    rw [CTRStream.xorKeyStream, hkey, hiv, hpos, xorAt_append, xorAt_xorAt, htext, append_assoc]

theorem Carries.arrive (h : Carries crypto header enc onWay f dec wrote got) {n : ℕ}
    (hn : onWay.take n ≠ []) :
    Carries crypto header enc (onWay.drop n) { f with conn := f.conn ++ [⟨onWay.take n, hn⟩] } dec
      wrote got := by
  obtain ⟨hkey, hiv, text, hincoming, hpos, htext⟩ := h
  exact ⟨hkey, hiv, text, hincoming.arrive hn, hpos, htext⟩

theorem Carries.order (h : Carries crypto header enc onWay f dec wrote got) : got <+: wrote := by
  obtain ⟨-, -, text, -, -, htext⟩ := h
  exact ⟨_, htext.symm⟩

/-- **One read**: it waits, or returns the next bytes. -/
theorem Carries.read (h : Carries crypto [] enc onWay c.conn c.dec wrote got) (n : ℕ) :
    (c.read crypto n = none ∧ (onWay = [] → got = wrote)) ∨
      ∃ bytes c', c.read crypto n = some (.ok bytes, c') ∧ c'.enc = c.enc ∧
        (0 < n → bytes ≠ []) ∧ Carries crypto [] enc onWay c'.conn c'.dec wrote (got ++ bytes) := by
  obtain ⟨hkey, hiv, text, hincoming, hpos, htext⟩ := h
  have hread := hincoming.read_spec n
  rw [ObfConn.read]
  generalize c.conn.read n = outcome at hread
  cases hread with
  | waits hnone =>
    refine .inl ⟨rfl, fun hway => ?_⟩
    rw [htext, show text = [] from hnone hway, xorAt, append_nil]
  | @ok bytes rest f' hbytes hrest hlen hprogress =>
    rw [nil_append] at hbytes
    refine .inr ⟨_, _, rfl, rfl, fun hn hnil => ?_, hkey, hiv, rest, hrest, ?_, ?_⟩
    · have hzero := congrArg List.length hnil
      rw [length_xorAt, length_nil] at hzero
      exact hprogress hn (List.length_eq_zero_iff.1 hzero)
    · rw [hpos, hbytes, length_append, Nat.add_assoc]
    · rw [htext, hbytes, xorAt_append, append_assoc]

end

/-! ### Both directions -/

variable {initHeader : InitHeader}

variable (crypto secret initHeader) in
/-- **The invariant**: both directions carry what is written into them.  Before the server has read
the header, the header comes first, and the server's streams are those that it will derive. -/
inductive Sound (s : Tunnel) : Prop
  | accepting {framer : FakeTLSConn} (hserver : s.server = .accepting framer)
      (hup : Carries crypto
        (wireHeader crypto (headerStream crypto initHeader secret 0) initHeader).toList s.client.enc
        s.up framer (headerStream crypto initHeader secret 64) s.clientWrote
        s.serverGot)
      (hdown : Carries crypto [] (headerStream crypto initHeader.reverse secret 0) s.down
        s.client.conn s.client.dec s.serverWrote s.clientGot)
      (herrors : s.errors = [])
  | accepted {conn : ObfConn} (hserver : s.server = .accepted conn)
      (hup : Carries crypto [] s.client.enc s.up conn.conn conn.dec s.clientWrote s.serverGot)
      (hdown : Carries crypto [] conn.enc s.down s.client.conn s.client.dec s.serverWrote
        s.clientGot)
      (herrors : s.errors = [])

variable (crypto secret) in
theorem dial_sound (initHeader : InitHeader) :
    ∃ s, dial crypto secret initHeader = .ok s ∧ Sound crypto secret initHeader s := by
  refine ⟨_, by rw [dial, newObfConn_eq]; rfl, .accepting rfl ?_ ?_ rfl⟩
  · refine ⟨rfl, rfl, [], ?_, rfl, rfl⟩
    rw [append_nil]
    exact FakeTLSConn.incoming_new.write _
  · exact ⟨rfl, rfl, [], FakeTLSConn.incoming_new, rfl, rfl⟩

theorem acceptHeader_spec {framer : FakeTLSConn} {enc : CTRStream} {onWay wrote got : List UInt8}
    (htag : littleEndianUint32 (initHeader.toList.drop 56) = 0xdddddddd)
    (hup : Carries crypto
      (wireHeader crypto (headerStream crypto initHeader secret 0) initHeader).toList enc onWay
      framer (headerStream crypto initHeader secret 64) wrote got) :
    (acceptHeader crypto secret framer = none ∧ onWay ≠ []) ∨
      ∃ conn, acceptHeader crypto secret framer = some (.ok conn) ∧
        conn.enc = headerStream crypto initHeader.reverse secret 0 ∧
        Carries crypto [] enc onWay conn.conn conn.dec wrote got := by
  obtain ⟨hkey, hiv, text, hincoming, hpos, htext⟩ := hup
  rw [acceptHeader]
  rcases hincoming.readFull_spec 64 with
    ⟨hwait, hfew⟩ | ⟨bytes, rest, framer', hread, hlen, hbytes, hrest⟩
  · refine .inl ⟨by rw [hwait], fun hway => ?_⟩
    have := hfew hway
    rw [length_append, List.Vector.toList_length] at this
    omega
  · obtain ⟨hheader, rfl⟩ := append_inj hbytes (by rw [List.Vector.toList_length, hlen])
    have hvector : (⟨bytes, hlen⟩ : InitHeader) =
        wireHeader crypto (headerStream crypto initHeader secret 0) initHeader :=
      List.Vector.eq _ _ hheader.symm
    refine .inr ⟨{ conn := framer'
                   enc := headerStream crypto initHeader.reverse secret 0
                   dec := headerStream crypto initHeader secret 64 },
      ?_, rfl, hkey, hiv, text, hrest, hpos, htext⟩
    rw [hread]
    dsimp only
    rw [dif_pos hlen, hvector, newObfConnServer_spec framer' htag]

theorem sound_step (htag : littleEndianUint32 (initHeader.toList.drop 56) = 0xdddddddd)
    {s s' : Tunnel} {e : TunnelEvent} (h : step crypto secret s e = some s')
    (hs : Sound crypto secret initHeader s) : Sound crypto secret initHeader s' := by
  cases e with
  | clientWrite p =>
    obtain rfl := some.inj h
    cases hs with
    | accepting hserver hup hdown herrors =>
      exact .accepting hserver (hup.write p) hdown herrors
    | accepted hserver hup hdown herrors => exact .accepted hserver (hup.write p) hdown herrors
  | serverWrite p =>
    cases hs with
    | accepting hserver => simp [step, hserver] at h
    | accepted hserver hup hdown herrors =>
      simp only [step, hserver, some.injEq] at h
      obtain rfl := h
      exact .accepted rfl hup (hdown.write p) herrors
  | arriveUp n =>
    simp only [step] at h
    split at h
    · cases h
    · rename_i hn
      obtain rfl := some.inj h
      cases hs with
      | accepting hserver hup hdown herrors =>
        have hreceive := congrArg (TunnelServer.receive ⟨s.up.take n, hn⟩) hserver
        exact .accepting hreceive (hup.arrive hn) hdown herrors
      | accepted hserver hup hdown herrors =>
        have hreceive := congrArg (TunnelServer.receive ⟨s.up.take n, hn⟩) hserver
        exact .accepted hreceive (hup.arrive hn) hdown herrors
  | arriveDown n =>
    simp only [step] at h
    split at h
    · cases h
    · rename_i hn
      obtain rfl := some.inj h
      cases hs with
      | accepting hserver hup hdown herrors =>
        exact .accepting hserver hup (hdown.arrive hn) herrors
      | accepted hserver hup hdown herrors =>
        exact .accepted hserver hup (hdown.arrive hn) herrors
  | accept =>
    cases hs with
    | accepting hserver hup hdown herrors =>
      rcases acceptHeader_spec htag hup with ⟨hwait, -⟩ | ⟨conn, hconn, henc, hup'⟩
      · simp [step, hserver, hwait] at h
      · simp only [step, hserver, hconn, some.injEq] at h
        obtain rfl := h
        exact .accepted rfl hup' (henc ▸ hdown) herrors
    | accepted hserver => simp [step, hserver] at h
  | clientRead n =>
    -- The client reads in the same way before and after the server has read the header.
    cases hs with
    | accepting hserver hup hdown herrors =>
      rcases hdown.read n with ⟨hwait, -⟩ | ⟨bytes, conn, hread, henc, -, hdown'⟩
      · simp [step, hwait] at h
      · simp only [step, hread, some.injEq] at h
        obtain rfl := h
        exact .accepting hserver (henc ▸ hup) hdown' herrors
    | accepted hserver hup hdown herrors =>
      rcases hdown.read n with ⟨hwait, -⟩ | ⟨bytes, conn, hread, henc, -, hdown'⟩
      · simp [step, hwait] at h
      · simp only [step, hread, some.injEq] at h
        obtain rfl := h
        exact .accepted hserver (henc ▸ hup) hdown' herrors
  | serverRead n =>
    cases hs with
    | accepting hserver => simp [step, hserver] at h
    | accepted hserver hup hdown herrors =>
      rcases hup.read n with ⟨hwait, -⟩ | ⟨bytes, conn, hread, henc, -, hup'⟩
      · simp [step, hserver, hwait] at h
      · simp only [step, hserver, hread, some.injEq] at h
        obtain rfl := h
        exact .accepted rfl hup' (henc ▸ hdown) herrors

section

variable {s : Tunnel} (hs : Sound crypto secret initHeader s)

include hs

theorem Sound.errors : s.errors = [] := by
  cases hs <;> assumption

theorem Sound.serverOrder : s.serverGot <+: s.clientWrote := by
  cases hs with
  | accepting hserver hup | accepted hserver hup => exact hup.order

theorem Sound.down :
    ∃ enc, Carries crypto [] enc s.down s.client.conn s.client.dec s.serverWrote s.clientGot := by
  cases hs with
  | accepting hserver hup hdown | accepted hserver hup hdown => exact ⟨_, hdown⟩

omit hs in
theorem length_lt_append {got bytes : List UInt8} (h : bytes ≠ []) :
    got.length < (got ++ bytes).length := by
  rw [length_append]
  exact Nat.lt_add_of_pos_right (List.length_pos_iff.2 h)

theorem transparent_of_sound (htag : littleEndianUint32 (initHeader.toList.drop 56) = 0xdddddddd) :
    Transparent crypto secret s where
  errors := hs.errors
  serverOrder := hs.serverOrder
  clientOrder := by
    obtain ⟨enc, hdown⟩ := hs.down
    exact hdown.order
  serverProgress n s' hn h := by
    cases hs with
    | accepting hserver => simp [step, hserver] at h
    | accepted hserver hup =>
      rcases hup.read n with ⟨hwait, -⟩ | ⟨bytes, conn, hread, -, hsome, -⟩
      · simp [step, hserver, hwait] at h
      · simp only [step, hserver, hread, some.injEq] at h
        obtain rfl := h
        exact length_lt_append (hsome hn)
  clientProgress n s' hn h := by
    obtain ⟨enc, hdown⟩ := hs.down
    rcases hdown.read n with ⟨hwait, -⟩ | ⟨bytes, conn, hread, -, hsome, -⟩
    · simp [step, hwait] at h
    · simp only [step, hread, some.injEq] at h
      obtain rfl := h
      exact length_lt_append (hsome hn)
  serverComplete n hway haccept hread := by
    cases hs with
    | accepting hserver hup =>
      -- The header has arrived, so the server can read it.
      rcases acceptHeader_spec htag hup with ⟨-, hway'⟩ | ⟨conn, hconn, -⟩
      · exact absurd hway hway'
      · simp [step, hserver, hconn] at haccept
    | accepted hserver hup =>
      rcases hup.read n with ⟨-, hall⟩ | ⟨bytes, conn, hread', -⟩
      · exact hall hway
      · simp [step, hserver, hread'] at hread
  clientComplete n hway hread := by
    obtain ⟨enc, hdown⟩ := hs.down
    rcases hdown.read n with ⟨-, hall⟩ | ⟨bytes, conn, hread', -⟩
    · exact hall hway
    · simp [step, hread'] at hread

end

variable (crypto secret) in
/-- **The tunnel is transparent**, whatever both sides write, however it is cut on the way, and
whatever the sizes of the reads are. -/
theorem tunnel_transparent {dcID : Int16} {draws : List InitHeader}
    (hgen : genInitHeader dcID draws = some initHeader) :
    ∃ s₀, dial crypto secret initHeader = .ok s₀ ∧ ∀ events s,
      Schedule.run (step crypto secret) s₀ events = some s → Transparent crypto secret s := by
  have htag := tag_of_genInitHeader hgen
  obtain ⟨s₀, hdial, hs₀⟩ := dial_sound crypto secret initHeader
  refine ⟨s₀, hdial, fun events s hrun => transparent_of_sound ?_ htag⟩
  exact Schedule.run_invariant_always (fun _ _ _ h hs => sound_step htag h hs) hrun hs₀

/-- Primitives that can be followed by hand. -/
def sampleCrypto : UTCrypto where
  sha256 m := ⟨List.replicate 32 (m.foldl (· + ·) 0), by simp⟩
  keyStream key iv pos := key.headD 0 + iv.headD 0 + .ofNat pos

def sampleSecret : UTSecret := ⟨List.replicate 16 7, by simp⟩

/-- The first draw looks like another protocol. -/
def sampleDraws : List InitHeader :=
  [⟨List.replicate 64 0xef, by simp⟩, ⟨List.replicate 60 5 ++ [1, 2, 3, 4], by simp⟩]

/-- The header arrives in two pieces, the second one with data. -/
def sampleEvents : List TunnelEvent :=
  [.arriveUp 40, .clientWrite [1, 2, 3], .arriveUp 100, .accept, .serverRead 2, .serverWrite [9],
    .arriveDown 6, .serverRead 5, .clientRead 10]

/-- What the sample events lead to. -/
def sampleRun : Option Tunnel := do
  let initHeader ← genInitHeader 1 sampleDraws
  let s ← (dial sampleCrypto sampleSecret initHeader).toOption
  Schedule.run (step sampleCrypto sampleSecret) s sampleEvents

theorem sampleRun_transparent :
    ∃ s, sampleRun = some s ∧ s.serverGot = [1, 2, 3] ∧ s.clientGot = [9] ∧
      Transparent sampleCrypto sampleSecret s := by
  have hgen : genInitHeader 1 sampleDraws =
      some (stampHeader 1 ⟨List.replicate 60 5 ++ [1, 2, 3, 4], by simp⟩) := by decide
  obtain ⟨s₀, hdial, htransparent⟩ := tunnel_transparent sampleCrypto sampleSecret hgen
  have hrun : sampleRun = Schedule.run (step sampleCrypto sampleSecret) s₀ sampleEvents := by
    rw [sampleRun, hgen]
    simp only [Option.bind_eq_bind, Option.bind_some, hdial]
    rfl
  have hgot : sampleRun.map (fun s => (s.serverGot, s.clientGot)) = some ([1, 2, 3], [9]) := by
    decide
  obtain ⟨s, hs, hbytes⟩ := Option.map_eq_some_iff.1 hgot
  exact ⟨s, hs, congrArg Prod.fst hbytes, congrArg Prod.snd hbytes,
    htransparent sampleEvents s (hrun ▸ hs)⟩

end Tunnel

end SingBox
