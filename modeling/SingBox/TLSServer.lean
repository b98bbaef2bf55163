/-
**The fake TLS handshake** (`transport/utproto/tls_server.go`, and `validateServerHello` in
`tls_init.go`).

A client hello carries a digest of itself under the secret of its user, computed with zeros where
the digest stands, with the time of the client combined into the last four bytes.  The server finds
the user by trying every secret, recovers the time and compares it with its own clock.  Its answer
carries a digest in the same place, over the random of the client and the answer, which the client
checks.  HMAC is an arbitrary function here.

* `recoveredTime_helloRandom` — the server recovers the time of the client;
* `identifyLoop_of_user`, `identifyLoop_of_no_user` — whom it finds;
* `validateServerHello_of_write` — the client accepts the answer, however it is cut;
* `handshake_agreement` — **both sides agree**.
-/

import SingBox.TLSInit

namespace SingBox

open List GoString ByteReader

open ByteReader (littleEndianUint32 putLittleEndianUint32 putBigEndian ofBigEndian)

variable (crypto : HandshakeCrypto)

/-! ### The server reads the hello -/

/-- `ServerUser`. -/
structure ServerUser where
  name : GoString
  secret : UTSecret

def errClientHelloTooSmall : GoError :=
  .new "utproto: client hello too small"

def errNoMatchingUser : GoError :=
  .new "utproto: no user secret matches client hmac"

def errTimeSkew : GoError := .new "utproto: client timestamp skew too large"

/-- The client may be 20 minutes ahead. -/
def maxSkewFuture : Int64 := 20 * 60

/-- The client may be 10 minutes behind. -/
def maxSkewPast : Int64 := 10 * 60

/-- The time of the client: what was combined into the last four bytes of the digest. -/
def recoveredTime (computed received : List UInt8) : Int32 :=
  (littleEndianUint32 (List.zipWith (· ^^^ ·) (received.drop 28) (computed.drop 28))).toInt32

/-- The loop of `identifyUser`. -/
def identifyLoop (msg received : List UInt8) (now : Int64) :
    List ServerUser → Except GoError (ServerUser × List UInt8)
  | [] => .error errNoMatchingUser
  | user :: users =>
    let computed := (crypto.hmac user.secret.toList msg).toList
    if computed.take 28 ≠ received.take 28 then identifyLoop msg received now users
    else
      let skew := now - (recoveredTime computed received).toInt64
      if skew < -maxSkewFuture ∨ maxSkewPast < skew then .error errTimeSkew
      else .ok (user, received)

/-- `identifyUser` at the time `now`: the user and the random of the client. -/
def identifyUser (clientHello : List UInt8) (users : List ServerUser) (now : Int64) :
    Except GoError (ServerUser × List UInt8) :=
  if clientHello.length < 43 then .error errClientHelloTooSmall
  else identifyLoop crypto (zeroSlot clientHello) (slot clientHello) now users

/-! ### The server answers -/

def errBadBufferSize : GoError := .new "utproto: bad buffer size"

/-- The body of the first record of the answer. -/
def serverHelloBody (digest sessionID x25519pub : List UInt8) : List UInt8 :=
  [0x02, 0x00, 0x00, 0x76, 0x03, 0x03] ++ digest ++ [0x20] ++ sessionID ++
    [0x13, 0x01, 0x00, 0x00, 0x2e, 0x00, 0x2b, 0x00, 0x02, 0x03, 0x04, 0x00, 0x33, 0x00, 0x24, 0x00,
      0x1d, 0x00, 0x20] ++ x25519pub

/-- The three records of the answer. -/
def serverHello (digest sessionID x25519pub padding : List UInt8) : List UInt8 :=
  [0x16, 0x03, 0x03] ++ putBigEndian 2 122 ++ serverHelloBody digest sessionID x25519pub ++
    [0x14, 0x03, 0x03, 0x00, 0x01, 0x01] ++
    ([0x17, 0x03, 0x03] ++ putBigEndian 2 padding.length ++ padding)

/-- `writeServerHello`: what is written to the connection. -/
def writeServerHello (secret : UTSecret) (clientRand sessionID : List UInt8) :
    Drawing (List UInt8) := do
  if clientRand.length ≠ 32 ∨ sessionID.length ≠ 32 then throw errBadBufferSize
  let x25519pub ← readRand 32
  let lenRand ← readRand 1
  let padding ← readRand (32 + (lenRand.headD 0).toNat)
  let buf := serverHello (List.replicate 32 0) sessionID x25519pub padding
  let digest := crypto.hmac secret.toList (clientRand ++ buf)
  return putSlot buf digest.toList

/-! ### The client checks the answer -/

/-- The connection of the client, and the bytes of the answer that it has read. -/
structure ResponseReader where
  conn : List Segment
  buf : List UInt8 := []

/-- `readN`. -/
def readN (n : ℕ) : StateT ResponseReader (Except GoError) (List UInt8) := fun r =>
  match Segment.readFull n r.conn with
  | none => .error (if Segment.content r.conn = [] then ioEOF else ioErrUnexpectedEOF)
  | some (chunk, conn) => .ok (chunk, { conn := conn, buf := r.buf ++ chunk })

/-- One pass of the loop of `validateServerHello`. -/
def readResponseRecord (wanted : List UInt8) : StateT ResponseReader (Except GoError) Unit := do
  let got ← readN wanted.length
  if got ≠ wanted then
    throw (.new "utproto: unexpected server response prefix")
  let lenBytes ← readN 2
  if 16384 < ofBigEndian lenBytes then
    throw (.new "utproto: server payload too large")
  let _ ← readN (ofBigEndian lenBytes)

def errHandshakeTooShort : GoError :=
  .new "utproto: server response too short"

def errHandshakeBadDigest : GoError :=
  .new "utproto: server handshake digest mismatch"

/-- `validateServerHello`: the bytes of the answer. -/
def validateServerHello (secret : UTSecret) (helloRand : List UInt8) :
    StateT ResponseReader (Except GoError) (List UInt8) := do
  readResponseRecord [0x16, 0x03, 0x03]
  readResponseRecord [0x14, 0x03, 0x03, 0x00, 0x01, 0x01, 0x17, 0x03, 0x03]
  let buf := (← get).buf
  if buf.length < 43 then throw errHandshakeTooShort
  if slot buf ≠ (crypto.hmac secret.toList (helloRand ++ zeroSlot buf)).toList then
    throw errHandshakeBadDigest
  return buf

variable {crypto} (secret : UTSecret) (unixTime : Int32) (msg : List UInt8)

/-! ### The time and the user -/

theorem take_helloRandom :
    (helloRandom crypto secret unixTime msg).take 28 =
      (crypto.hmac secret.toList msg).toList.take 28 :=
  take_left' (by simp)

theorem recoveredTime_helloRandom :
    recoveredTime (crypto.hmac secret.toList msg).toList (helloRandom crypto secret unixTime msg) =
      unixTime := by
  generalize hdigest : (crypto.hmac secret.toList msg).toList = digest
  have hlen : digest.length = 32 := by rw [← hdigest, List.Vector.toList_length]
  have hlast : (digest.drop 28).length = 4 := by rw [length_drop, hlen]
  have hdrop : (helloRandom crypto secret unixTime msg).drop 28 =
      List.zipWith (· ^^^ ·) (digest.drop 28) (putLittleEndianUint32 unixTime.toUInt32) := by
    rw [helloRandom, hdigest, drop_left' (length_take_of_le (by omega)),
      Int32.toUInt32_xor, UInt32.toUInt32_toInt32, putLittleEndianUint32_xor,
      putLittleEndianUint32_of_length hlast]
  rw [recoveredTime, hdrop, zipWith_xor_cancel hlast,
    littleEndianUint32_put, Int32.toInt32_toUInt32]

/-- The documented window: the client is at most 20 minutes ahead and 10 minutes behind. -/
def InWindow (client server : ℤ) : Prop := server - 600 ≤ client ∧ client ≤ server + 1200

instance (client server : ℤ) : Decidable (InWindow client server) :=
  inferInstanceAs (Decidable (_ ∧ _))

theorem skew_iff {client server : ℤ} (hclient : 0 ≤ client ∧ client < 2 ^ 31)
    (hserver : 0 ≤ server ∧ server < 2 ^ 31) :
    ¬(Int64.ofInt server - (Int32.ofInt client).toInt64 < -maxSkewFuture ∨
      maxSkewPast < Int64.ofInt server - (Int32.ofInt client).toInt64) ↔
      InWindow client server := by
  have hc : (Int32.ofInt client).toInt = client := Int32.toInt_ofInt_of_le (by omega) (by omega)
  have hs : (Int64.ofInt server).toInt = server := Int64.toInt_ofInt_of_le (by omega) (by omega)
  have hskew : (Int64.ofInt server - (Int32.ofInt client).toInt64).toInt = server - client := by
    rw [Int64.toInt_sub, Int32.toInt_toInt64, hc, hs]
    exact Int.bmod_eq_of_le (by omega) (by omega)
  have hfuture : (-maxSkewFuture).toInt = -1200 := by decide
  have hpast : maxSkewPast.toInt = 600 := by decide
  rw [Int64.lt_iff_toInt_lt, Int64.lt_iff_toInt_lt, hskew, hfuture, hpast, InWindow]
  omega

variable (crypto) in
/-- Two secrets have the same first 28 bytes of the digest of a message. -/
def Collide (secret secret' : UTSecret) (msg : List UInt8) : Prop :=
  (crypto.hmac secret.toList msg).toList.take 28 = (crypto.hmac secret'.toList msg).toList.take 28

section

variable {msg : List UInt8} {users : List ServerUser} {client server : ℤ}

theorem identifyLoop_cons_of_not_collide {u : ServerUser} {secret : UTSecret}
    (h : ¬Collide crypto u.secret secret msg) (unixTime : Int32) (now : Int64) :
    identifyLoop crypto msg (helloRandom crypto secret unixTime msg) now (u :: users) =
      identifyLoop crypto msg (helloRandom crypto secret unixTime msg) now users := by
  rw [identifyLoop, take_helloRandom]
  exact if_pos h

/-- **The user is found**, and let in if the clocks agree. -/
theorem identifyLoop_of_user {user : ServerUser} (hmem : user ∈ users)
    (hfree : ∀ u ∈ users, u ≠ user → ¬Collide crypto u.secret user.secret msg)
    (hclient : 0 ≤ client ∧ client < 2 ^ 31) (hserver : 0 ≤ server ∧ server < 2 ^ 31) :
    identifyLoop crypto msg (helloRandom crypto user.secret (Int32.ofInt client) msg)
        (Int64.ofInt server) users =
      if InWindow client server then
        .ok (user, helloRandom crypto user.secret (Int32.ofInt client) msg)
      else .error errTimeSkew := by
  induction users with
  | nil => cases hmem
  | cons u users ih =>
    rw [forall_mem_cons] at hfree
    by_cases hu : u = user
    · subst hu
      rw [identifyLoop, take_helloRandom, if_neg (not_not.2 rfl)]
      dsimp only
      rw [recoveredTime_helloRandom, ← ite_not]
      exact if_congr (skew_iff hclient hserver) rfl rfl
    · rw [identifyLoop_cons_of_not_collide (hfree.1 hu)]
      exact ih ((List.mem_cons.1 hmem).resolve_left (Ne.symm hu)) hfree.2

theorem identifyLoop_of_no_user {secret : UTSecret} {unixTime : Int32} {now : Int64}
    (hfree : ∀ u ∈ users, ¬Collide crypto u.secret secret msg) :
    identifyLoop crypto msg (helloRandom crypto secret unixTime msg) now users =
      .error errNoMatchingUser := by
  induction users with
  | nil => rfl
  | cons u users ih =>
    rw [forall_mem_cons] at hfree
    rw [identifyLoop_cons_of_not_collide hfree.1, ih hfree.2]

end

/-! ### The answer -/

section

variable {digest sessionID x25519pub padding : List UInt8}

section

variable (hdigest : digest.length = 32) (hsession : sessionID.length = 32)
  (hpub : x25519pub.length = 32)

include hdigest hsession hpub

theorem length_serverHelloBody : (serverHelloBody digest sessionID x25519pub).length = 122 := by
  simp only [serverHelloBody, length_append, hdigest, hsession, hpub, length_cons, length_nil]

theorem length_serverHello :
    (serverHello digest sessionID x25519pub padding).length = 138 + padding.length := by
  simp only [serverHello, length_append, length_putBigEndian,
    length_serverHelloBody hdigest hsession hpub, length_cons, length_nil]
  omega

end

theorem putSlot_serverHello (hdigest : digest.length = 32) (digest' : List UInt8) :
    putSlot (serverHello digest sessionID x25519pub padding) digest' =
      serverHello digest' sessionID x25519pub padding := by
  simp only [serverHello, serverHelloBody, append_assoc]
  exact putSlot_append
    ([0x16, 0x03, 0x03] ++ putBigEndian 2 122 ++ [0x02, 0x00, 0x00, 0x76, 0x03, 0x03]) _ rfl hdigest
    digest'

theorem readN_of_append {r : ResponseReader} {bytes rest : List UInt8}
    (h : Segment.content r.conn = bytes ++ rest) :
    ∃ conn, readN bytes.length r = .ok (bytes, { conn := conn, buf := r.buf ++ bytes }) ∧
      Segment.content conn = rest := by
  have hle : bytes.length ≤ (Segment.content r.conn).length := by
    rw [h, length_append]
    omega
  obtain ⟨conn, hread, hconn⟩ := Segment.readFull_of_le hle
  rw [h, take_left] at hread
  rw [h, drop_left] at hconn
  exact ⟨conn, by rw [readN, hread], hconn⟩

theorem readResponseRecord_of_append {r : ResponseReader} {wanted payload rest : List UInt8}
    (hlen : payload.length ≤ 16384)
    (h : Segment.content r.conn = wanted ++ putBigEndian 2 payload.length ++ payload ++ rest) :
    ∃ conn, readResponseRecord wanted r = .ok ((),
        { conn := conn, buf := r.buf ++ (wanted ++ putBigEndian 2 payload.length ++ payload) }) ∧
      Segment.content conn = rest := by
  rw [append_assoc, append_assoc] at h
  have hnumber : ofBigEndian (putBigEndian 2 payload.length) = payload.length :=
    ofBigEndian_put (lt_of_le_of_lt hlen (by decide))
  obtain ⟨conn₁, hread₁, hconn₁⟩ := readN_of_append h
  obtain ⟨conn₂, hread₂, hconn₂⟩ := readN_of_append
    (r := { conn := conn₁, buf := r.buf ++ wanted }) hconn₁
  rw [length_putBigEndian] at hread₂
  obtain ⟨conn₃, hread₃, hconn₃⟩ := readN_of_append
    (r := { conn := conn₂, buf := r.buf ++ wanted ++ putBigEndian 2 payload.length }) hconn₂
  refine ⟨conn₃, stateBind_eq_ok.2 ⟨_, _, hread₁, ?_⟩, hconn₃⟩
  dsimp only
  rw [if_neg (not_not.2 rfl)]
  refine stateBind_eq_ok.2 ⟨_, _, hread₂, ?_⟩
  rw [hnumber, if_neg (not_lt.2 hlen)]
  refine stateBind_eq_ok.2 ⟨_, _, hread₃, ?_⟩
  rw [append_assoc, append_assoc, append_assoc]
  rfl

variable {e e' : Entropy} {secret : UTSecret} {clientRand answer : List UInt8}

theorem length_of_readRand {n : ℕ} {bytes : List UInt8}
    (h : readRand n e = .ok (bytes, e')) : bytes.length = n := by
  rw [readRand] at h
  split at h
  · rename_i hlen
    rw [← (Prod.mk.inj (Except.ok.inj h)).1, hlen]
  · cases h

variable (h : writeServerHello crypto secret clientRand sessionID e = .ok (answer, e'))

include h

theorem writeServerHello_spec :
    ∃ x25519pub padding, sessionID.length = 32 ∧ x25519pub.length = 32 ∧ padding.length < 288 ∧
      answer = serverHello (crypto.hmac secret.toList (clientRand ++
        serverHello (List.replicate 32 0) sessionID x25519pub padding)).toList sessionID x25519pub
        padding := by
  rw [writeServerHello] at h
  split at h
  · cases h
  · rename_i hsizes
    obtain ⟨x25519pub, e₁, hpub, h⟩ := stateBind_eq_ok.1 h
    obtain ⟨lenRand, e₂, -, h⟩ := stateBind_eq_ok.1 h
    obtain ⟨padding, e₃, hpadding, h⟩ := stateBind_eq_ok.1 h
    obtain ⟨rfl, -⟩ := Prod.mk.inj (Except.ok.inj h)
    have hbyte := (lenRand.headD 0).toNat_lt
    refine ⟨x25519pub, padding, ?_, length_of_readRand hpub, ?_, ?_⟩
    · exact not_not.1 fun hsession => hsizes (.inr hsession)
    · rw [length_of_readRand hpadding]
      omega
    · exact putSlot_serverHello (by simp) _

/-- **The client accepts the answer of the server**, however it is cut, and leaves what follows. -/
theorem validateServerHello_of_write {conn : List Segment} {rest : List UInt8}
    (hconn : Segment.content conn = answer ++ rest) :
    ∃ conn', validateServerHello crypto secret clientRand { conn := conn } =
        .ok (answer, { conn := conn', buf := answer }) ∧ Segment.content conn' = rest := by
  obtain ⟨x25519pub, padding, hsession, hpub, hpadding, rfl⟩ := writeServerHello_spec h
  generalize hdigest : (crypto.hmac secret.toList (clientRand ++
    serverHello (List.replicate 32 0) sessionID x25519pub padding)).toList = digest at hconn ⊢
  have hlen : digest.length = 32 := by rw [← hdigest, List.Vector.toList_length]
  have hbody := length_serverHelloBody hlen hsession hpub
  have hrecords : serverHello digest sessionID x25519pub padding =
      ([0x16, 0x03, 0x03] ++ putBigEndian 2 (serverHelloBody digest sessionID x25519pub).length ++
        serverHelloBody digest sessionID x25519pub) ++
      ([0x14, 0x03, 0x03, 0x00, 0x01, 0x01, 0x17, 0x03, 0x03] ++ putBigEndian 2 padding.length ++
        padding) := by
    rw [hbody, serverHello]
    simp only [append_assoc]
    rfl
  rw [hrecords, append_assoc] at hconn
  obtain ⟨conn₁, hread₁, hconn₁⟩ := readResponseRecord_of_append
    (r := { conn := conn }) (by omega) hconn
  obtain ⟨conn₂, hread₂, hconn₂⟩ := readResponseRecord_of_append
    (r := { conn := conn₁, buf := _ }) (by omega) hconn₁
  refine ⟨conn₂, stateBind_eq_ok.2 ⟨_, _, hread₁, stateBind_eq_ok.2 ⟨_, _, hread₂, ?_⟩⟩, hconn₂⟩
  rw [nil_append, ← hrecords]
  refine stateBind_eq_ok.2 ⟨_, _, rfl, ?_⟩
  have hlong : ¬(serverHello digest sessionID x25519pub padding).length < 43 := by
    rw [length_serverHello hlen hsession hpub]
    omega
  -- The client zeroes the slot again and computes what the server has computed.
  have hslot : slot (serverHello digest sessionID x25519pub padding) = digest := by
    rw [← putSlot_serverHello hlen digest, slot_putSlot (not_lt.1 hlong) hlen]
  have hzero : zeroSlot (serverHello digest sessionID x25519pub padding) =
      serverHello (List.replicate 32 0) sessionID x25519pub padding :=
    putSlot_serverHello hlen _
  dsimp only
  rw [if_neg hlong, hslot, hzero, hdigest, if_neg (not_not.2 rfl)]
  rfl

end

/-! ### Both sides -/

variable (crypto) in
/-- **Both sides agree.**  A hello that a client generates is identified as that of its user, with
its time, and accepted if the time is in the window; it is rejected if no user has the secret; and
the client accepts every answer. -/
theorem handshake_agreement {cfg : UTConfig} {client : ℤ} {e e' : Entropy}
    {hello random : List UInt8} (hclient : 0 ≤ client ∧ client < 2 ^ 31)
    (hhello : generateClientHello crypto cfg (Int32.ofInt client) e = .ok ((hello, random), e')) :
    (∀ (users : List ServerUser) (user : ServerUser) (server : ℤ), user ∈ users →
      user.secret = cfg.secret →
      (∀ u ∈ users, u ≠ user → ¬Collide crypto u.secret user.secret (zeroSlot hello)) →
      0 ≤ server ∧ server < 2 ^ 31 →
      recoveredTime (crypto.hmac user.secret.toList (zeroSlot hello)).toList random =
        Int32.ofInt client ∧
      identifyUser crypto hello users (Int64.ofInt server) =
        if InWindow client server then .ok (user, random) else .error errTimeSkew) ∧
    (∀ (users : List ServerUser) (now : Int64),
      (∀ u ∈ users, ¬Collide crypto u.secret cfg.secret (zeroSlot hello)) →
      identifyUser crypto hello users now = .error errNoMatchingUser) ∧
    ∀ (sessionID : List UInt8) (e₁ e₂ : Entropy) (answer rest : List UInt8) (conn : List Segment),
      writeServerHello crypto cfg.secret random sessionID e₁ = .ok (answer, e₂) →
      Segment.content conn = answer ++ rest →
      ∃ conn', validateServerHello crypto cfg.secret random { conn := conn } =
          .ok (answer, { conn := conn', buf := answer }) ∧ Segment.content conn' = rest := by
  obtain ⟨msg, hmsg, hrandom, rfl⟩ := generateClientHello_spec hhello
  have hlength : random.length = 32 := by rw [hrandom, length_helloRandom]
  have hlong : ¬(putSlot msg random).length < 43 := by
    rw [length_putSlot hmsg hlength]
    omega
  have hidentify : ∀ users now, identifyUser crypto (putSlot msg random) users now =
      identifyLoop crypto (zeroSlot msg) random now users := by
    intro users now
    rw [identifyUser, if_neg hlong, zeroSlot_putSlot hmsg hlength, slot_putSlot hmsg hlength]
  rw [zeroSlot_putSlot hmsg hlength]
  refine ⟨?_, ?_, ?_⟩
  · intro users user server hmem hsecret hfree hserver
    rw [← hsecret] at hrandom
    rw [hidentify, hrandom]
    exact ⟨recoveredTime_helloRandom _ _ _, identifyLoop_of_user hmem hfree hclient hserver⟩
  · intro users now hfree
    rw [hidentify, hrandom]
    exact identifyLoop_of_no_user hfree
  · intro sessionID e₁ e₂ answer rest conn hanswer hconn
    exact validateServerHello_of_write hanswer hconn

/-- Primitives that can be followed by hand. -/
def sampleHandshake : HandshakeCrypto where
  hmac key _ := ⟨List.replicate 32 (key.headD 0), by simp⟩
  x25519 priv := ⟨List.replicate 32 (priv.headD 0), by simp⟩

def sampleUser (b : UInt8) : ServerUser := ⟨[b], ⟨List.replicate 16 b, by simp⟩⟩

/-- A client whose clock is five minutes behind. -/
def sampleHello : Except GoError ((List UInt8 × List UInt8) × Entropy) :=
  generateClientHello sampleHandshake ⟨(sampleUser 7).secret, "example.org"⟩
    (Int32.ofInt 1000) ⟨List.replicate 4000 3, [1, 2, 3]⟩

theorem sampleHello_identified :
    ∃ hello random e', sampleHello = .ok ((hello, random), e') ∧
      identifyUser sampleHandshake hello [sampleUser 5, sampleUser 7] (Int64.ofInt 1300) =
        .ok (sampleUser 7, random) ∧
      identifyUser sampleHandshake hello [sampleUser 5, sampleUser 7] (Int64.ofInt 1601) =
        .error errTimeSkew := by
  have hok : sampleHello.isOk = true := by decide +kernel
  obtain ⟨⟨⟨hello, random⟩, e'⟩, hhello⟩ : ∃ r, sampleHello = .ok r := by
    cases h : sampleHello with
    | error err => rw [h] at hok; cases hok
    | ok r => exact ⟨r, rfl⟩
  have hfree : ∀ u ∈ [sampleUser 5, sampleUser 7], u ≠ sampleUser 7 →
      ¬Collide sampleHandshake u.secret (sampleUser 7).secret (zeroSlot hello) := by
    intro u hu hne
    rcases List.mem_pair.1 hu with rfl | rfl
    · show ¬(List.replicate 32 (5 : UInt8)).take 28 = (List.replicate 32 7).take 28
      decide
    · exact absurd rfl hne
  have hagree := handshake_agreement sampleHandshake (by decide) hhello
  refine ⟨hello, random, e', hhello, ?_, ?_⟩
  · rw [(hagree.1 _ (sampleUser 7) 1300 (by simp) rfl hfree (by decide)).2, if_pos (by decide)]
  · rw [(hagree.1 _ (sampleUser 7) 1601 (by simp) rfl hfree (by decide)).2, if_neg (by decide)]

end SingBox
