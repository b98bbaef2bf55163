/-
**The client hello of the fake TLS handshake** (`transport/utproto/tls_init.go` and `keygen.go`).

The hello is described by a list of operations, `chromeProfile`, and rendered in two passes:
`calcLength` computes its size and checks that the scopes are balanced, and `store` writes the bytes
into a buffer of that size and fills in the length of a scope when it ends.

All randomness is part of the state: the bytes that the reader of `crypto/rand` returns, which fails
when there are no more, and the numbers that `math/rand` draws.
-/

import SingBox.BinaryHeap
import SingBox.FakeTLS

namespace SingBox

open List GoString

open ByteReader (littleEndianUint32 putLittleEndianUint32 putBigEndian)

/-! ### Randomness -/

/-- What the random sources will return. -/
structure Entropy where
  /-- The bytes of `crypto/rand`. -/
  bytes : List UInt8
  /-- The numbers of `math/rand`. -/
  draws : List ℕ

/-- Computations that draw from the random sources. -/
abbrev Drawing (α : Type) : Type := StateT Entropy (Except GoError) α

theorem stateBind_eq_ok {σ α β : Type} {x : StateT σ (Except GoError) α}
    {f : α → StateT σ (Except GoError) β} {s s' : σ} {b : β} :
    (x >>= f) s = .ok (b, s') ↔ ∃ a t, x s = .ok (a, t) ∧ f a t = .ok (b, s') := by
  refine (exceptBind_eq_ok (x := x s) (f := fun p => f p.1 p.2)).trans ?_
  constructor
  · rintro ⟨⟨a, t⟩, hx, hf⟩
    exact ⟨a, t, hx, hf⟩
  · rintro ⟨a, t, hx, hf⟩
    exact ⟨(a, t), hx, hf⟩

/-- `io.ReadFull(rand.Reader, …)` into `n` bytes. -/
def readRand (n : ℕ) : Drawing (List UInt8) := fun e =>
  if (e.bytes.take n).length = n then
    .ok (e.bytes.take n, { e with bytes := e.bytes.drop n })
  else .error ioErrUnexpectedEOF

/-- `mrand.IntN`. -/
def intN (n : ℕ) : Drawing ℕ := fun e =>
  match e.draws with
  | [] => .ok (0, e)
  | d :: draws => .ok (d % n, { e with draws := draws })

/-- `mrand.Shuffle`: exchanges from the last element down. -/
def shuffle {α : Type} : ℕ → List α → Drawing (List α)
  | 0, l => pure l
  | 1, l => pure l
  | i + 2, l => do
      let j ← intN (i + 2)
      shuffle (i + 1) (BinaryHeap.swap l (i + 1) j)

/-- `randUint32Mod`. -/
def randUint32Mod (mod : UInt32) : Drawing UInt32 := do
  let buf ← readRand 4
  return littleEndianUint32 buf % mod

/-- The loop of `GenFakeMLKem768Key`. -/
def fakeMLKemPairs : ℕ → Drawing (List UInt8)
  | 0 => pure []
  | n + 1 => do
      let a ← randUint32Mod 3329
      let b ← randUint32Mod 3329
      let rest ← fakeMLKemPairs n
      return (a &&& 0xff).toUInt8 :: (a >>> 8 ||| (b &&& 0x0f) <<< 4).toUInt8 ::
        (b >>> 4).toUInt8 :: rest

/-- `GenFakeMLKem768Key`. -/
def genFakeMLKem768Key : Drawing (List UInt8) := do
  let pairs ← fakeMLKemPairs 384
  let rest ← readRand 32
  return pairs ++ rest

/-- The primitives of the crypto packages. -/
structure HandshakeCrypto where
  /-- HMAC-SHA256 of a key and a message. -/
  hmac : List UInt8 → List UInt8 → List.Vector UInt8 32
  /-- The public key for a private key of Curve25519. -/
  x25519 : List UInt8 → List.Vector UInt8 32

/-- `GenCurve25519PublicKey`. -/
def genCurve25519PublicKey (crypto : HandshakeCrypto) : Drawing (List UInt8) := do
  let priv ← readRand 32
  return (crypto.x25519 priv).toList

/-! ### The profile -/

/-- `op`: what is written at one place of the hello. -/
inductive HelloOp where
  | string (data : List UInt8)
  | random (length : ℕ)
  | zero (length : ℕ)
  | domain
  | grease (seed : ℕ)
  | key
  | mlKem768Key
  | beginScope
  | endScope
  | permutation (parts : List (List HelloOp))
  | randomValue (parts : List (List HelloOp)) (valueIdx : ℤ)
  | padding

open HelloOp in
/-- `chromeProfile`, with the length that `opEchPayload` has drawn. -/
def chromeProfile (echPayload : ℕ) : List HelloOp :=
  [string [0x16, 0x03, 0x01], beginScope, string [0x01, 0x00], beginScope, string [0x03, 0x03],
    zero 32,
    string [0x20],
    random 32,
    string [0x00, 0x20],
    grease 0,
    string [0x13, 0x01, 0x13, 0x02, 0x13, 0x03, 0xc0, 0x2b, 0xc0, 0x2f, 0xc0, 0x2c, 0xc0, 0x30,
      0xcc, 0xa9, 0xcc, 0xa8, 0xc0, 0x13, 0xc0, 0x14, 0x00, 0x9c, 0x00, 0x9d, 0x00, 0x2f, 0x00,
      0x35, 0x01, 0x00],
    beginScope,
    grease 2,
    string [0x00, 0x00],
    permutation
      [[string [0x00, 0x00], beginScope, beginScope, string [0x00], beginScope, domain, endScope,
          endScope, endScope],
        [string [0x00, 0x05, 0x00, 0x05, 0x01, 0x00, 0x00, 0x00, 0x00]],
        [string [0x00, 0x0a, 0x00, 0x0c, 0x00, 0x0a], grease 4,
          string [0x11, 0xec, 0x00, 0x1d, 0x00, 0x17, 0x00, 0x18]],
        [string [0x00, 0x0b, 0x00, 0x02, 0x01, 0x00]],
        [string [0x00, 0x0d, 0x00, 0x12, 0x00, 0x10, 0x04, 0x03, 0x08, 0x04, 0x04, 0x01, 0x05, 0x03,
          0x08, 0x05, 0x05, 0x01, 0x08, 0x06, 0x06, 0x01]],
        [string [0x00, 0x10, 0x00, 0x0e, 0x00, 0x0c, 0x02, 0x68, 0x32, 0x08, 0x68, 0x74, 0x74, 0x70,
          0x2f, 0x31, 0x2e, 0x31]],
        [string [0x00, 0x12, 0x00, 0x00]],
        [string [0x00, 0x17, 0x00, 0x00]],
        [string [0x00, 0x1b, 0x00, 0x03, 0x02, 0x00, 0x02]],
        [string [0x00, 0x23, 0x00, 0x00]],
        [string [0x00, 0x2b, 0x00, 0x07, 0x06], grease 6, string [0x03, 0x04, 0x03, 0x03]],
        [string [0x00, 0x2d, 0x00, 0x02, 0x01, 0x01]],
        [string [0x00, 0x33, 0x04, 0xef, 0x04, 0xed], grease 4,
          string [0x00, 0x01, 0x00, 0x11, 0xec, 0x04, 0xc0], mlKem768Key, key,
          string [0x00, 0x1d, 0x00, 0x20], key],
        [string [0x44, 0xcd, 0x00, 0x05, 0x00, 0x03, 0x02, 0x68, 0x32]],
        [string [0xfe, 0x0d], beginScope, string [0x00, 0x00, 0x01, 0x00, 0x01], random 1,
          string [0x00, 0x20], random 32, beginScope, random echPayload, endScope, endScope],
        [string [0xff, 0x01, 0x00, 0x01, 0x00]]],
    grease 3,
    string [0x00, 0x01, 0x00],
    padding,
    endScope,
    endScope,
    endScope]

def greaseSize : ℕ := 7

/-- Of each two neighbours, the second is changed if it is equal to the first. -/
def distinctPairs : List UInt8 → List UInt8
  | a :: b :: rest => a :: (if b = a then b ^^^ 0x10 else b) :: distinctPairs rest
  | [a] => [a]
  | [] => []

/-- `genGrease`. -/
def genGrease : Drawing (List UInt8) := do
  let g ← readRand greaseSize
  return distinctPairs (g.map fun b => (b &&& 0xf0) + 0x0a)

/-- `ctxData`. -/
structure CtxData where
  grease : List UInt8
  domain : GoString

/-! ### The first pass -/

/-- The size so far, and where the open scopes begin. -/
structure LengthState where
  size : ℕ := 0
  scopeStack : List ℕ := []

def errUnbalancedScopes : GoError := .new "utproto: unbalanced scopes"

def errInvalidParts : GoError :=
  .new "utproto: random_value with invalid parts"

mutual

/-- One operation of the first pass. -/
def lengthOp (c : CtxData) : HelloOp → LengthState → Except GoError LengthState
  | .string data, st => .ok { st with size := st.size + data.length }
  | .random length, st =>
    if length = 0 ∨ 2048 < length then
      .error (.new "utproto: invalid random length")
    else .ok { st with size := st.size + length }
  | .zero length, st =>
    if length = 0 ∨ 2048 < length then
      .error (.new "utproto: invalid zero length")
    else .ok { st with size := st.size + length }
  | .domain, st => .ok { st with size := st.size + c.domain.length }
  | .grease seed, st =>
    if greaseSize ≤ seed then .error (.new "utproto: invalid grease seed")
    else .ok { st with size := st.size + 2 }
  | .key, st => .ok { st with size := st.size + 32 }
  | .mlKem768Key, st => .ok { st with size := st.size + 1184 }
  | .beginScope, st =>
    .ok { size := st.size + 2, scopeStack := (st.size + 2) :: st.scopeStack }
  | .endScope, st =>
    match st.scopeStack with
    | [] => .error errUnbalancedScopes
    | scope :: scopes =>
      if 16384 ≤ st.size - scope then
        .error (.new "utproto: scope too big")
      else .ok { st with scopeStack := scopes }
  | .permutation parts, st => lengthParts c parts st
  | .randomValue parts valueIdx, st =>
    if valueIdx < 0 then .error errInvalidParts else lengthNth c parts valueIdx.toNat st
  | .padding, st => .ok (if st.size < 513 then { st with size := 517 } else st)

def lengthOps (c : CtxData) : List HelloOp → LengthState → Except GoError LengthState
  | [], st => .ok st
  | o :: ops, st =>
    match lengthOp c o st with
    | .error err => .error err
    | .ok st => lengthOps c ops st

/-- The parts one after the other. -/
def lengthParts (c : CtxData) : List (List HelloOp) → LengthState → Except GoError LengthState
  | [], st => .ok st
  | part :: parts, st =>
    match lengthOps c part st with
    | .error err => .error err
    | .ok st => lengthParts c parts st

/-- The part with the given number. -/
def lengthNth (c : CtxData) :
    List (List HelloOp) → ℕ → LengthState → Except GoError LengthState
  | [], _, _ => .error errInvalidParts
  | part :: _, 0, st => lengthOps c part st
  | _ :: parts, n + 1, st => lengthNth c parts n st

end

/-- `calcLength`. -/
def calcLength (ops : List HelloOp) (c : CtxData) : Except GoError ℕ :=
  match lengthOps c ops {} with
  | .error err => .error err
  | .ok st => if st.scopeStack ≠ [] then .error errUnbalancedScopes else .ok st.size

/-! ### The second pass -/

/-- The bytes written so far, and where the open scopes begin. -/
structure StoreState where
  out : List UInt8 := []
  scopeStack : List ℕ := []

namespace StoreState

def append (st : StoreState) (bytes : List UInt8) : StoreState := { st with out := st.out ++ bytes }

/-- Two bytes are left for the length. -/
def beginScope (st : StoreState) : StoreState :=
  { out := st.out ++ [0, 0], scopeStack := st.out.length :: st.scopeStack }

/-- The length is filled in.  Without an open scope this is an index out of range. -/
def endScope (st : StoreState) : Option StoreState :=
  match st.scopeStack with
  | [] => none
  | scope :: scopes =>
    some { out := st.out.take scope ++ putBigEndian 2 (st.out.length - scope - 2) ++
             st.out.drop (scope + 2)
           scopeStack := scopes }

end StoreState

/-- A panic of the runtime. -/
def errIndexOutOfRange : GoError := .new "index out of range"

/-- A result that there is unless the code panics. -/
def orPanic {α : Type} : Option α → Drawing α
  | none => throw errIndexOutOfRange
  | some a => pure a

/-- What has been written, in a buffer of `n` bytes. -/
def fitInto (n : ℕ) (out : List UInt8) : Option (List UInt8) :=
  if out.length ≤ n then some (out ++ List.replicate (n - out.length) 0) else none

variable (crypto : HandshakeCrypto)

mutual

/-- One operation of the second pass. -/
def storeOp (c : CtxData) : HelloOp → StoreState → Drawing StoreState
  | .string data, st => pure (st.append data)
  | .random length, st => do
      let bytes ← readRand length
      return st.append bytes
  | .zero length, st => pure (st.append (List.replicate length 0))
  | .domain, st => pure (st.append c.domain)
  | .grease seed, st => do
      let g ← orPanic c.grease[seed]?
      return st.append [g, g]
  | .key, st => do
      let k ← genCurve25519PublicKey crypto
      return st.append k
  | .mlKem768Key, st => do
      let k ← genFakeMLKem768Key
      return st.append k
  | .beginScope, st => pure st.beginScope
  | .endScope, st => orPanic st.endScope
  | .permutation parts, st => do
      let renderedParts ← storeParts c parts
      let renderedParts ← shuffle renderedParts.length renderedParts
      return st.append renderedParts.flatten
  | .randomValue parts valueIdx, st =>
    if valueIdx < 0 then throw errInvalidParts else storeNth c parts valueIdx.toNat st
  | .padding, st =>
    if st.out.length < 513 then
      -- The operations of `padOps`.
      orPanic (((st.append [0x00, 0x15]).beginScope.append
        (List.replicate (513 - st.out.length) 0)).endScope)
    else pure st

def storeOps (c : CtxData) : List HelloOp → StoreState → Drawing StoreState
  | [], st => pure st
  | o :: ops, st => do
      let st ← storeOp c o st
      storeOps c ops st

/-- Each part in a buffer of its own. -/
def storeParts (c : CtxData) : List (List HelloOp) → Drawing (List (List UInt8))
  | [] => pure []
  | part :: parts => do
      let partLen ← (calcLength part c : Except GoError ℕ)
      let st ← storeOps c part {}
      let buf ← orPanic (fitInto partLen st.out)
      let bufs ← storeParts c parts
      return buf :: bufs

def storeNth (c : CtxData) : List (List HelloOp) → ℕ → StoreState → Drawing StoreState
  | [], _, _ => throw errInvalidParts
  | part :: _, 0, st => storeOps c part st
  | _ :: parts, n + 1, st => storeNth c parts n st

end

/-- `store` into a buffer of `n` bytes. -/
def store (n : ℕ) (ops : List HelloOp) (c : CtxData) : Drawing (List UInt8) := do
  let st ← storeOps crypto c ops {}
  orPanic (fitInto n st.out)

/-! ### The digest -/

/-- The bytes of a message from 11 to 42, where the digest stands. -/
def slot (msg : List UInt8) : List UInt8 := (msg.drop 11).take 32

/-- The message with other bytes in the slot. -/
def putSlot (msg digest : List UInt8) : List UInt8 := msg.take 11 ++ digest ++ msg.drop 43

/-- The message over which digests are computed. -/
def zeroSlot (msg : List UInt8) : List UInt8 := putSlot msg (List.replicate 32 0)

section

variable {msg digest : List UInt8}

theorem putSlot_append (before after : List UInt8) (hbefore : before.length = 11)
    (hdigest : digest.length = 32) (digest' : List UInt8) :
    putSlot (before ++ (digest ++ after)) digest' = before ++ (digest' ++ after) := by
  have hlen : (before ++ digest).length = 43 := by rw [length_append, hbefore, hdigest]
  rw [putSlot, take_left' hbefore, ← append_assoc before digest, drop_left' hlen, append_assoc]

variable (hmsg : 43 ≤ msg.length) (hdigest : digest.length = 32)

include hmsg hdigest

theorem length_putSlot : (putSlot msg digest).length = msg.length := by
  rw [putSlot, length_append, length_append, length_take, length_drop, hdigest]
  omega

theorem slot_putSlot : slot (putSlot msg digest) = digest := by
  have htake : (msg.take 11).length = 11 := length_take_of_le (by omega)
  rw [slot, putSlot, append_assoc, drop_left' htake, take_left' hdigest]

theorem putSlot_putSlot (digest' : List UInt8) :
    putSlot (putSlot msg digest) digest' = putSlot msg digest' := by
  have htake : (msg.take 11).length = 11 := length_take_of_le (by omega)
  have hinner : putSlot msg digest = msg.take 11 ++ (digest ++ msg.drop 43) := append_assoc _ _ _
  rw [hinner, putSlot_append _ _ htake hdigest, putSlot, append_assoc]

theorem zeroSlot_putSlot : zeroSlot (putSlot msg digest) = zeroSlot msg :=
  putSlot_putSlot hmsg hdigest _

end

/-! ### The hello -/

/-- `Config`. -/
structure UTConfig where
  secret : UTSecret
  tlsDomain : GoString

/-- The digest of the message, into whose last four bytes the time is combined. -/
def helloRandom (secret : UTSecret) (unixTime : Int32) (msg : List UInt8) : List UInt8 :=
  let digest := (crypto.hmac secret.toList msg).toList
  let old := (littleEndianUint32 (digest.drop 28)).toInt32
  digest.take 28 ++ putLittleEndianUint32 (old ^^^ unixTime).toUInt32

/-- `opEchPayload`. -/
def opEchPayload : Drawing ℕ := do
  let n ← intN 4
  return n * 32 + 144

/-- `generateClientHello`: the hello and its random. -/
def generateClientHello (cfg : UTConfig) (unixTime : Int32) :
    Drawing (List UInt8 × List UInt8) := do
  let grease ← genGrease
  let ops := chromeProfile (← opEchPayload)
  let c : CtxData := { grease := grease, domain := cfg.tlsDomain }
  let length ← (calcLength ops c : Except GoError ℕ)
  if length < 43 then throw (.new "utproto: render too small for hash")
  let hello ← store crypto length ops c
  let hello := putSlot hello (helloRandom crypto cfg.secret unixTime (zeroSlot hello))
  return (hello, slot hello)

variable {crypto}

theorem length_helloRandom (secret : UTSecret) (unixTime : Int32) (msg : List UInt8) :
    (helloRandom crypto secret unixTime msg).length = 32 := by
  simp [helloRandom, putLittleEndianUint32]

theorem length_of_fitInto {n : ℕ} {out buf : List UInt8} (h : fitInto n out = some buf) :
    buf.length = n := by
  rw [fitInto, Option.ite_none_right_eq_some] at h
  obtain ⟨hle, hbuf⟩ := h
  rw [← Option.some.inj hbuf, length_append, length_replicate]
  omega

theorem orPanic_eq_ok {α : Type} {x : Option α} {a : α} {e e' : Entropy} :
    orPanic x e = .ok (a, e') ↔ x = some a ∧ e' = e := by
  cases x with
  | none => exact ⟨fun h => (by cases h), fun h => (by cases h.1)⟩
  | some b =>
    constructor
    · intro h
      cases h
      exact ⟨rfl, rfl⟩
    · rintro ⟨h, rfl⟩
      rw [Option.some.inj h]
      rfl

/-- Whatever is rendered, **a generated hello is a message with the digest in its slot**. -/
theorem generateClientHello_spec {cfg : UTConfig} {unixTime : Int32} {e e' : Entropy}
    {hello random : List UInt8}
    (h : generateClientHello crypto cfg unixTime e = .ok ((hello, random), e')) :
    ∃ msg, 43 ≤ msg.length ∧
      random = helloRandom crypto cfg.secret unixTime (zeroSlot msg) ∧
      hello = putSlot msg random := by
  obtain ⟨grease, e₁, -, h⟩ := stateBind_eq_ok.1 h
  obtain ⟨echPayload, e₂, -, h⟩ := stateBind_eq_ok.1 h
  obtain ⟨length, e₃, -, h⟩ := stateBind_eq_ok.1 h
  dsimp only at h
  split at h
  · cases h
  · rename_i hlen
    obtain ⟨msg, e₄, hstore, h⟩ := stateBind_eq_ok.1 h
    obtain ⟨st, e₅, -, hfit⟩ := stateBind_eq_ok.1 hstore
    have hmsg : msg.length = length := length_of_fitInto (orPanic_eq_ok.1 hfit).1
    have hslot : 43 ≤ msg.length := by omega
    obtain ⟨rfl, rfl⟩ := Prod.mk.inj (Prod.mk.inj (Except.ok.inj h)).1
    rw [slot_putSlot hslot (length_helloRandom _ _ _)]
    exact ⟨msg, hslot, rfl, rfl⟩

end SingBox
