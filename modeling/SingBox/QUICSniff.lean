/-
**The QUIC sniffer** (`common/sniff/quic.go`).

`QUICClientHello` reads the header of an Initial packet, takes off the header protection, decrypts
the payload with keys that anybody can derive from the packet, goes through the frames, puts the
fragments of the handshake message together with those of earlier datagrams of the flow, and reads
the client hello from them.  Everything but the keys is chosen by the sender.

Every index and every slice is a check.  The plaintext is decrypted in place, in a copy of the
packet; a slice of it may reach beyond its end, up to the end of the copy.  The reassembly is a loop
without a bound, and is given a number of rounds.
-/

import SingBox.BinaryRuleSet
import SingBox.JA3
import SingBox.MeteredReader

namespace SingBox.QUIC

open Checked GoString

open ByteReader

/-- HKDF, AES and the AEAD, with the lengths of what they return. -/
structure Crypto where
  /-- `hkdf.Extract`. -/
  extract : (secret salt : List UInt8) → List UInt8
  /-- `qtls.HKDFExpandLabel`. -/
  expandLabel : (secret : List UInt8) → (label : GoString) → (length : ℕ) → List UInt8
  /-- `cipher.Block.Encrypt` for AES. -/
  encryptBlock : (key block : List UInt8) → List UInt8
  encryptBlock_length : ∀ key block, (encryptBlock key block).length = 16
  /-- `cipher.AEAD.Open` for `qtls.AEADAESGCMTLS13`. -/
  openAEAD : (key iv nonce ciphertext additionalData : List UInt8) → Option (List UInt8)
  openAEAD_length : ∀ key iv nonce ciphertext additionalData plaintext,
    openAEAD key iv nonce ciphertext additionalData = some plaintext →
      plaintext.length + 16 = ciphertext.length

/-! ### The header -/

/-- `qtls.ReadUvarint`: the first two bits say how many bytes there are. -/
def readUvarint : ByteReader GoError ℕ := do
  let firstByte ← readByte ioEOF
  let rest ← many (fun _ => readByte ioEOF) 0 (2 ^ (firstByte.toNat / 64) - 1)
  return ofBigEndian (.ofNat (firstByte.toNat % 64) :: rest)

/-- A test that ends in an error. -/
def require (condition : Bool) (err : GoError) : ByteReader GoError Unit :=
  if condition then pure () else throw err

/-- `io.CopyN` to `io.Discard`. -/
def discard (n : ℕ) : ByteReader GoError Unit := fun bytes =>
  if bytes.length < n then .error ioEOF else .ok ((), bytes.drop n)

def versionDraft29 : ℕ := 0xff00001d

def version1 : ℕ := 0x1

def version2 : ℕ := 0x6b3343cf

/-- What the sniffer keeps of the header. -/
structure Header where
  versionNumber : ℕ
  destConnID : List UInt8
  packetLen : ℕ

def supportedType (packetType : UInt8) (versionNumber : ℕ) : Bool :=
  !(packetType == 0 && versionNumber == version2 || packetType == 2 && versionNumber != version2 ||
    decide (2 < packetType))

/-- The header, up to the packet number. -/
def readHeader : ByteReader GoError Header := do
  let typeByte ← readByte ioEOF
  require (typeByte &&& 0x40 != 0) (.new "bad type byte")
  let version ← readFull ioErrors 4
  let versionNumber := ofBigEndian version
  require (versionNumber == versionDraft29 || versionNumber == version1 ||
    versionNumber == version2) (.new "bad version")
  require (supportedType ((typeByte &&& 0x30) >>> 4) versionNumber)
    (.new "bad packet type")
  let destConnIDLen ← readByte ioEOF
  require (destConnIDLen != 0 && destConnIDLen ≤ 20)
    (.new "bad destination connection id length")
  let destConnID ← readFull ioErrors destConnIDLen.toNat
  let srcConnIDLen ← readByte ioEOF
  discard srcConnIDLen.toNat
  let tokenLen ← readUvarint
  discard tokenLen
  let packetLen ← readUvarint
  return { versionNumber := versionNumber, destConnID := destConnID, packetLen := packetLen }

/-- The four bytes that may be the packet number, and the sample behind them. -/
def readSample : ByteReader GoError (List UInt8) := do
  discard 4
  readFull ioErrors 16

/-! ### Decryption -/

def saltOf (versionNumber : ℕ) : List UInt8 :=
  if versionNumber = version1 then
    [0x38, 0x76, 0x2c, 0xf7, 0xf5, 0x59, 0x34, 0xb3, 0x4d, 0x17, 0x9a, 0xe6, 0xa4, 0xc8, 0x0c, 0xad,
      0xcc, 0xbb, 0x7f, 0x0a]
  else if versionNumber = version2 then
    [0x0d, 0xed, 0xe3, 0xde, 0xf7, 0x00, 0xa6, 0xdb, 0x81, 0x93, 0x81, 0xbe, 0x6e, 0x26, 0x9d, 0xcb,
      0xf9, 0xbd, 0x2e, 0xd9]
  else
    [0xaf, 0xbf, 0xec, 0x28, 0x99, 0x93, 0xd2, 0x4c, 0x9e, 0x97, 0x86, 0xf1, 0x9c, 0x61, 0x11, 0xe0,
      0x43, 0x90, 0xa8, 0x99]

/-- The labels of the keys: header protection, key and IV. -/
def labelOf (versionNumber : ℕ) (name : String) : GoString :=
  if versionNumber = version2 then "quicv2 " ++ ofString name
  else "quic " ++ ofString name

/-- One round of the loop that unmasks the packet number. -/
def unmaskByte (mask : List UInt8) (hdrLen : ℕ) (newPacket : List UInt8) (i : ℕ) :
    Checked GoError (List UInt8) := do
  let b ← index newPacket (hdrLen + i)
  let m ← index mask (i + 1)
  return newPacket.set (hdrLen + i) (b ^^^ m)

/-- The header protection is taken off. -/
def unmask (mask packet : List UInt8) (hdrLen : ℕ) : Checked GoError (List UInt8) := do
  let first ← index packet 0
  let mask₀ ← index mask 0
  let newPacket := packet.set 0 (first ^^^ (mask₀ &&& 0xf))
  let number ← slice newPacket hdrLen (hdrLen + 4)
  (List.range number.length).foldlM (unmaskByte mask hdrLen) newPacket

/-- The packet number in the first bytes of four. -/
def packetNumberOf (newPacket : List UInt8) (hdrLen packetNumberLength : ℕ) :
    Checked GoError ℕ := do
  let number ← slice newPacket hdrLen (hdrLen + packetNumberLength)
  return ofBigEndian number

/-- The plaintext, and what lies behind it in the copy of the packet. -/
structure Decrypted where
  (plaintext beyond : List UInt8)

/-- `copy` to `newPacket` at `i`. -/
def copyAt (newPacket src : List UInt8) (i n : ℕ) : List UInt8 :=
  newPacket.take i ++ src.take n ++ newPacket.drop (i + min n src.length)

/-- The payload is decrypted in place. -/
def openPayload (crypto : Crypto) (header : Header) (secret packet newPacket : List UInt8)
    (hdrLen packetNumberLength : ℕ) : Checked GoError Decrypted := do
  let packetNumber ← packetNumberOf newPacket hdrLen packetNumberLength
  let extHdrLen := hdrLen + packetNumberLength
  let dst ← slice newPacket extHdrLen (hdrLen + 4)
  let src ← sliceFrom packet extHdrLen
  let newPacket := copyAt newPacket src extHdrLen dst.length
  let data ← slice newPacket extHdrLen (header.packetLen + hdrLen)
  let key := crypto.expandLabel secret (labelOf header.versionNumber "key") 16
  let iv := crypto.expandLabel secret (labelOf header.versionNumber "iv") 12
  let _ ← slice newPacket extHdrLen extHdrLen
  let additionalData ← slice newPacket 0 extHdrLen
  match crypto.openAEAD key iv (putBigEndian 8 packetNumber) data additionalData with
  | none => .error (.new "cipher: message authentication failed")
  | some plaintext =>
    return { plaintext := plaintext, beyond := newPacket.drop (extHdrLen + plaintext.length) }

/-- From the header to the plaintext. -/
def decrypt (crypto : Crypto) (header : Header) (packet pnBytes : List UInt8) (hdrLen : ℕ) :
    Checked GoError Decrypted := do
  let initialSecret := crypto.extract header.destConnID (saltOf header.versionNumber)
  let secret := crypto.expandLabel initialSecret "client in" 32
  let hpKey := crypto.expandLabel secret (labelOf header.versionNumber "hp") 16
  let newPacket ← unmask (crypto.encryptBlock hpKey pnBytes) packet hdrLen
  let first ← index newPacket 0
  let packetNumberLength := (first &&& 0x3).toNat + 1
  if header.packetLen + hdrLen < hdrLen + packetNumberLength then .error errInvalid
  else openPayload crypto header secret packet newPacket hdrLen packetNumberLength

/-- The sniffer up to the frames. -/
def readInitial (crypto : Crypto) (packet : List UInt8) : Checked GoError Decrypted := do
  let (header, rest) ← ofExcept (readHeader packet)
  let hdrLen := packet.length - rest.length
  if packet.length < hdrLen + header.packetLen then .error errInvalid
  else do
    let (pnBytes, _) ← ofExcept (readSample rest)
    decrypt crypto header packet pnBytes hdrLen

/-! ### Frames -/

/-- A frame, by what the sniffer does with it: a CRYPTO frame, or one that is passed over. -/
inductive Frame where
  | other
  | crypto (offset length : ℕ)

/-- The bytes that follow the numbers of a frame. -/
def Frame.length : Frame → ℕ
  | .other => 0
  | .crypto _ length => length

/-- `Seek` from the current position, which may go beyond the end. -/
def seek (n : ℕ) : ByteReader GoError Unit := fun bytes => .ok ((), bytes.drop n)

/-- Numbers that are passed over. -/
def skipUvarints (n : ℕ) : ByteReader GoError Unit := do
  let _ ← many (fun _ => readUvarint) 0 n
  return ()

/-- An ACK frame; the second type has three more numbers. -/
def readAck (frameType : UInt8) : ByteReader GoError Frame := do
  skipUvarints 2
  let ackRangeCount ← readUvarint
  skipUvarints 1
  skipUvarints (2 * ackRangeCount)
  skipUvarints (if frameType = 0x03 then 3 else 0)
  return .other

def readCrypto : ByteReader GoError Frame := do
  let offset ← readUvarint
  let length ← readUvarint
  return .crypto offset length

def readConnectionClose : ByteReader GoError Frame := do
  skipUvarints 2
  let length ← readUvarint
  seek length
  return .other

/-- What follows the type of a frame. -/
def readFrame (frameType : UInt8) : ByteReader GoError Frame :=
  if frameType = 0x00 ∨ frameType = 0x01 then return .other
  else if frameType = 0x02 ∨ frameType = 0x03 then readAck frameType
  else if frameType = 0x06 then readCrypto
  else if frameType = 0x1c then readConnectionClose
  else throw errInvalid

/-- The payload of a frame that is kept: none, or a slice of the buffer from the current position
on, which may go beyond the plaintext. -/
def fragmentOf (d : Decrypted) (rest : List UInt8) : Frame → Checked GoError (List CryptoFragment)
  | .other => .ok []
  | .crypto offset length => do
      let index := d.plaintext.length - rest.length
      let payload ← slice (d.plaintext ++ d.beyond) index (index + length)
      return [{ offset := .ofNat offset, length := .ofNat length, payload := payload }]

/-- The loop over the frames: the fragments, and the types of the frames. -/
def framesLoop (d : Decrypted) :
    ℕ → List UInt8 → List CryptoFragment → List UInt8 →
      Checked GoError (List CryptoFragment × List UInt8)
  | _, [], fragments, frameTypeList => .ok (fragments, frameTypeList)
  | 0, _ :: _, _, _ => .exhausted
  | fuel + 1, frameType :: rest, fragments, frameTypeList => do
      let (frame, rest) ← ofExcept (readFrame frameType rest)
      let fragment ← fragmentOf d rest frame
      framesLoop d fuel (rest.drop frame.length) (fragments ++ fragment)
        (frameTypeList ++ [frameType])

/-- The frames of the plaintext; a round takes at least the type of a frame. -/
def readFrames (d : Decrypted) : Checked GoError (List CryptoFragment × List UInt8) :=
  framesLoop d (d.plaintext.length + 1) d.plaintext [] []

/-! ### Reassembly -/

/-- `Buffer.Write`, which writes as much as there is room for. -/
def writeBuffer (capacity : ℕ) (buffer data : List UInt8) : List UInt8 :=
  buffer ++ data.take (capacity - buffer.length)

/-- The sum of the lengths. -/
def frameLen (fragments : List CryptoFragment) : ℕ :=
  (fragments.map fun fragment => fragment.length.toNat).sum

/-- The loop `find`: the first fragment that begins where the last one has ended. -/
def findLoop (fragments : List CryptoFragment) :
    ℕ → UInt64 → List UInt8 → Checked Empty (List UInt8)
  | 0, _, _ => .exhausted
  | fuel + 1, index, buffer =>
    match fragments.find? (fun fragment => fragment.offset == index) with
    | none => .ok buffer
    | some fragment =>
      findLoop fragments fuel (fragment.offset + fragment.length)
        (writeBuffer (5 + frameLen fragments) buffer fragment.payload)

/-- The header of a TLS record, with the lower 16 bits of the length. -/
def recordHeader (fragments : List CryptoFragment) : List UInt8 :=
  [0x16, 0x03, 0x03] ++ putBigEndian 2 (frameLen fragments)

/-- The record that is put together from the fragments. -/
def assemble (fuel : ℕ) (fragments : List CryptoFragment) : Checked Empty (List UInt8) :=
  findLoop fragments fuel 0 (recordHeader fragments)

/-! ### The client -/

/-- `isZero`. -/
def isZero (l : List UInt8) : Bool := l.all (· == 0)

/-- `isQUICGo`. -/
def isQUICGo (fingerprint : JA3.ClientHello) : Bool :=
  fingerprint.ellipticCurves.contains 0x11EC || fingerprint.extensions.contains 0xFF01

/-- A GREASE value comes first. -/
def greaseFirst (l : List UInt16) : Bool := l.head?.any fun v => v &&& 0x0F0F == 0x0A0A

/-- The two fingerprints of Safari. -/
def isSafari (fingerprint : JA3.ClientHello) : Bool :=
  fingerprint.versions.length == 2 && greaseFirst fingerprint.versions &&
      fingerprint.ellipticCurves.length == 5 && greaseFirst fingerprint.ellipticCurves ||
    fingerprint.cipherSuites == [0x1302] && fingerprint.ellipticCurves == [29] &&
      fingerprint.signatureAlgorithms == [0x0403]

/-- The client, if it is not known yet. -/
def detectClient (client : GoString) (frameTypeList : List UInt8)
    (fingerprint : JA3.ClientHello) : Checked Empty GoString :=
  if client ≠ [] then .ok client
  else if frameTypeList.length = 1 then .ok "firefox"
  else do
    let first ← index frameTypeList 0
    let others ← sliceFrom frameTypeList 1
    if first = 0x06 ∧ isZero others ∧ isSafari fingerprint then
      return "safari"
    else do
      let last ← index frameTypeList (frameTypeList.length - 1)
      let before ← slice frameTypeList 0 (frameTypeList.length - 1)
      if last = 0x06 ∧ isZero before then return "quic-go"
      else if 1 < frameTypeList.count 0x06 ∨ 0 < frameTypeList.count 0x01 then
        return if isQUICGo fingerprint then "quic-go"
          else "chromium"
      else return "unknown"

/-! ### The sniffer -/

/-- How the sniffer fails: with an error of reading, or for want of the rest of the hello. -/
inductive SniffFailure where
  | read (err : GoError)
  | needMoreData (err : JA3.ParseError)

/-- What the sniffer does with the frames of a datagram. -/
def sniffFrames (fuel : ℕ) (metadata : InboundContext) (fragments : List CryptoFragment)
    (frameTypeList : List UInt8) : Checked Empty (Option SniffFailure × InboundContext) := do
  let segment ← assemble fuel fragments
  let metadata := { metadata with protocol := "quic", sniffContext := [] }
  match ← attempt (JA3.parseSegment segment) with
  | .error err => return (some (.needMoreData err), { metadata with sniffContext := fragments })
  | .ok fingerprint => do
      let client ← detectClient metadata.client frameTypeList fingerprint
      return (none, { metadata with domain := fingerprint.serverName, client := client })

/-- `QUICClientHello`: the error, if there is one, and the metadata. -/
def quicClientHello (crypto : Crypto) (fuel : ℕ) (metadata : InboundContext)
    (packet : List UInt8) : Checked Empty (Option SniffFailure × InboundContext) := do
  match ← attempt (readInitial crypto packet) with
  | .error err => return (some (.read err), metadata)
  | .ok d =>
    match ← attempt (readFrames d) with
    | .error err => return (some (.read err), metadata)
    | .ok (fragments, frameTypeList) =>
      sniffFrames fuel metadata (fragments ++ metadata.sniffContext) frameTypeList

/-- The sniffer returns, for a number of rounds of the reassembly that is large enough. -/
def Returns (crypto : Crypto) (metadata : InboundContext) (packet : List UInt8) : Prop :=
  ∃ fuel, (quicClientHello crypto fuel metadata packet).Returns

/-- A UDP payload. -/
def maxPayload : ℕ := 65535

/-- **The fragments that earlier datagrams of a flow can have left**: none, or what the sniffer has
kept when it came to the end on a datagram, whatever else is in the metadata. -/
inductive Left (crypto : Crypto) : List CryptoFragment → Prop where
  | fresh : Left crypto []
  | datagram {fuel : ℕ} {metadata : InboundContext} {packet : List UInt8}
      {result : Option SniffFailure × InboundContext} (before : Left crypto metadata.sniffContext)
      (length_le : packet.length ≤ maxPayload)
      (run : quicClientHello crypto fuel metadata packet = .ok result) :
      Left crypto result.2.sniffContext

end SingBox.QUIC
