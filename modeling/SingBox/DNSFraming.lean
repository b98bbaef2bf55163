/-
**DNS messages on streams** (`WriteMessage` and `ReadMessage` of `dns/transport/tcp.go`).

On a stream, a message is preceded by its length in two bytes.  `WriteMessage` takes the length of
the message as it is given, and then packs a copy with compression into the rest of its buffer.
Packing itself is a parameter.

Main result:

* `DNS.framed_iff` — **a message is read back exactly if compression does not change its length**.
-/

import SingBox.DNSMessage

namespace SingBox.DNS

open ByteReader GoString List

/-- `Pack`, `Len` and `Unpack` of `dns.Msg`.  The first argument is the flag `Compress`. -/
structure Codec where
  pack : Bool → Msg → Option (List UInt8)
  len : Bool → Msg → ℕ
  unpack : List UInt8 → Except GoError Msg
  /-- The length is that of the packed message, which has a header at least. -/
  len_eq : ∀ {compress m bytes}, pack compress m = some bytes → len compress m = bytes.length
  header_le : ∀ compress m, 12 ≤ len compress m
  len_id : ∀ compress m id, len compress { m with id := id } = len compress m
  len_compress_le : ∀ m, len true m ≤ len false m
  unpack_pack : ∀ {compress m bytes}, pack compress m = some bytes → unpack bytes = .ok m
  /-- A header of zeros has no records, so that there is nothing to compress. -/
  unpack_zeros : ∀ {n m}, unpack (replicate n 0) = .ok m → len true m = len false m

variable (codec : Codec)

/-- `PackBuffer` with compression: what the buffer holds then, and the packed message.  A buffer
that has no room for the uncompressed message is left alone, and a new slice is taken. -/
def packBuffer (buf : List UInt8) (m : Msg) : Option (List UInt8 × List UInt8) :=
  (codec.pack true m).map fun msg =>
    (if buf.length < codec.len false m + 1 then buf else msg ++ buf.drop msg.length, msg)

/-- `WriteMessage`, for a message with the flag `compress`.  The buffer is a used one: `pool` is
what it held. -/
def writeMessage (pool : ℕ → UInt8) (messageId : UInt16) (compress : Bool) (message : Msg) :
    Option (List UInt8) :=
  let requestLen := codec.len compress message
  let freeBytes := (range (requestLen + 1)).map pool
  let exMessage := { message with id := messageId }
  (packBuffer codec freeBytes exMessage).map fun (buffer, rawMessage) =>
    (putBigEndian 2 (requestLen % 2 ^ 16) ++ buffer).take (2 + rawMessage.length)

/-- `ReadMessage`. -/
def readMessage : ByteReader GoError Msg := do
  let responseLen ← readFull ioErrors 2
  if ofBigEndian responseLen < 10 then throw (.new "dns: short read")
  let buffer ← readFull ioErrors (ofBigEndian responseLen)
  codec.unpack buffer

/-- The length is that of what follows it, and the other side reads exactly this message. -/
structure Framed (m : Msg) (frame : List UInt8) : Prop where
  length : ofBigEndian (frame.take 2) = (frame.drop 2).length
  reads : Reads (readMessage codec) frame m

variable {codec} {m : Msg} {raw body : List UInt8} {id : UInt16} {compress : Bool}

theorem reads_frame (hheader : 12 ≤ body.length) (hlt : body.length < 256 ^ 2) :
    Reads (readMessage codec) (putBigEndian 2 body.length ++ body) m ↔
      codec.unpack body = .ok m := by
  have hlen : ofBigEndian (putBigEndian 2 body.length) = body.length := ofBigEndian_put hlt
  have htwo := reads_full ioErrors (putBigEndian 2 body.length)
  rw [length_putBigEndian] at htwo
  have hrun (rest : List UInt8) : readMessage codec (putBigEndian 2 body.length ++ body ++ rest) =
      (codec.unpack body).map (·, rest) := by
    rw [readMessage, append_assoc, bind_eq_of_ok (htwo _), hlen, if_neg (by omega)]
    refine (bind_eq_of_ok (reads_full ioErrors body rest)).trans ?_
    cases codec.unpack body <;> rfl
  simp only [Reads, hrun]
  cases codec.unpack body <;> simp [Except.map]

theorem framed_append_iff {n : ℕ} (hheader : 12 ≤ body.length) (hn : n < 2 ^ 16) :
    Framed codec m (putBigEndian 2 n ++ body) ↔ n = body.length ∧ codec.unpack body = .ok m := by
  have hlength : ofBigEndian ((putBigEndian 2 n ++ body).take 2) =
      ((putBigEndian 2 n ++ body).drop 2).length ↔ n = body.length := by
    rw [take_left' (length_putBigEndian _ _), drop_left' (length_putBigEndian _ _),
      ofBigEndian_put hn]
  constructor
  · rintro ⟨h, hreads⟩
    obtain rfl := hlength.1 h
    exact ⟨rfl, (reads_frame hheader hn).1 hreads⟩
  · rintro ⟨rfl, hunpack⟩
    exact ⟨hlength.2 rfl, (reads_frame hheader hn).2 hunpack⟩

/-- **What is sent**: the length, and the packed message if there was room for it. -/
theorem writeMessage_eq (pool : ℕ → UInt8)
    (hpack : codec.pack true { m with id := id } = some raw) :
    writeMessage codec pool id compress m =
      some (putBigEndian 2 (codec.len compress m % 2 ^ 16) ++
        if codec.len compress m < codec.len false m then (range raw.length).map pool else raw) := by
  have hraw : raw.length ≤ codec.len compress m := by
    rw [← codec.len_eq hpack, codec.len_id]
    cases compress
    · exact codec.len_compress_le m
    · exact le_rfl
  simp only [writeMessage, packBuffer, hpack, Option.map_some, codec.len_id, length_map,
    length_range, Nat.add_lt_add_iff_right]
  congr 1
  rw [take_append, length_putBigEndian, take_of_length_le (by simp), Nat.add_sub_cancel_left]
  split
  · rw [← map_take, take_range, Nat.min_eq_left (by omega)]
  · rw [take_left]

/-- **A message is read back exactly if compression does not change its length.**  Whatever the
buffer held, the other side reads the message, if and only if the uncompressed length, in two bytes,
is the compressed one, and for a message with the flag it is the same number. -/
theorem framed_iff (hpack : codec.pack true { m with id := id } = some raw) :
    (∀ pool, ∃ frame, writeMessage codec pool id compress m = some frame ∧
      Framed codec { m with id := id } frame) ↔
    codec.len false m % 2 ^ 16 = codec.len true m ∧
      (compress = true → codec.len false m = codec.len true m) := by
  have hlen : raw.length = codec.len true m := by rw [← codec.len_eq hpack, codec.len_id]
  have hheader := codec.header_le true m
  have hmod : codec.len compress m % 2 ^ 16 < 2 ^ 16 := Nat.mod_lt _ (by decide)
  simp only [writeMessage_eq _ hpack, Option.some.injEq, exists_eq_left']
  by_cases hroom : codec.len compress m < codec.len false m
  · -- the buffer keeps what it held, which may be zeros
    cases compress
    · exact absurd hroom (lt_irrefl _)
    refine iff_of_false (fun h => ?_) fun h => hroom.ne (h.2 rfl).symm
    have hzeros := h fun _ => 0
    rw [if_pos hroom, map_const', length_range,
      framed_append_iff (by rwa [length_replicate, hlen]) hmod] at hzeros
    have hsame := codec.unpack_zeros hzeros.2
    simp only [codec.len_id] at hsame
    exact hroom.ne hsame
  · simp only [if_neg hroom, forall_const, framed_append_iff (hlen ▸ hheader) hmod,
      codec.unpack_pack hpack, and_true, hlen]
    cases compress
    · simp
    · have hsame := (codec.len_compress_le m).antisymm (not_lt.1 hroom)
      simp [hsame]

/-- A question and an answer, for one name or for two. -/
def answered (shared : Bool) (id : UInt16) : Msg where
  id := id
  question := [⟨"a.", 1, 1⟩]
  answer := [⟨if shared then "a." else "b.", 1, 60, .a [1, 2, 3, 4]⟩]

/-- How such messages are packed: the second name is spelt, or points to the first. -/
def answeredCodec : Codec where
  pack compress m :=
    let shared := m.answer == (answered true 0).answer
    if m = answered shared m.id then
      some (putBigEndian 2 m.id.toNat ++ [0, 0, 0, 1, 0, 1, 0, 0, 0, 0, 1, 97, 0, 0, 1, 0, 1] ++
        (if shared && compress then [192, 12] else [1, if shared then 97 else 98, 0]) ++
        [0, 1, 0, 1, 0, 0, 0, 60, 0, 4, 1, 2, 3, 4])
    else none
  len compress m := if m.answer == (answered true 0).answer && compress then 35 else 36
  unpack bytes :=
    let id := .ofNat (ofBigEndian (bytes.take 2))
    .ok (if bytes[5]? = some 1 then answered (bytes[20]? != some 98) id else { id := id })
  len_eq {compress m bytes} h := by
    obtain ⟨-, hbytes⟩ := Option.ite_none_right_eq_some.1 h
    rw [← Option.some.inj hbytes]
    split <;> simp
  header_le compress m := by split <;> decide
  len_id _ _ _ := rfl
  len_compress_le m := by split <;> simp
  unpack_pack {compress m bytes} h := by
    obtain ⟨hm, hbytes⟩ := Option.ite_none_right_eq_some.1 h
    obtain rfl := Option.some.inj hbytes
    simp only [append_assoc, take_left' (length_putBigEndian 2 _)]
    rw [ofBigEndian_put m.id.toNat_lt, UInt16.ofNat_toNat]
    refine congrArg _ (Eq.trans ?_ hm.symm)
    cases m.answer == (answered true 0).answer <;> cases compress <;> rfl
  unpack_zeros {n m} h := by
    have h5 : (replicate n (0 : UInt8))[5]? ≠ some 1 := by simp [getElem?_replicate]
    simp only [if_neg h5] at h
    cases h
    rfl

/-- The names are different, so that nothing is compressed. -/
theorem twoNames_framed :
    answeredCodec.len true (answered false 0) = 36 ∧
    ∀ pool, ∃ frame, writeMessage answeredCodec pool 7 true (answered false 0) = some frame ∧
      Framed answeredCodec (answered false 7) frame :=
  ⟨rfl, (framed_iff (m := answered false 0) rfl).2 ⟨rfl, fun _ => rfl⟩⟩

/-- The length says 36, but 35 bytes follow: the other side waits for one more.  With the flag, the
35 bytes are those of the buffer, here an empty message. -/
theorem sharedName_notFramed :
    (∃ frame, writeMessage answeredCodec (fun _ => 0) 7 false (answered true 0) = some frame ∧
      frame.take 2 = [0, 36] ∧ (frame.drop 2).length = 35 ∧
      ¬Framed answeredCodec (answered true 7) frame) ∧
    ∃ frame, writeMessage answeredCodec (fun _ => 0) 7 true (answered true 0) = some frame ∧
      frame = [0, 35] ++ replicate 35 0 ∧ ¬Framed answeredCodec (answered true 7) frame :=
  ⟨⟨_, rfl, rfl, rfl, fun h => absurd h.length (by decide)⟩, _, rfl, rfl,
    fun h => absurd (h.reads []) (by decide)⟩

end SingBox.DNS
