/-
**What a datagram can do to the QUIC sniffer** (`common/sniff/quic.go`).

From the header to the plaintext every index is in range: the header is read byte by byte, and the
sample behind the packet number makes sure that there are bytes enough for what follows.  The
frames, the reassembly and the hello each have a place where a length of the sender is believed.

* `QUIC.returns_readInitial` — **up to the plaintext every index is in range**;
* `QUIC.returns_readFrames_iff`, `QUIC.returns_assemble_iff` — the frames and the reassembly;
* `QUIC.rounds_iff` — **in how many rounds the fragments are put together**;
* `QUIC.incomplete_of_left` — fragments that are left do not make up a hello;
* `QUIC.returns_iff` — **the sniffer returns exactly on the harmless datagrams**.
-/

import SingBox.QUICSniff

namespace SingBox.QUIC

open Checked List MeteredReader Nat

open ByteReader
open MeteredReader (Takes takes_bind takes_pure)

/-! ### The header -/

theorem takes_readByte : Takes (readByte ioEOF) fun _ => 0 :=
  (takes_byte ioEOF).weaken fun _ => Nat.zero_le _

variable (n : ℕ)

theorem takes_readFull : Takes (readFull ioErrors n) fun _ => 0 :=
  (takes_full ioErrors n).weaken fun _ => Nat.zero_le _

theorem takes_require (condition : Bool) (err : GoError) :
    Takes (require condition err) fun _ => 0 := by
  cases condition with
  | true => exact takes_pure ()
  | false =>
    nofun

theorem takes_discard : Takes (discard n) fun _ => n := by
  intro bytes a rest hrun
  rw [discard] at hrun
  split at hrun
  · cases hrun
  · cases hrun
    rw [length_drop]
    dsimp only
    omega

theorem takes_skip : Takes (discard n) fun _ => 0 := (takes_discard n).weaken fun _ => Nat.zero_le _

theorem takes_readUvarint : Takes readUvarint fun _ => 0 :=
  takes_bind takes_readByte fun _ => takes_bind
    ((MeteredReader.Takes.many (fun _ => takes_readByte) 0 _).weaken fun _ => Nat.zero_le _)
    fun _ => takes_pure _

theorem takes_readHeader : Takes readHeader fun _ => 0 := by
  refine takes_bind takes_readByte fun typeByte => takes_bind (takes_require _ _) fun _ => ?_
  refine takes_bind (takes_readFull 4) fun version => takes_bind (takes_require _ _) fun _ => ?_
  refine takes_bind (takes_require _ _) fun _ => takes_bind takes_readByte fun _ => ?_
  refine takes_bind (takes_require _ _) fun _ => takes_bind (takes_readFull _) fun destConnID => ?_
  refine takes_bind takes_readByte fun _ => takes_bind (takes_skip _) fun _ => ?_
  refine takes_bind takes_readUvarint fun _ => takes_bind (takes_skip _) fun _ => ?_
  exact takes_bind takes_readUvarint fun _ => takes_pure _

theorem takes_readSample : Takes readSample fun _ => 20 :=
  (takes_discard 4).bind fun _ bytes a rest hrun => by
    have htakes : rest.length + 16 ≤ bytes.length := takes_full ioErrors 16 bytes a rest hrun
    omega

/-! ### Decryption -/

variable {mask newPacket : List UInt8}

theorem unmaskByte_spec {hdrLen i : ℕ} (hmask : mask.length = 16)
    (hi : i < 4) (hlen : hdrLen + 4 ≤ newPacket.length) :
    ∃ newPacket', unmaskByte mask hdrLen newPacket i = .ok newPacket' ∧
      newPacket'.length = newPacket.length := by
  obtain ⟨b, hb, -⟩ := index_eq (show hdrLen + i < newPacket.length by omega)
  obtain ⟨m, hm, -⟩ := index_eq (show i + 1 < mask.length by omega)
  refine ⟨newPacket.set (hdrLen + i) (b ^^^ m), ?_, length_set⟩
  rw [unmaskByte, hb, ok_bind, hm, ok_bind]
  rfl

variable {hdrLen : ℕ}

theorem foldlM_unmaskByte (hmask : mask.length = 16)
    (hlength : hdrLen + 4 ≤ newPacket.length) {is : List ℕ} (his : ∀ i ∈ is, i < 4) :
    ∃ newPacket', is.foldlM (unmaskByte mask hdrLen) newPacket = .ok newPacket' ∧
      newPacket'.length = newPacket.length := by
  induction is generalizing newPacket with
  | nil => exact ⟨newPacket, rfl, rfl⟩
  | cons i is ih =>
    rw [forall_mem_cons] at his
    obtain ⟨next, hnext, hlen⟩ := unmaskByte_spec hmask his.1 hlength
    obtain ⟨last, hlast, hlen'⟩ := ih (show hdrLen + 4 ≤ next.length by omega) his.2
    refine ⟨last, ?_, hlen'.trans hlen⟩
    rw [foldlM_cons, hnext, ok_bind, hlast]

theorem unmask_spec {mask packet : List UInt8} (hmask : mask.length = 16)
    (hlength : hdrLen + 20 ≤ packet.length) :
    ∃ newPacket, unmask mask packet hdrLen = .ok newPacket ∧ newPacket.length = packet.length := by
  obtain ⟨first, hfirst, -⟩ := index_eq (show 0 < packet.length by omega)
  obtain ⟨mask₀, hmask₀, -⟩ := index_eq (show 0 < mask.length by omega)
  have hset : (packet.set 0 (first ^^^ (mask₀ &&& 0xf))).length = packet.length := length_set
  have hnumber : (((packet.set 0 (first ^^^ (mask₀ &&& 0xf))).take (hdrLen + 4)).drop
      hdrLen).length = 4 := by
    rw [length_drop, length_take, hset]
    omega
  have hrange : ∀ i ∈ List.range 4, i < 4 := fun i hi => List.mem_range.1 hi
  obtain ⟨newPacket, hloop, hlen⟩ := foldlM_unmaskByte hmask
    (show hdrLen + 4 ≤ (packet.set 0 (first ^^^ (mask₀ &&& 0xf))).length by omega) hrange
  refine ⟨newPacket, ?_, hlen.trans hset⟩
  rw [unmask, hfirst, ok_bind, hmask₀, ok_bind]
  dsimp only
  rw [slice_eq (by omega) (by omega), ok_bind, hnumber, hloop]

theorem length_copyAt {newPacket src : List UInt8} {i n : ℕ} (hi : i + n ≤ newPacket.length) :
    (copyAt newPacket src i n).length = newPacket.length := by
  rw [copyAt, length_append, length_append, length_take, length_take, length_drop]
  omega

variable (crypto : Crypto)

theorem openPayload_spec {header : Header} {secret packet newPacket : List UInt8}
    {hdrLen packetNumberLength : ℕ} (hnew : newPacket.length = packet.length)
    (hlen : hdrLen + 20 ≤ packet.length) (hnumber : packetNumberLength ≤ 4)
    (hpacket : hdrLen + header.packetLen ≤ packet.length)
    (hpayload : packetNumberLength ≤ header.packetLen) :
    (∃ err, openPayload crypto header secret packet newPacket hdrLen packetNumberLength =
      .error err) ∨
    ∃ d, openPayload crypto header secret packet newPacket hdrLen packetNumberLength = .ok d ∧
      d.plaintext.length + d.beyond.length ≤ packet.length := by
  have hdst : ((newPacket.take (hdrLen + 4)).drop (hdrLen + packetNumberLength)).length =
      4 - packetNumberLength := by
    rw [length_drop, length_take]
    omega
  have hcopy : (copyAt newPacket (packet.drop (hdrLen + packetNumberLength))
      (hdrLen + packetNumberLength) (4 - packetNumberLength)).length = packet.length := by
    rw [length_copyAt (by omega), hnew]
  have hnumberOf : packetNumberOf newPacket hdrLen packetNumberLength = .ok (ofBigEndian
      ((newPacket.take (hdrLen + packetNumberLength)).drop hdrLen)) := by
    rw [packetNumberOf, slice_eq (by omega) (by omega)]
    rfl
  unfold openPayload
  rw [hnumberOf, ok_bind]
  dsimp only
  rw [slice_eq (by omega) (by omega), ok_bind, sliceFrom_eq (by omega), ok_bind, hdst]
  rw [slice_eq (by omega) (by omega), ok_bind,
    slice_eq (by omega) (by omega), ok_bind,
    slice_eq (by omega) (by omega), ok_bind]
  split
  · exact .inl ⟨_, rfl⟩
  · next plaintext hopen =>
      refine .inr ⟨_, rfl, ?_⟩
      have hplain := crypto.openAEAD_length _ _ _ _ _ _ hopen
      rw [length_drop, length_take, hcopy] at hplain
      dsimp only
      rw [length_drop, hcopy]
      omega

theorem decrypt_spec {header : Header} {packet pnBytes : List UInt8}
    (hlen : hdrLen + 20 ≤ packet.length) (hpacket : hdrLen + header.packetLen ≤ packet.length) :
    (∃ err, decrypt crypto header packet pnBytes hdrLen = .error err) ∨
    ∃ d, decrypt crypto header packet pnBytes hdrLen = .ok d ∧
      d.plaintext.length + d.beyond.length ≤ packet.length := by
  unfold decrypt
  dsimp only
  obtain ⟨newPacket, hunmask, hnew⟩ := unmask_spec (crypto.encryptBlock_length _ pnBytes) hlen
  rw [hunmask, ok_bind]
  obtain ⟨first, hfirst, -⟩ := index_eq (show 0 < newPacket.length by omega)
  rw [hfirst, ok_bind]
  have hnumber : (first &&& 0x3).toNat + 1 ≤ 4 := by
    have hand : (first &&& 0x3).toNat = first.toNat &&& 3 := UInt8.toNat_and first 3
    have hle : first.toNat &&& 3 ≤ 3 := and_le_right
    omega
  split
  · exact .inl ⟨_, rfl⟩
  · exact openPayload_spec crypto hnew hlen hnumber hpacket (by omega)

/-- The sniffer up to the frames comes to an error or a plaintext in the buffer. -/
theorem readInitial_spec (packet : List UInt8) :
    (∃ err, readInitial crypto packet = .error err) ∨
    ∃ d, readInitial crypto packet = .ok d ∧
      d.plaintext.length + d.beyond.length ≤ packet.length := by
  unfold readInitial
  cases hheader : readHeader packet with
  | error err => exact .inl ⟨err, rfl⟩
  | ok result =>
    obtain ⟨header, rest⟩ := result
    have hrest : rest.length + 0 ≤ packet.length := takes_readHeader packet header rest hheader
    rw [Checked.ofExcept, Checked.ok_bind]
    dsimp only
    split
    · exact .inl ⟨_, rfl⟩
    · cases hsample : readSample rest with
      | error err => exact .inl ⟨err, rfl⟩
      | ok result =>
        obtain ⟨pnBytes, rest'⟩ := result
        have htakes : rest'.length + 20 ≤ rest.length := takes_readSample rest pnBytes rest' hsample
        rw [Checked.ofExcept, Checked.ok_bind]
        exact decrypt_spec crypto (by omega) (by omega)

/-- **Up to the plaintext every index is in range.** -/
theorem returns_readInitial (packet : List UInt8) : (readInitial crypto packet).Returns := by
  rcases readInitial_spec crypto packet with ⟨err, h⟩ | ⟨d, h, -⟩
  · rw [h]
    exact trivial
  · rw [h]
    exact trivial

/-! ### Numbers -/

theorem yields_readUvarint : Yields readUvarint fun n => n < 2 ^ 62 := by
  refine (yields_true _).bind fun firstByte _ => ?_
  refine (yields_many _ 0 _).bind fun rest hrest => yields_pure ?_
  have hfirst := firstByte.toNat_lt
  have hlen : rest.length ≤ 7 := by
    have hpow : 2 ^ (firstByte.toNat / 64) ≤ 2 ^ 3 := Nat.pow_le_pow_right (by decide) (by omega)
    omega
  have hlead : (UInt8.ofNat (firstByte.toNat % 64)).toNat = firstByte.toNat % 64 := by
    rw [UInt8.toNat_ofNat']
    omega
  have hlt := foldl_bigEndian_lt rest (firstByte.toNat % 64)
  have hvalue : ofBigEndian (.ofNat (firstByte.toNat % 64) :: rest) =
      rest.foldl (fun n b => n * 256 + b.toNat) (firstByte.toNat % 64) := by
    rw [ofBigEndian, foldl_cons, hlead, Nat.zero_mul, Nat.zero_add]
  rw [hvalue]
  calc rest.foldl (fun n b => n * 256 + b.toNat) (firstByte.toNat % 64)
      < (firstByte.toNat % 64 + 1) * 256 ^ rest.length := hlt
    _ ≤ 64 * 256 ^ 7 := Nat.mul_le_mul (by omega) (Nat.pow_le_pow_right (by decide) hlen)
    _ = 2 ^ 62 := by norm_num

/-! ### Frames -/

theorem takes_skipUvarints : Takes (skipUvarints n) fun _ => 0 :=
  takes_bind ((MeteredReader.Takes.many (fun _ => takes_readUvarint) 0 n).weaken
    fun _ => Nat.zero_le _) fun _ => takes_pure ()

theorem takes_seek : Takes (seek n) fun _ => 0 := by
  intro bytes a rest hrun
  cases hrun
  rw [length_drop]
  exact sub_le _ _

theorem takes_readFrame (frameType : UInt8) : Takes (readFrame frameType) fun _ => 0 := by
  rw [readFrame]
  split
  · exact takes_pure _
  split
  · refine takes_bind (takes_skipUvarints 2) fun _ => takes_bind takes_readUvarint fun _ => ?_
    refine takes_bind (takes_skipUvarints 1) fun _ => takes_bind (takes_skipUvarints _) fun _ => ?_
    exact takes_bind (takes_skipUvarints _) fun _ => takes_pure _
  split
  · exact takes_bind takes_readUvarint fun _ => takes_bind takes_readUvarint fun _ => takes_pure _
  split
  · refine takes_bind (takes_skipUvarints 2) fun _ => takes_bind takes_readUvarint fun _ => ?_
    exact takes_bind (takes_seek _) fun _ => takes_pure _
  · nofun

/-- The offset of a CRYPTO frame. -/
def Frame.offset : Frame → ℕ
  | .other => 0
  | .crypto offset _ => offset

theorem yields_readFrame (frameType : UInt8) :
    Yields (readFrame frameType) fun frame => frame.offset < 2 ^ 62 := by
  have hother : Frame.other.offset < 2 ^ 62 := by decide
  rw [readFrame]
  split
  · exact yields_pure hother
  split
  · refine (yields_true _).bind fun _ _ => (yields_true _).bind fun _ _ => ?_
    refine (yields_true _).bind fun _ _ => (yields_true _).bind fun _ _ => ?_
    exact (yields_true _).bind fun _ _ => yields_pure hother
  split
  · refine yields_readUvarint.bind fun offset hoffset => (yields_true _).bind fun length _ => ?_
    exact yields_pure hoffset
  split
  · refine (yields_true _).bind fun _ _ => (yields_true _).bind fun _ _ => ?_
    exact (yields_true _).bind fun _ _ => yields_pure hother
  · nofun

/-- The frames that the loop comes to, after those before them were passed over. -/
inductive FrameLeads : List UInt8 → List UInt8 → Prop where
  | here (bytes : List UInt8) : FrameLeads bytes bytes
  | next {frameType : UInt8} {rest rest' target : List UInt8} {frame : Frame}
      (read : readFrame frameType rest = .ok (frame, rest'))
      (leads : FrameLeads (rest'.drop frame.length) target) :
      FrameLeads (frameType :: rest) target

/-- The payloads of all CRYPTO frames that the loop comes to from some place on lie in the
buffer. -/
def FitFrom (d : Decrypted) (bytes : List UInt8) : Prop :=
  ∀ frameType rest rest' frame, FrameLeads bytes (frameType :: rest) →
    readFrame frameType rest = .ok (frame, rest') →
      frame.length ≤ rest'.length + d.beyond.length

/-- **The payloads of all CRYPTO frames that the loop comes to lie in the buffer.** -/
def FramesFit (d : Decrypted) : Prop := FitFrom d d.plaintext

theorem fitFrom_nil (d : Decrypted) : FitFrom d [] := by
  nofun

variable {d : Decrypted} {rest : List UInt8}

theorem fitFrom_of_error {frameType : UInt8} {err : GoError}
    (hread : readFrame frameType rest = .error err) : FitFrom d (frameType :: rest) := by
  intro frameType' rest' rest'' frame hleads hread'
  cases hleads with
  | here =>
    rw [hread] at hread'
    cases hread'
  | next hread'' =>
    rw [hread] at hread''
    cases hread''

variable {frame : Frame}

theorem fitFrom_iff {frameType : UInt8} {rest rest' : List UInt8}
    (hread : readFrame frameType rest = .ok (frame, rest')) :
    FitFrom d (frameType :: rest) ↔ frame.length ≤ rest'.length + d.beyond.length ∧
      FitFrom d (rest'.drop frame.length) := by
  constructor
  · intro h
    refine ⟨h frameType rest rest' frame (.here _) hread, fun _ _ _ _ hleads => ?_⟩
    exact h _ _ _ _ (.next hread hleads)
  · rintro ⟨hfirst, hrest⟩ frameType' rest₁ rest₂ frame' hleads hread'
    cases hleads with
    | here =>
      rw [hread] at hread'
      cases hread'
      exact hfirst
    | next hread'' hleads =>
      rw [hread] at hread''
      cases hread''
      exact hrest _ _ _ _ hleads hread'

/-- What holds of every fragment: the offset is a number of the format, and the payload has come in
a datagram. -/
def Sized (fragment : CryptoFragment) : Prop :=
  fragment.offset.toNat < 2 ^ 62 ∧ fragment.length.toNat ≤ maxPayload

theorem fragmentOf_spec (hrest : rest.length ≤ d.plaintext.length)
    (hfits : frame.length ≤ rest.length + d.beyond.length) :
    ∃ fragment, fragmentOf d rest frame = .ok fragment ∧
      (frame.offset < 2 ^ 62 → d.plaintext.length + d.beyond.length ≤ maxPayload →
        ∀ f ∈ fragment, Sized f) := by
  cases frame with
  | other => exact ⟨[], rfl, fun _ _ => by simp⟩
  | crypto offset length =>
    dsimp only [Frame.length, Frame.offset] at hfits ⊢
    rw [fragmentOf, slice_eq (by omega) (by rw [length_append]; omega), ok_bind]
    refine ⟨_, rfl, fun hoffset hbuffer f hf => ?_⟩
    rw [mem_singleton] at hf
    subst hf
    rw [maxPayload] at hbuffer
    refine ⟨?_, ?_⟩
    · rw [UInt64.toNat_ofNat']
      omega
    · rw [UInt64.toNat_ofNat', maxPayload]
      omega

theorem fragmentOf_eq_panicked (hrest : rest.length ≤ d.plaintext.length)
    (hnot : ¬frame.length ≤ rest.length + d.beyond.length) :
    fragmentOf d rest frame = .panicked := by
  cases frame with
  | other => exact absurd (Nat.zero_le _) hnot
  | crypto offset length =>
    dsimp only [Frame.length] at hnot
    rw [fragmentOf, slice_eq_panicked (by rw [length_append]; omega), panicked_bind]

variable {fuel : ℕ}

/-- **The loop over the frames ends**, and panics exactly at a payload that is not in the buffer. -/
theorem returns_framesLoop_iff {bytes : List UInt8}
    (fragments : List CryptoFragment) (frameTypeList : List UInt8) (hfuel : bytes.length < fuel)
    (hbytes : bytes.length ≤ d.plaintext.length) :
    (framesLoop d fuel bytes fragments frameTypeList).Returns ↔ FitFrom d bytes := by
  induction fuel generalizing bytes fragments frameTypeList with
  | zero => omega
  | succ fuel ih =>
    cases bytes with
    | nil => exact ⟨fun _ => fitFrom_nil d, fun _ => trivial⟩
    | cons frameType rest =>
      rw [framesLoop]
      rw [length_cons] at hfuel hbytes
      cases hread : readFrame frameType rest with
      | error err => exact ⟨fun _ => fitFrom_of_error hread, fun _ => trivial⟩
      | ok result =>
        obtain ⟨frame, rest'⟩ := result
        have htakes : rest'.length + 0 ≤ rest.length :=
          takes_readFrame frameType rest frame rest' hread
        rw [Checked.ofExcept, Checked.ok_bind, fitFrom_iff hread]
        dsimp only
        by_cases hfits : frame.length ≤ rest'.length + d.beyond.length
        · obtain ⟨fragment, hfragment, -⟩ := fragmentOf_spec (by omega) hfits
          rw [hfragment, ok_bind, and_iff_right hfits]
          refine ih _ _ ?_ ?_
          · rw [length_drop]
            omega
          · rw [length_drop]
            omega
        · rw [fragmentOf_eq_panicked (by omega) hfits, panicked_bind]
          exact ⟨fun h => h.elim, fun h => absurd h.1 hfits⟩

theorem returns_readFrames_iff : (readFrames d).Returns ↔ FramesFit d :=
  returns_framesLoop_iff [] [] (lt_succ_self _) le_rfl

/-- What the loop keeps: the fragments are sized, and there is none before the first frame. -/
structure Collected (fragments : List CryptoFragment) (frameTypeList : List UInt8) : Prop where
  sized : ∀ f ∈ fragments, Sized f
  none_before : frameTypeList = [] → fragments = []

theorem collected_of_framesLoop {bytes : List UInt8}
    {fragments fragments' : List CryptoFragment} {frameTypeList frameTypeList' : List UInt8}
    (hbuffer : d.plaintext.length + d.beyond.length ≤ maxPayload)
    (hbytes : bytes.length ≤ d.plaintext.length) (h : Collected fragments frameTypeList)
    (hrun : framesLoop d fuel bytes fragments frameTypeList = .ok (fragments', frameTypeList')) :
    Collected fragments' frameTypeList' := by
  induction fuel generalizing bytes fragments frameTypeList with
  | zero =>
    cases bytes with
    | nil =>
      cases hrun
      exact h
    | cons frameType rest => cases hrun
  | succ fuel ih =>
    cases bytes with
    | nil =>
      cases hrun
      exact h
    | cons frameType rest =>
      rw [framesLoop, bind_eq_ok] at hrun
      obtain ⟨⟨frame, rest'⟩, hread, hrun⟩ := hrun
      rw [ofExcept_eq_ok] at hread
      rw [length_cons] at hbytes
      have htakes : rest'.length + 0 ≤ rest.length :=
        takes_readFrame frameType rest frame rest' hread
      dsimp only at hrun
      by_cases hfits : frame.length ≤ rest'.length + d.beyond.length
      · obtain ⟨fragment, hfragment, hsized⟩ := fragmentOf_spec (by omega) hfits
        rw [hfragment, ok_bind] at hrun
        refine ih ?_ ⟨fun f hf => ?_, fun hnil => by simp at hnil⟩ hrun
        · rw [length_drop]
          omega
        · rcases List.mem_append.1 hf with hf | hf
          · exact h.sized f hf
          · exact hsized (yields_readFrame frameType rest frame rest' hread) hbuffer f hf
      · rw [fragmentOf_eq_panicked (by omega) hfits, panicked_bind] at hrun
        cases hrun

variable {frameTypeList : List UInt8}

theorem collected_of_readFrames {fragments : List CryptoFragment}
    (hbuffer : d.plaintext.length + d.beyond.length ≤ maxPayload)
    (hrun : readFrames d = .ok (fragments, frameTypeList)) : Collected fragments frameTypeList :=
  collected_of_framesLoop hbuffer le_rfl ⟨by simp, fun _ => rfl⟩ hrun

/-! ### Reassembly -/

/-- The places that the reassembly comes to from a place on. -/
inductive Joins (fragments : List CryptoFragment) : UInt64 → UInt64 → Prop where
  | here (index : UInt64) : Joins fragments index index
  | next {index target : UInt64} {fragment : CryptoFragment}
      (found : fragments.find? (fun fragment => fragment.offset == index) = some fragment)
      (joins : Joins fragments (fragment.offset + fragment.length) target) :
      Joins fragments index target

/-- From a place on, the fragments that are taken have a length. -/
def StopsFrom (fragments : List CryptoFragment) (index : UInt64) : Prop :=
  ∀ target fragment, Joins fragments index target →
    fragments.find? (fun fragment => fragment.offset == target) = some fragment →
      fragment.length ≠ 0

/-- **The fragments that the reassembly takes have a length.** -/
def Stops (fragments : List CryptoFragment) : Prop := StopsFrom fragments 0

variable {fragments : List CryptoFragment} {index : UInt64} {fragment : CryptoFragment}

theorem offset_of_find
    (h : fragments.find? (fun fragment => fragment.offset == index) = some fragment) :
    fragment ∈ fragments ∧ fragment.offset = index := by
  have hoffset := find?_some h
  exact ⟨mem_of_find?_eq_some h, by simpa using hoffset⟩

theorem stopsFrom_of_returns {buffer : List UInt8}
    (h : (findLoop fragments fuel index buffer).Returns) : StopsFrom fragments index := by
  induction fuel generalizing index buffer with
  | zero => exact h.elim
  | succ fuel ih =>
    rw [findLoop] at h
    cases hfind : fragments.find? (fun fragment => fragment.offset == index) with
    | none =>
      intro target fragment hjoins hfound
      cases hjoins with
      | here =>
        rw [hfind] at hfound
        cases hfound
      | next hfound' =>
        rw [hfind] at hfound'
        cases hfound'
    | some first =>
      rw [hfind] at h
      have hrest := ih h
      have hlen : first.length ≠ 0 := by
        -- a fragment without a length is found again at the next place
        intro hzero
        have hsame : first.offset + first.length = index := by
          rw [hzero, UInt64.add_zero, (offset_of_find hfind).2]
        rw [hsame] at hrest
        exact hrest index first (.here index) hfind hzero
      intro target fragment hjoins hfound
      cases hjoins with
      | here =>
        rw [hfind] at hfound
        cases hfound
        exact hlen
      | next hfound' hjoins =>
        rw [hfind] at hfound'
        cases hfound'
        exact hrest target fragment hjoins hfound

/-- The fragments that begin at a place or after it. -/
def ahead (fragments : List CryptoFragment) (index : UInt64) : ℕ :=
  fragments.countP fun fragment => index.toNat ≤ fragment.offset.toNat

theorem ahead_lt (hsized : ∀ f ∈ fragments, Sized f)
    (hfind : fragments.find? (fun fragment => fragment.offset == index) = some fragment)
    (hlen : fragment.length ≠ 0) :
    ahead fragments (fragment.offset + fragment.length) < ahead fragments index := by
  obtain ⟨hmem, hoffset⟩ := offset_of_find hfind
  obtain ⟨hsmall, hshort⟩ := hsized fragment hmem
  rw [maxPayload] at hshort
  have hpos : 0 < fragment.length.toNat := by
    rw [Nat.pos_iff_ne_zero]
    intro hzero
    exact hlen (UInt64.toNat_inj.1 hzero)
  have hsum : (fragment.offset + fragment.length).toNat =
      fragment.offset.toNat + fragment.length.toNat := by
    rw [UInt64.toNat_add]
    omega
  have hindex : index.toNat = fragment.offset.toNat := by rw [hoffset]
  -- the others that lie ahead of the new place lay ahead of the old one
  have hperm := perm_cons_erase hmem
  have hfirst : decide (index.toNat ≤ fragment.offset.toNat) = true := by
    rw [decide_eq_true_eq]
    omega
  have hlater :
      ¬decide ((fragment.offset + fragment.length).toNat ≤ fragment.offset.toNat) = true := by
    rw [decide_eq_true_eq]
    omega
  have hmono : (fragments.erase fragment).countP
      (fun f => (fragment.offset + fragment.length).toNat ≤ f.offset.toNat) ≤
      (fragments.erase fragment).countP fun f => index.toNat ≤ f.offset.toNat := by
    refine countP_mono_left fun f _ hf => ?_
    rw [decide_eq_true_eq] at hf ⊢
    omega
  rw [ahead, ahead, hperm.countP_eq, hperm.countP_eq, countP_cons, countP_cons,
    if_pos hfirst, if_neg hlater]
  omega

theorem exists_findLoop (hsized : ∀ f ∈ fragments, Sized f) (buffer : List UInt8)
    (hstops : StopsFrom fragments index) (hfuel : ahead fragments index < fuel) :
    ∃ segment, findLoop fragments fuel index buffer = .ok segment := by
  induction fuel generalizing index buffer with
  | zero => omega
  | succ fuel ih =>
    rw [findLoop]
    cases hfind : fragments.find? (fun fragment => fragment.offset == index) with
    | none => exact ⟨buffer, rfl⟩
    | some fragment =>
      have hlt := ahead_lt hsized hfind (hstops index fragment (.here index) hfind)
      refine ih _ (fun target f hjoins => hstops target f (.next hfind hjoins)) ?_
      omega

/-- **The reassembly ends exactly if the fragments that it takes have a length.** -/
theorem returns_assemble_iff (hsized : ∀ f ∈ fragments, Sized f) :
    (∃ fuel segment, assemble fuel fragments = .ok segment) ↔ Stops fragments := by
  constructor
  · rintro ⟨fuel, segment, h⟩
    have hreturns : (findLoop fragments fuel 0 (recordHeader fragments)).Returns := by
      rw [show findLoop fragments fuel 0 (recordHeader fragments) = .ok segment from h]
      exact trivial
    exact stopsFrom_of_returns hreturns
  · intro hstops
    exact ⟨_, exists_findLoop hsized _ hstops (lt_succ_self _)⟩

/-- **The reassembly ends within one round for each fragment, and the round that finds none, exactly
if the fragments that it takes have a length.** -/
theorem rounds_iff (hsized : ∀ f ∈ fragments, Sized f) :
    (∃ segment, assemble (fragments.length + 1) fragments = .ok segment) ↔ Stops fragments := by
  constructor
  · rintro ⟨segment, h⟩
    exact (returns_assemble_iff hsized).1 ⟨_, segment, h⟩
  · intro hstops
    have hahead : ahead fragments 0 ≤ fragments.length := countP_le_length
    exact exists_findLoop hsized _ hstops (lt_succ_of_le hahead)

/-- Two fragments in a row, the first of them again, and one that overlaps both. -/
def overlapping : List CryptoFragment :=
  [⟨2, 1, [3]⟩, ⟨0, 2, [1, 2]⟩, ⟨0, 2, [1, 2]⟩, ⟨1, 2, [2, 3]⟩]

theorem overlapping_ends : Stops overlapping :=
  (rounds_iff (by simp only [overlapping, Sized]; decide)).1 ⟨_, rfl⟩

/-- An empty fragment at the beginning of the message. -/
def emptyFragment : CryptoFragment := { offset := 0, length := 0, payload := [] }

theorem findLoop_emptyFragment (fuel : ℕ) (buffer : List UInt8) :
    findLoop [emptyFragment] fuel 0 buffer = .exhausted := by
  induction fuel generalizing buffer with
  | zero => rfl
  | succ fuel ih => exact ih _

/-- **With an empty fragment the loop never ends.** -/
theorem emptyFragment_endless :
    Sized emptyFragment ∧ ∀ fuel, assemble fuel [emptyFragment] = .exhausted :=
  ⟨⟨by decide, by decide⟩, fun fuel => findLoop_emptyFragment fuel _⟩

theorem findLoop_unique {fuel fuel' : ℕ} {buffer segment segment' : List UInt8}
    (h : findLoop fragments fuel index buffer = .ok segment)
    (h' : findLoop fragments fuel' index buffer = .ok segment') : segment = segment' := by
  induction fuel generalizing fuel' index buffer with
  | zero => cases h
  | succ fuel ih =>
    cases fuel' with
    | zero => cases h'
    | succ fuel' =>
      rw [findLoop] at h h'
      cases hfind : fragments.find? (fun fragment => fragment.offset == index) with
      | none =>
        rw [hfind] at h h'
        cases h
        cases h'
        rfl
      | some fragment =>
        rw [hfind] at h h'
        exact ih h h'

theorem assemble_cases (fragments : List CryptoFragment) :
    assemble fuel fragments = .exhausted ∨ ∃ segment, assemble fuel fragments = .ok segment := by
  have hloop : ∀ (fuel : ℕ) (index : UInt64) (buffer : List UInt8),
      findLoop fragments fuel index buffer = .exhausted ∨
        ∃ segment, findLoop fragments fuel index buffer = .ok segment := by
    intro fuel
    induction fuel with
    | zero => exact fun _ _ => .inl rfl
    | succ fuel ih =>
      intro index buffer
      rw [findLoop]
      split
      · exact .inr ⟨buffer, rfl⟩
      · exact ih _ _
  exact hloop fuel 0 _

/-! ### The fragments that are left -/

/-- **What holds of the fragments that are left**: they are sized, and they do not make up a hello,
as the sniffer has kept them because they did not. -/
structure Incomplete (fragments : List CryptoFragment) : Prop where
  sized : ∀ f ∈ fragments, Sized f
  fails : ∀ fuel segment, assemble fuel fragments = .ok segment →
    ∃ err, JA3.parseSegment segment = .error err

theorem incomplete_nil : Incomplete [] where
  sized := by simp
  fails := by
    intro fuel segment h
    cases fuel with
    | zero => cases h
    | succ fuel =>
      cases h
      exact ⟨.length 3, rfl⟩

variable {metadata : InboundContext}

theorem sniffFrames_eq {frameTypeList segment : List UInt8}
    (h : assemble fuel fragments = .ok segment) :
    sniffFrames fuel metadata fragments frameTypeList =
      (do
        match ← attempt (JA3.parseSegment segment) with
        | .error err =>
          return (some (.needMoreData err), { metadata with
            protocol := "quic", sniffContext := fragments })
        | .ok fingerprint => do
            let client ← detectClient metadata.client frameTypeList fingerprint
            return (none, { metadata with
              protocol := "quic", sniffContext := []
              domain := fingerprint.serverName, client := client })) := by
  rw [sniffFrames, h]
  rfl

theorem incomplete_of_sniffFrames {result : Option SniffFailure × InboundContext}
    (hsized : ∀ f ∈ fragments, Sized f)
    (hrun : sniffFrames fuel metadata fragments frameTypeList = .ok result) :
    Incomplete result.2.sniffContext := by
  rcases assemble_cases fragments with hexhausted | ⟨segment, hsegment⟩
  · rw [sniffFrames, hexhausted, exhausted_bind] at hrun
    cases hrun
  · rw [sniffFrames_eq hsegment] at hrun
    cases hparse : JA3.parseSegment segment with
    | error err =>
      rw [hparse] at hrun
      cases hrun
      refine ⟨hsized, fun fuel' segment' hsegment' => ⟨err, ?_⟩⟩
      rw [← findLoop_unique hsegment hsegment', hparse]
    | ok fingerprint =>
      rw [hparse, attempt, ok_bind, bind_eq_ok] at hrun
      obtain ⟨client, -, hrun⟩ := hrun
      cases hrun
      exact incomplete_nil
    | panicked | exhausted =>
      rw [hparse] at hrun
      cases hrun

section

variable {crypto : Crypto} {metadata : InboundContext} {packet : List UInt8} {d : Decrypted}

theorem quicClientHello_of_error {err : GoError} (h : readInitial crypto packet = .error err) :
    quicClientHello crypto fuel metadata packet = .ok (some (.read err), metadata) := by
  rw [quicClientHello, h]
  rfl

theorem quicClientHello_of_ok (h : readInitial crypto packet = .ok d) :
    quicClientHello crypto fuel metadata packet =
      (do
        match ← attempt (readFrames d) with
        | .error err => return (some (.read err), metadata)
        | .ok (fragments, frameTypeList) =>
          sniffFrames fuel metadata (fragments ++ metadata.sniffContext) frameTypeList) := by
  rw [quicClientHello, h]
  rfl

theorem forall_sized_append {fragments' : List CryptoFragment} (h : ∀ f ∈ fragments, Sized f)
    (h' : ∀ f ∈ fragments', Sized f) : ∀ f ∈ fragments ++ fragments', Sized f := by
  intro f hf
  rcases List.mem_append.1 hf with hf | hf
  · exact h f hf
  · exact h' f hf

theorem incomplete_of_quicClientHello {result : Option SniffFailure × InboundContext}
    (hbefore : Incomplete metadata.sniffContext) (hlen : packet.length ≤ maxPayload)
    (hrun : quicClientHello crypto fuel metadata packet = .ok result) :
    Incomplete result.2.sniffContext := by
  rcases readInitial_spec crypto packet with ⟨err, hread⟩ | ⟨d, hread, hbuffer⟩
  · rw [quicClientHello_of_error hread] at hrun
    cases hrun
    exact hbefore
  · rw [quicClientHello_of_ok hread, bind_eq_ok] at hrun
    obtain ⟨frames, hframes, hrun⟩ := hrun
    cases frames with
    | error err =>
      cases hrun
      exact hbefore
    | ok frames =>
      obtain ⟨fragments, frameTypeList⟩ := frames
      rw [attempt_eq_ok_ok] at hframes
      have hcollected := collected_of_readFrames (hbuffer.trans hlen) hframes
      exact incomplete_of_sniffFrames (forall_sized_append hcollected.sized hbefore.sized) hrun

end

/-- **Fragments that are left do not make up a hello.** -/
theorem incomplete_of_left {crypto : Crypto} (h : Left crypto fragments) :
    Incomplete fragments := by
  induction h with
  | fresh => exact incomplete_nil
  | datagram before length_le run ih => exact incomplete_of_quicClientHello ih length_le run

/-! ### The sniffer -/

theorem returns_detectClient (client : GoString)
    (fingerprint : JA3.ClientHello) (h : frameTypeList ≠ []) :
    (detectClient client frameTypeList fingerprint).Returns := by
  have hpos : 0 < frameTypeList.length := List.length_pos_iff.2 h
  rw [detectClient]
  split
  · exact trivial
  split
  · exact trivial
  refine (returns_index hpos).bind fun first _ => ?_
  refine (returns_sliceFrom hpos).bind fun others _ => ?_
  split
  · exact trivial
  refine (returns_index (by omega)).bind fun last _ => ?_
  refine (returns_slice (Nat.zero_le _) (sub_le _ _)).bind fun before _ => ?_
  split
  · exact trivial
  split
  · exact trivial
  · exact trivial

/-- **The fragments that the sniffer can take**: the reassembly goes on at each, and if they make up
a hello, its lists lie in the extensions that hold them. -/
structure Readable (fragments : List CryptoFragment) : Prop where
  stops : Stops fragments
  fits : ∀ fuel segment hello exs, assemble fuel fragments = .ok segment →
    JA3.prepare segment = .ok (hello, exs) → JA3.ExtensionsFit exs

/-- The sniffer returns on the fragments that it can take; if there is no frame, the fragments are
to be those that were left. -/
theorem returns_sniffFrames_iff (metadata : InboundContext)
    (hsized : ∀ f ∈ fragments, Sized f) (hempty : frameTypeList = [] → Incomplete fragments) :
    (∃ fuel, (sniffFrames fuel metadata fragments frameTypeList).Returns) ↔ Readable fragments := by
  constructor
  · rintro ⟨fuel, h⟩
    rcases assemble_cases fragments with hexhausted | ⟨segment, hsegment⟩
    · rw [sniffFrames, hexhausted] at h
      exact h.elim
    · rw [sniffFrames_eq hsegment, returns_bind_iff, returns_attempt] at h
      refine ⟨(returns_assemble_iff hsized).1 ⟨fuel, segment, hsegment⟩, ?_⟩
      intro fuel' segment' hello exs hsegment' hprepare
      rw [← findLoop_unique hsegment hsegment'] at hprepare
      exact (JA3.returns_parseSegment_iff segment).1 h.1 hello exs hprepare
  · intro h
    obtain ⟨fuel, segment, hsegment⟩ := (returns_assemble_iff hsized).2 h.stops
    have hparse : (JA3.parseSegment segment).Returns := by
      rw [JA3.returns_parseSegment_iff]
      intro hello exs
      exact h.fits fuel segment hello exs hsegment
    refine ⟨fuel, ?_⟩
    rw [sniffFrames_eq hsegment]
    refine (returns_attempt.2 hparse).bind fun parsed hparsed => ?_
    cases parsed with
    | error err => exact trivial
    | ok fingerprint =>
      rw [attempt_eq_ok_ok] at hparsed
      have hne : frameTypeList ≠ [] := by
        intro hnil
        obtain ⟨err, herr⟩ := (hempty hnil).fails fuel segment hsegment
        rw [hparsed] at herr
        cases herr
      exact (returns_detectClient _ fingerprint hne).bind fun _ _ => trivial

/-- **The datagrams that the sniffer can take**, after those that have left `before`: the payloads
of the CRYPTO frames lie in the buffer, and the fragments can be taken. -/
def Harmless (crypto : Crypto) (before : List CryptoFragment) (packet : List UInt8) : Prop :=
  ∀ d, readInitial crypto packet = .ok d → FramesFit d ∧
    ∀ fragments frameTypeList, readFrames d = .ok (fragments, frameTypeList) →
      Readable (fragments ++ before)

theorem returns_iff_of_ok {crypto : Crypto} {packet : List UInt8}
    (hbefore : Incomplete metadata.sniffContext)
    (hbuffer : d.plaintext.length + d.beyond.length ≤ maxPayload)
    (hread : readInitial crypto packet = .ok d) :
    Returns crypto metadata packet ↔ FramesFit d ∧
      ∀ fragments frameTypeList, readFrames d = .ok (fragments, frameTypeList) →
        Readable (fragments ++ metadata.sniffContext) := by
  rw [← returns_readFrames_iff, Returns]
  simp only [quicClientHello_of_ok hread]
  cases hframes : readFrames d with
  | ok frames =>
    obtain ⟨fragments, frameTypeList⟩ := frames
    have hcollected := collected_of_readFrames hbuffer hframes
    have hempty : frameTypeList = [] → Incomplete (fragments ++ metadata.sniffContext) := by
      intro hnil
      rw [hcollected.none_before hnil]
      exact hbefore
    have hsniff := returns_sniffFrames_iff metadata
      (forall_sized_append hcollected.sized hbefore.sized) hempty
    constructor
    · intro h
      refine ⟨trivial, fun fragments' frameTypeList' heq => ?_⟩
      cases heq
      exact hsniff.1 h
    · intro h
      exact hsniff.2 (h.2 fragments frameTypeList rfl)
  | error err => exact ⟨fun _ => ⟨trivial, nofun⟩, fun _ => ⟨0, trivial⟩⟩
  | panicked | exhausted => exact ⟨fun ⟨_, h⟩ => h.elim, fun h => h.1.elim⟩

/-- **The sniffer returns exactly on the harmless datagrams.** -/
theorem returns_iff (crypto : Crypto) (metadata : InboundContext) (packet : List UInt8)
    (hleft : Left crypto metadata.sniffContext) (hlength : packet.length ≤ maxPayload) :
    Returns crypto metadata packet ↔ Harmless crypto metadata.sniffContext packet := by
  rcases readInitial_spec crypto packet with ⟨err, hread⟩ | ⟨d, hread, hbuffer⟩
  · constructor
    · intro _ d hread'
      rw [hread] at hread'
      cases hread'
    · intro _
      refine ⟨0, ?_⟩
      rw [quicClientHello_of_error hread]
      exact trivial
  · rw [returns_iff_of_ok (incomplete_of_left hleft) (hbuffer.trans hlength) hread]
    constructor
    · intro h d' hread'
      rw [hread] at hread'
      cases hread'
      exact h
    · intro h
      exact h d hread

/-- Functions in place of HKDF, AES and the AEAD, under which the payload is the plaintext. -/
def plainCrypto : Crypto where
  extract _ _ := []
  expandLabel _ _ _ := []
  encryptBlock _ _ := List.replicate 16 0
  encryptBlock_length _ _ := List.length_replicate
  openAEAD _ _ _ ciphertext _ :=
    if ciphertext.length < 16 then none else some (ciphertext.take (ciphertext.length - 16))
  openAEAD_length := by
    intro key iv nonce ciphertext additionalData plaintext h
    rw [Option.ite_none_left_eq_some] at h
    obtain ⟨hlen, h⟩ := h
    cases h
    rw [List.length_take]
    omega

/-- An Initial packet with a payload, under those functions. -/
def initialPacket (payload : List UInt8) : List UInt8 :=
  [0xC0, 0x00, 0x00, 0x00, 0x01, 0x01, 0x00, 0x00, 0x00, .ofNat (payload.length + 17), 0x00] ++
    payload ++ List.replicate 16 0

/-- The second byte of the message comes first, with padding; the first byte follows. -/
theorem harmless_crypto : Left plainCrypto [⟨1, 1, [7]⟩] ∧
    (initialPacket [0x06, 0x00, 0x01, 1]).length ≤ maxPayload ∧
    Harmless plainCrypto [⟨1, 1, [7]⟩] (initialPacket [0x06, 0x00, 0x01, 1]) := by
  obtain ⟨result, hrun, hkept⟩ : ∃ result, quicClientHello plainCrypto 1 {}
      (initialPacket [0x00, 0x06, 0x01, 0x01, 7]) = .ok result ∧
        result.2.sniffContext = [⟨1, 1, [7]⟩] := ⟨_, rfl, rfl⟩
  have hleft := hkept ▸ Left.datagram .fresh (by decide) hrun
  refine ⟨hleft, by decide, ?_⟩
  exact (returns_iff plainCrypto { sniffContext := [⟨1, 1, [7]⟩] } _ hleft (by decide)).1
    ⟨3, trivial⟩

/-- A CRYPTO frame that is said to have 63 bytes and has none is a slice out of range; and with one
that is empty, at the beginning of the message, the reassembly goes on for ever. -/
theorem not_returns_crypto : Left plainCrypto [] ∧
    (initialPacket [0x06, 0x00, 0x3F]).length ≤ maxPayload ∧
    (∀ fuel, quicClientHello plainCrypto fuel {} (initialPacket [0x06, 0x00, 0x3F]) = .panicked) ∧
    ¬Returns plainCrypto {} (initialPacket [0x06, 0x00, 0x3F]) ∧
    (initialPacket [0x06, 0x00, 0x00]).length ≤ maxPayload ∧
    ¬Returns plainCrypto {} (initialPacket [0x06, 0x00, 0x00]) := by
  refine ⟨.fresh, by decide, fun fuel => rfl, fun ⟨_, h⟩ => h, by decide, ?_⟩
  rintro ⟨fuel, h⟩
  have hrun : quicClientHello plainCrypto fuel {} (initialPacket [0x06, 0x00, 0x00]) =
      sniffFrames fuel {} [emptyFragment] [0x06] := rfl
  rw [hrun, sniffFrames, assemble, findLoop_emptyFragment] at h
  exact h

end SingBox.QUIC
