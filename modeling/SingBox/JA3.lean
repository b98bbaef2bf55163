/-
**Fingerprints of TLS client hellos** (`common/ja3/parser.go`).

`parseSegment` reads a TLS record with a client hello: the record and handshake headers, the cipher
suites, and the extensions one after another.  Before most of its index expressions it asks whether
there are bytes enough.  In two extensions it does not: a list of supported versions and a list of
signature algorithms announce their own length, and this is not compared with that of the extension.

* `JA3.returns_handshakeOf`, `JA3.returns_headOf` — up to the extensions every index is in range;
* `JA3.returns_parseExtension_iff` — an extension is read unless one of the two lists is too long;
* `JA3.returns_parseSegment_iff` — **a record is parsed without a panic exactly if the lists of the
  extensions that the loop comes to fit**.
-/

import SingBox.Checked
import SingBox.GoString

namespace SingBox.JA3

open Checked List GoString

/-! ### The parser -/

/-- `ParseError`. -/
inductive ParseError where
  | length (check : ℕ)
  | contentType
  | version (check : ℕ)
  | handshakeType
  | sniType

/-- `ClientHello`, without the text and the hash that are made of it. -/
structure ClientHello where
  version : UInt16 := 0
  (cipherSuites extensions ellipticCurves : List UInt16 := [])
  ellipticCurvePF : List UInt8 := []
  (versions signatureAlgorithms : List UInt16 := [])
  serverName : GoString := []

/-- The number in two bytes. -/
def uint16 (hi lo : UInt8) : UInt16 := .ofNat (hi.toNat * 256 + lo.toNat)

/-- `uint16(b[i])<<8 | uint16(b[i+1])`. -/
def uint16At (b : List UInt8) (i : ℕ) : Checked ParseError UInt16 := do
  let hi ← index b i
  let lo ← index b (i + 1)
  return uint16 hi lo

/-- `binary.BigEndian.Uint16`. -/
def bigEndianUint16 (b : List UInt8) : Checked ParseError UInt16 := do
  let lo ← index b 1
  let hi ← index b 0
  return uint16 hi lo

/-- The versions from SSL 3.0 to TLS 1.3. -/
def supported (version : UInt16) : Bool := version &&& 0xFFFC == 0x0300 || version == 0x0304

/-- `parseSegment` up to the call of `parseHandshake`: the handshake message. -/
def handshakeOf (segment : List UInt8) : Checked ParseError (List UInt8) :=
  if segment.length < 5 then .error (.length 1)
  else do
    let contType ← index segment 0
    if contType ≠ 22 then .error .contentType
    else do
      let tlsRecordVersion ← uint16At segment 1
      if ¬supported tlsRecordVersion then .error (.version 1)
      else do
        let segmentLen ← uint16At segment 3
        let rest ← sliceFrom segment 5
        if rest.length < segmentLen.toNat then .error (.length 2)
        else slice segment 5 (5 + segmentLen.toNat)

/-- The cipher suites, and what follows the compression methods. -/
def cipherSuitesOf (cs : List UInt8) : Checked ParseError (List UInt16 × List UInt8) :=
  if cs.length < 2 then .error (.length 6)
  else do
    let csLen ← uint16At cs 0
    if cs.length < 2 + csLen.toNat + 1 then .error (.length 7)
    else do
      let cipherSuites ← collect (fun i => uint16At cs (2 + 2 * i)) 0 (csLen.toNat / 2)
      let compressMethodLen ← index cs (2 + csLen.toNat)
      if cs.length < 2 + csLen.toNat + 1 + compressMethodLen.toNat then .error (.length 8)
      else do
        let exs ← sliceFrom cs (2 + csLen.toNat + 1 + compressMethodLen.toNat)
        return (cipherSuites, exs)

/-- `parseHandshake` up to the call of `parseExtensions`: the hello so far and the extensions. -/
def headOf (hs : List UInt8) : Checked ParseError (ClientHello × List UInt8) :=
  if hs.length < 39 then .error (.length 3)
  else do
    let handshType ← index hs 0
    if handshType ≠ 1 then .error .handshakeType
    else do
      let len₁ ← index hs 1
      let len₂ ← index hs 2
      let len₃ ← index hs 3
      let rest ← sliceFrom hs 4
      if rest.length ≠ (len₁.toNat * 256 + len₂.toNat) * 256 + len₃.toNat then .error (.length 4)
      else do
        let tlsVersion ← uint16At hs 4
        if ¬supported tlsVersion then .error (.version 2)
        else do
          let sessionIDLen ← index hs 38
          if hs.length < 39 + sessionIDLen.toNat then .error (.length 5)
          else do
            let cs ← sliceFrom hs (39 + sessionIDLen.toNat)
            let (cipherSuites, exs) ← cipherSuitesOf cs
            return ({ version := tlsVersion, cipherSuites := cipherSuites }, exs)

/-- The extension `server_name`. -/
def parseServerName (sex : List UInt8) : Checked ParseError GoString :=
  if sex.length < 5 then .error (.length 13)
  else do
    let sniType ← index sex 2
    let sniLen ← uint16At sex 3
    let sex ← sliceFrom sex 5
    if sex.length ≠ sniLen.toNat then .error (.length 14)
    else if sniType = 0 then return sex else .error .sniType

/-- The extension `supported_groups`. -/
def parseCurves (sex : List UInt8) : Checked ParseError (List UInt16) :=
  if sex.length < 2 then .error (.length 15)
  else do
    let ecsLen ← uint16At sex 0
    let sex ← sliceFrom sex 2
    if sex.length ≠ ecsLen.toNat then .error (.length 16)
    else collect (fun i => uint16At sex (2 * i)) 0 (ecsLen.toNat / 2)

/-- The extension `ec_point_formats`. -/
def parsePointFormats (sex : List UInt8) : Checked ParseError (List UInt8) :=
  if sex.length < 1 then .error (.length 17)
  else do
    let ecpfsLen ← index sex 0
    let sex ← sliceFrom sex 1
    if sex.length ≠ ecpfsLen.toNat then .error (.length 18)
    else collect (fun i => index sex i) 0 ecpfsLen.toNat

/-- The loop over a list of two-byte values behind a header, `for i := 0; i < length; i += 2`. -/
def uint16sFrom (sex : List UInt8) (header length : ℕ) : Checked ParseError (List UInt16) :=
  collect (fun i => do
    let body ← sliceFrom sex header
    let value ← sliceFrom body (2 * i)
    bigEndianUint16 value) 0 ((length + 1) / 2)

/-- The extension `supported_versions`. -/
def parseVersions (sex : List UInt8) : Checked ParseError (List UInt16) :=
  if sex.length < 1 then .error (.length 19)
  else do
    let versionsLen ← index sex 0
    uint16sFrom sex 1 versionsLen.toNat

/-- The extension `signature_algorithms`. -/
def parseSignatureAlgorithms (sex : List UInt8) : Checked ParseError (List UInt16) :=
  if sex.length < 2 then .error (.length 20)
  else do
    let ssaLen ← bigEndianUint16 sex
    uint16sFrom sex 2 ssaLen.toNat

/-- What an extension does to the hello. -/
def parseExtension (exType : UInt16) (sex : List UInt8) :
    Checked ParseError (ClientHello → ClientHello) :=
  if exType = 0 then do
    let sni ← parseServerName sex
    return fun hello => { hello with serverName := sni }
  else if exType = 10 then do
    let curves ← parseCurves sex
    return fun hello => { hello with ellipticCurves := curves }
  else if exType = 11 then do
    let formats ← parsePointFormats sex
    return fun hello => { hello with ellipticCurvePF := formats }
  else if exType = 43 then do
    let versions ← parseVersions sex
    return fun hello => { hello with versions := hello.versions ++ versions }
  else if exType = 13 then do
    let algorithms ← parseSignatureAlgorithms sex
    return fun hello => { hello with
      signatureAlgorithms := hello.signatureAlgorithms ++ algorithms }
  else return id

/-- The type of the first extension, its length and its body. -/
def readExtension (exs : List UInt8) : Checked ParseError (UInt16 × UInt16 × List UInt8) :=
  if exs.length < 4 then .error (.length 11)
  else do
    let exType ← uint16At exs 0
    let exLen ← uint16At exs 2
    if exs.length < 4 + exLen.toNat then .error (.length 12)
    else do
      let sex ← slice exs 4 (4 + exLen.toNat)
      return (exType, exLen, sex)

/-- The loop over the extensions.  The sum `4 + exLen` is one of 16-bit numbers. -/
def extensionsLoop : ℕ → List UInt8 → ClientHello → Checked ParseError ClientHello
  | _, [], hello => .ok hello
  | 0, _ :: _, _ => .exhausted
  | fuel + 1, b :: exs, hello => do
      let (exType, exLen, sex) ← readExtension (b :: exs)
      let update ← parseExtension exType sex
      let rest ← sliceFrom (b :: exs) (4 + exLen).toNat
      extensionsLoop fuel rest (update { hello with extensions := hello.extensions ++ [exType] })

/-- `parseExtensions` up to its loop: the extensions without their length. -/
def extensionsOf (exs : List UInt8) : Checked ParseError (List UInt8) :=
  if exs.length = 0 then .ok []
  else if exs.length < 2 then .error (.length 9)
  else do
    let exsLen ← uint16At exs 0
    let exs ← sliceFrom exs 2
    if exs.length < exsLen.toNat then .error (.length 10) else return exs

/-- What `parseSegment` does before the loop over the extensions. -/
def prepare (segment : List UInt8) : Checked ParseError (ClientHello × List UInt8) := do
  let hs ← handshakeOf segment
  let (hello, exs) ← headOf hs
  let exs ← extensionsOf exs
  return (hello, exs)

/-- `parseSegment`, which is all of `Compute`. -/
def parseSegment (segment : List UInt8) : Checked ParseError ClientHello := do
  let (hello, exs) ← prepare segment
  extensionsLoop (exs.length + 1) exs hello

/-! ### Indices in range -/

theorem returns_uint16At {b : List UInt8} {i : ℕ} (h : i + 1 < b.length) : (uint16At b i).Returns :=
  (returns_index (by omega)).bind fun _ _ => (returns_index h).bind fun _ _ => trivial

theorem uint16At_ne_error (b : List UInt8) (i : ℕ) (err : ParseError) :
    uint16At b i ≠ .error err := by
  refine bind_ne_error (index_ne_error b i err) fun hi => ?_
  refine bind_ne_error (index_ne_error b (i + 1) err) fun lo => ?_
  exact ok_ne_error _ err

theorem bigEndianUint16_ne_error (b : List UInt8) (err : ParseError) :
    bigEndianUint16 b ≠ .error err := by
  refine bind_ne_error (index_ne_error b 1 err) fun lo => ?_
  refine bind_ne_error (index_ne_error b 0 err) fun hi => ?_
  exact ok_ne_error _ err

variable (segment : List UInt8)

theorem returns_handshakeOf : (handshakeOf segment).Returns := by
  refine returns_ite fun hlen => ?_
  refine (returns_index (by omega)).bind fun contType _ => returns_ite fun _ => ?_
  refine (returns_uint16At (by omega)).bind fun version _ => returns_ite fun _ => ?_
  refine (returns_uint16At (by omega)).bind fun segmentLen _ => ?_
  rw [sliceFrom_eq (by omega), ok_bind]
  refine returns_ite fun hrest => returns_slice (by omega) ?_
  rw [length_drop] at hrest
  omega

theorem length_of_handshakeOf {segment hs : List UInt8} (h : handshakeOf segment = .ok hs) :
    hs.length < 65536 := by
  rw [handshakeOf, ite_eq_ok, bind_eq_ok] at h
  obtain ⟨-, contType, -, h⟩ := h
  rw [ite_eq_ok, bind_eq_ok] at h
  obtain ⟨-, version, -, h⟩ := h
  rw [ite_eq_ok, bind_eq_ok] at h
  obtain ⟨-, segmentLen, -, h⟩ := h
  rw [bind_eq_ok] at h
  obtain ⟨rest, -, h⟩ := h
  rw [ite_eq_ok] at h
  have hlen := (length_of_slice h.2).1
  have hlt := segmentLen.toNat_lt
  omega

theorem returns_cipherSuitesOf (cs : List UInt8) : (cipherSuitesOf cs).Returns := by
  refine returns_ite fun hlen => ?_
  refine (returns_uint16At (by omega)).bind fun csLen _ => returns_ite fun hsuites => ?_
  have hcollect : (collect (fun i => uint16At cs (2 + 2 * i)) 0 (csLen.toNat / 2)).Returns := by
    rw [returns_collect_iff fun i err => uint16At_ne_error cs _ err]
    intro j hj
    exact returns_uint16At (by omega)
  refine hcollect.bind fun cipherSuites _ => ?_
  refine (returns_index (by omega)).bind fun compressMethodLen _ => returns_ite fun hmethods => ?_
  exact (returns_sliceFrom (by omega)).bind fun _ _ => trivial

theorem length_of_cipherSuitesOf {cs exs : List UInt8} {cipherSuites : List UInt16}
    (h : cipherSuitesOf cs = .ok (cipherSuites, exs)) : exs.length ≤ cs.length := by
  rw [cipherSuitesOf, ite_eq_ok, bind_eq_ok] at h
  obtain ⟨-, csLen, -, h⟩ := h
  rw [ite_eq_ok, bind_eq_ok] at h
  obtain ⟨-, suites, -, h⟩ := h
  rw [bind_eq_ok] at h
  obtain ⟨compressMethodLen, -, h⟩ := h
  rw [ite_eq_ok, bind_eq_ok] at h
  obtain ⟨-, exs', hexs, h⟩ := h
  cases h
  have hlen := length_of_slice hexs
  omega

theorem returns_headOf (hs : List UInt8) : (headOf hs).Returns := by
  refine returns_ite fun hlen => ?_
  refine (returns_index (by omega)).bind fun handshType _ => returns_ite fun _ => ?_
  refine (returns_index (by omega)).bind fun len₁ _ => ?_
  refine (returns_index (by omega)).bind fun len₂ _ => ?_
  refine (returns_index (by omega)).bind fun len₃ _ => ?_
  refine (returns_sliceFrom (by omega)).bind fun rest _ => returns_ite fun _ => ?_
  refine (returns_uint16At (by omega)).bind fun tlsVersion _ => returns_ite fun _ => ?_
  refine (returns_index (by omega)).bind fun sessionIDLen _ => returns_ite fun hsession => ?_
  refine (returns_sliceFrom (by omega)).bind fun cs _ => ?_
  exact (returns_cipherSuitesOf cs).bind fun _ _ => trivial

theorem length_of_headOf {hs exs : List UInt8} {hello : ClientHello}
    (h : headOf hs = .ok (hello, exs)) : exs.length ≤ hs.length := by
  rw [headOf, ite_eq_ok, bind_eq_ok] at h
  obtain ⟨-, handshType, -, h⟩ := h
  rw [ite_eq_ok, bind_eq_ok] at h
  obtain ⟨-, len₁, -, h⟩ := h
  rw [bind_eq_ok] at h
  obtain ⟨len₂, -, h⟩ := h
  rw [bind_eq_ok] at h
  obtain ⟨len₃, -, h⟩ := h
  rw [bind_eq_ok] at h
  obtain ⟨rest, -, h⟩ := h
  rw [ite_eq_ok, bind_eq_ok] at h
  obtain ⟨-, tlsVersion, -, h⟩ := h
  rw [ite_eq_ok, bind_eq_ok] at h
  obtain ⟨-, sessionIDLen, -, h⟩ := h
  rw [ite_eq_ok, bind_eq_ok] at h
  obtain ⟨-, cs, hcs, h⟩ := h
  rw [bind_eq_ok] at h
  obtain ⟨⟨cipherSuites, exs'⟩, hsuites, h⟩ := h
  cases h
  have hle := length_of_cipherSuitesOf hsuites
  have hlen := length_of_slice hcs
  omega

theorem returns_extensionsOf (exs : List UInt8) : (extensionsOf exs).Returns := by
  rw [extensionsOf]
  split
  · exact trivial
  · refine returns_ite fun hlen => ?_
    refine (returns_uint16At (by omega)).bind fun exsLen _ => ?_
    exact (returns_sliceFrom (by omega)).bind fun exs _ => returns_ite fun _ => trivial

theorem length_of_extensionsOf {exs exs' : List UInt8} (h : extensionsOf exs = .ok exs') :
    exs'.length ≤ exs.length := by
  rw [extensionsOf] at h
  split at h
  · cases h
    exact Nat.zero_le _
  · rw [ite_eq_ok, bind_eq_ok] at h
    obtain ⟨-, exsLen, -, h⟩ := h
    rw [bind_eq_ok] at h
    obtain ⟨rest, hrest, h⟩ := h
    rw [ite_eq_ok] at h
    obtain ⟨-, h⟩ := h
    cases h
    have hlen := length_of_slice hrest
    omega

/-- **Up to the extensions every index is in range.** -/
theorem returns_prepare : (prepare segment).Returns :=
  (returns_handshakeOf segment).bind fun hs _ => (returns_headOf hs).bind fun head _ =>
    (returns_extensionsOf head.2).bind fun _ _ => trivial

theorem length_of_prepare {segment exs : List UInt8} {hello : ClientHello}
    (h : prepare segment = .ok (hello, exs)) : exs.length < 65536 := by
  rw [prepare, bind_eq_ok] at h
  obtain ⟨hs, hhs, h⟩ := h
  rw [bind_eq_ok] at h
  obtain ⟨⟨hello', exs'⟩, hhead, h⟩ := h
  rw [bind_eq_ok] at h
  obtain ⟨exs'', hexs, h⟩ := h
  cases h
  have h1 := length_of_handshakeOf hhs
  have h2 := length_of_headOf hhead
  have h3 := length_of_extensionsOf hexs
  omega

/-! ### One extension -/

variable (sex : List UInt8)

theorem returns_parseServerName : (parseServerName sex).Returns := by
  refine returns_ite fun hlen => ?_
  refine (returns_index (by omega)).bind fun sniType _ => ?_
  refine (returns_uint16At (by omega)).bind fun sniLen _ => ?_
  refine (returns_sliceFrom (by omega)).bind fun rest _ => returns_ite fun _ => ?_
  split
  · exact trivial
  · exact trivial

theorem returns_parseCurves : (parseCurves sex).Returns := by
  refine returns_ite fun hlen => ?_
  refine (returns_uint16At (by omega)).bind fun ecsLen _ => ?_
  refine (returns_sliceFrom (by omega)).bind fun rest _ => returns_ite fun hrest => ?_
  rw [returns_collect_iff fun i err => uint16At_ne_error rest _ err]
  intro j hj
  exact returns_uint16At (by omega)

theorem returns_parsePointFormats : (parsePointFormats sex).Returns := by
  refine returns_ite fun hlen => ?_
  refine (returns_index (by omega)).bind fun ecpfsLen _ => ?_
  refine (returns_sliceFrom (by omega)).bind fun rest _ => returns_ite fun hrest => ?_
  rw [returns_collect_iff fun i err => index_ne_error rest _ err]
  intro j hj
  exact returns_index (by omega)

theorem returns_bigEndianUint16_iff {b : List UInt8} :
    (bigEndianUint16 b).Returns ↔ 2 ≤ b.length := by
  rw [bigEndianUint16, returns_bind_iff]
  constructor
  · rintro ⟨hindex, -⟩
    by_contra hlt
    rw [index_eq_panicked (by omega)] at hindex
    exact hindex
  · intro hlen
    exact ⟨returns_index (by omega), fun _ _ => (returns_index (by omega)).bind fun _ _ => trivial⟩

/-- **A list is read if it is no longer than what follows the header.** -/
theorem returns_uint16sFrom_iff {sex : List UInt8} {header : ℕ} (hheader : header ≤ sex.length)
    (length : ℕ) :
    (uint16sFrom sex header length).Returns ↔ length + length % 2 ≤ sex.length - header := by
  have hvalue : ∀ i, (do
      let body ← sliceFrom sex header
      let value ← sliceFrom body (2 * i)
      bigEndianUint16 value : Checked ParseError UInt16).Returns ↔
      2 * i + 2 ≤ sex.length - header := by
    intro i
    rw [sliceFrom_eq hheader, ok_bind]
    by_cases hi : 2 * i ≤ (sex.drop header).length
    · rw [sliceFrom_eq hi, ok_bind, returns_bigEndianUint16_iff, length_drop, length_drop]
      rw [length_drop] at hi
      omega
    · rw [sliceFrom_eq_panicked (by omega), panicked_bind]
      rw [length_drop] at hi
      exact ⟨fun h => h.elim, fun h => by omega⟩
  have herror : ∀ i err, (do
      let body ← sliceFrom sex header
      let value ← sliceFrom body (2 * i)
      bigEndianUint16 value : Checked ParseError UInt16) ≠ .error err := by
    intro i err
    refine bind_ne_error (sliceFrom_ne_error sex header err) fun body => ?_
    refine bind_ne_error (sliceFrom_ne_error body _ err) fun value => ?_
    exact bigEndianUint16_ne_error value err
  rw [uint16sFrom, returns_collect_iff herror]
  simp only [hvalue, Nat.zero_add]
  constructor
  · intro h
    by_cases hpos : 0 < (length + 1) / 2
    · have := h ((length + 1) / 2 - 1) (by omega)
      omega
    · omega
  · intro h j hj
    omega

/-- The list that an extension announces is no longer than what follows its header. -/
def ListsFit (exType : UInt16) (sex : List UInt8) : Prop :=
  (exType = 43 → ∀ n rest, sex = n :: rest → n.toNat + n.toNat % 2 ≤ rest.length) ∧
    (exType = 13 → ∀ hi lo rest, sex = hi :: lo :: rest →
      (uint16 hi lo).toNat + (uint16 hi lo).toNat % 2 ≤ rest.length)

theorem returns_parseVersions_iff :
    (parseVersions sex).Returns ↔
      ∀ n rest, sex = n :: rest → n.toNat + n.toNat % 2 ≤ rest.length := by
  cases sex with
  | nil => exact ⟨fun _ _ _ => nofun, fun _ => trivial⟩
  | cons n rest =>
    have hparse : parseVersions (n :: rest) = uint16sFrom (n :: rest) 1 n.toNat := by
      rw [parseVersions, if_neg (by simp)]
      rfl
    rw [hparse, returns_uint16sFrom_iff (by simp), length_cons, Nat.add_sub_cancel]
    refine ⟨fun h n' rest' heq => ?_, fun h => h n rest rfl⟩
    cases heq
    exact h

theorem returns_parseSignatureAlgorithms_iff :
    (parseSignatureAlgorithms sex).Returns ↔ ∀ hi lo rest, sex = hi :: lo :: rest →
      (uint16 hi lo).toNat + (uint16 hi lo).toNat % 2 ≤ rest.length := by
  match sex with
  | [] | [_] => exact ⟨fun _ _ _ _ => nofun, fun _ => trivial⟩
  | hi :: lo :: rest =>
    have hparse : parseSignatureAlgorithms (hi :: lo :: rest) =
        uint16sFrom (hi :: lo :: rest) 2 (uint16 hi lo).toNat := by
      rw [parseSignatureAlgorithms, if_neg (by simp)]
      rfl
    rw [hparse, returns_uint16sFrom_iff (by simp), length_cons, length_cons]
    refine ⟨fun h hi' lo' rest' heq => ?_, fun h => ?_⟩
    · cases heq
      exact h
    · have := h hi lo rest rfl
      omega

/-- **An extension is read unless the list of versions or signature algorithms in it is too
long.** -/
theorem returns_parseExtension_iff (exType : UInt16) (sex : List UInt8) :
    (parseExtension exType sex).Returns ↔ ListsFit exType sex := by
  have hpure : ∀ {α β : Type} {x : Checked ParseError α} {f : α → β},
      (do return f (← x) : Checked ParseError β).Returns ↔ x.Returns := by
    intro α β x f
    rw [returns_bind_iff]
    exact ⟨And.left, fun h => ⟨h, fun _ _ => trivial⟩⟩
  have hother : exType ≠ 43 → exType ≠ 13 → ListsFit exType sex :=
    fun h43 h13 => ⟨fun h => absurd h h43, fun h => absurd h h13⟩
  rw [parseExtension]
  split
  · subst exType
    exact ⟨fun _ => hother (by decide) (by decide), fun _ => hpure.2 (returns_parseServerName sex)⟩
  split
  · subst exType
    exact ⟨fun _ => hother (by decide) (by decide), fun _ => hpure.2 (returns_parseCurves sex)⟩
  split
  · subst exType
    exact ⟨fun _ => hother (by decide) (by decide),
      fun _ => hpure.2 (returns_parsePointFormats sex)⟩
  split
  · subst exType
    rw [hpure, returns_parseVersions_iff]
    exact ⟨fun h => ⟨fun _ => h, fun h13 => absurd h13 (by decide)⟩, fun h => h.1 rfl⟩
  split
  · subst exType
    rw [hpure, returns_parseSignatureAlgorithms_iff]
    exact ⟨fun h => ⟨fun h43 => absurd h43 (by decide), fun _ => h⟩, fun h => h.2 rfl⟩
  · exact ⟨fun _ => hother ‹_› ‹_›, fun _ => trivial⟩

/-! ### The loop over the extensions -/

theorem returns_readExtension (exs : List UInt8) : (readExtension exs).Returns := by
  refine returns_ite fun hlen => ?_
  refine (returns_uint16At (by omega)).bind fun exType _ => ?_
  refine (returns_uint16At (by omega)).bind fun exLen _ => returns_ite fun hbody => ?_
  exact (returns_slice (by omega) (by omega)).bind fun _ _ => trivial

variable {exType exLen : UInt16} {exs sex : List UInt8}

theorem length_of_readExtension
    (h : readExtension exs = .ok (exType, exLen, sex)) : 4 + exLen.toNat ≤ exs.length := by
  rw [readExtension, ite_eq_ok, bind_eq_ok] at h
  obtain ⟨-, exType', -, h⟩ := h
  rw [bind_eq_ok] at h
  obtain ⟨exLen', -, h⟩ := h
  rw [ite_eq_ok, bind_eq_ok] at h
  obtain ⟨hlen, sex', -, h⟩ := h
  cases h
  omega

theorem toNat_four_add
    (hexs : exs.length < 65536) (h : readExtension exs = .ok (exType, exLen, sex)) :
    (4 + exLen).toNat = 4 + exLen.toNat := by
  have hlen := length_of_readExtension h
  rw [UInt16.toNat_add, show (4 : UInt16).toNat = 4 from rfl]
  omega

/-- The extensions that the loop comes to, after those before them were read. -/
inductive LeadsTo : List UInt8 → List UInt8 → Prop where
  | here (exs : List UInt8) : LeadsTo exs exs
  | next {exs rest sex : List UInt8} {exType exLen : UInt16} {update : ClientHello → ClientHello}
      (read : readExtension exs = .ok (exType, exLen, sex))
      (parsed : parseExtension exType sex = .ok update)
      (leads : LeadsTo (exs.drop (4 + exLen.toNat)) rest) : LeadsTo exs rest

/-- The lists of all extensions that the loop comes to fit. -/
def ExtensionsFit (exs : List UInt8) : Prop :=
  ∀ rest exType exLen sex, LeadsTo exs rest → readExtension rest = .ok (exType, exLen, sex) →
    ListsFit exType sex

theorem extensionsFit_iff (hread : readExtension exs = .ok (exType, exLen, sex)) :
    ExtensionsFit exs ↔ ListsFit exType sex ∧
      ∀ update, parseExtension exType sex = .ok update →
        ExtensionsFit (exs.drop (4 + exLen.toNat)) := by
  constructor
  · intro h
    refine ⟨h exs exType exLen sex (.here exs) hread, fun update hparsed => ?_⟩
    intro rest exType' exLen' sex' hleads
    exact h rest exType' exLen' sex' (.next hread hparsed hleads)
  · rintro ⟨hfirst, hrest⟩ rest exType' exLen' sex' hleads hread'
    cases hleads with
    | here =>
      rw [hread] at hread'
      cases hread'
      exact hfirst
    | next hread'' hparsed hleads =>
      rw [hread] at hread''
      cases hread''
      exact hrest _ hparsed rest exType' exLen' sex' hleads hread'

theorem extensionsFit_of_error {exs : List UInt8} {err : ParseError}
    (hread : readExtension exs = .error err) : ExtensionsFit exs := by
  intro rest exType exLen sex hleads hread'
  cases hleads with
  | here =>
    rw [hread] at hread'
    cases hread'
  | next hread'' =>
    rw [hread] at hread''
    cases hread''

/-- **The loop over the extensions ends**, and panics exactly at a list that does not fit. -/
theorem returns_extensionsLoop_iff {fuel : ℕ} (hello : ClientHello)
    (hfuel : exs.length < fuel) (hexs : exs.length < 65536) :
    (extensionsLoop fuel exs hello).Returns ↔ ExtensionsFit exs := by
  induction fuel generalizing exs hello with
  | zero => omega
  | succ fuel ih =>
    cases exs with
    | nil =>
      have herror : readExtension [] = .error (.length 11) := rfl
      exact ⟨fun _ => extensionsFit_of_error herror, fun _ => trivial⟩
    | cons b exs =>
      rw [extensionsLoop]
      cases hread : readExtension (b :: exs) with
      | error err => exact ⟨fun _ => extensionsFit_of_error hread, fun _ => trivial⟩
      | panicked | exhausted =>
        have hreturns := returns_readExtension (b :: exs)
        rw [hread] at hreturns
        exact hreturns.elim
      | ok extension =>
        obtain ⟨exType, exLen, sex⟩ := extension
        have hlen := length_of_readExtension hread
        have hparse := returns_parseExtension_iff exType sex
        rw [ok_bind, extensionsFit_iff hread]
        dsimp only
        rw [toNat_four_add hexs hread, returns_bind_iff, hparse]
        refine and_congr_right fun _ => forall₂_congr fun update _ => ?_
        rw [sliceFrom_eq hlen, ok_bind]
        refine ih _ ?_ ?_
        · rw [length_drop]
          omega
        · rw [length_drop]
          omega

/-- **A record is parsed without a panic exactly if the lists of the extensions that the loop comes
to fit.** -/
theorem returns_parseSegment_iff :
    (parseSegment segment).Returns ↔
      ∀ hello exs, prepare segment = .ok (hello, exs) → ExtensionsFit exs := by
  rw [parseSegment, returns_bind_iff]
  constructor
  · rintro ⟨-, h⟩ hello exs hprepare
    exact (returns_extensionsLoop_iff hello (Nat.lt_succ_self _) (length_of_prepare hprepare)).1
      (h (hello, exs) hprepare)
  · intro h
    refine ⟨returns_prepare segment, fun head hprepare => ?_⟩
    exact (returns_extensionsLoop_iff head.1 (Nat.lt_succ_self _)
      (length_of_prepare hprepare)).2 (h head.1 head.2 hprepare)

end SingBox.JA3
