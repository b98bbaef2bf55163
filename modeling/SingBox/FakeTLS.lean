/-
**Application data records around a raw connection** (`transport/utproto/fake_tls.go`).

After its handshake a `fakeTLSConn` writes everything in records that look like application data of
TLS, with at most 16384 bytes each, and reads record by record.  A record is read as a whole and
kept in `readBuf`, from which the reads are served.  A read that finds less than a record waits for
the rest; the model has no result for it as long as it waits.

* `FakeTLSConn.Incoming.write`, `FakeTLSConn.Incoming.arrive` — what is written is
  appended to them, and segments that arrive do not change them;
* `FakeTLSConn.Incoming.read_spec` — **one read** takes the next of them, never fails, and
  waits only for bytes that have not arrived;
* `FakeTLSConn.Incoming.readFull_spec` — the same for `io.ReadFull`.
-/

import Mathlib.Data.Vector.Basic
import SingBox.GoString
import SingBox.BufferedReader

namespace SingBox

open Segment List ByteReader

/-- The secret that both sides share. -/
abbrev UTSecret : Type := List.Vector UInt8 16

/-! ### Records -/

def tlsMaxRecordSize : ℕ := 16384

/-- The type and the version. -/
def tlsRecordHeader : List UInt8 := [0x17, 0x03, 0x03]

/-- The record that `Write` makes of a chunk. -/
def tlsFrame (chunk : List UInt8) : List UInt8 :=
  tlsRecordHeader ++ putBigEndian 2 chunk.length ++ chunk

/-- A payload that a reader accepts. -/
structure TLSRecord where
  payload : List UInt8
  nonempty : payload ≠ []
  bounded : payload.length ≤ tlsMaxRecordSize

namespace TLSRecord

def frame (r : TLSRecord) : List UInt8 := tlsFrame r.payload

/-- What records carry. -/
def payloads (records : List TLSRecord) : List UInt8 := records.flatMap payload

/-- Records one after the other. -/
def frames (records : List TLSRecord) : List UInt8 := records.flatMap frame

variable (r : TLSRecord)

@[simp] theorem payloads_cons (records : List TLSRecord) :
    payloads (r :: records) = r.payload ++ payloads records := rfl

variable (records records' : List TLSRecord)

@[simp] theorem payloads_append :
    payloads (records ++ records') = payloads records ++ payloads records' := List.flatMap_append

@[simp] theorem frames_cons (records : List TLSRecord) :
    frames (r :: records) = r.frame ++ frames records := rfl

@[simp] theorem frames_append :
    frames (records ++ records') = frames records ++ frames records' := List.flatMap_append

theorem length_frame : r.frame.length = 5 + r.payload.length := by
  rw [frame, tlsFrame, length_append, length_append, length_putBigEndian]
  rfl

theorem take_frame : r.frame.take 5 = tlsRecordHeader ++ putBigEndian 2 r.payload.length :=
  take_left' (by rw [length_append, length_putBigEndian]; rfl)

theorem drop_frame : r.frame.drop 5 = r.payload :=
  drop_left' (by rw [length_append, length_putBigEndian]; rfl)

theorem ofBigEndian_length : ofBigEndian (putBigEndian 2 r.payload.length) = r.payload.length :=
  ofBigEndian_put (lt_of_le_of_lt r.bounded (by decide))

end TLSRecord

open TLSRecord

/-! ### The connection -/

/-- `fakeTLSConn`: what has arrived on the raw connection, and the rest of the last record. -/
structure FakeTLSConn where
  conn : List Segment := []
  readBuf : List UInt8 := []

namespace FakeTLSConn

/-- The loop of `Write`: the bytes written so far, and the frames for the raw connection. -/
def writeLoop : ℕ → ℕ → List UInt8 → ℕ × List (List UInt8)
  | 0, total, _ => (total, [])
  | fuel + 1, total, p =>
    if p = [] then (total, [])
    else
      let chunkSize := min p.length tlsMaxRecordSize
      let (n, frames) := writeLoop fuel (total + chunkSize) (p.drop chunkSize)
      (n, tlsFrame (p.take chunkSize) :: frames)

/-- `Write`: its result, and the frames that it writes to the raw connection. -/
def write (p : List UInt8) : ℕ × List (List UInt8) := writeLoop p.length 0 p

def errBadRecordHeader : GoError := .new "utproto: bad TLS record header"

def errBadRecordLength : GoError := .new "utproto: bad TLS record length"

/-- `readOneRecord`. -/
def readOneRecord (f : FakeTLSConn) : Option (Option GoError × FakeTLSConn) :=
  match readFull 5 f.conn with
  | none => none
  | some (hdr, conn) =>
    if hdr.take 3 ≠ tlsRecordHeader then some (some errBadRecordHeader, { f with conn := conn })
    else
      let length := ofBigEndian (hdr.drop 3)
      if length = 0 ∨ tlsMaxRecordSize < length then
        some (some errBadRecordLength, { f with conn := conn })
      else
        match readFull length conn with
        | none => none
        | some (body, conn) => some (none, { conn := conn, readBuf := f.readBuf ++ body })

/-- `Read` with a buffer of length `n`. -/
def read (f : FakeTLSConn) (n : ℕ) : Option (Except GoError (List UInt8) × FakeTLSConn) :=
  if f.readBuf = [] then
    match f.readOneRecord with
    | none => none
    | some (some err, f) => some (.error err, f)
    | some (none, f) => some (.ok (f.readBuf.take n), { f with readBuf := f.readBuf.drop n })
  else some (.ok (f.readBuf.take n), { f with readBuf := f.readBuf.drop n })

/-- `io.ReadFull` with a buffer of length `n`.  Every read brings at least one byte. -/
def readFullLoop : ℕ → ℕ → FakeTLSConn → Option (Except GoError (List UInt8) × FakeTLSConn)
  | 0, _, f => some (.ok [], f)
  | fuel + 1, n, f =>
    if n = 0 then some (.ok [], f)
    else
      match f.read n with
      | none => none
      | some (.error err, f) => some (.error err, f)
      | some (.ok bytes, f) =>
        match readFullLoop fuel (n - bytes.length) f with
        | none => none
        | some (.error err, f) => some (.error err, f)
        | some (.ok rest, f) => some (.ok (bytes ++ rest), f)

def readFull (f : FakeTLSConn) (n : ℕ) : Option (Except GoError (List UInt8) × FakeTLSConn) :=
  readFullLoop n n f

/-! ### Writing -/

theorem writeLoop_spec {fuel : ℕ} (total : ℕ) {p : List UInt8} (hfuel : p.length ≤ fuel) :
    (writeLoop fuel total p).1 = total + p.length ∧
      ∃ records, (writeLoop fuel total p).2.flatten = frames records ∧ payloads records = p := by
  induction fuel generalizing total p with
  | zero =>
    obtain rfl := List.length_eq_zero_iff.1 (Nat.le_zero.1 hfuel)
    exact ⟨rfl, [], rfl, rfl⟩
  | succ fuel ih =>
    rw [writeLoop]
    split
    · rename_i hp
      exact ⟨by rw [hp]; rfl, [], rfl, hp.symm⟩
    · rename_i hp
      have hpos : 0 < p.length := List.length_pos_iff.2 hp
      have hsize : 0 < min p.length tlsMaxRecordSize := lt_min hpos (by decide)
      have hle : min p.length tlsMaxRecordSize ≤ p.length := min_le_left _ _
      generalize hchunk : min p.length tlsMaxRecordSize = chunkSize at hsize hle ⊢
      have hmax : chunkSize ≤ tlsMaxRecordSize := hchunk ▸ min_le_right _ _
      obtain ⟨hn, records, hframes, hpayloads⟩ := ih (total + chunkSize) (p := p.drop chunkSize)
        (by rw [length_drop]; omega)
      have hlen : (p.take chunkSize).length = chunkSize := length_take_of_le hle
      refine ⟨?_, ⟨p.take chunkSize, ?_, hlen.le.trans hmax⟩ :: records, ?_, ?_⟩
      · rw [hn, length_drop]
        omega
      · intro hnil
        rw [hnil, length_nil] at hlen
        omega
      · rw [flatten_cons, hframes]
        rfl
      · rw [payloads_cons, hpayloads, take_append_drop]

/-- **Everything is written, in records.** -/
theorem write_spec (p : List UInt8) :
    (write p).1 = p.length ∧
      ∃ records, (write p).2.flatten = frames records ∧ payloads records = p := by
  have h := writeLoop_spec 0 (p := p) le_rfl
  rw [Nat.zero_add] at h
  exact h

/-! ### Reading -/

variable {f : FakeTLSConn} {onWay : List UInt8} {records : List TLSRecord} {r : TLSRecord}

section

variable (hstream : content f.conn ++ onWay = frames (r :: records))

include hstream

theorem readOneRecord_eq (hthere : 5 ≤ (content f.conn).length) :
    ∃ conn, content conn = (content f.conn).drop 5 ∧
      f.readOneRecord =
        match Segment.readFull r.payload.length conn with
        | none => none
        | some (body, conn) => some (none, { conn := conn, readBuf := f.readBuf ++ body }) := by
  obtain ⟨conn, hread, hconn⟩ := Segment.readFull_of_le hthere
  have hhdr : (content f.conn).take 5 = tlsRecordHeader ++ putBigEndian 2 r.payload.length := by
    have htake := congrArg (List.take 5) hstream
    rw [take_append_of_le_length hthere, frames_cons,
      take_append_of_le_length (by rw [r.length_frame]; omega), r.take_frame] at htake
    exact htake
  refine ⟨conn, hconn, ?_⟩
  have hpos : r.payload.length ≠ 0 := fun h => r.nonempty (List.length_eq_zero_iff.1 h)
  have hlen : ¬(r.payload.length = 0 ∨ tlsMaxRecordSize < r.payload.length) := by
    rintro (h | h)
    · exact hpos h
    · exact absurd r.bounded (not_le.2 h)
  have htype : (tlsRecordHeader ++ putBigEndian 2 r.payload.length).take 3 =
      tlsRecordHeader := take_left' rfl
  have hrest : (tlsRecordHeader ++ putBigEndian 2 r.payload.length).drop 3 =
      putBigEndian 2 r.payload.length := drop_left' rfl
  rw [readOneRecord, hread, hhdr]
  dsimp only
  rw [htype, hrest, r.ofBigEndian_length, if_neg (not_not.2 rfl), if_neg hlen]

theorem readOneRecord_of_le (hthere : r.frame.length ≤ (content f.conn).length) :
    ∃ conn, f.readOneRecord = some (none, { conn := conn, readBuf := f.readBuf ++ r.payload }) ∧
      content conn ++ onWay = frames records := by
  have hlen := r.length_frame
  obtain ⟨conn, hconn, hrecord⟩ := readOneRecord_eq hstream (by omega)
  -- What has arrived starts with the record.
  obtain ⟨rest, hrest⟩ : r.frame <+: content f.conn :=
    prefix_of_prefix_length_le ⟨_, rfl⟩ ⟨_, hstream⟩ hthere
  have hafter : content conn = r.payload ++ rest := by
    rw [hconn, ← hrest, drop_append_of_le_length (by omega), r.drop_frame]
  have hpayload : r.payload.length ≤ (content conn).length := by
    rw [hafter, length_append]
    omega
  obtain ⟨conn', hbody, hconn'⟩ := readFull_of_le hpayload
  rw [hafter, take_left] at hbody
  rw [hafter, drop_left] at hconn'
  refine ⟨conn', by rw [hrecord, hbody], ?_⟩
  rw [hconn']
  rw [← hrest, frames_cons, append_assoc] at hstream
  exact append_cancel_left hstream

theorem readOneRecord_of_lt (hthere : (content f.conn).length < r.frame.length) :
    f.readOneRecord = none := by
  rw [r.length_frame] at hthere
  by_cases hhdr : 5 ≤ (content f.conn).length
  · obtain ⟨conn, hconn, hrecord⟩ := readOneRecord_eq hstream hhdr
    rw [hrecord, Segment.readFull_of_lt (by rw [hconn, length_drop]; omega)]
  · rw [readOneRecord, Segment.readFull_of_lt (Nat.lt_of_not_le hhdr)]

end

/-! ### What is to come -/

/-- `bytes` are to come on the connection: the rest of the last record, and the payloads of records
of which a part has arrived and `onWay` has not. -/
def Incoming (f : FakeTLSConn) (onWay bytes : List UInt8) : Prop :=
  ∃ records, content f.conn ++ onWay = frames records ∧
    bytes = f.readBuf ++ payloads records

variable {bytes : List UInt8}

theorem incoming_new : Incoming {} [] [] := ⟨[], rfl, rfl⟩

theorem Incoming.write (h : f.Incoming onWay bytes) (p : List UInt8) :
    f.Incoming (onWay ++ (FakeTLSConn.write p).2.flatten) (bytes ++ p) := by
  obtain ⟨records, hstream, rfl⟩ := h
  obtain ⟨-, records', hframes, hpayloads⟩ := write_spec p
  refine ⟨records ++ records', ?_, ?_⟩
  · rw [← append_assoc, hstream, hframes, frames_append]
  · rw [payloads_append, hpayloads, append_assoc]

theorem Incoming.arrive (h : f.Incoming onWay bytes) {n : ℕ} (hn : onWay.take n ≠ []) :
    Incoming { f with conn := f.conn ++ [⟨onWay.take n, hn⟩] } (onWay.drop n) bytes := by
  obtain ⟨records, hstream, hbytes⟩ := h
  refine ⟨records, ?_, hbytes⟩
  rw [content_append, append_assoc, ← hstream]
  simp [content]

/-- What a call of `Read` may do. -/
inductive Reads (onWay bytes : List UInt8) (n : ℕ) :
    Option (Except GoError (List UInt8) × FakeTLSConn) → Prop
  /-- It waits for bytes that have not arrived. -/
  | waits (hnone : onWay = [] → bytes = []) : Reads onWay bytes n none
  /-- It returns the next bytes. -/
  | ok {got rest : List UInt8} {f' : FakeTLSConn} (hbytes : bytes = got ++ rest)
      (hrest : f'.Incoming onWay rest) (hlength : got.length ≤ n) (hprogress : 0 < n → got ≠ []) :
      Reads onWay bytes n (some (.ok got, f'))

theorem reads_take {conn : List Segment} {buf : List UInt8} {n : ℕ}
    (hbuf : buf ≠ []) (hstream : content conn ++ onWay = frames records) :
    Reads onWay (buf ++ payloads records) n
      (some (.ok (buf.take n), { conn := conn, readBuf := buf.drop n })) := by
  refine .ok ?_ ⟨records, hstream, rfl⟩ (length_take_le n buf) fun hn h => ?_
  · rw [← append_assoc, take_append_drop]
  · rcases List.take_eq_nil_iff.1 h with h | h
    · omega
    · exact hbuf h

/-- **One read.** -/
theorem Incoming.read_spec (h : f.Incoming onWay bytes) (n : ℕ) :
    Reads onWay bytes n (f.read n) := by
  obtain ⟨records, hstream, rfl⟩ := h
  rw [read]
  split
  · rename_i hbuf
    rw [hbuf, nil_append]
    cases records with
    | nil =>
      -- Nothing has been written.
      have hconn : content f.conn = [] := (List.append_eq_nil_iff.1 hstream).1
      rw [readOneRecord, readFull_of_lt (by rw [hconn]; decide)]
      exact .waits fun _ => rfl
    | cons r records =>
      by_cases hthere : r.frame.length ≤ (content f.conn).length
      · obtain ⟨conn, hrecord, hrest⟩ := readOneRecord_of_le hstream hthere
        rw [hrecord, hbuf, nil_append]
        exact reads_take r.nonempty hrest
      · rw [readOneRecord_of_lt hstream (Nat.lt_of_not_le hthere)]
        refine .waits fun hway => absurd ?_ hthere
        rw [hway, append_nil] at hstream
        rw [hstream, frames_cons, length_append]
        omega
  · rename_i hbuf
    exact reads_take hbuf hstream

theorem readFullLoop_spec {fuel n : ℕ} (hfuel : n ≤ fuel) (h : f.Incoming onWay bytes) :
    (readFullLoop fuel n f = none ∧ (onWay = [] → bytes.length < n)) ∨
      ∃ got rest f', readFullLoop fuel n f = some (.ok got, f') ∧ got.length = n ∧
        bytes = got ++ rest ∧ f'.Incoming onWay rest := by
  induction fuel generalizing n f bytes with
  | zero =>
    obtain rfl := Nat.le_zero.1 hfuel
    exact .inr ⟨[], bytes, f, rfl, rfl, rfl, h⟩
  | succ fuel ih =>
    rw [readFullLoop]
    split
    · rename_i hn
      exact .inr ⟨[], bytes, f, rfl, hn.symm, rfl, h⟩
    · rename_i hn
      have hpos : 0 < n := Nat.pos_of_ne_zero hn
      have hread := h.read_spec n
      generalize f.read n = outcome at hread
      cases hread with
      | waits hnone =>
        refine .inl ⟨rfl, fun hway => ?_⟩
        rw [hnone hway]
        exact hpos
      | @ok got rest f' hbytes hrest hlen hprogress =>
        have hsome : 0 < got.length := List.length_pos_iff.2 (hprogress hpos)
        rw [hbytes]
        rcases ih (n := n - got.length) (by omega) hrest with
          ⟨hwait, hfew⟩ | ⟨got', rest', g, hread', hlen', rfl, hrest'⟩
        · refine .inl ⟨by simp only [hwait], fun hway => ?_⟩
          have := hfew hway
          rw [length_append]
          omega
        · refine .inr ⟨got ++ got', rest', g, by simp only [hread'], ?_, ?_, hrest'⟩
          · rw [length_append, hlen']
            omega
          · rw [append_assoc]

/-- **`io.ReadFull`** returns the next `n` bytes once they are there. -/
theorem Incoming.readFull_spec (h : f.Incoming onWay bytes) (n : ℕ) :
    (f.readFull n = none ∧ (onWay = [] → bytes.length < n)) ∨
      ∃ got rest f', f.readFull n = some (.ok got, f') ∧ got.length = n ∧
        bytes = got ++ rest ∧ f'.Incoming onWay rest :=
  readFullLoop_spec le_rfl h

end FakeTLSConn

end SingBox
