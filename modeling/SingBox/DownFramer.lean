/-
**The framing of stream-down** (`transport/v2rayxhttp/framer.go`).

The download half of a session is one long response.  So that it is never silent for long, the
server may put padding into it: the body is then a sequence of records, each a number in groups of
seven bits, which holds the length and the kind, and a payload.  The reader hands out the payloads
of data records and drops the padding.

A mutex makes each call of the framer one step, so every interleaving of the writer and the timer
that sends padding is a list of calls.  Of the readings of the clock within one `Write` only the
last matters.  The writer below the framer does not fail, and the stream arrives in any segments.

* `exists_records` — what the framer writes is a list of records with the payloads in order;
* `FramedReader.step_read` — **the step lemma**: one read returns part of what is expected;
* `framing_transparent` — the reader returns what was written, and notices where it is cut.
-/

import SingBox.BufferedReader
import SingBox.GoString

namespace SingBox

open List hiding rec

open ByteReader (putUvarint)

/-! ### The framer -/

def frameKindData : ℕ := 0

def frameKindPadding : ℕ := 1

/-- The most that one record carries. -/
def maxFrameRecord : ℕ := 2 * 1024 * 1024

/-- `appendRecord`.  The kind is the lowest bit of the number. -/
def appendRecord (dst : List UInt8) (kind : ℕ) (payload : List UInt8) : List UInt8 :=
  dst ++ putUvarint (payload.length * 2 + kind) ++ payload

/-- `downFramer`: the buffers it has passed to the writer below, and the time of its last data. -/
structure DownFramer where
  writes : List (List UInt8) := []
  lastWrite : ℤ

namespace DownFramer

/-- `newDownFramer`. -/
def new (now : ℤ) : DownFramer := { lastWrite := now }

/-- A record goes to the writer below in one `Write`. -/
def writeRecord (f : DownFramer) (kind : ℕ) (payload : List UInt8) : DownFramer :=
  { f with writes := f.writes ++ [appendRecord [] kind payload] }

/-- The loop of `Write`.  Each round but the last takes a byte of `b`. -/
def writeLoop (now : ℤ) : ℕ → List UInt8 → ℕ → DownFramer → ℕ × DownFramer
  | 0, _, total, f => (total, f)
  | fuel + 1, b, total, f =>
    let chunk := b.take maxFrameRecord
    let f := { f.writeRecord frameKindData chunk with lastWrite := now }
    let total := total + chunk.length
    let b := b.drop chunk.length
    if b = [] then (total, f) else writeLoop now fuel b total f

/-- `Write`, which returns the number of bytes written. -/
def write (f : DownFramer) (b : List UInt8) (now : ℤ) : ℕ × DownFramer :=
  writeLoop now (b.length + 1) b 0 f

/-- `WritePadding`, which returns whether it has written. -/
def writePadding (f : DownFramer) (idle : ℤ) (payload : List UInt8) (now : ℤ) : Bool × DownFramer :=
  if now - f.lastWrite < idle then (false, f)
  else (true, f.writeRecord frameKindPadding (payload.take maxFrameRecord))

end DownFramer

/-- A call of the framer, with the time at which it is made. -/
inductive FramerCall where
  | write (b : List UInt8) (now : ℤ)
  | writePadding (idle : ℤ) (payload : List UInt8) (now : ℤ)

/-- The bytes that a call sends through the tunnel. -/
def FramerCall.payload : FramerCall → List UInt8
  | .write b _ => b
  | .writePadding _ _ _ => []

/-- One call. -/
def DownFramer.call (f : DownFramer) : FramerCall → DownFramer
  | .write b now => (f.write b now).2
  | .writePadding idle payload now => (f.writePadding idle payload now).2

/-! ### The reader -/

/-- `framedReader`: `remaining` bytes of the current data record have not been read. -/
structure FramedReader where
  br : BufReader
  remaining : ℕ := 0

namespace FramedReader

/-- `newFramedReader`. -/
def new (source : Source) : FramedReader := { br := { source := source } }

/-- The loop of `Read` to the next data record that is not empty.  A record has at least one byte,
so `fuel` is enough if it exceeds the number of bytes that are to come.  The length is half a 64-bit
number and so never negative. -/
def seek : ℕ → FramedReader → Option GoError × FramedReader
  | 0, r => (none, r)
  | fuel + 1, r =>
    if r.remaining ≠ 0 then (none, r)
    else
      match r.br.readUvarint ioErrors with
      | (.error err, br) => (some err, { r with br := br })
      | (.ok hdr, br) =>
        let length := hdr / 2
        if maxFrameRecord < length then
          (some (.new ("xhttp: stream-down record too large: " ++
            GoString.ofNat length)), { r with br := br })
        else if hdr % 2 = frameKindPadding then
          match br.discard length with
          | (false, br) => (some ioErrUnexpectedEOF, { r with br := br })
          | (true, br) => seek fuel { r with br := br }
        else seek fuel { br := br, remaining := length }

/-- `Read`, with a buffer of `n` bytes. -/
def read (r : FramedReader) (n : ℕ) : List UInt8 × Option GoError × FramedReader :=
  match seek (r.br.content.length + 1) r with
  | (some err, r) => ([], some err, r)
  | (none, r) =>
    let outcome := r.br.read (min n r.remaining)
    let remaining := r.remaining - outcome.bytes.length
    let err :=
      if outcome.eof then some (if 0 < remaining then ioErrUnexpectedEOF else ioEOF) else none
    (outcome.bytes, err, { br := outcome.next, remaining := remaining })

end FramedReader

/-! ### Records -/

/-- A record that the framer may write. -/
structure Record where
  padding : Bool
  payload : List UInt8
  /-- The reader accepts the length. -/
  short : payload.length ≤ maxFrameRecord

variable (rec : Record)

namespace Record

def kind (rec : Record) : ℕ := if rec.padding then frameKindPadding else frameKindData

/-- The number before the payload. -/
def header (rec : Record) : List UInt8 := putUvarint (rec.payload.length * 2 + rec.kind)

/-- The bytes of the record. -/
def encode (rec : Record) : List UInt8 := rec.header ++ rec.payload

/-- What the record carries through the tunnel. -/
def data (rec : Record) : List UInt8 := if rec.padding then [] else rec.payload

theorem appendRecord_eq : appendRecord [] rec.kind rec.payload = rec.encode := rfl

theorem kind_lt : rec.kind < 2 := by
  rw [kind]
  split <;> decide

theorem header_ne_nil : rec.header ≠ [] := by
  rw [header, putUvarint, ByteReader.putGroups]
  split <;> simp

theorem length_header_pos : 0 < rec.header.length := List.length_pos_iff.2 rec.header_ne_nil

@[simp] theorem length_encode :
    rec.encode.length = rec.header.length + rec.payload.length := List.length_append

theorem number_lt : rec.payload.length * 2 + rec.kind < 2 ^ 64 := by
  have hshort := rec.short
  have hkind := rec.kind_lt
  rw [maxFrameRecord] at hshort
  omega

end Record

open Record

/-- The records are what the framer writes after `f`, and they carry `bytes`. -/
def Appends (f f' : DownFramer) (recs : List Record) (bytes : List UInt8) : Prop :=
  f'.writes = f.writes ++ recs.map encode ∧ recs.flatMap data = bytes

variable (f : DownFramer)

theorem Appends.refl : Appends f f [] [] := by simp [Appends]

theorem Appends.trans {f f' f'' : DownFramer} {recs recs' : List Record}
    {bytes bytes' : List UInt8} (h : Appends f f' recs bytes) (h' : Appends f' f'' recs' bytes') :
    Appends f f'' (recs ++ recs') (bytes ++ bytes') := by
  constructor
  · rw [h'.1, h.1, append_assoc, map_append]
  · rw [flatMap_append, h.2, h'.2]

theorem appends_writeRecord (rec : Record) (lastWrite : ℤ) :
    Appends f { f.writeRecord rec.kind rec.payload with lastWrite := lastWrite } [rec] rec.data :=
  by simp [Appends, DownFramer.writeRecord, appendRecord_eq]

theorem exists_appends_writeLoop (now : ℤ) {fuel : ℕ} {b : List UInt8} (hfuel : b.length < fuel)
    (total : ℕ) (f : DownFramer) :
    (DownFramer.writeLoop now fuel b total f).1 = total + b.length ∧
      ∃ recs, Appends f (DownFramer.writeLoop now fuel b total f).2 recs b := by
  induction fuel generalizing b total f with
  | zero => omega
  | succ fuel ih =>
    let rec₁ : Record := ⟨false, b.take maxFrameRecord, by simp⟩
    have h₁ := appends_writeRecord f rec₁ now
    have hsplit : b.take maxFrameRecord ++ b.drop (b.take maxFrameRecord).length = b := by
      rw [length_take]
      rcases Nat.le_total b.length maxFrameRecord with h | h
      · rw [min_eq_right h, drop_length, take_of_length_le h, append_nil]
      · rw [min_eq_left h, take_append_drop]
    have hlen := congrArg List.length hsplit
    rw [length_append] at hlen
    rw [DownFramer.writeLoop]
    dsimp only
    split
    · rename_i hlast
      rw [hlast, append_nil] at hsplit
      refine ⟨by rw [hsplit], [rec₁], ?_⟩
      rw [show rec₁.data = b from hsplit] at h₁
      exact h₁
    · rename_i hmore
      have hpos := List.length_pos_iff.2 hmore
      have htake : 0 < (b.take maxFrameRecord).length := by
        rw [length_take, maxFrameRecord]
        rw [length_drop] at hpos
        omega
      obtain ⟨htotal, recs, hrecs⟩ := ih (b := b.drop (b.take maxFrameRecord).length) (by omega)
        (total + (b.take maxFrameRecord).length)
        { f.writeRecord frameKindData (b.take maxFrameRecord) with lastWrite := now }
      refine ⟨by rw [htotal]; omega, [rec₁] ++ recs, ?_⟩
      have h := h₁.trans hrecs
      rw [show rec₁.data ++ b.drop (b.take maxFrameRecord).length = b from hsplit] at h
      exact h

theorem exists_appends_call (c : FramerCall) : ∃ recs, Appends f (f.call c) recs c.payload := by
  cases c with
  | write b now => exact (exists_appends_writeLoop now (Nat.lt_succ_self _) 0 f).2
  | writePadding idle payload now =>
    rw [DownFramer.call, DownFramer.writePadding]
    split
    · exact ⟨[], .refl f⟩
    · exact ⟨[⟨true, payload.take maxFrameRecord, by simp⟩],
        appends_writeRecord f ⟨true, payload.take maxFrameRecord, by simp⟩ f.lastWrite⟩

/-- **What the framer writes is a list of records, which carry the payloads in order.** -/
theorem exists_records (calls : List FramerCall) :
    ∃ recs, Appends f (calls.foldl DownFramer.call f) recs (calls.flatMap FramerCall.payload) := by
  induction calls generalizing f with
  | nil => exact ⟨[], .refl f⟩
  | cons c calls ih =>
    obtain ⟨recs, hrecs⟩ := exists_appends_call f c
    obtain ⟨recs', hrecs'⟩ := ih (f.call c)
    exact ⟨recs ++ recs', hrecs.trans hrecs'⟩

/-! ### What is expected of a reader -/

/-- What a reader makes of the first `k` bytes of records: the payload it hands out and the error at
the end. -/
def expected : List Record → ℕ → List UInt8 × GoError
  | [], _ => ([], ioEOF)
  | rec :: recs, k =>
    if k = 0 then ([], ioEOF)
    else if k < rec.encode.length then (rec.data.take (k - rec.header.length), ioErrUnexpectedEOF)
    else (rec.data ++ (expected recs (k - rec.encode.length)).1,
      (expected recs (k - rec.encode.length)).2)

/-- The same from within a data record, of which `tail` is left. -/
def expectedFrom (tail : List UInt8) (recs : List Record) (k : ℕ) : List UInt8 × GoError :=
  if k < tail.length then (tail.take k, ioErrUnexpectedEOF)
  else (tail ++ (expected recs (k - tail.length)).1, (expected recs (k - tail.length)).2)

/-- The bytes of records. -/
def wire (recs : List Record) : List UInt8 := recs.flatMap encode

@[simp] theorem wire_cons (recs : List Record) : wire (rec :: recs) = rec.encode ++ wire recs := rfl

@[simp] theorem expectedFrom_nil (recs : List Record) (k : ℕ) :
    expectedFrom [] recs k = expected recs k := by simp [expectedFrom]

variable {recs : List Record} {k : ℕ}

theorem expected_of_take_eq_nil (h : (wire recs).take k = []) : expected recs k = ([], ioEOF) := by
  cases recs with
  | nil => rfl
  | cons rec recs =>
    have hk : k = 0 := by
      simpa [encode, rec.header_ne_nil] using h
    rw [expected, if_pos hk]

theorem expectedFrom_of_end {tail : List UInt8} {b : List UInt8}
    (h : (tail ++ wire recs).take k = b) (hb : b.length ≤ tail.length) :
    expectedFrom tail recs k =
      (b, if 0 < tail.length - b.length then ioErrUnexpectedEOF else ioEOF) := by
  have hlen := congrArg List.length h
  rw [length_take, length_append] at hlen
  rw [expectedFrom]
  by_cases hcut : k < tail.length
  · rw [take_append_of_le_length hcut.le] at h
    rw [if_pos hcut, if_pos (by omega), h]
  · rw [List.take_append, take_of_length_le (by omega)] at h
    have hnone : (wire recs).take (k - tail.length) = [] := by
      rw [← length_eq_zero_iff, length_take]
      omega
    rw [hnone, append_nil] at h
    rw [if_neg hcut, expected_of_take_eq_nil hnone, h, if_neg (by omega), append_nil]

theorem expectedFrom_append {b tail : List UInt8} (hk : b.length ≤ k) :
    expectedFrom (b ++ tail) recs k =
      (b ++ (expectedFrom tail recs (k - b.length)).1,
        (expectedFrom tail recs (k - b.length)).2) := by
  rw [expectedFrom, expectedFrom, length_append, ← Nat.sub_sub]
  by_cases hcut : k < b.length + tail.length
  · rw [if_pos hcut, if_pos (by omega), List.take_append, take_of_length_le hk]
  · rw [if_neg hcut, if_neg (by omega), append_assoc]

theorem expected_isPrefix (k : ℕ) : (expected recs k).1 <+: recs.flatMap data := by
  induction recs generalizing k with
  | nil => exact prefix_refl _
  | cons rec recs ih =>
    rw [expected, flatMap_cons]
    split
    · exact nil_prefix
    · split
      · exact (List.take_prefix _ _).trans (prefix_append _ _)
      · exact (prefix_append_right_inj _).2 (ih _)

theorem expected_of_le (h : (wire recs).length ≤ k) :
    expected recs k = (recs.flatMap data, ioEOF) := by
  induction recs generalizing k with
  | nil => rfl
  | cons rec recs ih =>
    rw [wire_cons, length_append] at h
    have hpos : 0 < rec.encode.length := by
      rw [length_encode]
      have := rec.length_header_pos
      omega
    rw [expected, if_neg (by omega), if_neg (by omega), ih (by omega), flatMap_cons]

theorem ioErrUnexpectedEOF_ne : ioErrUnexpectedEOF ≠ ioEOF := by decide

/-- **The end is reported only on a boundary of records.** -/
theorem expected_eof_iff (h : k < (wire recs).length) :
    (expected recs k).2 = ioEOF ↔ ∃ i, k = (wire (recs.take i)).length := by
  induction recs generalizing k with
  | nil => simp [wire] at h
  | cons rec recs ih =>
    rw [expected]
    split
    · rename_i hk
      exact ⟨fun _ => ⟨0, by rw [hk]; rfl⟩, fun _ => rfl⟩
    · rename_i hk
      -- Past the first record the boundaries are those of the others, shifted.
      split
      · rename_i hcut
        refine ⟨fun h => absurd h ioErrUnexpectedEOF_ne, ?_⟩
        rintro ⟨_ | i, hi⟩
        · exact absurd hi hk
        · rw [take_succ_cons, wire_cons, length_append] at hi
          omega
      · rename_i hcut
        rw [wire_cons, length_append] at h
        rw [ih (by omega)]
        constructor
        · rintro ⟨i, hi⟩
          refine ⟨i + 1, ?_⟩
          rw [take_succ_cons, wire_cons, length_append]
          omega
        · rintro ⟨_ | i, hi⟩
          · exact absurd hi hk
          · rw [take_succ_cons, wire_cons, length_append] at hi
            exact ⟨i, by omega⟩

/-! ### The reader does what is expected -/

namespace FramedReader

/-- The reader is within a data record of which `tail` is left, and `recs` follow; of all this, `k`
bytes are to come. -/
def At (r : FramedReader) (tail : List UInt8) (recs : List Record) (k : ℕ) : Prop :=
  r.remaining = tail.length ∧ r.br.content = (tail ++ wire recs).take k

variable {br : BufReader}

theorem readUvarint_header {rec : Record} {rest : List UInt8}
    (h : br.content = rec.header ++ rest) :
    ∃ br', br.readUvarint ioErrors = (.ok (rec.payload.length * 2 + rec.kind), br') ∧
      br'.content = rest := by
  have hread := ByteReader.reads_uvarint ioErrors rec.number_lt rest
  rw [← header, ← h, BufReader.readUvarint_eq] at hread
  rcases hbr : br.readUvarint ioErrors with ⟨result, br'⟩
  rw [hbr] at hread
  cases result with
  | error err => simp [Except.map] at hread
  | ok n =>
    simp only [Except.map, Except.ok.injEq, Prod.mk.injEq] at hread
    exact ⟨br', by rw [hread.1], hread.2⟩

theorem readUvarint_cut {rec : Record} {j : ℕ} (hj : j < rec.header.length)
    (h : br.content = rec.header.take j) :
    ∃ br', br.readUvarint ioErrors =
      (.error (if j = 0 then ioEOF else ioErrUnexpectedEOF), br') := by
  have hread := ByteReader.readUvarint_take ioErrors hj
  rw [← header, ← h, BufReader.readUvarint_eq] at hread
  rcases hbr : br.readUvarint ioErrors with ⟨result, br'⟩
  rw [hbr] at hread
  cases result with
  | error err =>
    simp only [Except.map, Except.error.injEq] at hread
    exact ⟨br', by rw [hread]; rfl⟩
  | ok n => simp [Except.map] at hread

theorem readUvarint_nil (h : br.content = []) :
    ∃ br', br.readUvarint ioErrors = (.error ioEOF, br') :=
  @readUvarint_cut br ⟨false, [], by simp⟩ 0 (length_header_pos _) h

variable {r : FramedReader}

/-- The loop comes to the next payload, or to an error where nothing is expected before it. -/
theorem seek_spec {fuel : ℕ} (hat : r.At [] recs k) (hfuel : r.br.content.length < fuel) :
    (∃ err r', seek fuel r = (some err, r') ∧ expected recs k = ([], err)) ∨
      ∃ r' tail recs' k', seek fuel r = (none, r') ∧ tail ≠ [] ∧ r'.At tail recs' k' ∧
        expectedFrom tail recs' k' = expected recs k := by
  induction recs generalizing fuel r k with
  | nil =>
    obtain ⟨hremaining, hcontent⟩ := hat
    have hnil : r.br.content = [] := by simpa [wire] using hcontent
    obtain ⟨br', hread⟩ := readUvarint_nil hnil
    obtain ⟨fuel, rfl⟩ : ∃ n, fuel = n + 1 := ⟨fuel - 1, by omega⟩
    refine .inl ⟨ioEOF, { r with br := br' }, ?_, rfl⟩
    rw [seek, if_neg (by simp [hremaining]), hread]
  | cons rec recs ih =>
    obtain ⟨hremaining, hcontent⟩ := hat
    obtain ⟨fuel, rfl⟩ : ∃ n, fuel = n + 1 := ⟨fuel - 1, by omega⟩
    rw [seek, if_neg (by simp [hremaining])]
    rw [nil_append, wire_cons, encode, append_assoc] at hcontent
    by_cases hheader : k < rec.header.length
    · -- The cut is within the number.
      rw [take_append_of_le_length hheader.le] at hcontent
      obtain ⟨br', hread⟩ := readUvarint_cut hheader hcontent
      rw [hread, expected]
      refine .inl ⟨_, { r with br := br' }, rfl, ?_⟩
      by_cases hk : k = 0
      · rw [if_pos hk, if_pos hk]
      · rw [if_neg hk, if_neg hk, if_pos (by rw [length_encode]; omega),
          Nat.sub_eq_zero_of_le hheader.le, take_zero]
    · rw [List.take_append, take_of_length_le (by omega)] at hcontent
      obtain ⟨br', hread, hcontent'⟩ := readUvarint_header hcontent
      have hkind := rec.kind_lt
      have hshort := rec.short
      have hpos := rec.length_header_pos
      rw [hcontent, length_append, ← hcontent'] at hfuel
      rw [hread]
      dsimp only
      rw [show (rec.payload.length * 2 + rec.kind) / 2 = rec.payload.length by omega,
        show (rec.payload.length * 2 + rec.kind) % 2 = rec.kind by omega,
        if_neg (by omega), expected, if_neg (show k ≠ 0 by omega), length_encode]
      cases hpadding : rec.padding with
      | true =>
        have hdata : rec.data = [] := by simp [data, hpadding]
        rw [if_pos (by simp [kind, hpadding]), hdata]
        by_cases hcut : k - rec.header.length < rec.payload.length
        · -- The cut is within the padding.
          have hdiscard : (br'.discard rec.payload.length).1 = false := by
            refine BufReader.discard_of_lt ?_
            rw [hcontent', length_take]
            omega
          rw [show br'.discard rec.payload.length = (false, (br'.discard _).2) from
            Prod.ext hdiscard rfl, if_pos (by omega)]
          exact .inl ⟨_, _, rfl, by rw [take_nil]⟩
        · rw [List.take_append, take_of_length_le (by omega)] at hcontent'
          obtain ⟨hdiscard, hrest⟩ := BufReader.discard_of_le (r := br')
            (n := rec.payload.length) (by rw [hcontent', length_append]; omega)
          rw [hcontent', drop_left] at hrest
          rw [show br'.discard rec.payload.length = (true, (br'.discard _).2) from
            Prod.ext hdiscard rfl, if_neg (by omega), ← Nat.sub_sub]
          dsimp only
          rw [nil_append]
          refine ih (r := ⟨(br'.discard rec.payload.length).2, r.remaining⟩) ⟨hremaining, hrest⟩ ?_
          rw [hrest]
          rw [hcontent', length_append] at hfuel
          omega
      | false =>
        have hdata : rec.data = rec.payload := by simp [data, hpadding]
        rw [if_neg (by simp [kind, hpadding, frameKindData, frameKindPadding]), hdata]
        by_cases hempty : rec.payload = []
        · rw [hempty, nil_append] at hcontent'
          rw [hempty, length_nil, Nat.add_zero, if_neg hheader, nil_append]
          exact ih (r := ⟨br', 0⟩) ⟨rfl, hcontent'⟩ (by simp only; omega)
        · -- This is the payload to hand out.
          have hlen := List.length_pos_iff.2 hempty
          obtain ⟨fuel, rfl⟩ : ∃ n, fuel = n + 1 := ⟨fuel - 1, by omega⟩
          refine .inr ⟨⟨br', rec.payload.length⟩, rec.payload, recs, k - rec.header.length, ?_,
            hempty, ⟨rfl, hcontent'⟩, ?_⟩
          · rw [seek, if_pos (by simp only; omega)]
          · rw [expectedFrom, ← Nat.sub_sub]
            by_cases hcut : k < rec.header.length + rec.payload.length
            · rw [if_pos hcut, if_pos (by omega)]
            · rw [if_neg hcut, if_neg (by omega)]

/-- What is expected of a reader in a state. -/
def Expects (r : FramedReader) (bytes : List UInt8) (err : GoError) : Prop :=
  ∃ tail recs k, r.At tail recs k ∧ expectedFrom tail recs k = (bytes, err)

variable {bytes : List UInt8} {err : GoError}

theorem seek_expects (h : r.Expects bytes err) :
    (∃ r', seek (r.br.content.length + 1) r = (some err, r') ∧ bytes = []) ∨
      ∃ r' tail recs k, seek (r.br.content.length + 1) r = (none, r') ∧ tail ≠ [] ∧
        r'.At tail recs k ∧ expectedFrom tail recs k = (bytes, err) := by
  obtain ⟨tail, recs, k, hat, hexpected⟩ := h
  by_cases htail : tail = []
  · subst htail
    rw [expectedFrom_nil] at hexpected
    rcases seek_spec hat (Nat.lt_succ_self _) with
      ⟨err', r', hseek, herr⟩ | ⟨r', tail, recs', k', hseek, htail, hat', hsame⟩
    · rw [hexpected, Prod.mk.injEq] at herr
      exact .inl ⟨r', by rw [hseek, herr.2], herr.1⟩
    · exact .inr ⟨r', tail, recs', k', hseek, htail, hat', hsame.trans hexpected⟩
  · refine .inr ⟨r, tail, recs, k, ?_, htail, hat, hexpected⟩
    rw [seek, if_pos (by rw [hat.1]; exact List.length_pos_iff.2 htail |>.ne')]

/-- **The step lemma.**  One read returns all that is expected, or a part of it. -/
theorem step_read {n : ℕ} (h : r.Expects bytes err) (hn : 0 < n) :
    (∃ r', r.read n = (bytes, some err, r')) ∨
      ∃ b rest r', r.read n = (b, none, r') ∧ b ≠ [] ∧ bytes = b ++ rest ∧ r'.Expects rest err := by
  rcases seek_expects h with
    ⟨r', hseek, rfl⟩ | ⟨r', tail, recs, k, hseek, htail, ⟨hremaining, hcontent⟩, hexpected⟩
  · exact .inl ⟨r', by rw [read, hseek]⟩
  · have hpos := List.length_pos_iff.2 htail
    have hy := r'.br.yields_read (n := min n r'.remaining) (by omega)
    rw [read, hseek]
    dsimp only
    generalize r'.br.read (min n r'.remaining) = outcome at hy
    obtain ⟨b, eof, br⟩ := outcome
    have hbounded : b.length ≤ tail.length := by
      rw [← hremaining]
      exact hy.bounded.trans (min_le_right _ _)
    have hsplit := hy.split
    rw [hcontent] at hsplit
    rw [hremaining]
    cases eof with
    | true =>
      rw [hy.last rfl, append_nil] at hsplit
      rw [expectedFrom_of_end hsplit hbounded, Prod.mk.injEq] at hexpected
      exact .inl ⟨⟨br, tail.length - b.length⟩, by rw [← hexpected.1, ← hexpected.2]; rfl⟩
    | false =>
      have hk : b.length ≤ k := by
        have := congrArg List.length hsplit
        simp only [length_take, length_append] at this
        omega
      obtain ⟨tail', rfl⟩ : b <+: tail :=
        prefix_of_prefix_length_le ((prefix_append b _).trans
          (hsplit ▸ take_prefix _ _)) (prefix_append tail _) hbounded
      rw [append_assoc, List.take_append, take_of_length_le hk, append_cancel_left_eq] at hsplit
      rw [expectedFrom_append hk, Prod.mk.injEq] at hexpected
      refine .inr ⟨b, _, ⟨br, tail'.length⟩, ?_, fun hb => ?_, hexpected.1.symm, tail', recs,
        k - b.length, ⟨rfl, hsplit.symm⟩, Prod.ext rfl hexpected.2⟩
      · rw [length_append, Nat.add_sub_cancel_left]
        rfl
      · exact absurd (hy.progress hb) Bool.false_ne_true

/-- **The run lemma.**  Reads of any sizes return what is expected. -/
theorem delivers_of_expects (h : r.Expects bytes err) : Delivers read r bytes err :=
  delivers_of_step (D := Expects) (fun _ _ _ _ h hn => step_read h hn) h

theorem expects_new {source : Source} (h : source.content = (wire recs).take k) :
    (new source).Expects (expected recs k).1 (expected recs k).2 :=
  ⟨[], recs, k, ⟨rfl, h⟩, expectedFrom_nil recs k⟩

end FramedReader

/-! ### Transparency -/

/-- **The framing is transparent and cuts are noticed.**  From what the framer has written, the
reader returns the payloads of `Write` in order and then the end.  From a proper part of it, the
reader returns a part of them, and then the end only if the cut is between two records. -/
theorem framing_transparent (start : ℤ) (calls : List FramerCall) (source : Source) :
    let writes := (calls.foldl DownFramer.call (.new start)).writes
    let payload := calls.flatMap FramerCall.payload
    (source.content = writes.flatten → Delivers FramedReader.read (.new source) payload ioEOF) ∧
    ∀ k < writes.flatten.length, source.content = writes.flatten.take k →
      ∃ bytes err, Delivers FramedReader.read (.new source) bytes err ∧ bytes <+: payload ∧
        (err = ioEOF ↔ ∃ i, k = (writes.take i).flatten.length) := by
  intro writes payload
  obtain ⟨recs, hwrites, hpayload⟩ := exists_records (.new start) calls
  have hwrites : writes = recs.map encode := hwrites
  have hpayload : recs.flatMap data = payload := hpayload
  have hwire (recs : List Record) : (recs.map encode).flatten = wire recs := List.flatMap_def.symm
  rw [hwrites, hwire]
  constructor
  · intro hsource
    rw [← take_length (l := wire recs)] at hsource
    have hexpects := FramedReader.expects_new hsource
    rw [expected_of_le (le_refl _), hpayload] at hexpects
    exact FramedReader.delivers_of_expects hexpects
  · intro k hk hsource
    refine ⟨_, _, FramedReader.delivers_of_expects (FramedReader.expects_new hsource), ?_, ?_⟩
    · rw [← hpayload]
      exact expected_isPrefix k
    · simp only [expected_eof_iff hk, ← map_take, hwire]

/-- Two writes, one of them empty, and padding between them. -/
def mixedCalls : List FramerCall :=
  [.write [1, 2, 3] 0, .writePadding 5 [9, 9] 10, .write [] 11]

/-- What they write, in three segments. -/
def mixedSource : Source :=
  { segments := [⟨[6, 1], by simp⟩, ⟨[2, 3, 5, 9], by simp⟩, ⟨[9, 0], by simp⟩] }

/-- The same, cut within the padding. -/
def cutSource : Source := { segments := [⟨[6, 1, 2, 3, 5, 9], by simp⟩], eofWithLast := true }

theorem mixed_transparent :
    Delivers FramedReader.read (.new mixedSource) [1, 2, 3] ioEOF ∧
      ∃ bytes err, Delivers FramedReader.read (.new cutSource) bytes err ∧
        bytes <+: [1, 2, 3] ∧ err ≠ ioEOF := by
  have hwrites : (mixedCalls.foldl DownFramer.call (.new 0)).writes =
      [[6, 1, 2, 3], [5, 9, 9], [0]] := by decide
  have hcut := (framing_transparent 0 mixedCalls cutSource).2
  rw [hwrites] at hcut
  obtain ⟨bytes, err, hdelivers, hpart, heof⟩ := hcut 6 (by decide) rfl
  refine ⟨(framing_transparent 0 mixedCalls mixedSource).1 (by rw [hwrites]; rfl), bytes, err,
    hdelivers, hpart, ?_⟩
  rw [Ne, heof]
  rintro ⟨_ | _ | _ | _ | i, hi⟩ <;> simp at hi

end SingBox
