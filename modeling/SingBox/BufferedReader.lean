/-
**A buffered reader over a stream that arrives in segments.**

What the other side of a connection sends is cut into segments on the way, and a read returns at
most one of them.  The end of the stream is reported by a read of its own or together with the last
bytes.  A buffered reader takes what a read brings into its buffer and hands it out from there, and
goes past its buffer for large reads.

* `readUntil`, `Delivers` — reads to the first error, and what they return whatever their sizes;
* `Source`, `BufReader` — a stream in segments, and the buffered reader;
* `BufReader.content` — the bytes that are to come.

Main results:

* `delivers_of_step` — **the rule for readers**, from one read to all of them;
* `BufReader.yields_read`, `BufReader.readByte_eq` — reads follow the content;
* `BufReader.readUvarint_eq`, `BufReader.discard_of_le`, `BufReader.discard_of_lt` — so do the
  functions built from them, however the stream is cut.
-/

import SingBox.ByteReader

/-! ### Reads -/

/-- What a read returns: bytes, whether the end is reported, and the state after it. -/
structure ReadOutcome (σ : Type) where
  bytes : List UInt8
  eof : Bool
  next : σ

/-- What a read of at most `n` bytes may return where the bytes `before` are to come. -/
structure Yields (before : List UInt8) (n : ℕ) (bytes : List UInt8) (eof : Bool)
    (after : List UInt8) : Prop where
  /-- The bytes are the next ones. -/
  split : before = bytes ++ after
  bounded : bytes.length ≤ n
  /-- A read without bytes reports the end. -/
  progress : bytes = [] → eof
  /-- The end is reported where nothing is to come. -/
  last : eof → after = []

/-! ### Reading to the end -/

section

open List

variable {σ ε : Type} (read : σ → ℕ → List UInt8 × Option ε × σ)

/-- Reads of the given sizes, up to the first one that returns an error. -/
def readUntil : List ℕ → σ → List UInt8 × Option ε
  | [], _ => ([], none)
  | n :: sizes, s =>
    match read s n with
    | (bytes, some err, _) => (bytes, some err)
    | (bytes, none, s) => (bytes ++ (readUntil sizes s).1, (readUntil sizes s).2)

/-- Reads of any sizes, if there are enough of them, return the bytes and then the error. -/
def Delivers (s : σ) (bytes : List UInt8) (err : ε) : Prop :=
  ∀ sizes : List ℕ, (∀ n ∈ sizes, 0 < n) → bytes.length < sizes.length →
    readUntil read sizes s = (bytes, some err)

variable {read}

/-- **The rule for readers**: one read returns the rest and the error, or a part of the rest. -/
theorem delivers_of_step {D : σ → List UInt8 → ε → Prop}
    (hstep : ∀ s bytes err n, D s bytes err → 0 < n →
      (∃ s', read s n = (bytes, some err, s')) ∨
        ∃ b rest s', read s n = (b, none, s') ∧ b ≠ [] ∧ bytes = b ++ rest ∧ D s' rest err)
    {s : σ} {bytes : List UInt8} {err : ε} (h : D s bytes err) : Delivers read s bytes err := by
  intro sizes hpos hlen
  induction sizes generalizing s bytes with
  | nil => simp at hlen
  | cons n sizes ih =>
    rw [forall_mem_cons] at hpos
    rw [readUntil]
    rcases hstep s bytes err n h hpos.1 with ⟨s', hread⟩ | ⟨b, rest, s', hread, hb, rfl, hrest⟩
    · rw [hread]
    · have hb := List.length_pos_iff.2 hb
      rw [length_append, length_cons] at hlen
      rw [hread]
      dsimp only
      rw [ih hrest hpos.2 (by omega)]

theorem Delivers.unique {s : σ} {bytes bytes' : List UInt8} {err err' : ε}
    (h : Delivers read s bytes err) (h' : Delivers read s bytes' err') : bytes = bytes' := by
  let sizes := List.replicate (bytes.length + bytes'.length + 1) 1
  have hpos : ∀ n ∈ sizes, 0 < n := by
    intro n hn
    rw [eq_of_mem_replicate hn]
    exact Nat.one_pos
  have hlen : sizes.length = bytes.length + bytes'.length + 1 := length_replicate
  have heq := (h sizes hpos (by omega)).symm.trans (h' sizes hpos (by omega))
  exact (Prod.mk.inj heq).1

end

/-! ### Streams in segments -/

/-- What arrives at once. -/
abbrev Segment : Type := {bytes : List UInt8 // bytes ≠ []}

/-- A stream in segments that ends.  `eofWithLast` says that the end is reported together with the
last bytes. -/
structure Source where
  segments : List Segment
  eofWithLast : Bool := false

namespace Source

open List

/-- The bytes of the stream. -/
def content (s : Source) : List UInt8 := s.segments.flatMap Subtype.val

/-- A read of at most `n` bytes. -/
def read (s : Source) (n : ℕ) : ReadOutcome Source :=
  match s.segments with
  | [] => ⟨[], true, s⟩
  | seg :: segs =>
    if h : n < seg.val.length then
      ⟨seg.val.take n, false, { s with segments := ⟨seg.val.drop n, by simpa using h⟩ :: segs }⟩
    else ⟨seg.val, segs.isEmpty && s.eofWithLast, { s with segments := segs }⟩

theorem segments_eq_nil_of_eof {s : Source} {n : ℕ} (h : (s.read n).eof) :
    (s.read n).next.segments = [] := by
  rw [read] at h ⊢
  split at h
  · assumption
  · split at h
    · simp at h
    · rw [Bool.and_eq_true, List.isEmpty_iff] at h
      simp [*, h.1]

theorem yields_read (s : Source) {n : ℕ} (hn : 0 < n) :
    Yields s.content n (s.read n).bytes (s.read n).eof (s.read n).next.content := by
  refine ⟨?_, ?_, ?_, fun h => by rw [content, segments_eq_nil_of_eof h, flatMap_nil]⟩
  · rw [content, read]
    split
    · simp [content, *]
    · split
      · simp only [content, *, flatMap_cons]
        rw [← append_assoc, take_append_drop]
      · simp [content, *]
  · rw [read]
    split
    · simp
    · split <;> simp; omega
  · rw [read]
    split
    · simp
    · rename_i seg segs _
      split
      · rw [take_eq_nil_iff]
        rintro (h | h)
        · omega
        · exact absurd h seg.property
      · exact fun h => absurd h seg.property

/-- The reads of a connection, which report the end as an error. -/
def reader {ε : Type} (err : ε) (s : Source) (n : ℕ) : List UInt8 × Option ε × Source :=
  ((s.read n).bytes, if (s.read n).eof then some err else none, (s.read n).next)

theorem step_reader {ε : Type} (err : ε) (s : Source) {n : ℕ} (hn : 0 < n) :
    (∃ s', s.reader err n = (s.content, some err, s')) ∨
      ∃ b s', s.reader err n = (b, none, s') ∧ b ≠ [] ∧ s.content = b ++ s'.content := by
  have hyields := s.yields_read hn
  cases heof : (s.read n).eof with
  | true =>
    refine .inl ⟨(s.read n).next, ?_⟩
    rw [reader, heof, hyields.split, hyields.last heof, append_nil]
    rfl
  | false =>
    refine .inr ⟨(s.read n).bytes, (s.read n).next, ?_, ?_, hyields.split⟩
    · rw [reader, heof]
      rfl
    · intro hnil
      rw [hyields.progress hnil] at heof
      cases heof

/-- **A connection delivers what the other side has sent.** -/
theorem delivers_reader {ε : Type} (err : ε) (s : Source) :
    Delivers (reader err) s s.content err := by
  refine delivers_of_step (D := fun s bytes e => bytes = s.content ∧ e = err) ?_ ⟨rfl, rfl⟩
  rintro s bytes e n ⟨rfl, rfl⟩ hn
  rcases s.step_reader e hn with hlast | ⟨b, s', hread, hb, hsplit⟩
  · exact .inl hlast
  · exact .inr ⟨b, s'.content, s', hread, hb, hsplit, rfl, rfl⟩

end Source

/-! ### Reading until a buffer is full -/

namespace Segment

open List

/-- The bytes of segments. -/
def content (segs : List Segment) : List UInt8 := segs.flatMap Subtype.val

/-- Reads until there are `n` bytes, and what is left.  There is no result as long as too few bytes
have arrived. -/
def readFull : ℕ → List Segment → Option (List UInt8 × List Segment)
  | 0, segs => some ([], segs)
  | _ + 1, [] => none
  | n + 1, seg :: segs =>
    if h : n + 1 < seg.val.length then
      some (seg.val.take (n + 1), ⟨seg.val.drop (n + 1), by simpa using h⟩ :: segs)
    else
      match readFull (n + 1 - seg.val.length) segs with
      | none => none
      | some (bytes, rest) => some (seg.val ++ bytes, rest)

@[simp] theorem content_nil : content [] = [] := rfl

@[simp] theorem content_cons (seg : Segment) (segs : List Segment) :
    content (seg :: segs) = seg.val ++ content segs := rfl

@[simp] theorem content_append (segs segs' : List Segment) :
    content (segs ++ segs') = content segs ++ content segs' := List.flatMap_append

theorem readFull_of_le {n : ℕ} {segs : List Segment} (h : n ≤ (content segs).length) :
    ∃ rest, readFull n segs = some ((content segs).take n, rest) ∧
      content rest = (content segs).drop n := by
  induction segs generalizing n with
  | nil =>
    obtain rfl : n = 0 := Nat.le_zero.1 h
    exact ⟨[], rfl, rfl⟩
  | cons seg segs ih =>
    cases n with
    | zero => exact ⟨seg :: segs, rfl, rfl⟩
    | succ n =>
      rw [content_cons, length_append] at h
      rw [readFull, content_cons]
      by_cases hn : n + 1 < seg.val.length
      · rw [dif_pos hn, take_append_of_le_length hn.le, drop_append_of_le_length hn.le]
        exact ⟨_, rfl, rfl⟩
      · obtain ⟨rest, hread, hrest⟩ := ih (n := n + 1 - seg.val.length) (by omega)
        have hseg : seg.val.length ≤ n + 1 := Nat.le_of_not_lt hn
        rw [dif_neg hn, hread, List.take_append, drop_append,
          take_of_length_le hseg, drop_of_length_le hseg]
        exact ⟨rest, rfl, hrest⟩

theorem readFull_of_lt {n : ℕ} {segs : List Segment} (h : (content segs).length < n) :
    readFull n segs = none := by
  induction segs generalizing n with
  | nil =>
    obtain ⟨n, rfl⟩ := Nat.exists_eq_add_of_lt h
    rfl
  | cons seg segs ih =>
    rw [content_cons, length_append] at h
    obtain ⟨n, rfl⟩ : ∃ m, n = m + 1 := ⟨n - 1, by omega⟩
    rw [readFull, dif_neg (by omega), ih (by omega)]

end Segment

/-! ### The buffered reader -/

/-- A buffered reader: the bytes in its buffer, whether the end has been seen, and its source. -/
structure BufReader where
  buf : List UInt8 := []
  ended : Bool := false
  source : Source
  /-- The end is seen only where the source is at its end. -/
  drained : ended → source.segments = [] := by simp

namespace BufReader

open List

/-- The size of the buffer. -/
def size : ℕ := 4096

/-- The bytes that are to come. -/
def content (r : BufReader) : List UInt8 := r.buf ++ r.source.content

/-- The end is reported once. -/
def clear (r : BufReader) : BufReader := { r with ended := false, drained := by simp }

variable (r : BufReader)

@[simp] theorem content_clear : r.clear.content = r.content := rfl

/-- A read of the source into the free part of the buffer. -/
def fill (r : BufReader) : BufReader :=
  { buf := r.buf ++ (r.source.read (size - r.buf.length)).bytes
    ended := (r.source.read (size - r.buf.length)).eof
    source := (r.source.read (size - r.buf.length)).next
    drained := Source.segments_eq_nil_of_eof }

/-- A read of at most `n` bytes.  One that does not fit into the empty buffer goes past it. -/
def read (r : BufReader) (n : ℕ) : ReadOutcome BufReader :=
  if n = 0 then
    if r.buf = [] then ⟨[], r.ended, r.clear⟩ else ⟨[], false, r⟩
  else if r.buf = [] then
    if r.ended then ⟨[], true, r.clear⟩
    else if size ≤ n then
      ⟨(r.source.read n).bytes, (r.source.read n).eof, { source := (r.source.read n).next }⟩
    else if r.fill.buf = [] then ⟨[], r.fill.ended, r.fill.clear⟩
    else ⟨r.fill.buf.take n, false, { r.fill with buf := r.fill.buf.drop n }⟩
  else ⟨r.buf.take n, false, { r with buf := r.buf.drop n }⟩

/-- The next byte, unless the stream has ended. -/
def readByte (r : BufReader) : Option UInt8 × BufReader :=
  match r.buf with
  | b :: buf => (some b, { r with buf := buf })
  | [] =>
    if r.ended then (none, r.clear)
    else
      match r.fill.buf with
      | b :: buf => (some b, { r.fill with buf := buf })
      | [] => (none, r.fill.clear)

variable {r : BufReader}

theorem content_of_ended (h : r.ended) : r.content = r.buf := by
  rw [content, Source.content, r.drained h, flatMap_nil, append_nil]

theorem content_fill (h : r.buf.length < size) : r.fill.content = r.content := by
  have hsplit := (r.source.yields_read (Nat.sub_pos_of_lt h)).split
  rw [content, content, hsplit, ← append_assoc]
  rfl

theorem ended_of_fill (h : r.buf = []) (hfill : r.fill.buf = []) : r.fill.ended := by
  have hlen : r.buf.length < size := by rw [h]; decide
  exact (r.source.yields_read (Nat.sub_pos_of_lt hlen)).progress (List.append_eq_nil_iff.1 hfill).2

variable {n : ℕ}

theorem yields_take (hbuf : r.buf ≠ []) (hn : 0 < n) :
    Yields r.content n (r.buf.take n) false (({ r with buf := r.buf.drop n } : BufReader).content)
    where
  split := by rw [content, content, ← append_assoc, take_append_drop]
  bounded := by simp
  progress h := by
    rw [take_eq_nil_iff] at h
    exact absurd (h.resolve_left (by omega)) hbuf
  last h := by simp at h

/-- **A read follows the content.** -/
theorem yields_read (hn : 0 < n) :
    Yields r.content n (r.read n).bytes (r.read n).eof (r.read n).next.content := by
  rw [read, if_neg (by omega)]
  split
  · rename_i hbuf
    have hlen : r.buf.length < size := by rw [hbuf]; decide
    split
    · rename_i hended
      rw [content_clear, content_of_ended hended, hbuf]
      exact ⟨rfl, by simp, fun _ => rfl, fun _ => rfl⟩
    · split
      · rw [content, hbuf, nil_append]
        exact r.source.yields_read hn
      · rw [← content_fill hlen]
        split
        · rename_i hfill
          rw [content_clear, content_of_ended (ended_of_fill hbuf hfill), hfill]
          exact ⟨rfl, by simp, fun _ => ended_of_fill hbuf hfill, fun _ => rfl⟩
        · rename_i hfill
          exact yields_take hfill hn
  · rename_i hbuf
    exact yields_take hbuf hn

/-- **The next byte is the first of the content.** -/
theorem readByte_eq : r.readByte.1 = r.content.head? ∧ r.readByte.2.content = r.content.tail := by
  rw [readByte]
  split
  · rename_i hbuf
    simp [content, hbuf]
  · rename_i hbuf
    split
    · rename_i hended
      simp [content_of_ended hended, hbuf]
    · rw [← content_fill (r := r) (by rw [hbuf]; decide)]
      split
      · rename_i hfill
        simp [content, hfill]
      · rename_i hfill
        simp [content_of_ended (ended_of_fill hbuf hfill), hfill]

/-! ### Numbers and skipped bytes -/

section

open ByteReader (Errors)

variable {ε : Type} (e : Errors ε)

/-- The loop of the decoder, which may read `k` more bytes of ten. -/
def readGroups : ℕ → ℕ → ℕ → BufReader → Except ε ℕ × BufReader
  | 0, _, _, r => (.error e.overflow, r)
  | k + 1, x, s, r =>
    match r.readByte with
    | (none, r) => (.error (if k = 9 then e.eof else e.unexpectedEOF), r)
    | (some b, r) =>
      if b < 128 then
        if k = 0 ∧ 1 < b then (.error e.overflow, r) else (.ok (x + b.toNat * 2 ^ s), r)
      else readGroups k (x + b.toNat % 128 * 2 ^ s) (s + 7) r

/-- A number, which must be below `2 ^ 64`. -/
def readUvarint (r : BufReader) : Except ε ℕ × BufReader := readGroups e 10 0 0 r

theorem readGroups_eq (k x s : ℕ) (r : BufReader) :
    ByteReader.readGroups e k x s r.content =
      (readGroups e k x s r).1.map fun n => (n, (readGroups e k x s r).2.content) := by
  induction k generalizing x s r with
  | zero => rfl
  | succ k ih =>
    obtain ⟨hbyte, hcontent⟩ := r.readByte_eq
    rw [readGroups, ByteReader.readGroups]
    cases hr : r.content with
    | nil =>
      rw [hr] at hbyte
      rw [show r.readByte = (none, r.readByte.2) from Prod.ext hbyte rfl]
      rfl
    | cons b bytes =>
      rw [hr] at hbyte hcontent
      rw [show r.readByte = (some b, r.readByte.2) from Prod.ext hbyte rfl,
        ByteReader.bind_eq_of_ok (a := b) (by rfl), show bytes = (b :: bytes).tail from rfl,
        ← hcontent]
      dsimp only
      split
      · split <;> rfl
      · exact ih _ _ _

/-- **A number is read as from the content.** -/
theorem readUvarint_eq (r : BufReader) :
    ByteReader.readUvarint e r.content =
      (r.readUvarint e).1.map fun n => (n, (r.readUvarint e).2.content) :=
  readGroups_eq e 10 0 0 r

end

/-- The most that is skipped in one read. -/
def discardSize : ℕ := 8192

/-- Bytes are read and dropped until `n` of them are or the stream ends.  Each read but the last
takes a byte, so `n` reads are enough. -/
def discardLoop : ℕ → ℕ → BufReader → Bool × BufReader
  | 0, n, r => (n == 0, r)
  | _ + 1, 0, r => (true, r)
  | fuel + 1, n + 1, r =>
    let outcome := r.read (min discardSize (n + 1))
    let left := n + 1 - outcome.bytes.length
    if outcome.eof then (left == 0, outcome.next) else discardLoop fuel left outcome.next

/-- The next `n` bytes are skipped.  The result says whether there were so many. -/
def discard (n : ℕ) (r : BufReader) : Bool × BufReader := discardLoop n n r

theorem discardLoop_spec {fuel n : ℕ} (hfuel : n ≤ fuel) :
    ((discardLoop fuel n r).1 ↔ n ≤ r.content.length) ∧
      ((discardLoop fuel n r).1 → (discardLoop fuel n r).2.content = r.content.drop n) := by
  induction fuel generalizing n r with
  | zero =>
    obtain rfl : n = 0 := by omega
    simp [discardLoop]
  | succ fuel ih =>
    cases n with
    | zero => simp [discardLoop]
    | succ n =>
      have hy := r.yields_read (n := min discardSize (n + 1)) (by simp [discardSize])
      generalize hread : r.read (min discardSize (n + 1)) = outcome at hy
      have hbounded : outcome.bytes.length ≤ n + 1 := hy.bounded.trans (min_le_right _ _)
      rw [discardLoop, hread, hy.split, length_append]
      split
      · rename_i heof
        rw [hy.last heof, length_nil, beq_iff_eq]
        refine ⟨by omega, fun hleft => ?_⟩
        rw [append_nil, drop_eq_nil_of_le (by omega)]
      · rename_i heof
        have hne : outcome.bytes.length ≠ 0 := fun h =>
          heof (hy.progress (List.length_eq_zero_iff.1 h))
        obtain ⟨hiff, hcontent⟩ := ih (n := n + 1 - outcome.bytes.length) (r := outcome.next)
          (by omega)
        refine ⟨by rw [hiff]; omega, fun hall => ?_⟩
        rw [hcontent hall, drop_append, drop_eq_nil_of_le hbounded, nil_append]

theorem discard_of_le (h : n ≤ r.content.length) :
    (r.discard n).1 ∧ (r.discard n).2.content = r.content.drop n := by
  obtain ⟨hiff, hcontent⟩ := discardLoop_spec (r := r) (le_refl n)
  exact ⟨hiff.2 h, hcontent (hiff.2 h)⟩

theorem discard_of_lt (h : r.content.length < n) : (r.discard n).1 = false := by
  obtain ⟨hiff, -⟩ := discardLoop_spec (r := r) (le_refl n)
  exact Bool.eq_false_iff.2 fun hall => absurd (hiff.1 hall) (by omega)

/-! ### A given number of bytes -/

/-- Reads until `n` bytes have come or the stream ends, with the number of reads bounded as in
`discardLoop`. -/
def readFullLoop : ℕ → ℕ → BufReader → List UInt8 × BufReader
  | 0, _, r => ([], r)
  | _ + 1, 0, r => ([], r)
  | fuel + 1, n + 1, r =>
    let outcome := r.read (n + 1)
    if outcome.eof then (outcome.bytes, outcome.next)
    else
      match readFullLoop fuel (n + 1 - outcome.bytes.length) outcome.next with
      | (bytes, r) => (outcome.bytes ++ bytes, r)

/-- The next `n` bytes, or fewer at the end of the stream. -/
def readFull (n : ℕ) (r : BufReader) : List UInt8 × BufReader := readFullLoop n n r

end BufReader
