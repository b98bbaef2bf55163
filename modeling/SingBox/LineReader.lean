/-
**Lines and headers from a buffered reader.**

A header is a block of lines that ends with the first empty one.  It is read line by line from a
buffered reader, which fetches more of the stream only while the line that it looks for is not
complete.  What the reader has fetched beyond the end of the header stays in its buffer; how much
that is depends on how the stream was cut into segments.

* `BufReader.readLine`, `BufReader.readHeader` — a line, and a block of lines;
* `readAhead` — what is left in the buffer after a header;
* `Demand` — what a reader that still needs a number of bytes may do.

Main results:

* `BufReader.readHeader_spec` — **a header is read on demand**, and what follows it is to come;
* `readAhead_eq_nil_of_cut` — nothing is left in the buffer where the header ends with a segment;
* `readAhead_eq_nil_iff` — and, for a header that is shorter than the buffer, only there.
-/

import SingBox.BufferedReader

theorem BufReader.not_drained (source : Source) : false = true → source.segments = [] := by
  intro h
  cases h

/-- A reader that has read nothing. -/
def BufReader.new (source : Source) : BufReader where
  source := source
  drained := BufReader.not_drained source

/-! ### Fetching on demand -/

/-- A reader that needs the next `n` bytes of its stream becomes one that needs `n'`. -/
inductive Demand : ℕ → BufReader → ℕ → BufReader → Prop
  | refl (n : ℕ) (r : BufReader) : Demand n r n r
  /-- It fetches, if what is in the buffer is not enough. -/
  | fill {n n' : ℕ} {r r' : BufReader} (h : r.buf.length < n) (hrest : Demand n r.fill n' r') :
      Demand n r n' r'
  /-- It takes bytes. -/
  | take {n n' j : ℕ} {r r' : BufReader} (hj : j ≤ r.buf.length) (hn : j ≤ n)
      (hrest : Demand (n - j) { r with buf := r.buf.drop j } n' r') : Demand n r n' r'

namespace Demand

theorem trans {n n' n'' : ℕ} {r r' r'' : BufReader} (h : Demand n r n' r')
    (h' : Demand n' r' n'' r'') : Demand n r n'' r'' := by
  induction h with
  | refl => exact h'
  | fill hlt _ ih => exact .fill hlt (ih h')
  | take hj hn _ ih => exact .take hj hn (ih h')

theorem take_append {n : ℕ} {r : BufReader} {front tail : List UInt8} (hbuf : r.buf = front ++ tail)
    (hn : front.length ≤ n) : Demand n r (n - front.length) { r with buf := tail } := by
  have hdrop : r.buf.drop front.length = tail := by rw [hbuf, List.drop_left]
  have hlength : front.length ≤ r.buf.length := by
    rw [hbuf, List.length_append]
    exact Nat.le_add_right _ _
  have htake := Demand.take hlength hn (.refl _ _)
  rwa [hdrop] at htake

theorem invariant {P : ℕ → BufReader → Prop} (hfill : ∀ n r, r.buf.length < n → P n r → P n r.fill)
    (htake : ∀ n r j, j ≤ r.buf.length → j ≤ n → P n r → P (n - j) { r with buf := r.buf.drop j })
    {n n' : ℕ} {r r' : BufReader} (h : Demand n r n' r') (hr : P n r) : P n' r' := by
  induction h with
  | refl => exact hr
  | fill hlt _ ih => exact ih (hfill _ _ hlt hr)
  | take hj hn _ ih => exact ih (htake _ _ _ hj hn hr)

end Demand

/-! ### Segments and reads -/

theorem Source.read_nil {s : Source} (h : s.segments = []) (k : ℕ) :
    (s.read k).bytes = [] ∧ (s.read k).next.segments = [] := by
  rw [Source.read, h]
  exact ⟨rfl, h⟩

theorem Source.read_cons {s : Source} {seg : Segment} {segs : List Segment} {k : ℕ}
    (h : s.segments = seg :: segs) :
    ((s.read k).bytes = seg.val ∧ (s.read k).next.segments = segs) ∨
      ∃ rest : Segment, k < seg.val.length ∧ (s.read k).bytes = seg.val.take k ∧
        rest.val = seg.val.drop k ∧ (s.read k).next.segments = rest :: segs := by
  rw [Source.read, h]
  dsimp only
  split
  · rename_i hk
    exact .inr ⟨_, hk, rfl, rfl, rfl⟩
  · exact .inl ⟨rfl, rfl⟩

/-- A segment ends after `n` bytes of the stream. -/
def Source.CutAfter (s : Source) (n : ℕ) : Prop :=
  ∃ before after, s.segments = before ++ after ∧ (Segment.content before).length = n

namespace Demand

open List Segment

/-- **Reads do not go past a segment**: where a header ends with a segment, nothing after it is
fetched. -/
theorem buf_eq_nil_of_boundary {n : ℕ} {r r' : BufReader} (h : Demand n r 0 r')
    {before after : List Segment} (hsegs : r.source.segments = before ++ after)
    (hlength : r.buf.length + (Segment.content before).length = n) : r'.buf = [] := by
  have hinv := h.invariant
    (P := fun n r => ∃ before after, r.source.segments = before ++ after ∧
      r.buf.length + (Segment.content before).length = n) ?_ ?_ ⟨before, after, hsegs, hlength⟩
  · obtain ⟨before, after, -, hlength⟩ := hinv
    exact List.length_eq_zero_iff.1 (by omega)
  · rintro n r hlt ⟨before, after, hsegs, hlength⟩
    cases before with
    | nil =>
      rw [Segment.content, flatMap_nil, length_nil] at hlength
      omega
    | cons seg before =>
      rw [content_cons, length_append] at hlength
      rcases Source.read_cons (k := BufReader.size - r.buf.length) hsegs with
        ⟨hbytes, hnext⟩ | ⟨rest, hk, hbytes, hrest, hnext⟩
      · refine ⟨before, after, hnext, ?_⟩
        rw [BufReader.fill, hbytes, length_append]
        omega
      · refine ⟨rest :: before, after, hnext, ?_⟩
        rw [BufReader.fill, hbytes, length_append, content_cons, length_append,
          hrest, length_take, length_drop]
        omega
  · rintro n r j hj hn ⟨before, after, hsegs, hlength⟩
    refine ⟨before, after, hsegs, ?_⟩
    rw [length_drop]
    omega

theorem whole_segments {source : Source} {n m : ℕ} {r : BufReader}
    (h : Demand n (.new source) m r) (hn : n < BufReader.size) :
    m ≤ n ∧ ((∃ before, source.segments = before ++ r.source.segments ∧
        (Segment.content before).length + m = n + r.buf.length) ∨
      BufReader.size + m ≤ n + r.buf.length) := by
  refine h.invariant (P := fun m r => m ≤ n ∧
    ((∃ before, source.segments = before ++ r.source.segments ∧
      (Segment.content before).length + m = n + r.buf.length) ∨
        BufReader.size + m ≤ n + r.buf.length)) ?_ ?_ ⟨le_rfl, .inl ⟨[], rfl, ?_⟩⟩
  · rintro m r hlt ⟨hm, ⟨before, hsegs, hlength⟩ | hfull⟩
    · refine ⟨hm, ?_⟩
      cases hrest : r.source.segments with
      | nil =>
        obtain ⟨hbytes, hnext⟩ := Source.read_nil hrest (BufReader.size - r.buf.length)
        refine .inl ⟨before, ?_, ?_⟩
        · rw [hsegs, hrest, BufReader.fill, hnext]
        · rw [BufReader.fill, hbytes, append_nil]
          exact hlength
      | cons seg segs =>
        rcases Source.read_cons (k := BufReader.size - r.buf.length) hrest with
          ⟨hbytes, hnext⟩ | ⟨rest, hk, hbytes, -, hnext⟩
        · refine .inl ⟨before ++ [seg], ?_, ?_⟩
          · rw [hsegs, hrest, BufReader.fill, hnext, append_assoc]
            rfl
          · rw [BufReader.fill, hbytes, content_append, length_append,
              length_append, content_cons, content_nil, append_nil]
            omega
        · -- The buffer is full now.
          refine .inr ?_
          rw [BufReader.fill, hbytes, length_append, length_take]
          omega
    · omega
  · rintro m r j hj hjm ⟨hm, ⟨before, hsegs, hlength⟩ | hfull⟩
    · refine ⟨by omega, .inl ⟨before, hsegs, ?_⟩⟩
      rw [length_drop]
      omega
    · refine ⟨by omega, .inr ?_⟩
      rw [length_drop]
      omega
  · exact Nat.add_comm 0 n

/-- **A header that is shorter than the buffer** leaves nothing in it exactly where it ends with a
segment. -/
theorem buf_eq_nil_iff {source : Source} {n : ℕ} {r : BufReader}
    (h : Demand n (.new source) 0 r) (hn : n < BufReader.size) :
    r.buf = [] ↔ source.CutAfter n := by
  constructor
  · intro hbuf
    rcases (h.whole_segments hn).2 with ⟨before, hsegs, hlength⟩ | hfull
    · rw [hbuf, length_nil] at hlength
      exact ⟨before, _, hsegs, by omega⟩
    · rw [hbuf, length_nil] at hfull
      omega
  · rintro ⟨before, after, hsegs, hlength⟩
    exact h.buf_eq_nil_of_boundary hsegs (by rw [hlength]; exact Nat.zero_add n)

end Demand

/-! ### Lines -/

namespace BufReader

open List

/-- How the search for a delimiter ends. -/
inductive SliceEnd where
  | found
  | full
  | ended

/-- The bytes up to the delimiter, or a full buffer without it, or the rest of the stream. -/
def readSliceLoop (delim : UInt8) : ℕ → BufReader → List UInt8 × SliceEnd × BufReader
  | 0, r => ([], .full, r)
  | fuel + 1, r =>
    if delim ∈ r.buf then
      (r.buf.take (r.buf.idxOf delim + 1), .found,
        { r with buf := r.buf.drop (r.buf.idxOf delim + 1) })
    else if r.ended then (r.buf, .ended, { r.clear with buf := [] })
    else if size ≤ r.buf.length then (r.buf, .full, { r with buf := [] })
    else readSliceLoop delim fuel r.fill

/-- Every fetch brings a byte or the end. -/
def readSlice (delim : UInt8) (r : BufReader) : List UInt8 × SliceEnd × BufReader :=
  readSliceLoop delim (size + 2) r

/-- A line without its end, which is a line feed or a carriage return and a line feed. -/
def chomp (line : List UInt8) : List UInt8 :=
  if line.dropLast.getLast? = some 13 then line.dropLast.dropLast else line.dropLast

/-- A line, or a part of one that does not fit into the buffer.  A carriage return at the end of
such a part is put back. -/
def readLine (r : BufReader) : Option (List UInt8 × Bool) × BufReader :=
  match r.readSlice 10 with
  | (line, .found, r) => (some (chomp line, false), r)
  | (line, .full, r) =>
    if line.getLast? = some 13 then (some (line.dropLast, true), { r with buf := [13] })
    else (some (line, true), r)
  | (line, .ended, r) => if line = [] then (none, r) else (some (line, false), r)

/-- A line with all its parts. -/
def readParts : ℕ → BufReader → Option (List UInt8) × BufReader
  | 0, r => (none, r)
  | fuel + 1, r =>
    match r.readLine with
    | (none, r) => (none, r)
    | (some (part, false), r) => (some part, r)
    | (some (part, true), r) =>
      match readParts fuel r with
      | (none, r) => (none, r)
      | (some rest, r) => (some (part ++ rest), r)

/-- The lines up to the first empty one. -/
def readLines : ℕ → BufReader → Option (List (List UInt8)) × BufReader
  | 0, r => (none, r)
  | fuel + 1, r =>
    match r.readParts (r.content.length + 1) with
    | (none, r) => (none, r)
    | (some line, r) =>
      if line = [] then (some [], r)
      else
        match readLines fuel r with
        | (none, r) => (none, r)
        | (some lines, r) => (some (line :: lines), r)

/-- A header.  There is none if the stream ends before it does. -/
def readHeader (r : BufReader) : Option (List (List UInt8)) × BufReader :=
  readLines (r.content.length + 1) r

/-! ### What is read -/

variable {r : BufReader}

section

variable {delim : UInt8} {body rest : List UInt8}

theorem exists_tail_of_mem {buf src : List UInt8} (h : buf ++ src = body ++ delim :: rest)
    (hbody : delim ∉ body) (hmem : delim ∈ buf) :
    ∃ tail, buf = body ++ delim :: tail ∧ rest = tail ++ src := by
  rcases List.append_eq_append_iff.1 h with ⟨tail, rfl, -⟩ | ⟨tail, rfl, htail⟩
  · exact absurd (mem_append_left _ hmem) hbody
  · cases tail with
    | nil =>
      rw [append_nil] at hmem
      exact absurd hmem hbody
    | cons b tail =>
      rw [cons_append, List.cons.injEq] at htail
      obtain ⟨rfl, rfl⟩ := htail
      exact ⟨tail, rfl, rfl⟩

theorem exists_tail_of_not_mem {buf src : List UInt8} (h : buf ++ src = body ++ delim :: rest)
    (hmem : delim ∉ buf) : ∃ tail, body = buf ++ tail ∧ src = tail ++ delim :: rest := by
  rcases List.append_eq_append_iff.1 h with ⟨tail, rfl, htail⟩ | ⟨tail, rfl, htail⟩
  · exact ⟨tail, rfl, htail⟩
  · cases tail with
    | nil => exact ⟨[], by simp, htail.symm⟩
    | cons b tail =>
      rw [cons_append, List.cons.injEq] at htail
      obtain ⟨rfl, -⟩ := htail
      exact absurd (by simp) hmem

theorem idxOf_append_cons (hbody : delim ∉ body) (tail : List UInt8) :
    (body ++ delim :: tail).idxOf delim = body.length := by
  rw [idxOf_append_of_notMem hbody, idxOf_cons_self, Nat.add_zero]

/-- How a slice is found: after some fetches, the delimiter is in the buffer, or the buffer is full
without it. -/
inductive Sliced (r : BufReader) (delim : UInt8) (body : List UInt8) (n : ℕ) :
    List UInt8 × SliceEnd × BufReader → Prop
  | found {r₁ : BufReader} {tail : List UInt8} (hdemand : Demand n r n r₁)
      (hcontent : r₁.content = r.content) (hbuf : r₁.buf = body ++ delim :: tail) :
      Sliced r delim body n (body ++ [delim], .found, { r₁ with buf := tail })
  | full {r₁ : BufReader} {tail : List UInt8} (hdemand : Demand n r n r₁)
      (hcontent : r₁.content = r.content) (hbody : body = r₁.buf ++ tail)
      (hsize : size ≤ r₁.buf.length) :
      Sliced r delim body n (r₁.buf, .full, { r₁ with buf := [] })

theorem Sliced.of_fill {n : ℕ} {outcome : List UInt8 × SliceEnd × BufReader}
    (hn : r.buf.length < n) (hsize : r.buf.length < size)
    (h : Sliced r.fill delim body n outcome) : Sliced r delim body n outcome := by
  cases h with
  | found hdemand hcontent hbuf =>
    exact .found (.fill hn hdemand) (hcontent.trans (content_fill hsize)) hbuf
  | full hdemand hcontent hbody hfull =>
    exact .full (.fill hn hdemand) (hcontent.trans (content_fill hsize)) hbody hfull

theorem length_lt_fill (hsize : r.buf.length < size)
    (hsource : r.source.content ≠ []) : r.buf.length < r.fill.buf.length := by
  have hyields := r.source.yields_read (Nat.sub_pos_of_lt hsize)
  have hbytes : (r.source.read (size - r.buf.length)).bytes ≠ [] := by
    intro hnil
    have hlast := hyields.last (hyields.progress hnil)
    rw [hyields.split, hnil, hlast] at hsource
    exact hsource rfl
  rw [fill, length_append]
  exact Nat.lt_add_of_pos_right (List.length_pos_iff.2 hbytes)

theorem sliced_readSliceLoop {fuel n : ℕ} (h : r.content = body ++ delim :: rest)
    (hbody : delim ∉ body) (hn : body.length < n) (hfuel : size - r.buf.length < fuel) :
    Sliced r delim body n (readSliceLoop delim fuel r) := by
  induction fuel generalizing r with
  | zero => omega
  | succ fuel ih =>
    rw [readSliceLoop]
    split
    · rename_i hmem
      obtain ⟨tail, hbuf, -⟩ := exists_tail_of_mem h hbody hmem
      have hsplit : r.buf = (body ++ [delim]) ++ tail := by rw [hbuf, append_assoc]; rfl
      have hlength : (body ++ [delim]).length = body.length + 1 := by
        rw [length_append, length_singleton]
      have htake : r.buf.take (body.length + 1) = body ++ [delim] := by
        rw [hsplit, take_left' hlength]
      have hdrop : r.buf.drop (body.length + 1) = tail := by
        rw [hsplit, drop_left' hlength]
      have hidx : r.buf.idxOf delim = body.length := by rw [hbuf, idxOf_append_cons hbody]
      simp only [hidx, htake, hdrop]
      exact .found (.refl n r) rfl hbuf
    · rename_i hmem
      obtain ⟨tail, htail, hsource⟩ := exists_tail_of_not_mem h hmem
      have hne : r.source.content ≠ [] := by rw [hsource]; simp
      split
      · -- The stream has not ended.
        rename_i hended
        rw [Source.content, r.drained hended] at hne
        exact absurd rfl hne
      · split
        · rename_i hfull
          exact .full (.refl n r) rfl htail hfull
        · rename_i hfull
          have hspace := Nat.lt_of_not_le hfull
          have hgrow := length_lt_fill hspace hne
          have hneed : r.buf.length < n := by
            rw [htail, length_append] at hn
            omega
          exact (ih ((content_fill hspace).trans h) (by omega)).of_fill hneed hspace

theorem sliced_readSlice {n : ℕ} (h : r.content = body ++ delim :: rest)
    (hbody : delim ∉ body) (hn : body.length < n) :
    Sliced r delim body n (r.readSlice delim) :=
  sliced_readSliceLoop h hbody hn (by omega)

end

/-! ### Lines and headers -/

theorem chomp_append {part body : List UInt8} (h : body ≠ [] ∨ part.getLast? ≠ some 13) :
    chomp (part ++ (body ++ [10])) = part ++ chomp (body ++ [10]) := by
  rw [chomp, chomp, ← append_assoc, dropLast_concat, dropLast_concat]
  cases hbody : body with
  | nil =>
    have hpart := h.resolve_left (not_not.2 hbody)
    simp [hpart]
  | cons b body =>
    have hlast : (part ++ b :: body).getLast? = (b :: body).getLast? :=
      getLast?_append_of_ne_nil _ (by simp)
    rw [hlast]
    split
    · rw [dropLast_append_of_ne_nil (by simp)]
    · rfl

/-- How a line is read: to its end, or as a part of it. -/
inductive Lined (r : BufReader) (body rest : List UInt8) (n : ℕ) :
    Option (List UInt8 × Bool) × BufReader → Prop
  | whole {r' : BufReader} (hdemand : Demand n r (n - (body.length + 1)) r')
      (hcontent : r'.content = rest) : Lined r body rest n (some (chomp (body ++ [10]), false), r')
  | part {r' : BufReader} {piece body' : List UInt8} (hpiece : piece ≠ [])
      (hbody : body = piece ++ body') (hdemand : Demand n r (n - piece.length) r')
      (hcontent : r'.content = body' ++ 10 :: rest)
      (hchomp : chomp (body ++ [10]) = piece ++ chomp (body' ++ [10])) :
      Lined r body rest n (some (piece, true), r')

theorem lined_readLine {n : ℕ} {body rest : List UInt8}
    (h : r.content = body ++ 10 :: rest) (hbody : 10 ∉ body) (hn : body.length < n) :
    Lined r body rest n r.readLine := by
  rw [readLine]
  have hslice := sliced_readSlice h hbody hn
  generalize r.readSlice 10 = outcome at hslice
  cases hslice with
  | @found r₁ tail hdemand hcontent hbuf =>
    have hsplit : r₁.buf = (body ++ [10]) ++ tail := by rw [hbuf, append_assoc]; rfl
    have htake := Demand.take_append (n := n) hsplit (by simpa using hn.nat_succ_le)
    rw [length_append] at htake
    refine .whole (hdemand.trans htake) ?_
    rw [h, content, hsplit, append_assoc, append_assoc] at hcontent
    exact (List.cons.inj (append_cancel_left hcontent)).2
  | @full r₁ tail hdemand hcontent htail hsize =>
    have hsource : r₁.source.content = tail ++ 10 :: rest := by
      rw [h, content, htail, append_assoc] at hcontent
      exact append_cancel_left hcontent
    have hlength : r₁.buf.length ≤ n := by
      rw [htail, length_append] at hn
      omega
    dsimp only
    split
    · -- The carriage return is the last byte of the full buffer.
      rename_i hlast
      obtain ⟨front, hfront⟩ := List.getLast?_eq_some_iff.1 hlast
      have hpiece : r₁.buf.dropLast = front := by rw [hfront, dropLast_concat]
      have hne : front ≠ [] := by
        rintro rfl
        rw [hfront] at hsize
        exact absurd hsize (by decide)
      have hsplit : body = front ++ 13 :: tail := by
        rw [htail, hfront, append_assoc]
        rfl
      rw [hpiece]
      refine .part hne hsplit (hdemand.trans (.take_append hfront ?_)) ?_ ?_
      · rw [hfront, length_append] at hlength
        omega
      · rw [content, hsource]
        rfl
      · rw [hsplit, append_assoc]
        exact chomp_append (.inl (cons_ne_nil _ _))
    · rename_i hlast
      have hne : r₁.buf ≠ [] := by
        intro hnil
        rw [hnil] at hsize
        exact absurd hsize (by decide)
      refine .part hne htail (hdemand.trans (.take_append (append_nil _).symm hlength)) ?_ ?_
      · rw [content, hsource]
        rfl
      · rw [htail, append_assoc]
        exact chomp_append (.inr hlast)

/-- **A line is read whole**, and no more is fetched than it takes. -/
theorem readParts_spec (fuel n : ℕ) {body rest : List UInt8} (h : r.content = body ++ 10 :: rest)
    (hbody : 10 ∉ body) (hn : body.length < n) (hfuel : body.length < fuel) :
    ∃ r', r.readParts fuel = (some (chomp (body ++ [10])), r') ∧ r'.content = rest ∧
      Demand n r (n - (body.length + 1)) r' := by
  induction fuel generalizing n r body with
  | zero => omega
  | succ fuel ih =>
    rw [readParts]
    have hline := lined_readLine h hbody hn
    generalize r.readLine = outcome at hline
    cases hline with
    | whole hdemand hcontent => exact ⟨_, rfl, hcontent, hdemand⟩
    | @part r₁ piece body' hpiece hsplit hdemand hcontent hchomp =>
      have hpos := List.length_pos_iff.2 hpiece
      rw [hsplit, length_append] at hn hfuel
      have hbody' : 10 ∉ body' := fun hmem =>
        hbody (hsplit ▸ mem_append_right _ hmem)
      obtain ⟨r', hread, hrest, hlater⟩ := ih (n - piece.length) hcontent hbody'
        (by omega) (by omega)
      refine ⟨r', ?_, hrest, ?_⟩
      · dsimp only
        rw [hread, hchomp]
      · have hneed : n - piece.length - (body'.length + 1) = n - (body.length + 1) := by
          rw [hsplit, length_append]
          omega
        exact hdemand.trans (hneed ▸ hlater)

end BufReader

/-! ### Headers -/

/-- The bytes of a header, and its lines without their ends.  The empty line at the end is not one
of them. -/
inductive HeaderBlock : List UInt8 → List (List UInt8) → Prop
  | last {body : List UInt8} (hbody : 10 ∉ body) (hempty : BufReader.chomp (body ++ [10]) = []) :
      HeaderBlock (body ++ [10]) []
  | cons {body block : List UInt8} {lines : List (List UInt8)} (hbody : 10 ∉ body)
      (hline : BufReader.chomp (body ++ [10]) ≠ []) (hblock : HeaderBlock block lines) :
      HeaderBlock (body ++ 10 :: block) (BufReader.chomp (body ++ [10]) :: lines)

variable {lines : List (List UInt8)} {header : List UInt8}

namespace BufReader

open List

theorem readLines_spec
    (hheader : HeaderBlock header lines) (fuel n : ℕ) {r : BufReader} {rest : List UInt8}
    (h : r.content = header ++ rest) (hn : header.length ≤ n) (hfuel : header.length ≤ fuel) :
    ∃ r', r.readLines fuel = (some lines, r') ∧ r'.content = rest ∧
      Demand n r (n - header.length) r' := by
  induction hheader generalizing fuel n r with
  | @last body hbody hempty =>
    rw [length_append, length_singleton] at hn hfuel ⊢
    obtain ⟨fuel, rfl⟩ := Nat.exists_eq_add_of_lt hfuel
    rw [append_assoc] at h
    obtain ⟨r', hread, hrest, hdemand⟩ := readParts_spec (r.content.length + 1) n
      h hbody (by omega) (by rw [h, length_append]; omega)
    refine ⟨r', ?_, hrest, hdemand⟩
    rw [readLines, hread]
    exact if_pos hempty
  | @cons body block lines hbody hline _ ih =>
    rw [length_append, length_cons] at hn hfuel ⊢
    obtain ⟨fuel, rfl⟩ : ∃ k, fuel = k + 1 := ⟨fuel - 1, by omega⟩
    rw [append_assoc, cons_append] at h
    obtain ⟨r₁, hread, hcontent, hdemand⟩ := readParts_spec (r.content.length + 1) n
      h hbody (by omega) (by rw [h, length_append]; omega)
    obtain ⟨r', hlines, hrest, hlater⟩ := ih fuel (n - (body.length + 1)) hcontent
      (by omega) (by omega)
    refine ⟨r', ?_, hrest, ?_⟩
    · rw [readLines, hread]
      dsimp only
      rw [if_neg hline, hlines]
    · rw [Nat.sub_sub, Nat.add_assoc, Nat.add_comm 1] at hlater
      exact hdemand.trans hlater

/-- **A header is read on demand**, however the stream is cut, and what follows it is to come. -/
theorem readHeader_spec (hheader : HeaderBlock header lines) {r : BufReader} {rest : List UInt8}
    (h : r.content = header ++ rest) :
    ∃ r', r.readHeader = (some lines, r') ∧ r'.content = rest ∧ Demand header.length r 0 r' := by
  have hlength : header.length ≤ r.content.length + 1 := by
    rw [h, length_append]
    omega
  obtain ⟨r', hread, hrest, hdemand⟩ := readLines_spec hheader _ _ h le_rfl hlength
  rw [Nat.sub_self] at hdemand
  exact ⟨r', hread, hrest, hdemand⟩

end BufReader

open BufReader

theorem HeaderBlock.unique {lines lines' : List (List UInt8)}
    (h : HeaderBlock header lines) (h' : HeaderBlock header lines') : lines = lines' := by
  let r : BufReader := { buf := header, source := { segments := [] } }
  obtain ⟨r₁, hread, -⟩ := readHeader_spec (r := r) h rfl
  obtain ⟨r₂, hread', -⟩ := readHeader_spec (r := r) h' rfl
  rw [hread, Prod.mk.injEq, Option.some.injEq] at hread'
  exact hread'.1

/-! ### What is read ahead -/

/-- What a buffered reader has taken from the stream beyond the header that it has read. -/
def readAhead (source : Source) : List UInt8 :=
  (new source).readHeader.2.buf

section

variable {source : Source} {header rest : List UInt8} {lines : List (List UInt8)}
  (hheader : HeaderBlock header lines) (hsource : source.content = header ++ rest)
include hheader hsource

theorem readHeader_split :
    ∃ r : BufReader, (new source).readHeader = (some lines, r) ∧
      r.buf = readAhead source ∧ rest = readAhead source ++ r.source.content := by
  obtain ⟨r, hread, hrest, -⟩ := readHeader_spec (r := .new source) hheader hsource
  have hbuf : r.buf = readAhead source := by rw [readAhead, hread]
  exact ⟨r, hread, hbuf, by rw [← hrest, ← hbuf, content]⟩

/-- **Nothing is read ahead of a header that ends with a segment.** -/
theorem readAhead_eq_nil_of_cut (hcut : source.CutAfter header.length) : readAhead source = [] := by
  obtain ⟨r, hread, -, hdemand⟩ := readHeader_spec (r := .new source) hheader hsource
  obtain ⟨before, after, hsegs, hlength⟩ := hcut
  rw [readAhead, hread]
  exact hdemand.buf_eq_nil_of_boundary hsegs (by rw [hlength]; exact Nat.zero_add _)

/-- **A header that is shorter than the buffer** has something read ahead of it otherwise. -/
theorem readAhead_eq_nil_iff (hlength : header.length < size) :
    readAhead source = [] ↔ source.CutAfter header.length := by
  obtain ⟨r, hread, -, hdemand⟩ := readHeader_spec (r := .new source) hheader hsource
  rw [readAhead, hread]
  exact hdemand.buf_eq_nil_iff hlength

end

/-- Lines that end as the lines of a header are written. -/
def crlfLines (lines : List (List UInt8)) : List UInt8 := lines.flatMap (· ++ [13, 10])

theorem headerBlock_crlfLines (h : ∀ line ∈ lines, 10 ∉ line ∧ line ≠ []) :
    HeaderBlock (crlfLines (lines ++ [[]])) lines := by
  have hchomp (line : List UInt8) : chomp (line ++ [13] ++ [10]) = line := by
    rw [chomp, List.dropLast_concat, List.getLast?_concat, if_pos rfl, List.dropLast_concat]
  induction lines with
  | nil =>
    change HeaderBlock ([13] ++ [10]) []
    exact .last (by decide) (hchomp [])
  | cons line lines ih =>
    rw [List.forall_mem_cons] at h
    have hbody : 10 ∉ line ++ [13] := by
      rw [List.mem_append, not_or]
      exact ⟨h.1.1, by decide⟩
    have hblock := HeaderBlock.cons hbody (by rw [hchomp]; exact h.1.2) (ih h.2)
    rw [hchomp, List.append_assoc] at hblock
    rw [List.cons_append, crlfLines, List.flatMap_cons, List.append_assoc]
    exact hblock
