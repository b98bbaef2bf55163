/-
**The chunks of packet-up** (`transport/v2rayxhttp/writer.go` and `common/xray/pipe/impl.go`).

`Write` hands its bytes to the pipe in buffers of 8192 bytes.  The pipe takes a buffer whenever it
is not over its limit, so that it may hold one buffer more; the limit is therefore the size of a
post less one buffer.

* `ChunkPipe.sound_step` — **what a step keeps**;
* `ChunkPipe.chunks_exact` — **no chunk is too long, and no byte is lost or added**.
-/

import SingBox.PacketUpload

namespace SingBox

open List

open PacketUpload (bufferSize)

/-- The writer, the pipe and the loop that sends. -/
structure ChunkPipe where
  pipe : UploadPipe
  /-- The call of `Write` under way, and how many bytes it has put into the pipe. -/
  writing : Option (List UInt8 × ℕ) := none
  calls : List WriteCall := []
  /-- What `ReadMultiBuffer` has returned. -/
  chunks : List (List UInt8) := []
  ended : Option UploadPipeError := none

/-- Writes come one after the other; `Close` and `Interrupt` come at any time. -/
inductive ChunkEvent where
  | write (b : List UInt8)
  | put
  | finish
  | close
  | interrupt
  | read
  deriving DecidableEq

namespace UploadPipe

variable {p p' : UploadPipe} {mb : List UInt8} {err : UploadPipeError}

theorem write_eq_none (h : p.writeMultiBufferInternal mb = (none, p')) :
    p.state = .opened ∧ p.isFull = false ∧ p' = { p with data := p.data ++ mb } := by
  cases hstate : p.state with
  | opened =>
    rw [write_of_opened hstate] at h
    split at h
    · cases h
    · rename_i hfull
      exact ⟨rfl, Bool.eq_false_iff.2 hfull, by rw [← (Prod.mk.inj h).2, hstate]⟩
  | closed | errord => simp [writeMultiBufferInternal, getState, hstate] at h

theorem write_eq_some (h : p.writeMultiBufferInternal mb = (some err, p')) : p' = p := by
  rw [writeMultiBufferInternal] at h
  split at h
  · exact (Prod.mk.inj h).2.symm
  · cases h

theorem read_eq_ok (h : p.readMultiBufferInternal = (.ok mb, p')) :
    mb = p.data ∧ p' = { p with data := [] } := by
  rw [readMultiBufferInternal] at h
  split at h
  · cases h
  · cases h
    exact ⟨rfl, rfl⟩

theorem read_eq_error (h : p.readMultiBufferInternal = (.error err, p')) :
    p' = p ∧ (p.state ≠ .errord → err = .eof ∧ p.state = .closed ∧ p.data = []) := by
  cases hstate : p.state with
  | opened =>
    rw [read_of_opened hstate] at h
    cases h
  | closed =>
    by_cases hdata : p.data = []
    · simp [readMultiBufferInternal, getState, hstate, hdata] at h
      exact ⟨h.2.symm, fun _ => ⟨h.1.symm, rfl, hdata⟩⟩
    · simp [readMultiBufferInternal, getState, hstate, hdata] at h
  | errord =>
    simp [readMultiBufferInternal, getState, hstate] at h
    exact ⟨h.2.symm, fun h => absurd rfl h⟩

end UploadPipe

open UploadPipe

namespace ChunkPipe

/-- A pipe for posts of the given size. -/
def new (maxUploadSize : ℤ) : ChunkPipe := { pipe := { limit := maxUploadSize - bufferSize } }

/-- One step, if it can happen.  `Write` waits while the pipe is full, and the loop while it is open
and empty. -/
def step (s : ChunkPipe) : ChunkEvent → Option ChunkPipe
  | .write b =>
    match s.writing with
    | none => some { s with writing := some (b, 0) }
    | some _ => none
  | .put =>
    match s.writing with
    | none => none
    | some (b, n) =>
      if n = b.length then none
      else
        match s.pipe.writeMultiBufferInternal ((b.drop n).take bufferSize) with
        | (none, pipe) =>
          some { s with
            pipe := pipe
            writing := some (b, n + ((b.drop n).take bufferSize).length) }
        | (some .bufferFull, _) => none
        | (some err, pipe) =>
          some { s with
            pipe := pipe, writing := none, calls := s.calls ++ [⟨b, n, some err⟩] }
  | .finish =>
    match s.writing with
    | none => none
    | some (b, n) =>
      if n = b.length then
        some { s with writing := none, calls := s.calls ++ [⟨b, n, none⟩] }
      else none
  | .close => some { s with pipe := s.pipe.close }
  | .interrupt => some { s with pipe := s.pipe.interrupt }
  | .read =>
    match s.ended with
    | some _ => none
    | none =>
      match s.pipe.readMultiBufferInternal with
      | (.error err, pipe) => some { s with pipe := pipe, ended := some err }
      | (.ok chunk, pipe) =>
        if chunk = [] then none
        else some { s with pipe := pipe, chunks := s.chunks ++ [chunk] }

/-- The bytes that the calls of `Write` have put into the pipe: those that they have reported, and
those of the call under way. -/
def written (s : ChunkPipe) : List UInt8 :=
  (s.calls.flatMap fun call => call.b.take call.n) ++
    match s.writing with
    | none => []
    | some (b, n) => b.take n

/-- The bytes of the calls that have succeeded. -/
def succeeded (s : ChunkPipe) : List UInt8 :=
  (s.calls.filter fun call => call.err.isNone).flatMap WriteCall.b

/-- What holds whatever happens to the pipe: neither it nor a chunk is over the limit by more than a
buffer, and a call that succeeds has put all its bytes. -/
structure Bounded (limit : ℤ) (s : ChunkPipe) : Prop where
  limit_eq : s.pipe.limit = limit
  data_le : s.pipe.data.length ≤ limit + bufferSize
  chunks_le : ∀ chunk ∈ s.chunks, chunk.length ≤ limit + bufferSize
  calls : ∀ call ∈ s.calls, call.err = none → call.n = call.b.length

/-- What holds unless the pipe is interrupted: the bytes that were put are in the chunks and in the
pipe, in this order, and the loop ends with nothing left. -/
structure Intact (s : ChunkPipe) : Prop where
  state : s.pipe.state ≠ .errord
  bytes : s.chunks.flatten ++ s.pipe.data = s.written
  ended : ∀ err, s.ended = some err → err = .eof ∧ s.pipe.state = .closed ∧ s.pipe.data = []

variable {s s' : ChunkPipe} {e : ChunkEvent} {limit : ℤ}

theorem take_add_piece (b : List UInt8) (n k : ℕ) :
    b.take (n + ((b.drop n).take k).length) = b.take n ++ (b.drop n).take k := by
  rw [take_add, length_take, ← take_take, take_length]

/-- **What a step keeps.** -/
theorem sound_step (hlimit : 0 ≤ limit) (h : s.step e = some s') (hs : s.Bounded limit) :
    s'.Bounded limit ∧ (e ≠ .interrupt → s.Intact → s'.Intact) := by
  obtain ⟨hl, hdata, hchunks, hcalls⟩ := hs
  cases e with
  | write b =>
    simp only [step] at h
    split at h
    · rename_i hwriting
      cases h
      refine ⟨⟨hl, hdata, hchunks, hcalls⟩, fun _ hi => ⟨hi.state, hi.bytes.trans ?_, hi.ended⟩⟩
      simp [written, hwriting]
    · cases h
  | put =>
    simp only [step] at h
    split at h
    · cases h
    rename_i b n hwriting
    split at h
    · cases h
    split at h
    · -- The pipe was not over its limit, and one buffer is added.
      rename_i pipe hwrite
      cases h
      obtain ⟨hopened, hfull, rfl⟩ := write_eq_none hwrite
      have hlen : ((b.drop n).take bufferSize).length ≤ bufferSize := length_take_le _ _
      rw [isFull, decide_eq_false_iff_not, hl] at hfull
      refine ⟨⟨hl, ?_, hchunks, hcalls⟩, fun _ hi => ⟨hi.state, ?_, fun err herr => ?_⟩⟩
      · rw [length_append]
        push_cast
        omega
      · have hbytes := hi.bytes
        simp only [written, hwriting] at hbytes
        simp only [written, take_add_piece]
        rw [← append_assoc, hbytes, append_assoc]
      · cases hopened.symm.trans (hi.ended err herr).2.1
    · cases h
    · -- What the call reports is what it has put.
      rename_i err pipe _ hwrite
      cases h
      obtain rfl := write_eq_some hwrite
      refine ⟨⟨hl, hdata, hchunks, fun call hcall herr => ?_⟩,
        fun _ hi => ⟨hi.state, hi.bytes.trans ?_, hi.ended⟩⟩
      · rcases List.mem_append.1 hcall with hcall | hcall
        · exact hcalls call hcall herr
        · rw [List.mem_singleton.1 hcall] at herr
          cases herr
      · simp [written, hwriting]
  | finish =>
    simp only [step] at h
    split at h
    · cases h
    rename_i b n hwriting
    split at h
    · rename_i hn
      cases h
      refine ⟨⟨hl, hdata, hchunks, fun call hcall herr => ?_⟩,
        fun _ hi => ⟨hi.state, hi.bytes.trans ?_, hi.ended⟩⟩
      · rcases List.mem_append.1 hcall with hcall | hcall
        · exact hcalls call hcall herr
        · rw [List.mem_singleton.1 hcall]
          exact hn
      · simp [written, hwriting]
    · cases h
  | close =>
    cases h
    have hclose : s.pipe.close.limit = s.pipe.limit ∧ s.pipe.close.data = s.pipe.data := by
      rw [close]
      split <;> exact ⟨rfl, rfl⟩
    refine ⟨⟨hclose.1.trans hl, by rw [hclose.2]; exact hdata, hchunks, hcalls⟩,
      fun _ hi => ⟨?_, by rw [hclose.2]; exact hi.bytes, fun err herr => ?_⟩⟩
    · have hstate := hi.state
      simp only [close]
      split
      · exact hstate
      · simp
    · obtain ⟨rfl, hclosed, hempty⟩ := hi.ended err herr
      refine ⟨rfl, ?_, hclose.2.trans hempty⟩
      rw [close, if_pos (.inl hclosed)]
      exact hclosed
  | interrupt =>
    cases h
    have hempty : s.pipe.interrupt.limit = s.pipe.limit ∧ s.pipe.interrupt.data = [] := by
      by_cases hdata : s.pipe.data = [] <;> cases hstate : s.pipe.state <;>
        simp [interrupt, hdata, hstate]
    refine ⟨⟨hempty.1.trans hl, ?_, hchunks, hcalls⟩, fun he => absurd rfl he⟩
    rw [hempty.2, length_nil]
    push_cast
    omega
  | read =>
    simp only [step] at h
    split at h
    · cases h
    split at h
    · rename_i err pipe hread
      cases h
      obtain ⟨rfl, herr⟩ := read_eq_error hread
      refine ⟨⟨hl, hdata, hchunks, hcalls⟩, fun _ hi => ⟨hi.state, hi.bytes, ?_⟩⟩
      rintro err' ⟨⟩
      exact herr hi.state
    · rename_i hended _ chunk pipe hread
      split at h
      · cases h
      cases h
      obtain ⟨rfl, rfl⟩ := read_eq_ok hread
      refine ⟨⟨hl, ?_, fun chunk hchunk => ?_, hcalls⟩,
        fun _ hi => ⟨hi.state, ?_, fun err herr => ?_⟩⟩
      · rw [length_nil]
        push_cast
        omega
      · rcases List.mem_append.1 hchunk with hchunk | hchunk
        · exact hchunks chunk hchunk
        · rw [List.mem_singleton.1 hchunk]
          exact hdata
      · rw [flatten_append, flatten_singleton, append_nil]
        exact hi.bytes
      · cases hended.symm.trans herr

theorem sound_run (hlimit : 0 ≤ limit) {es : List ChunkEvent} (hs : s.Bounded limit)
    (h : Schedule.run step s es = some s') :
    s'.Bounded limit ∧ (.interrupt ∉ es → s.Intact → s'.Intact) := by
  induction es generalizing s with
  | nil =>
    obtain rfl := Option.some.inj h
    exact ⟨hs, fun _ hi => hi⟩
  | cons e es ih =>
    obtain ⟨t, ht, hrest⟩ := Schedule.run_cons_eq_some.1 h
    obtain ⟨hbounded, hintact⟩ := sound_step hlimit ht hs
    obtain ⟨hbounded', hintact'⟩ := ih hbounded hrest
    refine ⟨hbounded', fun he hi => ?_⟩
    rw [mem_cons, not_or] at he
    exact hintact' he.2 (hintact (Ne.symm he.1) hi)

theorem step_read_of_closed (hclosed : s.pipe.state = .closed) (hended : s.ended = none) :
    (s.step .read).isSome := by
  by_cases hdata : s.pipe.data = [] <;>
    simp [step, hended, readMultiBufferInternal, getState, hclosed, hdata]

/-- When the loop has ended, its chunks are the bytes of the calls that have succeeded. -/
def ChunksOfSucceeded (s : ChunkPipe) : Prop := s.ended = some .eof → s.chunks.flatten = s.succeeded

/-- For a size that `DialContext` lets pass: **no chunk is longer than a post may be.  While no post
fails, the chunks in order are the bytes that were put into the pipe, as far as they have been
taken, and all of them when the loop ends.**  A call that succeeds has put all its bytes. -/
theorem chunks_exact {maxUploadSize : ℤ} (hsize : bufferSize < maxUploadSize)
    {es : List ChunkEvent} (h : Schedule.run step (new maxUploadSize) es = some s) :
    (∀ chunk ∈ s.chunks, chunk.length ≤ maxUploadSize) ∧
      (∀ call ∈ s.calls, call.err = none → call.n = call.b.length) ∧
      (.interrupt ∉ es → s.chunks.flatten <+: s.written ∧
        (∀ err, s.ended = some err → err = .eof ∧ s.chunks.flatten = s.written) ∧
        (s.pipe.state = .closed → s.ended = none → (s.step .read).isSome)) := by
  have hnew : (new maxUploadSize).Bounded (maxUploadSize - bufferSize) :=
    ⟨rfl, by simp only [new, length_nil]; push_cast; omega, by simp [new], by simp [new]⟩
  obtain ⟨hbounded, hintact⟩ := sound_run (by omega) hnew h
  refine ⟨fun chunk hchunk => ?_, hbounded.calls, fun he => ?_⟩
  · have hle := hbounded.chunks_le chunk hchunk
    omega
  · have hi := hintact he ⟨by simp [new], rfl, by simp [new]⟩
    refine ⟨⟨_, hi.bytes⟩, fun err herr => ?_, step_read_of_closed⟩
    obtain ⟨rfl, -, hempty⟩ := hi.ended err herr
    have hbytes := hi.bytes
    rw [hempty, append_nil] at hbytes
    exact ⟨rfl, hbytes⟩

/-- Two short writes, taken together. -/
def twoWrites : List ChunkEvent :=
  [.write [1, 2], .put, .finish, .write [3], .put, .finish, .close, .read, .read]

theorem twoWrites_exact : ∃ s, Schedule.run step (new 1000000) twoWrites = some s ∧
    s.chunks = [[1, 2, 3]] ∧
      ∀ err, s.ended = some err → err = .eof ∧ s.chunks.flatten = s.written :=
  ⟨_, rfl, rfl, ((@chunks_exact _ 1000000 (by decide) twoWrites rfl).2.2 (by decide)).2.1⟩

/-- `Close` comes while a call of `Write` has put the first of its two buffers. -/
def stoppedWrite : List ChunkEvent :=
  [.write (List.replicate 8193 0), .put, .close, .put, .read, .read]

/-- **The buffer is sent, and the call fails.** -/
theorem stoppedWrite_partly : ∃ s, Schedule.run step (new 1000000) stoppedWrite = some s ∧
    ¬s.ChunksOfSucceeded := by
  have hrun : (Schedule.run step (new 1000000) stoppedWrite).any (fun s =>
      decide (s.ended = some .eof) && (!s.chunks.flatten.isEmpty && s.succeeded.isEmpty)) =
        true := by
    decide +kernel
  obtain ⟨s, hs, hend⟩ := (Option.any_eq_true _ _).1 hrun
  rw [Bool.and_eq_true, decide_eq_true_iff, Bool.and_eq_true, Bool.not_eq_true',
    List.isEmpty_iff] at hend
  refine ⟨s, hs, fun h => ?_⟩
  rw [h hend.1, hend.2.2] at hend
  cases hend.2.1

end ChunkPipe

end SingBox
