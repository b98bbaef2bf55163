/-
**The upload of packet-up** (`transport/v2rayxhttp/client.go`, `writer.go`, `conn.go` and
`common/xray/pipe/impl.go`).

`Write` puts its bytes into a pipe in buffers of 8192 bytes.  A goroutine takes out what is there
and posts it under the next sequence number, and waits until the request is written before it goes
on.  `Close` first calls the callback of the connection, which cancels the context of all posts, and
then closes the pipe.

A run is a list of steps of the writer, the upload loop, the goroutines of the posts and the server.
The server accepts every post that is sent, in any order.  A post whose context is cancelled when it
begins fails, and then interrupts the pipe.  Sequence numbers, of 64 bits, do not wrap.

* `PacketUpload.flowing_step`, `PacketUpload.stopped_step` — **the step lemmas**,
  before and after `Close` is called;
* `PacketUpload.delivered_iff` — everything is delivered if and only if nothing is pending
  when `Close` is called.
-/

import SingBox.Schedule
import Mathlib.Data.List.Pairwise
import Mathlib.Data.List.Perm.Basic
import Mathlib.Data.List.Sort

namespace SingBox

open List Option Schedule

/-! ### The pipe -/

inductive UploadPipeState where
  | opened
  | closed
  | errord
  deriving DecidableEq

inductive UploadPipeError where
  | bufferFull
  | closedPipe
  | eof
  deriving DecidableEq

/-- `pipe`: the bytes in it.  A negative limit is none. -/
structure UploadPipe where
  limit : ℤ
  data : List UInt8 := []
  state : UploadPipeState := .opened

namespace UploadPipe

def isFull (p : UploadPipe) : Bool := decide (0 ≤ p.limit ∧ p.limit < p.data.length)

def getState (p : UploadPipe) (forRead : Bool) : Option UploadPipeError :=
  match p.state with
  | .opened => if !forRead && p.isFull then some .bufferFull else none
  | .closed => if !forRead then some .closedPipe else if p.data ≠ [] then none else some .eof
  | .errord => some .closedPipe

/-- All that is in the pipe is taken. -/
def readMultiBufferInternal (p : UploadPipe) : Except UploadPipeError (List UInt8) × UploadPipe :=
  match p.getState true with
  | some err => (.error err, p)
  | none => (.ok p.data, { p with data := [] })

def writeMultiBufferInternal (p : UploadPipe) (mb : List UInt8) :
    Option UploadPipeError × UploadPipe :=
  match p.getState false with
  | some err => (some err, p)
  | none => (none, { p with data := p.data ++ mb })

/-- `Close`. -/
def close (p : UploadPipe) : UploadPipe :=
  if p.state = .closed ∨ p.state = .errord then p else { p with state := .closed }

/-- `Interrupt`. -/
def interrupt (p : UploadPipe) : UploadPipe :=
  let p :=
    if p.data ≠ [] then
      { p with data := [], state := if p.state = .closed then .errord else p.state }
    else p
  if p.state = .closed ∨ p.state = .errord then p else { p with state := .errord }

theorem read_of_opened {p : UploadPipe} (h : p.state = .opened) :
    p.readMultiBufferInternal = (.ok p.data, { p with data := [] }) := by
  simp [readMultiBufferInternal, getState, h]

theorem write_of_opened {p : UploadPipe} (h : p.state = .opened) (mb : List UInt8) :
    p.writeMultiBufferInternal mb =
      if p.isFull then (some .bufferFull, p) else (none, { p with data := p.data ++ mb }) := by
  cases hfull : p.isFull <;> simp [writeMultiBufferInternal, getState, h, hfull]

variable (p : UploadPipe)

theorem state_read : p.readMultiBufferInternal.2.state = p.state := by
  rw [readMultiBufferInternal]
  split <;> rfl

theorem state_write (mb : List UInt8) : (p.writeMultiBufferInternal mb).2.state = p.state := by
  rw [writeMultiBufferInternal]
  split <;> rfl

theorem state_close : p.close.state ≠ .opened := by
  rw [close]
  split
  · rename_i h
    rcases h with h | h <;> simp [h]
  · simp

theorem state_interrupt : p.interrupt.state ≠ .opened := by
  cases hstate : p.state <;> by_cases hdata : p.data = [] <;> simp [interrupt, hstate, hdata]

theorem read_of_not_opened {p : UploadPipe} (h : p.state ≠ .opened) :
    (∃ err pipe, p.readMultiBufferInternal = (.error err, pipe)) ∨
      ∃ chunk pipe, p.readMultiBufferInternal = (.ok chunk, pipe) ∧ chunk ≠ [] := by
  cases hstate : p.state with
  | opened => exact absurd hstate h
  | errord => exact .inl ⟨_, _, by simp only [readMultiBufferInternal, getState, hstate]; rfl⟩
  | closed =>
    by_cases hdata : p.data = []
    · exact .inl ⟨.eof, p, by simp [readMultiBufferInternal, getState, hstate, hdata]⟩
    · exact .inr ⟨p.data, { p with data := [] }, by
        simp [readMultiBufferInternal, getState, hstate, hdata], hdata⟩

end UploadPipe

/-! ### The parties -/

/-- A call of `Write` that has returned: its argument and its results. -/
structure WriteCall where
  b : List UInt8
  n : ℕ
  err : Option UploadPipeError

/-- A post. -/
structure UploadPost where
  seq : ℕ
  body : List UInt8
  deriving DecidableEq

/-- Where the upload loop is: before `ReadMultiBuffer`, with a chunk, with the goroutine of a post
that has not begun, at the wait for the request to be written, or at its end. -/
inductive UploadLoop where
  | reading (seq : ℕ)
  | holding (seq : ℕ) (chunk : List UInt8)
  | launched (seq : ℕ) (chunk : List UInt8)
  | awaiting (seq : ℕ)
  | ended

/-- The chunk that the loop has taken and no post has begun to send. -/
def UploadLoop.held : UploadLoop → List UInt8
  | .reading _ => []
  | .holding _ chunk => chunk
  | .launched _ chunk => chunk
  | .awaiting _ => []
  | .ended => []

/-- All sequence numbers from this one on are unused. -/
def UploadLoop.next : UploadLoop → ℕ
  | .reading seq => seq
  | .holding seq _ => seq
  | .launched seq _ => seq
  | .awaiting seq => seq + 1
  | .ended => 0

/-- The state of an upload.  `writing` is the call of `Write` under way with the number of bytes it
has put into the pipe, `interrupts` counts the failed posts that have yet to interrupt the pipe, and
`pipeClosed` says that `Close` has closed it. -/
structure PacketUpload where
  pipe : UploadPipe
  writing : Option (List UInt8 × ℕ) := none
  calls : List WriteCall := []
  (cancelled pipeClosed : Bool := false)
  loop : UploadLoop := .reading 0
  interrupts : ℕ := 0
  (inflight accepted : List UploadPost := [])

/-- The steps of the writer, of the loop, of the posts and of the server. -/
inductive UploadEvent where
  | startWrite (b : List UInt8)
  | put
  | finishWrite
  | cancel
  | closePipe
  | read
  | launch
  | post
  | wrote
  | accept (i : ℕ)
  | interrupt
  deriving DecidableEq

namespace PacketUpload

/-- The size of the buffers of `Write`. -/
def bufferSize : ℕ := 8192

/-- An upload whose posts have at most `maxUploadSize` bytes. -/
def new (maxUploadSize : ℤ) : PacketUpload := { pipe := { limit := maxUploadSize - bufferSize } }

/-- One step, if it can happen.  `Write` waits while the pipe is full, and the loop while it is open
and empty. -/
def step (s : PacketUpload) : UploadEvent → Option PacketUpload
  | .startWrite b =>
    if s.writing = none ∧ s.cancelled = false then some { s with writing := some (b, 0) }
    else none
  | .put =>
    match s.writing with
    | none => none
    | some (b, n) =>
      if (b.drop n).take bufferSize = [] then none
      else
        match s.pipe.writeMultiBufferInternal ((b.drop n).take bufferSize) with
        | (none, pipe) =>
          some { s with
            pipe := pipe
            writing := some (b, n + ((b.drop n).take bufferSize).length) }
        | (some .bufferFull, _) => none
        | (some err, pipe) =>
          some { s with
            pipe := pipe, writing := none, calls := s.calls ++ [⟨b, n, some err⟩] }
  | .finishWrite =>
    match s.writing with
    | none => none
    | some (b, n) =>
      if n = b.length then
        some { s with writing := none, calls := s.calls ++ [⟨b, n, none⟩] }
      else none
  | .cancel =>
    if s.writing = none ∧ s.cancelled = false then some { s with cancelled := true } else none
  | .closePipe =>
    if s.cancelled ∧ s.pipeClosed = false then
      some { s with pipe := s.pipe.close, pipeClosed := true }
    else none
  | .read =>
    match s.loop with
    | .reading seq =>
      match s.pipe.readMultiBufferInternal with
      | (.error _, pipe) => some { s with pipe := pipe, loop := .ended }
      | (.ok chunk, pipe) =>
        if chunk = [] then none else some { s with pipe := pipe, loop := .holding seq chunk }
    | _ => none
  | .launch =>
    match s.loop with
    | .holding seq chunk => some { s with loop := .launched seq chunk }
    | _ => none
  | .post =>
    match s.loop with
    | .launched seq chunk =>
      if s.cancelled then
        some { s with loop := .awaiting seq, interrupts := s.interrupts + 1 }
      else some { s with loop := .awaiting seq, inflight := s.inflight ++ [⟨seq, chunk⟩] }
    | _ => none
  | .wrote =>
    match s.loop with
    | .awaiting seq => some { s with loop := .reading (seq + 1) }
    | _ => none
  | .accept i =>
    match s.inflight[i]? with
    | none => none
    | some post =>
      some { s with inflight := s.inflight.eraseIdx i, accepted := s.accepted ++ [post] }
  | .interrupt =>
    if 0 < s.interrupts then
      some { s with pipe := s.pipe.interrupt, interrupts := s.interrupts - 1 }
    else none

/-- What each step needs and does. -/
inductive Steps (s : PacketUpload) : UploadEvent → PacketUpload → Prop
  | startWrite {b : List UInt8} (hwriting : s.writing = none) (hlive : s.cancelled = false) :
      Steps s (.startWrite b) { s with writing := some (b, 0) }
  | put {b : List UInt8} {n : ℕ} {pipe : UploadPipe} (hwriting : s.writing = some (b, n))
      (hwrite : s.pipe.writeMultiBufferInternal ((b.drop n).take bufferSize) = (none, pipe)) :
      Steps s .put { s with
        pipe := pipe
        writing := some (b, n + ((b.drop n).take bufferSize).length) }
  | putFailed {b : List UInt8} {n : ℕ} {err : UploadPipeError} {pipe : UploadPipe}
      (hwriting : s.writing = some (b, n)) (herr : err ≠ .bufferFull)
      (hwrite : s.pipe.writeMultiBufferInternal ((b.drop n).take bufferSize) = (some err, pipe)) :
      Steps s .put { s with
        pipe := pipe, writing := none, calls := s.calls ++ [⟨b, n, some err⟩] }
  | finishWrite {b : List UInt8} (hwriting : s.writing = some (b, b.length)) :
      Steps s .finishWrite { s with writing := none, calls := s.calls ++ [⟨b, b.length, none⟩] }
  | cancel (hwriting : s.writing = none) (hlive : s.cancelled = false) :
      Steps s .cancel { s with cancelled := true }
  | closePipe (hcancelled : s.cancelled) :
      Steps s .closePipe { s with pipe := s.pipe.close, pipeClosed := true }
  | readFailed {seq : ℕ} {err : UploadPipeError} {pipe : UploadPipe} (hloop : s.loop = .reading seq)
      (hread : s.pipe.readMultiBufferInternal = (.error err, pipe)) :
      Steps s .read { s with pipe := pipe, loop := .ended }
  | read {seq : ℕ} {chunk : List UInt8} {pipe : UploadPipe} (hloop : s.loop = .reading seq)
      (hread : s.pipe.readMultiBufferInternal = (.ok chunk, pipe)) :
      Steps s .read { s with pipe := pipe, loop := .holding seq chunk }
  | launch {seq : ℕ} {chunk : List UInt8} (hloop : s.loop = .holding seq chunk) :
      Steps s .launch { s with loop := .launched seq chunk }
  | postFailed {seq : ℕ} {chunk : List UInt8} (hloop : s.loop = .launched seq chunk)
      (hcancelled : s.cancelled) :
      Steps s .post { s with loop := .awaiting seq, interrupts := s.interrupts + 1 }
  | post {seq : ℕ} {chunk : List UInt8} (hloop : s.loop = .launched seq chunk)
      (hlive : s.cancelled = false) :
      Steps s .post { s with loop := .awaiting seq, inflight := s.inflight ++ [⟨seq, chunk⟩] }
  | wrote {seq : ℕ} (hloop : s.loop = .awaiting seq) :
      Steps s .wrote { s with loop := .reading (seq + 1) }
  | accept {i : ℕ} {p : UploadPost} (hpost : s.inflight[i]? = some p) :
      Steps s (.accept i)
        { s with inflight := s.inflight.eraseIdx i, accepted := s.accepted ++ [p] }
  | interrupt (hpos : 0 < s.interrupts) :
      Steps s .interrupt { s with pipe := s.pipe.interrupt, interrupts := s.interrupts - 1 }

variable {s s' : PacketUpload} {e : UploadEvent}

/-- **The inversion lemma for steps.** -/
theorem steps_of_step (h : s.step e = some s') : s.Steps e s' := by
  cases e with
  | startWrite b =>
    simp only [step, ite_none_right_eq_some, some.injEq] at h
    obtain ⟨⟨hwriting, hlive⟩, rfl⟩ := h
    exact .startWrite hwriting hlive
  | put =>
    simp only [step] at h
    split at h
    · cases h
    · rename_i b n hwriting
      split at h
      · cases h
      · split at h
        · rename_i hwrite
          obtain rfl := some.inj h
          exact .put hwriting hwrite
        · cases h
        · rename_i err pipe herr hwrite
          obtain rfl := some.inj h
          exact .putFailed hwriting (fun h => herr h) hwrite
  | finishWrite =>
    simp only [step] at h
    split at h
    · cases h
    · rename_i b n hwriting
      rw [ite_none_right_eq_some, some.injEq] at h
      obtain ⟨rfl, rfl⟩ := h
      exact .finishWrite hwriting
  | cancel =>
    simp only [step, ite_none_right_eq_some, some.injEq] at h
    obtain ⟨⟨hwriting, hlive⟩, rfl⟩ := h
    exact .cancel hwriting hlive
  | closePipe =>
    simp only [step, ite_none_right_eq_some, some.injEq] at h
    obtain ⟨⟨hcancelled, -⟩, rfl⟩ := h
    exact .closePipe hcancelled
  | read =>
    simp only [step] at h
    split at h
    · rename_i seq hloop
      split at h
      · rename_i hread
        obtain rfl := some.inj h
        exact .readFailed hloop hread
      · rename_i hread
        rw [ite_none_left_eq_some, some.injEq] at h
        obtain ⟨-, rfl⟩ := h
        exact .read hloop hread
    · cases h
  | launch =>
    simp only [step] at h
    split at h
    · rename_i hloop
      obtain rfl := some.inj h
      exact .launch hloop
    · cases h
  | post =>
    simp only [step] at h
    split at h
    · rename_i hloop
      split at h
      · rename_i hcancelled
        obtain rfl := some.inj h
        exact .postFailed hloop hcancelled
      · rename_i hlive
        obtain rfl := some.inj h
        exact .post hloop (by simpa using hlive)
    · cases h
  | wrote =>
    simp only [step] at h
    split at h
    · rename_i hloop
      obtain rfl := some.inj h
      exact .wrote hloop
    · cases h
  | accept i =>
    simp only [step] at h
    split at h
    · cases h
    · rename_i hpost
      obtain rfl := some.inj h
      exact .accept hpost
  | interrupt =>
    simp only [step, ite_none_right_eq_some, some.injEq] at h
    obtain ⟨hpos, rfl⟩ := h
    exact .interrupt hpos

/-- The bytes that the calls of `Write` have reported as written. -/
def reported (s : PacketUpload) : List UInt8 := s.calls.flatMap fun call => call.b.take call.n

/-- What the server has got, in sequence order. -/
def delivered (s : PacketUpload) : List UInt8 :=
  (s.accepted.mergeSort fun a b => decide (a.seq ≤ b.seq)).flatMap UploadPost.body

/-- The bytes that no post has begun to send: a chunk in the loop, and the pipe. -/
def pending (s : PacketUpload) : List UInt8 := s.loop.held ++ s.pipe.data

/-- `Close` has returned, the loop has ended and no post is on its way. -/
def Finished (s : PacketUpload) : Prop :=
  s.pipeClosed ∧ s.loop = .ended ∧ s.inflight = []

/-- `Close` is called only when nothing is pending. -/
def ClosesDrained (s : PacketUpload) (e : UploadEvent) : Prop := e = .cancel → s.pending = []

instance (s : PacketUpload) (e : UploadEvent) : Decidable (s.ClosesDrained e) :=
  inferInstanceAs (Decidable (_ → _))

/-! ### Before `Close` -/

/-- What the call of `Write` under way has put into the pipe. -/
def partly (s : PacketUpload) : List UInt8 :=
  match s.writing with
  | none => []
  | some (b, n) => b.take n

/-- The posts that have been sent, in the order of their numbers. -/
structure Sent (s : PacketUpload) (log : List UploadPost) : Prop where
  perm : (s.accepted ++ s.inflight).Perm log
  sorted : log.Pairwise fun a b => a.seq < b.seq

/-- Before `Close`, what has been sent and what is pending is what was written. -/
structure Flowing (s : PacketUpload) (log : List UploadPost) : Prop extends Sent s log where
  live : s.cancelled = false
  opened : s.pipe.state = .opened
  quiet : s.interrupts = 0
  running : s.loop ≠ .ended
  below : ∀ post ∈ log, post.seq < s.loop.next
  bytes : log.flatMap UploadPost.body ++ s.pending = s.reported ++ s.partly

theorem flowing_new (maxUploadSize : ℤ) : Flowing (new maxUploadSize) [] where
  perm := .nil
  sorted := .nil
  live := rfl
  opened := rfl
  quiet := rfl
  running := by simp [new]
  below := by simp
  bytes := rfl

variable {log : List UploadPost}

theorem Sent.accept (h : s.Sent log) {i : ℕ}
    {post : UploadPost} (hpost : s.inflight[i]? = some post) :
    Sent { s with inflight := s.inflight.eraseIdx i, accepted := s.accepted ++ [post] } log := by
  refine ⟨List.Perm.trans ?_ h.perm, h.sorted⟩
  obtain ⟨hi, hget⟩ := List.getElem?_eq_some_iff.1 hpost
  rw [append_assoc, singleton_append]
  refine List.Perm.append_left _ ?_
  rw [← hget]
  exact getElem_cons_eraseIdx_perm hi

theorem Sent.post {s : PacketUpload} (h : s.Sent log) {p : UploadPost}
    (hbelow : ∀ q ∈ log, q.seq < p.seq) (loop : UploadLoop) :
    Sent { s with loop := loop, inflight := s.inflight ++ [p] } (log ++ [p]) := by
  refine ⟨?_, List.pairwise_append.2 ⟨h.sorted, pairwise_singleton _ _, ?_⟩⟩
  · rw [← append_assoc]
    exact h.perm.append_right [p]
  · intro q hq q' hq'
    rw [List.mem_singleton.1 hq']
    exact hbelow q hq

/-- **The step lemma before `Close`.** -/
theorem flowing_step (hs : s.Flowing log) (he : e ≠ .cancel) (h : s.step e = some s') :
    ∃ log', s'.Flowing log' := by
  have hlive := hs.live
  have hbytes := hs.bytes
  have hbelow := hs.below
  cases steps_of_step h with
  | startWrite hwriting =>
    rw [partly, hwriting] at hbytes
    exact ⟨log, { hs with bytes := hbytes }⟩
  | @put b n pipe hwriting hwrite =>
    rw [UploadPipe.write_of_opened hs.opened] at hwrite
    split at hwrite
    · cases hwrite
    · obtain rfl := (Prod.mk.inj hwrite).2
      -- The bytes that are put come after those that are there.
      have hpiece : b.take (n + ((b.drop n).take bufferSize).length) =
          b.take n ++ (b.drop n).take bufferSize := by
        rw [take_add, length_take, ← take_take, take_length]
      rw [partly, hwriting, pending, ← append_assoc] at hbytes
      refine ⟨log, { hs with bytes := ?_ }⟩
      simp only [pending, partly, hpiece]
      rw [← append_assoc, ← append_assoc, hbytes, append_assoc]
      rfl
  | @putFailed b n err pipe hwriting herr hwrite =>
    rw [UploadPipe.write_of_opened hs.opened] at hwrite
    split at hwrite
    · obtain rfl := some.inj (Prod.mk.inj hwrite).1
      exact absurd rfl herr
    · cases hwrite
  | finishWrite hwriting =>
    rw [partly, hwriting] at hbytes
    refine ⟨log, { hs with bytes := hbytes.trans ?_ }⟩
    simp [partly, reported]
  | cancel => exact absurd rfl he
  | closePipe hcancelled | postFailed hloop hcancelled => simp [hlive] at hcancelled
  | readFailed hloop hread =>
    rw [UploadPipe.read_of_opened hs.opened] at hread
    cases hread
  | read hloop hread =>
    rw [UploadPipe.read_of_opened hs.opened] at hread
    obtain ⟨hchunk, rfl⟩ := Prod.mk.inj hread
    obtain rfl := Except.ok.inj hchunk
    rw [hloop] at hbelow
    rw [pending, hloop, UploadLoop.held, nil_append] at hbytes
    refine ⟨log, { hs with running := by simp, below := hbelow, bytes := ?_ }⟩
    rw [pending, UploadLoop.held, append_nil]
    exact hbytes
  | launch hloop | wrote hloop =>
    rw [hloop] at hbelow
    rw [pending, hloop] at hbytes
    exact ⟨log, { hs with running := by simp, below := hbelow, bytes := hbytes }⟩
  | @post seq chunk hloop =>
    rw [hloop] at hbelow
    have hsent := hs.toSent.post (p := ⟨seq, chunk⟩) hbelow (.awaiting seq)
    refine ⟨log ++ [⟨seq, chunk⟩], { hsent, hs with
      running := by simp, below := ?_, bytes := ?_ }⟩
    · intro p hp
      rcases List.mem_append.1 hp with hp | hp
      · exact (hbelow p hp).trans (Nat.lt_succ_self seq)
      · rw [List.mem_singleton.1 hp]
        exact Nat.lt_succ_self seq
    · rw [pending, hloop, UploadLoop.held, ← append_assoc] at hbytes
      rw [pending, UploadLoop.held, nil_append, flatMap_append, flatMap_singleton]
      exact hbytes
  | accept hpost => exact ⟨log, { hs.toSent.accept hpost, hs with }⟩
  | interrupt hpos =>
    rw [hs.quiet] at hpos
    omega

/-! ### After `Close` -/

/-- After `Close` is called no more bytes are written or sent. -/
structure Stopped (s : PacketUpload) (log : List UploadPost) (bytes : List UInt8) : Prop
    extends Sent s log where
  cancelled : s.cancelled
  idle : s.writing = none
  bytes : s.reported = bytes

/-- **The step lemma after `Close`.** -/
theorem stopped_step {bytes : List UInt8} (hs : s.Stopped log bytes) (h : s.step e = some s') :
    s'.Stopped log bytes ∧ e ≠ .cancel := by
  have hcancelled := hs.cancelled
  have hidle := hs.idle
  cases steps_of_step h with
  | startWrite hwriting hlive | cancel hwriting hlive => simp [hcancelled] at hlive
  | put hwriting | putFailed hwriting | finishWrite hwriting => simp [hidle] at hwriting
  -- A post that begins now fails.
  | post hloop hlive => simp [hcancelled] at hlive
  | accept hpost => exact ⟨{ hs.toSent.accept hpost, hs with }, by simp⟩
  | _ => exact ⟨{ hs with }, by simp⟩

variable {events : List UploadEvent}

theorem stopped_run
    {bytes : List UInt8} (hs : s.Stopped log bytes) (hrun : Schedule.run step s events = some s') :
    s'.Stopped log bytes ∧ Schedule.Along step ClosesDrained s events := by
  induction events generalizing s with
  | nil => exact ⟨some.inj hrun ▸ hs, trivial⟩
  | cons e events ih =>
    obtain ⟨t, ht, hrest⟩ := run_cons_eq_some.1 hrun
    obtain ⟨hstopped, he⟩ := stopped_step hs ht
    obtain ⟨hs', halong⟩ := ih hstopped hrest
    exact ⟨hs', (along_cons_of_step ht events).2 ⟨fun h => absurd h he, halong⟩⟩

theorem Sent.delivered_eq (h : s.Sent log)
    (hinflight : s.inflight = []) : s.delivered = log.flatMap UploadPost.body := by
  have hperm := h.perm
  rw [hinflight, append_nil] at hperm
  have hle : log.Pairwise fun a b => decide (a.seq ≤ b.seq) :=
    h.sorted.imp fun hab => decide_eq_true (Nat.le_of_lt hab)
  rw [delivered]
  refine congrArg (List.flatMap UploadPost.body) (List.Perm.eq_of_pairwise ?_
    (pairwise_mergeSort ?_ ?_ s.accepted) hle
    ((mergeSort_perm s.accepted _).trans hperm))
  · -- Two posts with the same number are the same, since the numbers of the log increase.
    intro a b ha hb hab hba
    have hmem : a ∈ log := hperm.mem_iff.1 ((mergeSort_perm _ _).mem_iff.1 ha)
    have hseq : a.seq = b.seq := Nat.le_antisymm (of_decide_eq_true hab) (of_decide_eq_true hba)
    have hdistinct : log.Pairwise fun a b => a.seq ≠ b.seq := h.sorted.imp Nat.ne_of_lt
    have : Std.Symm fun a b : UploadPost => a.seq ≠ b.seq := ⟨fun _ _ h => h.symm⟩
    by_contra hne
    exact hdistinct.forall hmem hb hne hseq
  · intro a b c hab hbc
    exact decide_eq_true ((of_decide_eq_true hab).trans (of_decide_eq_true hbc))
  · intro a b
    rw [Bool.or_eq_true, decide_eq_true_iff, decide_eq_true_iff]
    exact Nat.le_total _ _

/-! ### The upload comes to an end -/

theorem closed_step (s : PacketUpload) (e : UploadEvent) (s' : PacketUpload)
    (h : s.step e = some s') (hs : s.pipeClosed → s.pipe.state ≠ .opened) :
    s'.pipeClosed → s'.pipe.state ≠ .opened := by
  cases steps_of_step h with
  | put hwriting hwrite | putFailed hwriting herr hwrite =>
    have hstate := s.pipe.state_write _ |>.symm.trans (congrArg (·.2.state) hwrite)
    exact fun hclosed => hstate ▸ hs hclosed
  | readFailed hloop hread | read hloop hread =>
    have hstate := s.pipe.state_read.symm.trans (congrArg (·.2.state) hread)
    exact fun hclosed => hstate ▸ hs hclosed
  | closePipe => exact fun _ => s.pipe.state_close
  | interrupt => exact fun _ => s.pipe.state_interrupt
  | _ => exact hs

/-- **After `Close` has returned, the upload never gets stuck**: there is a next step until it has
finished. -/
theorem exists_step_of_not_finished {maxUploadSize : ℤ}
    (hrun : Schedule.run step (new maxUploadSize) events = some s)
    (hclosed : s.pipeClosed) (hfinished : ¬s.Finished) : ∃ e s', s.step e = some s' := by
  have hstate : s.pipe.state ≠ .opened :=
    run_invariant_always (I := fun s => s.pipeClosed → s.pipe.state ≠ .opened)
      closed_step hrun (by simp [new]) hclosed
  cases hloop : s.loop with
  | reading seq =>
    rcases UploadPipe.read_of_not_opened hstate with
      ⟨err, pipe, hread⟩ | ⟨chunk, pipe, hread, hchunk⟩
    · exact ⟨.read, _, by simp only [step, hloop, hread]; rfl⟩
    · exact ⟨.read, _, by simp only [step, hloop, hread, if_neg hchunk]; rfl⟩
  | holding seq chunk => exact ⟨.launch, _, by simp only [step, hloop]; rfl⟩
  | launched seq chunk =>
    cases hcancelled : s.cancelled with
    | true | false => exact ⟨.post, _, by simp only [step, hloop, hcancelled]; rfl⟩
  | awaiting seq => exact ⟨.wrote, _, by simp only [step, hloop]; rfl⟩
  | ended =>
    cases hinflight : s.inflight with
    | nil => exact absurd ⟨hclosed, hloop, hinflight⟩ hfinished
    | cons p posts => exact ⟨.accept 0, _, by simp only [step, hinflight]; rfl⟩

/-! ### Delivery -/

theorem stopped_cancel (hs : s.Flowing log) (h : s.step .cancel = some s') :
    s'.Stopped log (log.flatMap UploadPost.body ++ s.pending) := by
  cases steps_of_step h with
  | cancel hwriting hlive =>
    have hbytes := hs.bytes
    rw [partly, hwriting, append_nil] at hbytes
    exact { hs.toSent with cancelled := rfl, idle := hwriting, bytes := hbytes.symm }

theorem delivered_iff_along (hs : s.Flowing log) (hrun : Schedule.run step s events = some s')
    (hfinished : s'.Finished) :
    s'.delivered = s'.reported ↔ Schedule.Along step ClosesDrained s events := by
  induction events generalizing s log with
  | nil =>
    -- The loop has not ended.
    obtain rfl := some.inj hrun
    exact absurd hfinished.2.1 hs.running
  | cons e events ih =>
    obtain ⟨t, ht, hrest⟩ := run_cons_eq_some.1 hrun
    rw [along_cons_of_step ht]
    by_cases he : e = .cancel
    · subst he
      obtain ⟨hstopped, halong⟩ := stopped_run (stopped_cancel hs ht) hrest
      rw [hstopped.delivered_eq hfinished.2.2, hstopped.bytes]
      simp [ClosesDrained, halong]
    · obtain ⟨log', hflowing⟩ := flowing_step hs he ht
      rw [ih hflowing hrest]
      simp [ClosesDrained, he]

/-- **What the server gets in the end** is what the calls of `Write` have reported, if and only if
nothing is pending when `Close` is called: the pipe is empty, and the loop has no chunk that it has
not begun to post. -/
theorem delivered_iff {maxUploadSize : ℤ} {events : List UploadEvent} {s : PacketUpload}
    (hrun : Schedule.run step (new maxUploadSize) events = some s) (hfinished : s.Finished) :
    s.delivered = s.reported ↔ Schedule.Along step ClosesDrained (new maxUploadSize) events :=
  delivered_iff_along (flowing_new maxUploadSize) hrun hfinished

/-- `Close` waits until the chunk is on its way. -/
def lateClose : List UploadEvent :=
  [.startWrite [1, 2], .put, .finishWrite, .read, .launch, .post, .cancel, .closePipe, .wrote,
    .read, .accept 0]

theorem lateClose_delivered :
    ∃ s, Schedule.run step (new 1000000) lateClose = some s ∧ s.Finished ∧
      s.reported = [1, 2] ∧ s.delivered = s.reported := by
  obtain ⟨s, hrun, hfinished, hreported⟩ :
      ∃ s, Schedule.run step (new 1000000) lateClose = some s ∧ s.Finished ∧ s.reported = [1, 2] :=
    ⟨_, rfl, ⟨rfl, rfl, rfl⟩, rfl⟩
  exact ⟨s, hrun, hfinished, hreported, (delivered_iff hrun hfinished).2 (by decide)⟩

theorem lateClose_continues : ∃ s, Schedule.run step (new 1000000) (lateClose.take 8) = some s ∧
    ∃ e s', s.step e = some s' := by
  have hrun : Schedule.run step (new 1000000) (lateClose.take 8) = some _ := rfl
  exact ⟨_, hrun, exists_step_of_not_finished hrun rfl (nomatch ·.2.1)⟩

/-- `Close` comes while the bytes are in the pipe. -/
def earlyClose : List UploadEvent :=
  [.startWrite [1, 2], .put, .finishWrite, .cancel, .closePipe, .read, .launch, .post, .wrote,
    .interrupt, .read]

theorem earlyClose_lost :
    ∃ s, Schedule.run step (new 1000000) earlyClose = some s ∧ s.Finished ∧
      s.reported = [1, 2] ∧ s.delivered = [] := by
  obtain ⟨s, hrun, hfinished, hreported, haccepted⟩ :
      ∃ s, Schedule.run step (new 1000000) earlyClose = some s ∧ s.Finished ∧
        s.reported = [1, 2] ∧ s.accepted = [] := ⟨_, rfl, ⟨rfl, rfl, rfl⟩, rfl, rfl⟩
  exact ⟨s, hrun, hfinished, hreported, by simp [delivered, haccepted]⟩

end PacketUpload

end SingBox
