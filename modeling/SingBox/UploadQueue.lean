/-
**The upload queue of packet-up** (`transport/v2rayxhttp/upload_queue.go`).

An upload arrives as numbered packets, in any order and some of them more than once.  `Push` sends
them through a channel; `Read` takes them from there into a heap and hands out the payloads in the
order of their numbers.  A packet that does not fit into the buffer of a call is put back into the
heap with what is left of it, under its old number.

`Read` blocks where the channel is empty, so a call is cut here into its start and the packets it
receives.  A full channel only delays a push, so its capacity is left out.

* `UploadQueue.inOrder_popLoop` — **the step lemma**: what the loop does to the packets;
* `UploadQueue.heap_bounded` — the heap is bounded, and the next number never decreases;
* `UploadQueue.delivered_in_order` — the bytes are in order along every run whose steps meet
  the condition.
-/

import SingBox.BinaryHeap
import SingBox.GoString
import SingBox.Schedule
import Mathlib.Data.List.TakeWhile

namespace SingBox

open List Option

/-! ### The queue -/

/-- What a call of `Read` returns: the bytes it has copied and an error. -/
structure ReadResult where
  bytes : List UInt8
  err : Option GoError := none

/-- `Packet`.  A packet of stream-up is a reader of its own instead. -/
structure Packet (ρ : Type) where
  reader : Option ρ := none
  payload : List UInt8 := []
  seq : UInt64 := 0

/-- The number that `uploadHeap.Less` compares. -/
def Packet.key {ρ : Type} (p : Packet ρ) : ℕ := p.seq.toNat

/-- Where a call of `Read` waits for the channel: not at all, before the loop or in it.  `len` is
the length of its buffer. -/
inductive Pending where
  | idle
  | first (len : ℕ)
  | more (len : ℕ)
  deriving DecidableEq

/-- `uploadQueue`, the content of its channel, and its users: `Close` while it drains the channel,
and the calls of `Read`. -/
structure UploadQueue (ρ : Type) where
  reader : Option ρ := none
  nomore : Bool := false
  pushedPackets : List (Packet ρ) := []
  channelClosed : Bool := false
  heap : BinaryHeap (Packet.key : Packet ρ → ℕ) := .empty
  nextSeq : UInt64 := 0
  closed : Bool := false
  maxPackets : ℕ
  closing : Bool := false
  pending : Pending := .idle
  results : List ReadResult := []

namespace UploadQueue

variable {ρ : Type}

/-- `"packet queue is too large"`. -/
def errTooLarge : GoError := .new "packet queue is too large"

/-- The call of `Read` returns. -/
def finish (q : UploadQueue ρ) (result : ReadResult) : UploadQueue ρ :=
  { q with pending := .idle, results := q.results ++ [result] }

/-- The loop of `Read` up to its return or to the next packet it has to wait for.  Every round takes
a packet out of the heap, so that its size bounds the rounds. -/
def popLoop (len : ℕ) : ℕ → UploadQueue ρ → UploadQueue ρ
  | 0, q => q.finish { bytes := [] }
  | fuel + 1, q =>
    match q.heap.pop with
    | none => q.finish { bytes := [] }
    | some (packet, heap) =>
      if packet.seq = q.nextSeq then
        let n := min len packet.payload.length
        if n < packet.payload.length then
          -- the rest of the packet goes back into the heap
          { q with heap := heap.push { packet with payload := packet.payload.drop n } }.finish
            { bytes := packet.payload.take n }
        else
          { q with heap := heap, nextSeq := packet.seq + 1 }.finish
            { bytes := packet.payload.take n }
      else if q.nextSeq < packet.seq then
        if q.maxPackets < heap.items.length then
          { q with heap := heap }.finish { bytes := [], err := some errTooLarge }
        else { q with heap := heap.push packet, pending := .more len }
      else popLoop len fuel { q with heap := heap }

/-- A call of `Read` on the reader of stream-up.  What that reader does is given. -/
def readReader (readFrom : ρ → ℕ → ReadResult × ρ) (q : UploadQueue ρ) (reader : ρ) (len : ℕ) :
    UploadQueue ρ :=
  { q with reader := some (readFrom reader len).2 }.finish (readFrom reader len).1

/-- What can happen to a queue. -/
inductive Event (ρ : Type) where
  | push (packet : Packet ρ)
  | read (len : ℕ)
  | receive
  | close
  | drain
  | closeChannel

variable (readFrom : ρ → ℕ → ReadResult × ρ)

/-- `Push`.  Where it returns an error, nothing changes. -/
def push (q : UploadQueue ρ) (packet : Packet ρ) : UploadQueue ρ :=
  if q.closed || q.nomore then q
  else
    { q with
      nomore := packet.reader.isSome
      pushedPackets := q.pushedPackets ++ [packet] }

/-- `Read` up to its return or to the first packet it has to wait for. -/
def startRead (q : UploadQueue ρ) (len : ℕ) : UploadQueue ρ :=
  match q.reader with
  | some reader => q.readReader readFrom reader len
  | none =>
    if q.closed then q.finish { bytes := [], err := some ioEOF }
    else if q.heap.items.isEmpty then { q with pending := .first len }
    else q.popLoop len q.heap.items.length

/-- The packet goes into the heap, and the loop goes on. -/
def receivePacket (q : UploadQueue ρ) (packet : Packet ρ) (len : ℕ) : UploadQueue ρ :=
  let q := { q with heap := q.heap.push packet }
  q.popLoop len q.heap.items.length

/-- The call of `Read` receives from the channel, if there is a packet or the channel is closed.
Only the first packet of a call may be a reader. -/
def receive (q : UploadQueue ρ) : Option (UploadQueue ρ) :=
  match q.pending, q.pushedPackets with
  | .idle, _ => none
  | _, [] => if q.channelClosed then some (q.finish { bytes := [], err := some ioEOF }) else none
  | .first len, packet :: rest =>
    match packet.reader with
    | some reader => some ({ q with pushedPackets := rest }.readReader readFrom reader len)
    | none => some ({ q with pushedPackets := rest }.receivePacket packet len)
  | .more len, packet :: rest => some ({ q with pushedPackets := rest }.receivePacket packet len)

/-- One packet of the channel is drained by `Close`. -/
def drain (q : UploadQueue ρ) : Option (UploadQueue ρ) :=
  match q.closing, q.pushedPackets with
  | true, packet :: rest =>
    some { q with pushedPackets := rest, reader := packet.reader <|> q.reader }
  | _, _ => none

/-- The steps of the queue.  One goroutine reads, so that a call starts after the one before has
returned; a second `Close` only closes the reader. -/
def step (q : UploadQueue ρ) : Event ρ → Option (UploadQueue ρ)
  | .push packet => some (q.push packet)
  | .read len => if q.pending = .idle then some (q.startRead readFrom len) else none
  | .receive => q.receive readFrom
  | .close => some (if q.closed then q else { q with closed := true, closing := true })
  | .drain => q.drain
  | .closeChannel =>
    if q.closing && q.pushedPackets.isEmpty then
      some { q with closing := false, channelClosed := true }
    else none

/-- The bytes that the calls of `Read` have returned up to the first error. -/
def delivered (q : UploadQueue ρ) : List UInt8 :=
  (q.results.takeWhile fun r => r.err.isNone).flatMap ReadResult.bytes

/-- A call has returned an error. -/
def failed (q : UploadQueue ρ) : Bool := q.results.any fun r => r.err.isSome

/-! ### Order -/

section

variable {q : UploadQueue ρ} {result : ReadResult}

theorem failed_finish : (q.finish result).failed = (q.failed || result.err.isSome) := by
  simp [failed, finish]

theorem delivered_finish_of_failed (h : q.failed) : (q.finish result).delivered = q.delivered := by
  rw [delivered, delivered, finish, takeWhile_append, if_neg]
  intro hlen
  obtain ⟨r, hr, herr⟩ := List.any_eq_true.1 h
  have hall := List.takeWhile_eq_self_iff.1 (List.takeWhile_prefix _ |>.eq_of_length hlen) r hr
  rw [Option.isNone_iff_eq_none] at hall
  rw [hall] at herr
  cases herr

theorem delivered_finish (h : q.failed = false) :
    (q.finish result).delivered =
      q.delivered ++ if result.err.isNone then result.bytes else [] := by
  have hself : (q.results.takeWhile fun r => r.err.isNone) = q.results := by
    rw [takeWhile_eq_self_iff]
    intro r hr
    simpa using List.any_eq_false.1 h r hr
  rw [delivered, delivered, finish, takeWhile_append, if_pos (by rw [hself]), hself,
    flatMap_append, takeWhile_cons]
  cases result.err.isNone <;> simp

end

/-- The payload of a packet is that of its number. -/
def Whole (payload : ℕ → List UInt8) (p : Packet ρ) : Prop :=
  p.reader = none ∧ p.payload = payload p.seq.toNat

/-- The payloads of the numbers below `n`. -/
def joined (payload : ℕ → List UInt8) (n : ℕ) : List UInt8 := (List.range n).flatMap payload

theorem joined_succ (payload : ℕ → List UInt8) (n : ℕ) :
    joined payload (n + 1) = joined payload n ++ payload n := by
  simp [joined, range_succ]

/-- The bytes in order, up to `offset` bytes into the next packet: what was delivered, and what the
heap holds of the next packet and of later ones. -/
structure InOrderUpTo (payload : ℕ → List UInt8) (q : UploadQueue ρ) (offset : ℕ) : Prop where
  delivered : q.delivered =
    joined payload q.nextSeq.toNat ++ (payload q.nextSeq.toNat).take offset
  next : ∀ p ∈ q.heap.items, p.seq = q.nextSeq →
    p.payload = (payload q.nextSeq.toNat).drop offset
  later : ∀ p ∈ q.heap.items, q.nextSeq < p.seq → p.payload = payload p.seq.toNat
  exists_next : offset ≠ 0 → ∃ p ∈ q.heap.items, p.seq = q.nextSeq

/-- No packet of the heap is due. -/
def NothingDue (q : UploadQueue ρ) : Prop := ∀ p ∈ q.heap.items, q.nextSeq < p.seq

/-- The queue is in order: while a call waits, no packet of the heap is due. -/
structure InOrder (payload : ℕ → List UInt8) (q : UploadQueue ρ) : Prop where
  reader : q.reader = none
  channel : ∀ p ∈ q.pushedPackets, Whole payload p
  upTo : ∃ offset, q.InOrderUpTo payload offset
  waiting : q.pending ≠ .idle → q.NothingDue

/-- The queue is in order, or a call has failed after bytes in order. -/
def Sound (payload : ℕ → List UInt8) (q : UploadQueue ρ) : Prop :=
  (∃ n, q.delivered <+: joined payload n) ∧ (q.failed = false → q.InOrder payload)

/-- The heap holds at most one packet with the next number, or a buffer of length `len` takes the
whole of it. -/
def Unambiguous (q : UploadQueue ρ) (len : ℕ) : Prop :=
  (q.heap.items.filter fun p => p.seq = q.nextSeq).length ≤ 1 ∨
    ∀ p ∈ q.heap.items, p.seq = q.nextSeq → p.payload.length ≤ len

instance (q : UploadQueue ρ) (len : ℕ) : Decidable (q.Unambiguous len) :=
  inferInstanceAs (Decidable (_ ∨ _))

section

variable {payload : ℕ → List UInt8} {q : UploadQueue ρ}

theorem InOrderUpTo.offset_eq_zero {offset : ℕ} (h : q.InOrderUpTo payload offset)
    (hdue : q.NothingDue) : offset = 0 := by
  by_contra hne
  obtain ⟨p, hp, hseq⟩ := h.exists_next hne
  have hlt := hdue p hp
  rw [hseq] at hlt
  exact absurd hlt (UInt64.lt_irrefl _)

theorem InOrderUpTo.delivered_prefix_joined {offset : ℕ} (h : q.InOrderUpTo payload offset) :
    q.delivered <+: joined payload (q.nextSeq.toNat + 1) := by
  rw [h.delivered, joined_succ, prefix_append_right_inj]
  exact take_prefix _ _

theorem sound_finish (offset : ℕ) {result : ReadResult} (hreader : q.reader = none)
    (hchannel : ∀ p ∈ q.pushedPackets, Whole payload p) (hfailed : q.failed = false)
    (herr : result.err = none)
    (hdelivered : q.delivered ++ result.bytes =
      joined payload q.nextSeq.toNat ++ (payload q.nextSeq.toNat).take offset)
    (hnext : ∀ p ∈ q.heap.items, p.seq = q.nextSeq →
      p.payload = (payload q.nextSeq.toNat).drop offset)
    (hlater : ∀ p ∈ q.heap.items, q.nextSeq < p.seq → p.payload = payload p.seq.toNat)
    (hexists : offset ≠ 0 → ∃ p ∈ q.heap.items, p.seq = q.nextSeq) :
    (q.finish result).Sound payload := by
  have hupTo : (q.finish result).InOrderUpTo payload offset := by
    refine ⟨?_, hnext, hlater, hexists⟩
    rw [delivered_finish hfailed, herr, Option.isNone_none, if_pos rfl]
    exact hdelivered
  exact ⟨⟨_, hupTo.delivered_prefix_joined⟩, fun _ =>
    ⟨hreader, hchannel, ⟨offset, hupTo⟩, fun hpending => absurd rfl hpending⟩⟩

theorem sound_finish_err {result : ReadResult} (herr : result.err ≠ none)
    (h : ∃ n, q.delivered <+: joined payload n) : (q.finish result).Sound payload := by
  have hsome : result.err.isSome := Option.isSome_iff_ne_none.2 herr
  have hnone : result.err.isNone = false := by
    rw [← Bool.not_eq_true, Option.isNone_iff_eq_none]
    exact herr
  refine ⟨?_, fun hfailed => ?_⟩
  · cases hfailed : q.failed with
    | true => rwa [delivered_finish_of_failed hfailed]
    | false => rwa [delivered_finish hfailed, hnone, if_neg Bool.false_ne_true, append_nil]
  · rw [failed_finish, hsome, Bool.or_true] at hfailed
    cases hfailed

/-- Two packets with the next number, of which a call takes a part, are ambiguous. -/
theorem Unambiguous.eq_false {len : ℕ} (h : q.Unambiguous len) {packet p : Packet ρ}
    {rest : List (Packet ρ)} (hperm : q.heap.items.Perm (packet :: rest))
    (hpacket : packet.seq = q.nextSeq) (hlen : len < packet.payload.length) (hp : p ∈ rest)
    (hseq : p.seq = q.nextSeq) : False := by
  rcases h with hone | hlong
  · have hfilter := (hperm.filter fun p => p.seq = q.nextSeq).length_eq
    rw [filter_cons_of_pos (by simpa using hpacket), length_cons] at hfilter
    have hpos : 0 < (rest.filter fun p => p.seq = q.nextSeq).length :=
      length_pos_of_mem (List.mem_filter.2 ⟨hp, by simpa using hseq⟩)
    omega
  · have hle := hlong packet (hperm.mem_iff.2 mem_cons_self) hpacket
    omega

/-- **The step lemma**: the loop keeps the bytes in order. -/
theorem inOrder_popLoop {len fuel offset : ℕ} (hreader : q.reader = none)
    (hchannel : ∀ p ∈ q.pushedPackets, Whole payload p) (hfailed : q.failed = false)
    (h : q.InOrderUpTo payload offset) (hunambiguous : q.Unambiguous len)
    (hseq : q.nextSeq.toNat + 1 < 2 ^ 64) : (q.popLoop len fuel).Sound payload := by
  have hnothing : ∀ {q : UploadQueue ρ}, q.reader = none →
      (∀ p ∈ q.pushedPackets, Whole payload p) → q.failed = false →
      q.InOrderUpTo payload offset → (q.finish { bytes := [] }).Sound payload :=
    fun hreader hchannel hfailed h => sound_finish offset hreader hchannel hfailed rfl
      (by rw [append_nil]; exact h.delivered) h.next h.later h.exists_next
  induction fuel generalizing q with
  | zero => exact hnothing hreader hchannel hfailed h
  | succ fuel ih =>
    rw [popLoop]
    cases hpop : q.heap.pop with
    | none => exact hnothing hreader hchannel hfailed h
    | some popped =>
      obtain ⟨packet, heap⟩ := popped
      obtain ⟨hperm, hmin⟩ := BinaryHeap.pop_eq_some hpop
      have hmem : ∀ p, p ∈ q.heap.items ↔ p = packet ∨ p ∈ heap.items := fun p =>
        hperm.mem_iff.trans mem_cons
      have hpacket := (hmem packet).2 (.inl rfl)
      have hrest : ∀ p ∈ heap.items, p ∈ q.heap.items := fun p hp => (hmem p).2 (.inr hp)
      have hpushed : ∀ p x, p ∈ (heap.push x).items ↔ p = x ∨ p ∈ heap.items := fun p x =>
        (heap.perm_push x).mem_iff.trans mem_cons
      dsimp only
      split
      case isTrue hdue =>
        -- the packet is due: its bytes are the next ones
        have hpayload := h.next packet hpacket hdue
        split
        case isTrue hlt =>
          refine sound_finish (offset + min len packet.payload.length) hreader
            hchannel hfailed rfl ?_ ?_ ?_ ?_
          · change q.delivered ++ _ = _
            rw [h.delivered, append_assoc, take_add, ← hpayload]
          · intro p hp hpseq
            rcases (hpushed p _).1 hp with rfl | hp
            · rw [hpayload, drop_drop]
            · exact (hunambiguous.eq_false hperm hdue (by omega) hp hpseq).elim
          · intro p hp hpseq
            rcases (hpushed p _).1 hp with rfl | hp
            · exact absurd hpseq (by simp [hdue])
            · exact h.later p (hrest p hp) hpseq
          · exact fun _ => ⟨_, (hpushed _ _).2 (.inl rfl), hdue⟩
        case isFalse hge =>
          have hsucc : (packet.seq + 1).toNat = q.nextSeq.toNat + 1 := by
            rw [hdue, UInt64.toNat_add]
            exact Nat.mod_eq_of_lt hseq
          have hlater : ∀ p ∈ heap.items, packet.seq + 1 ≤ p.seq →
              p.payload = payload p.seq.toNat := by
            intro p hp hle
            refine h.later p (hrest p hp) ?_
            rw [UInt64.le_iff_toNat_le, hsucc] at hle
            exact UInt64.lt_iff_toNat_lt.2 hle
          refine sound_finish 0 hreader hchannel hfailed rfl ?_ ?_ ?_ ?_
          · change q.delivered ++ _ = joined payload (packet.seq + 1).toNat ++ _
            rw [take_of_length_le (by omega), h.delivered, hpayload, append_assoc,
              take_append_drop, hsucc, joined_succ, take_zero, append_nil]
          · intro p hp hpseq
            rw [hlater p hp (by rw [hpseq]; exact UInt64.le_refl _), hpseq, drop_zero]
          · intro p hp hpseq
            exact hlater p hp (UInt64.le_of_lt hpseq)
          · exact fun hne => absurd rfl hne
      case isFalse hne =>
        split
        case isTrue hlater =>
          -- the smallest number is larger, so nothing is due
          have hnothingDue : q.NothingDue := by
            intro p hp
            rcases (hmem p).1 hp with rfl | hp
            · exact hlater
            · exact UInt64.lt_of_lt_of_le hlater (UInt64.le_iff_toNat_le.2 (hmin p hp))
          split
          · exact sound_finish_err (by simp) ⟨_, h.delivered_prefix_joined⟩
          · have hsame : ∀ p, p ∈ (heap.push packet).items ↔ p ∈ q.heap.items := fun p =>
              (hpushed p packet).trans (hmem p).symm
            refine ⟨⟨_, h.delivered_prefix_joined⟩, fun _ => ⟨hreader, hchannel, ⟨offset, ?_⟩,
              fun _ p hp => hnothingDue p ((hsame p).1 hp)⟩⟩
            exact ⟨h.delivered, fun p hp => h.next p ((hsame p).1 hp),
              fun p hp => h.later p ((hsame p).1 hp), fun hne =>
                absurd (h.offset_eq_zero hnothingDue) hne⟩
        case isFalse hstale =>
          -- a copy of a packet that was delivered
          refine ih hreader hchannel hfailed ⟨h.delivered, fun p hp => h.next p (hrest p hp),
            fun p hp => h.later p (hrest p hp), fun hoffset => ?_⟩ ?_ hseq
          · obtain ⟨p, hp, hpseq⟩ := h.exists_next hoffset
            rcases (hmem p).1 hp with rfl | hp
            · exact absurd hpseq hne
            · exact ⟨p, hp, hpseq⟩
          · rcases hunambiguous with hone | hlong
            · refine .inl (le_trans ?_ hone)
              rw [(hperm.filter _).length_eq]
              exact ((sublist_cons_self packet heap.items).filter _).length_le
            · exact .inr fun p hp => hlong p (hrest p hp)

end

/-! ### Runs -/

/-- At most one result is added to the earlier ones. -/
def Extends (q q' : UploadQueue ρ) : Prop :=
  q'.results = q.results ∨ ∃ result, q'.results = q.results ++ [result]

/-- The packets in the heap and in the channel. -/
def held (q : UploadQueue ρ) : ℕ := q.heap.items.length + q.pushedPackets.length

/-- The heap has room for the packet that a waiting call receives. -/
def Bounded (q : UploadQueue ρ) : Prop :=
  q.heap.items.length ≤ q.maxPackets + 2 ∧
    (q.pending ≠ .idle → q.heap.items.length ≤ q.maxPackets + 1)

/-- What a step does while `n` packets are pushed, and under which condition the heap stays bounded.
The next number goes up only for a packet that leaves the queue. -/
structure Moves (fits : Prop) (n : ℕ) (q q' : UploadQueue ρ) : Prop where
  results : Extends q q'
  maxPackets : q'.maxPackets = q.maxPackets
  bounded : fits → q'.Bounded
  counted : q'.nextSeq = q.nextSeq ∧ q'.held ≤ q.held + n ∨
    q'.nextSeq = q.nextSeq + 1 ∧ q'.held < q.held + n

theorem moves_finish (result : ReadResult) (q : UploadQueue ρ) :
    Moves (q.heap.items.length ≤ q.maxPackets + 2) 0 q (q.finish result) :=
  ⟨.inr ⟨_, rfl⟩, rfl, fun h => ⟨h, fun hne => absurd rfl hne⟩, .inl ⟨rfl, le_rfl⟩⟩

theorem moves_popLoop (len fuel : ℕ) (q : UploadQueue ρ) :
    Moves (q.heap.items.length ≤ q.maxPackets + 2) 0 q (q.popLoop len fuel) := by
  induction fuel generalizing q with
  | zero => exact moves_finish _ q
  | succ fuel ih =>
    rw [popLoop]
    cases hpop : q.heap.pop with
    | none => exact moves_finish _ q
    | some popped =>
      obtain ⟨packet, heap⟩ := popped
      have hlen : q.heap.items.length = heap.items.length + 1 :=
        (BinaryHeap.pop_eq_some hpop).1.length_eq
      have hpush : ∀ p, (heap.push p).items.length = heap.items.length + 1 := fun p =>
        (heap.perm_push p).length_eq
      have hrest := ih { q with heap := heap }
      dsimp only
      split_ifs
      · exact ⟨.inr ⟨_, rfl⟩, rfl, by grind [finish, Bounded], by grind [finish, held]⟩
      · exact ⟨.inr ⟨_, rfl⟩, rfl, by grind [finish, Bounded], by grind [finish, held]⟩
      · exact ⟨.inr ⟨_, rfl⟩, rfl, by grind [finish, Bounded], by grind [finish, held]⟩
      · -- the limit was checked before the packet went back
        exact ⟨.inl rfl, rfl, by grind [Bounded], by grind [held]⟩
      · exact ⟨hrest.results, hrest.maxPackets, fun h => hrest.bounded (by grind), by
          grind [hrest.counted, held]⟩

theorem moves_startRead (len : ℕ) (q : UploadQueue ρ) :
    Moves (q.heap.items.length ≤ q.maxPackets + 2) 0 q (q.startRead readFrom len) := by
  rw [startRead]
  split
  · exact ⟨.inr ⟨_, rfl⟩, rfl, fun h => ⟨h, fun hne => absurd rfl hne⟩, .inl ⟨rfl, le_rfl⟩⟩
  · split_ifs with hclosed hempty
    · exact moves_finish _ q
    · exact ⟨.inl rfl, rfl, by grind [Bounded, List.isEmpty_iff], .inl ⟨rfl, le_rfl⟩⟩
    · exact moves_popLoop len _ q

variable {readFrom} {q q' : UploadQueue ρ}

theorem moves_receivePacket {packet : Packet ρ} {rest : List (Packet ρ)} (len : ℕ)
    (hpending : q.pending ≠ .idle) (hpackets : q.pushedPackets = packet :: rest) :
    Moves q.Bounded 0 q (receivePacket { q with pushedPackets := rest } packet len) := by
  have hlen := (q.heap.perm_push packet).length_eq
  have hloop := moves_popLoop len (q.heap.push packet).items.length
    { q with pushedPackets := rest, heap := q.heap.push packet }
  exact ⟨hloop.results, hloop.maxPackets, fun h => hloop.bounded (by grind [h.2 hpending]), by
    grind [hloop.counted, held, receivePacket]⟩

theorem moves_receive (h : q.receive readFrom = some q') : Moves q.Bounded 0 q q' := by
  rw [receive] at h
  split at h
  case h_1 => cases h
  case h_2 =>
    obtain ⟨-, ⟨⟩⟩ := ite_none_right_eq_some.1 h
    exact ⟨.inr ⟨_, rfl⟩, rfl, fun h => ⟨h.1, fun hne => absurd rfl hne⟩, .inl ⟨rfl, le_rfl⟩⟩
  case h_3 hpending hpackets =>
    split at h
    · obtain rfl := some.inj h
      exact ⟨.inr ⟨_, rfl⟩, rfl, by grind [Bounded, readReader, finish], by
        grind [held, readReader, finish]⟩
    · exact some.inj h ▸ moves_receivePacket _ (by simp [hpending]) hpackets
  case h_4 hpending hpackets =>
    exact some.inj h ▸ moves_receivePacket _ (by simp [hpending]) hpackets

/-- The packets that an event pushes. -/
def Event.pushes : Event ρ → ℕ
  | .push _ => 1
  | _ => 0

theorem moves_step {e : Event ρ} (h : q.step readFrom e = some q') :
    Moves q.Bounded e.pushes q q' := by
  cases e with
  | push packet =>
    obtain rfl := some.inj h
    rw [push]
    split_ifs
    · exact ⟨.inl rfl, rfl, id, .inl ⟨rfl, Nat.le_add_right _ _⟩⟩
    · exact ⟨.inl rfl, rfl, id, by grind [held, Event.pushes]⟩
  | read len =>
    obtain ⟨-, ⟨⟩⟩ := ite_none_right_eq_some.1 h
    have hread := moves_startRead readFrom len q
    exact ⟨hread.results, hread.maxPackets, fun h => hread.bounded h.1, hread.counted⟩
  | receive => exact moves_receive h
  | close =>
    obtain rfl := some.inj h
    split <;> exact ⟨.inl rfl, rfl, id, .inl ⟨rfl, le_rfl⟩⟩
  | drain =>
    rw [step, drain] at h
    split at h
    · obtain rfl := some.inj h
      exact ⟨.inl rfl, rfl, id, by grind [held, Event.pushes]⟩
    · cases h
  | closeChannel =>
    obtain ⟨-, ⟨⟩⟩ := ite_none_right_eq_some.1 h
    exact ⟨.inl rfl, rfl, id, .inl ⟨rfl, le_rfl⟩⟩

theorem moves_run {events : List (Event ρ)}
    (hrun : Schedule.run (step readFrom) q events = some q') (hq : q.Bounded)
    (hcount : q.nextSeq.toNat + q.held + (events.map Event.pushes).sum < 2 ^ 64) :
    q'.maxPackets = q.maxPackets ∧ q'.Bounded ∧ q.nextSeq ≤ q'.nextSeq ∧
      q'.nextSeq.toNat + q'.held ≤ q.nextSeq.toNat + q.held + (events.map Event.pushes).sum := by
  induction events generalizing q with
  | nil =>
    obtain rfl := some.inj hrun
    exact ⟨rfl, hq, UInt64.le_refl _, by simp⟩
  | cons e events ih =>
    obtain ⟨t, hstep, hrest⟩ := Schedule.run_cons_eq_some.1 hrun
    have hmoves := moves_step hstep
    rw [List.map_cons, List.sum_cons] at hcount ⊢
    have hnext : q.nextSeq.toNat ≤ t.nextSeq.toNat ∧
        t.nextSeq.toNat + t.held ≤ q.nextSeq.toNat + q.held + e.pushes := by
      rcases hmoves.counted with ⟨hseq, hheld⟩ | ⟨hseq, hheld⟩
      · rw [hseq]
        omega
      · have hsucc : t.nextSeq.toNat = q.nextSeq.toNat + 1 := by
          rw [hseq, UInt64.toNat_add]
          exact Nat.mod_eq_of_lt (by simp; omega)
        omega
    obtain ⟨hmax, hbounded, hle, hsum⟩ := ih hrest (hmoves.bounded hq) (by omega)
    exact ⟨hmax.trans hmoves.maxPackets, hbounded, hnext.1.trans hle, by omega⟩

/-- **The heap is bounded and the next number never decreases**, along every run in which fewer than
2⁶⁴ packets are pushed.  While a call waits, the heap has room for the packet that it receives. -/
theorem heap_bounded {maxPackets : ℕ} {before after : List (Event ρ)}
    (hbefore : Schedule.run (step readFrom) { maxPackets := maxPackets } before = some q)
    (hafter : Schedule.run (step readFrom) q after = some q')
    (hpushes : ((before ++ after).map Event.pushes).sum < 2 ^ 64) :
    q'.heap.items.length ≤ maxPackets + 2 ∧
      (q'.pending ≠ .idle → q'.heap.items.length ≤ maxPackets + 1) ∧ q.nextSeq ≤ q'.nextSeq := by
  rw [List.map_append, List.sum_append] at hpushes
  obtain ⟨hmax, hbounded, -, hsum⟩ := moves_run hbefore
    ⟨Nat.zero_le _, fun hne => absurd rfl hne⟩ (by simp [held, BinaryHeap.empty]; omega)
  simp only [held, BinaryHeap.empty] at hsum
  obtain ⟨hmax', hbounded', hle, -⟩ := moves_run hafter hbounded (by simp [held] at *; omega)
  rw [Bounded, hmax', hmax] at hbounded'
  exact ⟨hbounded'.1, hbounded'.2, hle⟩

theorem Extends.delivered_eq (h : Extends q q') (hfailed : q.failed) :
    q'.delivered = q.delivered ∧ q'.failed := by
  rcases h with hsame | ⟨result, hresults⟩
  · simp [delivered, failed, hsame, ← hfailed]
  · have hfinish : q'.results = (q.finish result).results := hresults
    have hdelivered : q'.delivered = (q.finish result).delivered := by
      rw [delivered, delivered, hfinish]
    have hfailed' : q'.failed = (q.finish result).failed := by rw [failed, failed, hfinish]
    rw [hdelivered, hfailed', delivered_finish_of_failed hfailed, failed_finish, hfailed]
    exact ⟨rfl, rfl⟩

/-- The condition on the state before a step: the next packet is unambiguous for the call of `Read`
that starts, and numbers do not overflow. -/
def KeepsOrder (q : UploadQueue ρ) : Event ρ → Prop
  | .read len => q.Unambiguous len ∧ q.nextSeq.toNat + 1 < 2 ^ 64
  | .receive => q.nextSeq.toNat + 1 < 2 ^ 64
  | _ => True

instance (q : UploadQueue ρ) (e : Event ρ) : Decidable (q.KeepsOrder e) :=
  match e with
  | .read _ => inferInstanceAs (Decidable (_ ∧ _))
  | .receive => inferInstanceAs (Decidable (_ < _))
  | .push _ => isTrue trivial
  | .close => isTrue trivial
  | .drain => isTrue trivial
  | .closeChannel => isTrue trivial

/-- Packets that are pushed have the payload of their number. -/
def Event.Uploads (payload : ℕ → List UInt8) : Event ρ → Prop
  | .push packet => Whole payload packet
  | _ => True

section

variable {payload : ℕ → List UInt8} {q : UploadQueue ρ}

theorem InOrder.frame {q' : UploadQueue ρ} (h : q.InOrder payload) (hheap : q'.heap = q.heap)
    (hnextSeq : q'.nextSeq = q.nextSeq) (hresults : q'.results = q.results)
    (hreader : q'.reader = none) (hchannel : ∀ p ∈ q'.pushedPackets, Whole payload p)
    (hwaiting : q'.pending ≠ .idle → q'.NothingDue) : q'.InOrder payload := by
  obtain ⟨offset, hupTo⟩ := h.upTo
  refine ⟨hreader, hchannel, ⟨offset, ?_, ?_, ?_, ?_⟩, hwaiting⟩
  · rw [delivered, hresults, hnextSeq]
    exact hupTo.delivered
  · rw [hheap, hnextSeq]
    exact hupTo.next
  · rw [hheap, hnextSeq]
    exact hupTo.later
  · rw [hheap, hnextSeq]
    exact hupTo.exists_next

theorem sound_receivePacket {packet : Packet ρ} {len : ℕ} (h : q.InOrder payload)
    (hfailed : q.failed = false) (hdue : q.NothingDue) (hpacket : Whole payload packet)
    (hseq : q.nextSeq.toNat + 1 < 2 ^ 64) : (q.receivePacket packet len).Sound payload := by
  obtain ⟨offset, hupTo⟩ := h.upTo
  obtain rfl := hupTo.offset_eq_zero hdue
  have hmem : ∀ p, p ∈ (q.heap.push packet).items ↔ p = packet ∨ p ∈ q.heap.items := fun p =>
    (q.heap.perm_push packet).mem_iff.trans mem_cons
  have hpushed : InOrderUpTo payload { q with heap := q.heap.push packet } 0 := by
    refine ⟨hupTo.delivered, fun p hp hpseq => ?_, fun p hp hpseq => ?_, fun hne => absurd rfl hne⟩
    · rcases (hmem p).1 hp with rfl | hp
      · rw [hpacket.2, hpseq, drop_zero]
      · exact hupTo.next p hp hpseq
    · rcases (hmem p).1 hp with rfl | hp
      · exact hpacket.2
      · exact hupTo.later p hp hpseq
  refine inOrder_popLoop h.reader h.channel hfailed hpushed (.inl ?_) hseq
  · have hfilter : q.heap.items.filter (fun p => p.seq = q.nextSeq) = [] := by
      rw [filter_eq_nil_iff]
      intro p hp hpseq
      have hlt := hdue p hp
      rw [of_decide_eq_true hpseq] at hlt
      exact UInt64.lt_irrefl _ hlt
    change ((q.heap.push packet).items.filter fun p => p.seq = q.nextSeq).length ≤ 1
    rw [((q.heap.perm_push packet).filter _).length_eq, filter_cons]
    split <;> simp [hfilter]

/-- **One step keeps the queue sound** under the condition. -/
theorem sound_step {e : Event ρ} (hstep : q.step readFrom e = some q')
    (hkeeps : q.KeepsOrder e) (huploads : e.Uploads payload) (h : q.Sound payload) :
    q'.Sound payload := by
  cases hfailed : q.failed with
  | true =>
    obtain ⟨hdelivered, hfailed'⟩ := (moves_step hstep).results.delivered_eq hfailed
    refine ⟨by rw [hdelivered]; exact h.1, fun hnot => ?_⟩
    rw [hfailed'] at hnot
    cases hnot
  | false =>
    have hin := h.2 hfailed
    -- a packet that is received or drained is whole, and so are the others
    have hchannel : ∀ {packet rest}, q.pushedPackets = packet :: rest →
        Whole payload packet ∧ ∀ p ∈ rest, Whole payload p := by
      intro packet rest hpackets
      have hall := hin.channel
      rwa [hpackets, forall_mem_cons] at hall
    have hreceive : ∀ {packet rest len}, q.pushedPackets = packet :: rest →
        q.pending ≠ .idle → q.nextSeq.toNat + 1 < 2 ^ 64 →
        (receivePacket { q with pushedPackets := rest } packet len).Sound payload := by
      intro packet rest len hpackets hpending hseq
      exact sound_receivePacket (hin.frame rfl rfl rfl hin.reader (hchannel hpackets).2
        hin.waiting) hfailed (hin.waiting hpending) (hchannel hpackets).1 hseq
    cases e with
    | push packet =>
      obtain rfl := some.inj hstep
      rw [push]
      split
      · exact h
      · refine ⟨h.1, fun _ => hin.frame rfl rfl rfl hin.reader (fun p hp => ?_) hin.waiting⟩
        rcases List.mem_append.1 hp with hp | hp
        · exact hin.channel p hp
        · exact List.mem_singleton.1 hp ▸ huploads
    | read len =>
      rw [step] at hstep
      split at hstep
      case isFalse => cases hstep
      case isTrue =>
        obtain rfl := some.inj hstep
        rw [startRead]
        split
        · rename_i reader hreader
          rw [hin.reader] at hreader
          cases hreader
        · split
          · exact sound_finish_err (by simp) h.1
          · split
            · rename_i hempty
              refine ⟨h.1, fun _ => hin.frame rfl rfl rfl hin.reader hin.channel fun _ p hp => ?_⟩
              change p ∈ q.heap.items at hp
              rw [List.isEmpty_iff.1 hempty] at hp
              cases hp
            · obtain ⟨offset, hupTo⟩ := hin.upTo
              exact inOrder_popLoop hin.reader hin.channel hfailed hupTo hkeeps.1 hkeeps.2
    | receive =>
      rw [step, receive] at hstep
      split at hstep
      case h_1 => cases hstep
      case h_2 =>
        obtain ⟨-, hstep⟩ := ite_none_right_eq_some.1 hstep
        exact some.inj hstep ▸ sound_finish_err (by simp) h.1
      case h_3 len packet rest hpending hpackets =>
        rw [(hchannel hpackets).1.1] at hstep
        exact some.inj hstep ▸
          hreceive hpackets (by rw [hpending]; exact Pending.noConfusion) hkeeps
      case h_4 len packet rest hpending hpackets =>
        exact some.inj hstep ▸
          hreceive hpackets (by rw [hpending]; exact Pending.noConfusion) hkeeps
    | close =>
      obtain rfl := some.inj hstep
      split
      · exact h
      · exact ⟨h.1, fun _ => hin.frame rfl rfl rfl hin.reader hin.channel hin.waiting⟩
    | drain =>
      rw [step, drain] at hstep
      split at hstep
      case h_2 => cases hstep
      case h_1 packet rest _ hpackets =>
        obtain rfl := some.inj hstep
        refine ⟨h.1, fun _ => hin.frame rfl rfl rfl ?_ (hchannel hpackets).2 hin.waiting⟩
        simp [(hchannel hpackets).1.1, hin.reader]
    | closeChannel =>
      obtain ⟨-, ⟨⟩⟩ := ite_none_right_eq_some.1 hstep
      exact ⟨h.1, fun _ => hin.frame rfl rfl rfl hin.reader hin.channel hin.waiting⟩

end

/-- **The bytes are in order.**  Let the packets that are pushed have the payloads of their numbers.
Along every schedule in which each call of `Read` starts with at most one packet of the next number
in the heap, or with a buffer that takes the whole of it, and in which numbers do not overflow, the
bytes returned up to the first error are the first of all payloads in the order of their numbers. -/
theorem delivered_in_order {payload : ℕ → List UInt8} {maxPackets : ℕ} {events : List (Event ρ)}
    {q : UploadQueue ρ}
    (hrun : Schedule.run (step readFrom) { maxPackets := maxPackets } events = some q)
    (huploads : ∀ e ∈ events, e.Uploads payload)
    (hkeeps : Schedule.Along (step readFrom) KeepsOrder { maxPackets := maxPackets } events) :
    ∃ n, q.delivered <+: joined payload n := by
  have hinit : Sound payload ({ maxPackets := maxPackets } : UploadQueue ρ) :=
    ⟨⟨0, prefix_rfl⟩, fun _ => ⟨rfl, by simp, ⟨0, rfl, by simp [BinaryHeap.empty],
      by simp [BinaryHeap.empty], fun hne => absurd rfl hne⟩, fun hne => absurd rfl hne⟩⟩
  refine (Schedule.run_invariant (I := Sound payload)
    (P := fun q e => KeepsOrder q e ∧ Event.Uploads payload e) ?_ hrun
    (hkeeps.and (Schedule.along_of_forall huploads)) hinit).1
  exact fun s e s' hstep hcondition => sound_step hstep hcondition.1 hcondition.2

/-! ### Two uploads -/

/-- The payloads of an upload of two packets. -/
def twoPayloads : ℕ → List UInt8
  | 0 => [0]
  | 1 => [10, 11]
  | _ => []

/-- The packet with a number of this upload. -/
def uploaded (seq : UInt64) : Packet Empty := { payload := twoPayloads seq.toNat, seq := seq }

/-- No packet is a reader. -/
def noReader (reader : Empty) (_ : ℕ) : ReadResult × Empty := reader.elim

/-- The packets arrive in the wrong order, the first of them twice, and are read in small pieces. -/
def reordered : List (Event Empty) :=
  [.push (uploaded 1), .push (uploaded 0), .read 4, .receive, .push (uploaded 0), .receive, .read 1,
    .read 1, .read 1, .receive, .close, .closeChannel, .read 1]

theorem reordered_in_order :
    ∃ q, Schedule.run (step noReader) { maxPackets := 8 } reordered = some q ∧
      q.delivered = [0, 10, 11] ∧ ∃ n, q.delivered <+: joined twoPayloads n := by
  obtain ⟨q, hrun⟩ := Option.isSome_iff_exists.1
    (by decide : (Schedule.run (step noReader) { maxPackets := 8 } reordered).isSome = true)
  have hdelivered : (Schedule.run (step noReader) { maxPackets := 8 } reordered).map delivered =
      some [0, 10, 11] := by decide
  rw [hrun] at hdelivered
  refine ⟨q, hrun, some.inj hdelivered, delivered_in_order hrun ?_ (by decide)⟩
  simp [reordered, Event.Uploads, Whole, uploaded]

theorem reordered_bounded :
    ∃ q, Schedule.run (step noReader) { maxPackets := 8 } reordered = some q ∧
      q.heap.items.length ≤ 10 := by
  obtain ⟨q, hrun⟩ := Option.isSome_iff_exists.1
    (by decide : (Schedule.run (step noReader) { maxPackets := 8 } reordered).isSome)
  exact ⟨q, hrun, (heap_bounded (rfl : Schedule.run _ _ [] = _) hrun (by decide)).1⟩

/-- The second packet arrives twice before the first one, and is read in two pieces. -/
def duplicated : List (Event Empty) :=
  [.push (uploaded 1), .push (uploaded 1), .push (uploaded 0), .read 4, .receive, .receive,
    .receive, .read 1, .read 1]

theorem duplicated_repeats :
    ∃ q, Schedule.run (step noReader) { maxPackets := 8 } duplicated = some q ∧
      q.delivered = [0, 10, 10] ∧ ¬∃ n, q.delivered <+: joined twoPayloads n := by
  obtain ⟨q, hrun⟩ := Option.isSome_iff_exists.1
    (by decide : (Schedule.run (step noReader) { maxPackets := 8 } duplicated).isSome = true)
  have hdelivered : (Schedule.run (step noReader) { maxPackets := 8 } duplicated).map delivered =
      some [0, 10, 10] := by decide
  rw [hrun] at hdelivered
  have hdelivered : q.delivered = [0, 10, 10] := some.inj hdelivered
  refine ⟨q, hrun, hdelivered, ?_⟩
  rintro ⟨n, hn⟩
  have hall : ∀ n, joined twoPayloads n <+: [0, 10, 11] := by
    intro n
    induction n with
    | zero => decide
    | succ n ih =>
      rcases n with - | - | n
      · decide
      · decide
      · have hnil : twoPayloads (n + 2) = [] := rfl
        rwa [joined_succ, hnil, append_nil]
  rw [hdelivered] at hn
  exact absurd (hn.trans (hall n)) (by decide)

end UploadQueue

end SingBox
