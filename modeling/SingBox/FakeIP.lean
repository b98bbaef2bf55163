/-
**FakeIP addresses** (`dns/transport/fakeip/store.go`).

A FakeIP store answers every domain with an address of its own.  It keeps one pool for each address
family: a range, the last address of the range, and the address that it has come to.  A new domain
takes the next address, and when the next one is the last address of the range, or lies outside of
it, the pool starts again two addresses after the one that was configured.  The mapping itself is
kept by a storage, in memory or in the cache file.

* `value_broadcastAddress` — the bits of `broadcastAddress` are the end of the interval;
* `FakeIPRange.contains_iff_value` — a range contains the addresses of its interval;
* `FakeIPState.steps_of_step`, `FakeIPState.create_eq_ok` — the inversion lemmas;
* `FakeIPPool.contains_nextAddress` — what is taken lies in the range if the start of the
  pool does.
-/

import SingBox.InverseMaps
import SingBox.Netip
import SingBox.Schedule

namespace SingBox

open Addr

/-! ### The last address of a range -/

/-- The loop of `broadcastAddress`, which counts bits from the front. -/
def setHostBits (raw : BitVec 128) (bits : ℕ) : BitVec 128 :=
  (List.range' bits (128 - bits)).foldl (fun raw i => raw ||| 1#128 <<< (127 - i)) raw

/-- `broadcastAddress`. -/
def broadcastAddress (p : Prefix) : Addr :=
  if p.addr.is4 then .v4 ((setHostBits p.addr.as16 (p.bits + 96)).setWidth 32)
  else .v6 (setHostBits p.addr.as16 p.bits) []

theorem getLsbD_foldl_or (L : List ℕ) (raw : BitVec 128) {j : ℕ} (hj : j < 128) :
    (L.foldl (fun raw i => raw ||| 1#128 <<< (127 - i)) raw).getLsbD j =
      (raw.getLsbD j || L.any fun i => j == 127 - i) := by
  induction L generalizing raw with
  | nil => simp
  | cons i L ih =>
    have hbit : (1#128 <<< (127 - i)).getLsbD j = (j == 127 - i) := by
      rw [BitVec.getLsbD_shiftLeft, BitVec.getLsbD_one, Bool.eq_iff_iff]
      simp only [Bool.and_eq_true, decide_eq_true_eq, Bool.not_eq_true',
        decide_eq_false_iff_not, beq_iff_eq]
      omega
    rw [List.foldl_cons, ih, BitVec.getLsbD_or, hbit, List.any_cons, Bool.or_assoc]

theorem getLsbD_setHostBits (raw : BitVec 128) (bits : ℕ) {j : ℕ} (hj : j < 128) :
    (setHostBits raw bits).getLsbD j = (raw.getLsbD j || decide (j < 128 - bits)) := by
  rw [setHostBits, getLsbD_foldl_or _ _ hj]
  congr 1
  rw [Bool.eq_iff_iff, List.any_eq_true, decide_eq_true_iff]
  constructor
  · rintro ⟨i, hi, hji⟩
    rw [List.mem_range'_1] at hi
    rw [beq_iff_eq] at hji
    omega
  · intro hlt
    refine ⟨127 - j, List.mem_range'_1.2 (by omega), ?_⟩
    rw [beq_iff_eq]
    omega

theorem toNat_of_getLsbD {w h : ℕ} {x y : BitVec w} (hw : h ≤ w)
    (hbits : ∀ j < w, y.getLsbD j = (x.getLsbD j || decide (j < h))) :
    y.toNat = 2 ^ h * (x.toNat / 2 ^ h) + (2 ^ h - 1) := by
  apply Nat.eq_of_testBit_eq
  intro j
  rw [Nat.testBit_two_pow_mul_add _ (Nat.sub_lt (Nat.two_pow_pos h) Nat.one_pos),
    Nat.testBit_two_pow_sub_one, Nat.testBit_div_two_pow, BitVec.testBit_toNat]
  by_cases hj : j < w
  · rw [hbits j hj]
    split
    · rename_i hlt
      simp [hlt]
    · rename_i hlt
      rw [Nat.sub_add_cancel (Nat.le_of_not_lt hlt), BitVec.testBit_toNat]
      simp [hlt]
  · have hlt : ¬j < h := by omega
    rw [if_neg hlt, Nat.sub_add_cancel (Nat.le_of_not_lt hlt), BitVec.testBit_toNat,
      BitVec.getLsbD_of_ge _ _ (Nat.le_of_not_lt hj),
      BitVec.getLsbD_of_ge _ _ (Nat.le_of_not_lt hj)]

theorem value_broadcastAddress {p : Prefix} (hp : p.isValid) :
    (broadcastAddress p).bitLen = p.addr.bitLen ∧ (broadcastAddress p).zone = [] ∧
      (broadcastAddress p).value = p.firstValue + (p.size - 1) := by
  obtain ⟨addr, bits⟩ := p
  rw [Prefix.isValid, Bool.and_eq_true, decide_eq_true_iff] at hp
  obtain ⟨hvalid, hbits⟩ := hp
  cases addr with
  | zero => cases hvalid
  | v4 b =>
    refine ⟨rfl, rfl, toNat_of_getLsbD (Nat.sub_le _ _) fun j hj => ?_⟩
    have hbits : bits ≤ 32 := hbits
    have hhost : 128 - (bits + 96) = 32 - bits := by omega
    have hlong : j < 128 := by omega
    rw [BitVec.getLsbD_setWidth, getLsbD_setHostBits _ _ hlong, as16, BitVec.getLsbD_or,
      BitVec.getLsbD_setWidth, BitVec.getLsbD_shiftLeft, hhost]
    change _ = (b.getLsbD j || decide (j < 32 - bits))
    simp only [hj, hlong, decide_true, Bool.not_true, Bool.and_false, Bool.false_and,
      Bool.false_or, Bool.true_and]
  | v6 b z =>
    refine ⟨rfl, rfl, toNat_of_getLsbD (Nat.sub_le _ _) fun j hj => ?_⟩
    exact getLsbD_setHostBits _ _ hj

/-! ### Ranges as numbers -/

/-- What a configured range of a family is: `netip` keeps no zone in a prefix. -/
structure FakeIPRange (isIPv6 : Bool) (p : Prefix) : Prop where
  valid : p.isValid
  family : p.addr.is4 = !isIPv6
  zone : p.addr.zone = []

namespace FakeIPRange

variable {isIPv6 : Bool} {p : Prefix} {a : Addr} (hp : FakeIPRange isIPv6 p)

include hp

theorem contains_iff_value :
    p.contains a ↔ a.zone = [] ∧ a.bitLen = p.addr.bitLen ∧
      p.firstValue ≤ a.value ∧ a.value < p.firstValue + p.size := by
  have hvalue : p.addr.value / p.size = a.value / p.size ↔
      p.firstValue ≤ a.value ∧ a.value < p.firstValue + p.size := by
    rw [Prefix.firstValue, eq_comm, Nat.div_eq_iff p.size_pos]
    have hmul := Nat.mul_comm p.size (p.addr.value / p.size)
    have hpos := p.size_pos
    omega
  rw [Prefix.contains_iff, hvalue]
  simp only [hp.valid, true_and, eq_comm (a := p.addr.bitLen)]

theorem exists_value {n : ℕ} (hn : n < 2 ^ p.addr.bitLen) :
    ∃ b : Addr, b.zone = [] ∧ b.bitLen = p.addr.bitLen ∧ b.value = n := by
  have hvalid := hp.valid
  rw [Prefix.isValid, Bool.and_eq_true] at hvalid
  cases haddr : p.addr with
  | zero =>
    rw [haddr] at hvalid
    cases hvalid.1
  | v4 b =>
    rw [haddr] at hn
    exact ⟨.v4 (BitVec.ofNat 32 n), rfl, rfl, Nat.mod_eq_of_lt hn⟩
  | v6 b z =>
    rw [haddr] at hn
    exact ⟨.v6 (BitVec.ofNat 128 n) [], rfl, rfl, Nat.mod_eq_of_lt hn⟩

theorem isValid_addr : p.addr.isValid := by
  have hvalid := hp.valid
  rw [Prefix.isValid, Bool.and_eq_true] at hvalid
  exact hvalid.1

theorem next_next (h : p.addr.value + 2 < 2 ^ p.addr.bitLen) :
    p.addr.next.next.zone = [] ∧ p.addr.next.next.bitLen = p.addr.bitLen ∧
      p.addr.next.next.value = p.addr.value + 2 := by
  obtain ⟨hlen, hvalue, hzone⟩ := next_of_lt hp.isValid_addr (by omega)
  have hvalid : p.addr.next.isValid := by
    rw [isValid_iff, hlen, ← isValid_iff]
    exact hp.isValid_addr
  obtain ⟨hlen', hvalue', hzone'⟩ := next_of_lt hvalid (by rw [hlen, hvalue]; omega)
  exact ⟨hzone'.trans (hzone.trans hp.zone), hlen'.trans hlen, by rw [hvalue', hvalue]⟩

theorem next_next_eq_zero (h : 2 ^ p.addr.bitLen ≤ p.addr.value + 2) :
    p.addr.next.next = .zero := by
  have hlt := p.addr.value_lt
  by_cases hlast : p.addr.value + 1 = 2 ^ p.addr.bitLen
  · rw [next_of_eq hlast]
    rfl
  · obtain ⟨hlen, hvalue, -⟩ := next_of_lt hp.isValid_addr (by omega)
    exact next_of_eq (by rw [hlen, hvalue]; omega)

theorem contains_next_next :
    p.contains p.addr.next.next ↔ p.addr.value + 2 < p.firstValue + p.size := by
  have hend := p.firstValue_add_le
  have hfirst := p.firstValue_le
  rw [hp.contains_iff_value]
  by_cases h : p.addr.value + 2 < 2 ^ p.addr.bitLen
  · obtain ⟨hzone, hlen, hvalue⟩ := hp.next_next h
    rw [hvalue]
    simp only [hzone, hlen, true_and]
    omega
  · rw [hp.next_next_eq_zero (Nat.le_of_not_lt h)]
    have hlen : p.addr.bitLen ≠ 0 := isValid_iff.1 hp.isValid_addr
    refine iff_of_false (fun hzero => hlen hzero.2.1.symm) ?_
    omega

theorem is4_of_contains (h : p.contains a) : a.is4 = !isIPv6 := by
  obtain ⟨-, hlen, -⟩ := hp.contains_iff_value.1 h
  rw [← hp.family, Bool.eq_iff_iff, is4_iff, is4_iff, hlen]

end FakeIPRange

/-! ### The store -/

/-- `adapter.FakeIPMetadata`. -/
structure FakeIPMetadata where
  (inet4Range inet6Range : Prefix)
  (inet4Current inet6Current : Addr)

/-- `adapter.FakeIPStorage`.  Reading the metadata may change the storage, and an error of `store`
is only logged by its caller. -/
structure FakeIPStorage (σ : Type) where
  metadata : σ → Option FakeIPMetadata × σ
  (saveMetadata saveMetadataAsync : FakeIPMetadata → σ → σ)
  store : Addr → GoString → σ → σ
  load : Addr → σ → Option GoString
  loadDomain : GoString → Bool → σ → Option Addr
  reset : σ → σ

/-- One address family of a `Store`. -/
structure FakeIPPool where
  range : Prefix
  (last current : Addr)

namespace FakeIPPool

/-- What `NewStore` makes of a range. -/
def new (range : Prefix) : FakeIPPool where
  range := range
  last := if range.isValid then broadcastAddress range else .zero
  current := .zero

/-- What `Start` makes of a range that the storage does not know. -/
def restart (p : FakeIPPool) : FakeIPPool :=
  if p.range.isValid then { p with current := p.range.addr.next } else p

theorem range_restart (p : FakeIPPool) : p.restart.range = p.range := by
  rw [restart]
  split <;> rfl

/-- The address that `Create` takes: the next one, or the start of the pool again. -/
def nextAddress (p : FakeIPPool) : Addr :=
  if p.current.next = p.last || !p.range.contains p.current.next then p.range.addr.next.next
  else p.current.next

end FakeIPPool

/-- `Store`. -/
structure FakeIPRangeStore where
  (inet4 inet6 : FakeIPPool)

def errMissingFakeIPRange : Bool → GoError
  | false => .new "missing IPv4 fakeip address range"
  | true => .new "missing IPv6 fakeip address range"

namespace FakeIPRangeStore

/-- `NewStore`. -/
def new (inet4Range inet6Range : Prefix) : FakeIPRangeStore where
  inet4 := .new inet4Range
  inet6 := .new inet6Range

/-- A family of the store. -/
def pool (s : FakeIPRangeStore) : Bool → FakeIPPool
  | false => s.inet4
  | true => s.inet6

def setCurrent (s : FakeIPRangeStore) (address : Addr) : Bool → FakeIPRangeStore
  | false => { s with inet4 := { s.inet4 with current := address } }
  | true => { s with inet6 := { s.inet6 with current := address } }

/-- The metadata that is saved. -/
def metadata (s : FakeIPRangeStore) : FakeIPMetadata where
  inet4Range := s.inet4.range
  inet6Range := s.inet6.range
  inet4Current := s.inet4.current
  inet6Current := s.inet6.current

section

variable {σ : Type} (ops : FakeIPStorage σ)

/-- `Start`. -/
def start (s : FakeIPRangeStore) (storage : σ) : FakeIPRangeStore × σ :=
  match ops.metadata storage with
  | (some metadata, storage) =>
    if metadata.inet4Range = s.inet4.range ∧ metadata.inet6Range = s.inet6.range then
      ({ inet4 := { s.inet4 with current := metadata.inet4Current }
         inet6 := { s.inet6 with current := metadata.inet6Current } }, storage)
    else (⟨s.inet4.restart, s.inet6.restart⟩, ops.reset storage)
  | (none, storage) => (⟨s.inet4.restart, s.inet6.restart⟩, ops.reset storage)

/-- `Create`.  The second look at the storage, under the lock, finds what the first one has found
as long as calls do not overlap. -/
def create (s : FakeIPRangeStore) (storage : σ) (domain : GoString) (isIPv6 : Bool) :
    Except GoError Addr × FakeIPRangeStore × σ :=
  match ops.loadDomain domain isIPv6 storage with
  | some address => (.ok address, s, storage)
  | none =>
    if !(s.pool isIPv6).current.isValid then (.error (errMissingFakeIPRange isIPv6), s, storage)
    else
      let address := (s.pool isIPv6).nextAddress
      let s := s.setCurrent address isIPv6
      (.ok address, s, ops.saveMetadataAsync s.metadata (ops.store address domain storage))

end

@[simp] theorem pool_setCurrent_self (s : FakeIPRangeStore) (address : Addr) (isIPv6 : Bool) :
    (s.setCurrent address isIPv6).pool isIPv6 = { s.pool isIPv6 with current := address } := by
  cases isIPv6 <;> rfl

@[simp] theorem pool_setCurrent_not (s : FakeIPRangeStore) (address : Addr) (isIPv6 : Bool) :
    (s.setCurrent address isIPv6).pool (!isIPv6) = s.pool (!isIPv6) := by
  cases isIPv6 <;> rfl

end FakeIPRangeStore

/-! ### Calls -/

/-- A store with its storage. -/
structure FakeIPState (σ : Type) where
  store : FakeIPRangeStore
  storage : σ

inductive FakeIPCall where
  | create (domain : GoString) (isIPv6 : Bool)
  | lookup (address : Addr)
  | reset

namespace FakeIPState

variable {σ : Type} (ops : FakeIPStorage σ)

/-- What `Create` returns. -/
def create (s : FakeIPState σ) (domain : GoString) (isIPv6 : Bool) : Except GoError Addr :=
  (s.store.create ops s.storage domain isIPv6).1

/-- `Lookup`. -/
def lookup (s : FakeIPState σ) (address : Addr) : Option GoString := ops.load address s.storage

/-- The address that a domain has. -/
def addressOf (s : FakeIPState σ) (domain : GoString) (isIPv6 : Bool) : Option Addr :=
  ops.loadDomain domain isIPv6 s.storage

/-- The state after a call. -/
def step (s : FakeIPState σ) : FakeIPCall → Option (FakeIPState σ)
  | .create domain isIPv6 =>
    some ⟨(s.store.create ops s.storage domain isIPv6).2.1,
      (s.store.create ops s.storage domain isIPv6).2.2⟩
  | .lookup _ => some s
  | .reset => some { s with storage := ops.reset s.storage }

/-- What a call can do. -/
inductive Steps (s : FakeIPState σ) : FakeIPCall → FakeIPState σ → Prop
  | found {domain : GoString} {isIPv6 : Bool} {address : Addr}
      (hfound : s.addressOf ops domain isIPv6 = some address) : Steps s (.create domain isIPv6) s
  | missing {domain : GoString} {isIPv6 : Bool} (hnone : s.addressOf ops domain isIPv6 = none)
      (hmissing : (s.store.pool isIPv6).current.isValid = false) :
      Steps s (.create domain isIPv6) s
  | allocated {domain : GoString} {isIPv6 : Bool} (hnone : s.addressOf ops domain isIPv6 = none)
      (hvalid : (s.store.pool isIPv6).current.isValid) {address : Addr}
      (haddress : address = (s.store.pool isIPv6).nextAddress) {store : FakeIPRangeStore}
      (hstore : store = s.store.setCurrent address isIPv6) :
      Steps s (.create domain isIPv6)
        ⟨store, ops.saveMetadataAsync store.metadata (ops.store address domain s.storage)⟩
  | lookup (address : Addr) : Steps s (.lookup address) s
  | reset : Steps s .reset { s with storage := ops.reset s.storage }

variable {ops} {s s' : FakeIPState σ} {domain : GoString} {isIPv6 : Bool} {address : Addr}

theorem create_of_found (h : s.addressOf ops domain isIPv6 = some address) :
    s.store.create ops s.storage domain isIPv6 = (.ok address, s.store, s.storage) := by
  rw [addressOf] at h
  rw [FakeIPRangeStore.create, h]

theorem create_of_missing (hnone : s.addressOf ops domain isIPv6 = none)
    (hmissing : (s.store.pool isIPv6).current.isValid = false) :
    s.store.create ops s.storage domain isIPv6 =
      (.error (errMissingFakeIPRange isIPv6), s.store, s.storage) := by
  rw [addressOf] at hnone
  rw [FakeIPRangeStore.create, hnone, hmissing]
  rfl

theorem create_of_allocated (hnone : s.addressOf ops domain isIPv6 = none)
    (hvalid : (s.store.pool isIPv6).current.isValid) :
    s.store.create ops s.storage domain isIPv6 =
      (.ok (s.store.pool isIPv6).nextAddress,
        s.store.setCurrent (s.store.pool isIPv6).nextAddress isIPv6,
        ops.saveMetadataAsync
          (s.store.setCurrent (s.store.pool isIPv6).nextAddress isIPv6).metadata
          (ops.store (s.store.pool isIPv6).nextAddress domain s.storage)) := by
  rw [addressOf] at hnone
  rw [FakeIPRangeStore.create, hnone, hvalid]
  rfl

/-- **Every call does one of these.** -/
theorem steps_of_step {c : FakeIPCall} (h : s.step ops c = some s') : s.Steps ops c s' := by
  cases c with
  | create domain isIPv6 =>
    rw [step, Option.some.injEq] at h
    subst h
    cases hfound : s.addressOf ops domain isIPv6 with
    | some address =>
      rw [create_of_found hfound]
      exact .found hfound
    | none =>
      cases hvalid : (s.store.pool isIPv6).current.isValid with
      | false =>
        rw [create_of_missing hfound hvalid]
        exact .missing hfound hvalid
      | true =>
        rw [create_of_allocated hfound hvalid]
        exact .allocated hfound hvalid rfl rfl
  | lookup address =>
    rw [step, Option.some.injEq] at h
    subst h
    exact .lookup address
  | reset =>
    rw [step, Option.some.injEq] at h
    subst h
    exact .reset

theorem create_eq_ok (h : s.create ops domain isIPv6 = .ok address) :
    s.addressOf ops domain isIPv6 = some address ∨
      s.addressOf ops domain isIPv6 = none ∧ (s.store.pool isIPv6).current.isValid ∧
        address = (s.store.pool isIPv6).nextAddress := by
  rw [create] at h
  cases hfound : s.addressOf ops domain isIPv6 with
  | some address' =>
    rw [create_of_found hfound] at h
    cases h
    exact .inl rfl
  | none =>
    cases hvalid : (s.store.pool isIPv6).current.isValid with
    | false =>
      rw [create_of_missing hfound hvalid] at h
      cases h
    | true =>
      rw [create_of_allocated hfound hvalid] at h
      cases h
      exact .inr ⟨rfl, rfl, rfl⟩

end FakeIPState

/-! ### Taking an address -/

namespace FakeIPPool

/-- The pool starts again. -/
def Wraps (p : FakeIPPool) : Prop :=
  p.current.next = p.last ∨ p.range.contains p.current.next = false

variable {p : FakeIPPool}

theorem nextAddress_of_wraps (h : p.Wraps) : p.nextAddress = p.range.addr.next.next := by
  refine if_pos ?_
  rw [Bool.or_eq_true, decide_eq_true_iff, Bool.not_eq_true']
  exact h

theorem nextAddress_of_not_wraps (h : ¬p.Wraps) :
    p.nextAddress = p.current.next ∧ p.current.next ≠ p.last ∧ p.range.contains p.current.next := by
  rw [Wraps, not_or, Bool.not_eq_false] at h
  refine ⟨if_neg ?_, h⟩
  rw [Bool.or_eq_true, decide_eq_true_iff, Bool.not_eq_true', not_or, Bool.not_eq_false]
  exact h

theorem contains_nextAddress (hstart : p.range.contains p.range.addr.next.next) :
    p.range.contains p.nextAddress := by
  by_cases h : p.Wraps
  · rw [nextAddress_of_wraps h]
    exact hstart
  · obtain ⟨haddr, -, hcontains⟩ := nextAddress_of_not_wraps h
    rw [haddr]
    exact hcontains

end FakeIPPool

end SingBox
