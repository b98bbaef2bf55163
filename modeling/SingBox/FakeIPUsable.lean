/-
**Which addresses a FakeIP store gives** (`dns/transport/fakeip/store.go`).

A range is an address and a length, and the address need not be the first one of the range.  The
pool starts two addresses after the configured one, and starts there again when it comes to the end
of the range or to its last address.  Whether the start of the pool lies in the range, and is not
its last address, is not checked.

* `FakeIPPool.usable_nextAddress` — what is taken from a large enough range is usable;
* `fakeIP_usable_iff` — **all addresses are usable exactly if the ranges are large enough**;
* `singleAddress_outside` — the store gives an address outside of a range of one address.
-/

import SingBox.FakeIPMemory

namespace SingBox

open FakeIPPool

/-! ### Usable addresses -/

/-- An address of a prefix that is neither the first nor the last one. -/
structure Usable (p : Prefix) (a : Addr) : Prop where
  contained : p.contains a
  not_first : ¬∀ b, p.contains b → a.value ≤ b.value
  not_last : ¬∀ b, p.contains b → b.value ≤ a.value

variable {isIPv6 : Bool}

theorem FakeIPRange.usable_iff {p : Prefix} (hp : FakeIPRange isIPv6 p) {a : Addr} :
    Usable p a ↔ a.zone = [] ∧ a.bitLen = p.addr.bitLen ∧ p.firstValue < a.value ∧
      a.value + 1 < p.firstValue + p.size := by
  have hend := p.firstValue_add_le
  constructor
  · rintro ⟨hcontained, hfirst, hlast⟩
    obtain ⟨hzone, hlen, hle, hlt⟩ := hp.contains_iff_value.1 hcontained
    refine ⟨hzone, hlen, Nat.lt_of_not_le fun h => hfirst fun b hb => ?_,
      Nat.lt_of_not_le fun h => hlast fun b hb => ?_⟩
    · obtain ⟨-, -, hble, -⟩ := hp.contains_iff_value.1 hb
      omega
    · obtain ⟨-, -, -, hblt⟩ := hp.contains_iff_value.1 hb
      omega
  · rintro ⟨hzone, hlen, hfirst, hlast⟩
    refine ⟨hp.contains_iff_value.2 ⟨hzone, hlen, by omega, by omega⟩, fun h => ?_, fun h => ?_⟩
    · obtain ⟨b, hbzone, hblen, hb⟩ := hp.exists_value (n := p.firstValue) (by omega)
      have hle := h b (hp.contains_iff_value.2 ⟨hbzone, hblen, by omega, by omega⟩)
      omega
    · obtain ⟨b, hbzone, hblen, hb⟩ := hp.exists_value (n := p.firstValue + (p.size - 1)) (by omega)
      have hle := h b (hp.contains_iff_value.2 ⟨hbzone, hblen, by omega, by omega⟩)
      omega

/-- A range is absent, has at least four addresses from the configured one to its end, or is
configured with the last address of its family, so that the store gives none. -/
def RangeSafe (p : Prefix) : Prop :=
  p.isValid = false ∨ p.addr.value + 3 < p.firstValue + p.size ∨
    p.addr.value + 1 = 2 ^ p.addr.bitLen

/-! ### The pool -/

/-- A pool that gives addresses is past the configured address of a range with enough of them. -/
structure FakeIPPool.Supply (isIPv6 : Bool) (p : FakeIPPool) : Prop where
  range : FakeIPRange isIPv6 p.range
  last : p.last = broadcastAddress p.range
  room : p.range.addr.value + 3 < p.range.firstValue + p.range.size
  current : p.range.addr.value < p.current.value

/-- **What is taken from a large enough range is usable**, and the pool moves on. -/
theorem FakeIPPool.usable_nextAddress {p : FakeIPPool} (h : p.Supply isIPv6)
    (hvalid : p.current.isValid) :
    Usable p.range p.nextAddress ∧ p.range.addr.value < p.nextAddress.value := by
  have hfirst := p.range.firstValue_le
  have hend := p.range.firstValue_add_le
  have hroom := h.room
  have hcur := h.current
  rw [h.range.usable_iff]
  by_cases hwraps : p.Wraps
  · rw [nextAddress_of_wraps hwraps]
    obtain ⟨hzone, hlen, hvalue⟩ := h.range.next_next (by omega)
    rw [hvalue]
    exact ⟨⟨hzone, hlen, by omega, by omega⟩, by omega⟩
  · obtain ⟨hnext, hlast, hcontains⟩ := nextAddress_of_not_wraps hwraps
    obtain ⟨hzone, hlen, hle, hlt⟩ := h.range.contains_iff_value.1 hcontains
    have hvalue := Prefix.value_next_of_contains hvalid hcontains
    rw [hnext]
    refine ⟨⟨hzone, hlen, by omega, ?_⟩, by omega⟩
    -- The last address of the range is left out.
    by_contra hge
    obtain ⟨hlen', hzone', hvalue'⟩ := value_broadcastAddress h.range.valid
    refine hlast (Addr.ext_value ?_ ?_ ?_)
    · rw [h.last, hlen, hlen']
    · rw [h.last, hvalue']
      omega
    · rw [h.last, hzone, hzone']

/-! ### The invariant -/

/-- The range of a family. -/
def familyRange (inet4Range inet6Range : Prefix) : Bool → Prefix
  | false => inet4Range
  | true => inet6Range

namespace FakeIPState

open PartialMap (forget)
open MemoryStorage (ops)

/-- A pool that gives addresses has enough of them, and the addresses that domains hold are
usable. -/
structure Supplied (isIPv6 : Bool) (range : Prefix) (p : FakeIPPool)
    (cache : GoString → Option Addr) : Prop where
  range_eq : p.range = range
  supply : p.current.isValid → p.Supply isIPv6
  held : ∀ domain address, cache domain = some address → Usable range address

/-- **The invariant**, for both families. -/
def AllSupplied (inet4Range inet6Range : Prefix) (s : FakeIPState MemoryStorage) : Prop :=
  ∀ isIPv6, Supplied isIPv6 (familyRange inet4Range inet6Range isIPv6) (s.store.pool isIPv6)
    (s.storage.domainCache isIPv6)

variable {range : Prefix}

theorem Supplied.take {p : FakeIPPool}
    {cache : GoString → Option Addr} (h : Supplied isIPv6 range p cache)
    (hvalid : p.current.isValid) (domain : GoString) (old : Option GoString) :
    Supplied isIPv6 range { p with current := p.nextAddress }
      (Function.update (forget cache old) domain (some p.nextAddress)) := by
  have hsupply := h.supply hvalid
  obtain ⟨husable, hcur⟩ := usable_nextAddress hsupply hvalid
  refine ⟨h.range_eq, fun _ => { hsupply with current := hcur }, ?_⟩
  intro domain' address hheld
  by_cases hsame : domain' = domain
  · rw [hsame, Function.update_self, Option.some.injEq] at hheld
    rw [← hheld, ← h.range_eq]
    exact husable
  · rw [Function.update_of_ne hsame, PartialMap.forget_eq_some] at hheld
    exact h.held domain' address hheld.1

variable {inet4Range inet6Range : Prefix} {s s' : FakeIPState MemoryStorage}

theorem AllSupplied.usable_of_create {domain : GoString} {address : Addr}
    (h : s.AllSupplied inet4Range inet6Range) (hcreate : s.create ops domain isIPv6 = .ok address) :
    Usable (familyRange inet4Range inet6Range isIPv6) address := by
  rcases create_eq_ok hcreate with hfound | ⟨-, hvalid, hnext⟩
  · exact (h isIPv6).held domain address hfound
  · rw [hnext, ← (h isIPv6).range_eq]
    exact (usable_nextAddress ((h isIPv6).supply hvalid) hvalid).1

/-- **The step lemma.** -/
theorem AllSupplied.step {c : FakeIPCall} (h : s.AllSupplied inet4Range inet6Range)
    (hstep : s.step ops c = some s') : s'.AllSupplied inet4Range inet6Range := by
  cases steps_of_step hstep with
  | found | missing | lookup => exact h
  | reset =>
    intro isIPv6
    refine ⟨(h isIPv6).range_eq, (h isIPv6).supply, fun domain address hheld => ?_⟩
    cases isIPv6 <;> cases hheld
  | @allocated domain isIPv6 hnone hvalid address haddr store hstore =>
    have hsupply := (h isIPv6).supply hvalid
    have husable := (usable_nextAddress hsupply hvalid).1
    have hfam := hsupply.range.is4_of_contains husable.contained
    subst haddr hstore
    intro isIPv6'
    by_cases hsame : isIPv6' = isIPv6
    · subst hsame
      rw [FakeIPRangeStore.pool_setCurrent_self]
      change Supplied _ _ _
        ((s.storage.fakeIPStore (s.store.pool isIPv6').nextAddress domain).domainCache isIPv6')
      rw [MemoryStorage.domainCache_fakeIPStore hfam]
      exact (h isIPv6').take hvalid domain _
    · obtain rfl := Bool.eq_not.2 hsame
      rw [FakeIPRangeStore.pool_setCurrent_not]
      change Supplied _ _ _
        ((s.storage.fakeIPStore (s.store.pool isIPv6).nextAddress domain).domainCache (!isIPv6))
      rw [MemoryStorage.domainCache_fakeIPStore_not hfam]
      exact h (!isIPv6)

theorem supplied_restart
    (hrange : range.isValid = false ∨ FakeIPRange isIPv6 range) (hsafe : RangeSafe range) :
    Supplied isIPv6 range (new range).restart fun _ => none := by
  refine ⟨?_, fun hvalid => ?_, fun domain address hheld => by cases hheld⟩
  · rw [range_restart]
    rfl
  · cases hv : range.isValid with
    | false =>
      rw [restart, if_neg (by simp [new, hv])] at hvalid
      cases hvalid
    | true =>
      have hp : FakeIPRange isIPv6 range := hrange.resolve_left (by simp [hv])
      have hpool : (new range).restart = { new range with current := range.addr.next } := by
        rw [restart, if_pos (by simp [new, hv])]
        rfl
      rw [hpool] at hvalid ⊢
      rcases hsafe with hnone | hroom | hend
      · rw [hv] at hnone
        cases hnone
      · have hle := range.firstValue_add_le
        obtain ⟨-, hvalue, -⟩ := Addr.next_of_lt hp.isValid_addr (by omega)
        refine ⟨hp, if_pos hv, hroom, ?_⟩
        change range.addr.value < range.addr.next.value
        omega
      · rw [Addr.next_of_eq hend] at hvalid
        cases hvalid

theorem create_startMemory (hrange : familyRange inet4Range inet6Range isIPv6 = range)
    (hp : FakeIPRange isIPv6 range) (hnext : range.addr.value + 1 < 2 ^ range.addr.bitLen) :
    (startMemory inet4Range inet6Range).create ops [] isIPv6 = .ok range.addr.next.next := by
  have hpool : ((startMemory inet4Range inet6Range).store.pool isIPv6) =
      { new range with current := range.addr.next } := by
    have hrestart : (new range).restart =
        { new range with current := range.addr.next } := if_pos hp.valid
    cases isIPv6 with
    | false | true =>
      rw [← hrestart, ← hrange]
      rfl
  have hnone : (startMemory inet4Range inet6Range).addressOf ops [] isIPv6 = none := by
    cases isIPv6 <;> rfl
  have hvalid : ((startMemory inet4Range inet6Range).store.pool isIPv6).current.isValid := by
    rw [hpool, Addr.isValid_iff, (Addr.next_of_lt hp.isValid_addr hnext).1, ← Addr.isValid_iff]
    exact hp.isValid_addr
  rw [create, create_of_allocated hnone hvalid, hpool]
  -- It is the start of the pool whether or not the pool starts again.
  by_cases hwraps : FakeIPPool.Wraps { FakeIPPool.new range with current := range.addr.next }
  · rw [FakeIPPool.nextAddress_of_wraps hwraps]
    rfl
  · rw [(nextAddress_of_not_wraps hwraps).1]

end FakeIPState

/-! ### The result -/

open FakeIPState
open MemoryStorage (ops)

/-- **All addresses are usable exactly if the ranges are large enough.**  For ranges of any length
and with any bits set in the configured address, every address that `Create` returns after any
calls lies in the range of its family and is neither its first nor its last address, if and only if
each range is safe. -/
theorem fakeIP_usable_iff {inet4Range inet6Range : Prefix}
    (h4 : inet4Range.isValid = false ∨ FakeIPRange false inet4Range)
    (h6 : inet6Range.isValid = false ∨ FakeIPRange true inet6Range) :
    (∀ calls s, Schedule.run (step ops) (startMemory inet4Range inet6Range) calls = some s →
      ∀ domain isIPv6 address, s.create ops domain isIPv6 = .ok address →
        Usable (familyRange inet4Range inet6Range isIPv6) address) ↔
      RangeSafe inet4Range ∧ RangeSafe inet6Range := by
  have hranges : ∀ isIPv6, (familyRange inet4Range inet6Range isIPv6).isValid = false ∨
      FakeIPRange isIPv6 (familyRange inet4Range inet6Range isIPv6) := by
    intro isIPv6
    cases isIPv6 with
    | false => exact h4
    | true => exact h6
  constructor
  · intro husable
    have hsafe : ∀ isIPv6, RangeSafe (familyRange inet4Range inet6Range isIPv6) := by
      intro isIPv6
      rcases hranges isIPv6 with hnone | hp
      · exact .inl hnone
      · have hlt := (familyRange inet4Range inet6Range isIPv6).addr.value_lt
        by_cases hend : (familyRange inet4Range inet6Range isIPv6).addr.value + 1 =
            2 ^ (familyRange inet4Range inet6Range isIPv6).addr.bitLen
        · exact .inr (.inr hend)
        · have hfirst := husable [] _ rfl [] isIPv6 _ (create_startMemory rfl hp (by omega))
          have hcontains := hp.contains_next_next.1 hfirst.contained
          have hle := (familyRange inet4Range inet6Range isIPv6).firstValue_add_le
          obtain ⟨-, -, hvalue⟩ := hp.next_next (by omega)
          obtain ⟨-, -, -, hroom⟩ := hp.usable_iff.1 hfirst
          exact .inr (.inl (by omega))
    exact ⟨hsafe false, hsafe true⟩
  · rintro ⟨hsafe4, hsafe6⟩ calls s hrun domain isIPv6 address hcreate
    have hstart : (startMemory inet4Range inet6Range).AllSupplied inet4Range inet6Range := by
      intro isIPv6
      cases isIPv6 with
      | false => exact supplied_restart h4 hsafe4
      | true => exact supplied_restart h6 hsafe6
    exact (Schedule.run_invariant_always (fun _ _ _ hstep hs => AllSupplied.step hs hstep) hrun
      hstart).usable_of_create hcreate

theorem defaultRanges_usable :
    (RangeSafe ⟨.v4 0xc6120000#32, 15⟩ ∧
      RangeSafe ⟨.v6 0xfc000000000000000000000000000000#128 [], 18⟩) ∧
    ∀ calls s, Schedule.run (step ops)
      (startMemory ⟨.v4 0xc6120000#32, 15⟩ ⟨.v6 0xfc000000000000000000000000000000#128 [], 18⟩)
      calls = some s →
      ∀ domain isIPv6 address, s.create ops domain isIPv6 = .ok address →
        Usable (familyRange ⟨.v4 0xc6120000#32, 15⟩
          ⟨.v6 0xfc000000000000000000000000000000#128 [], 18⟩ isIPv6) address := by
  have hsafe : RangeSafe ⟨.v4 0xc6120000#32, 15⟩ ∧
      RangeSafe ⟨.v6 0xfc000000000000000000000000000000#128 [], 18⟩ :=
    ⟨.inr (.inl (by decide)), .inr (.inl (by decide))⟩
  exact ⟨hsafe, (fakeIP_usable_iff (.inr ⟨by decide, by decide, by decide⟩)
    (.inr ⟨by decide, by decide, by decide⟩)).2 hsafe⟩

/-- **A range of one address** is left with the first call: the store gives `10.0.0.3` for
`10.0.0.1/32`. -/
theorem singleAddress_outside :
    (startMemory ⟨.v4 0x0a000001#32, 32⟩ ⟨.zero, 0⟩).create ops [97] false =
        .ok (.v4 0x0a000003#32) ∧
      ¬Usable ⟨.v4 0x0a000001#32, 32⟩ (.v4 0x0a000003#32) :=
  ⟨rfl, fun h => absurd h.contained (by decide)⟩

end SingBox
