/-
**FakeIP in memory** (`dns/transport/fakeip/memory.go`).

Without a cache file the mapping between domains and addresses is held in three maps: one from
addresses, which both families share, and one from domains for each family.  An address that is
handed to another domain when its pool has come round takes the entry of the domain that had it
along.  The invariant is that in each family the two directions are inverse to each other.

* `FakeIPState.Consistent.step`, `FakeIPState.Consistent.run` — the step lemma and
  the run lemma;
* `FakeIPState.Consistent.forgotten` — a domain that loses its address is forgotten;
* `FakeIPState.Passed.wraps` — an address is handed on only after its pool has started
  again;
* `fakeIP_bijection` — **the two directions stay inverse to each other** through all calls.
-/

import SingBox.FakeIP

namespace SingBox

open Function

open PartialMap (Inverse forget)

/-! ### The storage -/

/-- `MemoryStorage`. -/
structure MemoryStorage where
  addressCache : Addr → Option GoString
  (domainCache4 domainCache6 : GoString → Option Addr)

namespace MemoryStorage

/-- `NewMemoryStorage`. -/
def new : MemoryStorage where
  addressCache _ := none
  domainCache4 _ := none
  domainCache6 _ := none

/-- The first half of `FakeIPStore`: the domain that had the address loses it. -/
def release (address : Addr) (s : MemoryStorage) : MemoryStorage :=
  match s.addressCache address with
  | none => s
  | some oldDomain =>
    if address.is4 then { s with domainCache4 := Function.update s.domainCache4 oldDomain none }
    else { s with domainCache6 := Function.update s.domainCache6 oldDomain none }

/-- `FakeIPStore`. -/
def fakeIPStore (address : Addr) (domain : GoString) (s : MemoryStorage) : MemoryStorage :=
  let s := s.release address
  let s := { s with addressCache := Function.update s.addressCache address (some domain) }
  if address.is4 then
    { s with domainCache4 := Function.update s.domainCache4 domain (some address) }
  else { s with domainCache6 := Function.update s.domainCache6 domain (some address) }

/-- The cache of the addresses of a family. -/
def domainCache (s : MemoryStorage) : Bool → GoString → Option Addr
  | false => s.domainCache4
  | true => s.domainCache6

/-- `MemoryStorage` as a `FakeIPStorage`: there is no metadata. -/
def ops : FakeIPStorage MemoryStorage where
  metadata s := (none, s)
  saveMetadata _ s := s
  saveMetadataAsync _ s := s
  store := fakeIPStore
  load address s := s.addressCache address
  loadDomain domain isIPv6 s := s.domainCache isIPv6 domain
  reset _ := new

/-- The cache of the domains, as far as it is about a family. -/
def ofFamily (s : MemoryStorage) (isIPv6 : Bool) (address : Addr) : Option GoString :=
  if address.is4 = !isIPv6 then s.addressCache address else none

section

variable {s : MemoryStorage} {address : Addr} {domain : GoString} {isIPv6 : Bool}

theorem addressCache_fakeIPStore :
    (s.fakeIPStore address domain).addressCache =
      Function.update s.addressCache address (some domain) := by
  have hrelease : (s.release address).addressCache = s.addressCache := by
    rw [release]
    split
    · rfl
    · split <;> rfl
  rw [fakeIPStore]
  split <;> exact congrArg (Function.update · address (some domain)) hrelease

variable (hfamily : address.is4 = !isIPv6)

include hfamily

theorem domainCache_fakeIPStore :
    (s.fakeIPStore address domain).domainCache isIPv6 =
      Function.update (forget (s.domainCache isIPv6) (s.ofFamily isIPv6 address)) domain
        (some address) := by
  have hold : s.ofFamily isIPv6 address = s.addressCache address := if_pos hfamily
  rw [hold, fakeIPStore, release]
  cases isIPv6 <;> cases s.addressCache address <;> simp [hfamily, domainCache, forget]

theorem domainCache_fakeIPStore_not :
    (s.fakeIPStore address domain).domainCache (!isIPv6) = s.domainCache (!isIPv6) := by
  rw [fakeIPStore, release]
  cases isIPv6 <;> cases s.addressCache address <;> simp [hfamily, domainCache]

theorem ofFamily_fakeIPStore :
    (s.fakeIPStore address domain).ofFamily isIPv6 =
      Function.update (s.ofFamily isIPv6) address (some domain) := by
  funext a
  rw [ofFamily, addressCache_fakeIPStore]
  by_cases ha : a = address
  · rw [ha, update_self, update_self, if_pos hfamily]
  · rw [update_of_ne ha, update_of_ne ha, ofFamily]

theorem ofFamily_fakeIPStore_not :
    (s.fakeIPStore address domain).ofFamily (!isIPv6) = s.ofFamily (!isIPv6) := by
  funext a
  rw [ofFamily, addressCache_fakeIPStore, ofFamily]
  by_cases ha : a = address
  · have hother : a.is4 ≠ !!isIPv6 := by
      rw [ha, hfamily]
      cases isIPv6 <;> decide
    rw [if_neg hother, if_neg hother]
  · rw [update_of_ne ha]

end

end MemoryStorage

open MemoryStorage

/-! ### The invariant -/

/-- A range is absent, or the start of its pool lies inside. -/
def Configured (isIPv6 : Bool) (range : Prefix) : Prop :=
  range.isValid = false ∨
    FakeIPRange isIPv6 range ∧ range.contains range.addr.next.next

/-- A pool that gives addresses gives them from a range of its family. -/
def FakeIPPool.Ready (isIPv6 : Bool) (p : FakeIPPool) : Prop :=
  p.current.isValid →
    FakeIPRange isIPv6 p.range ∧ p.range.contains p.range.addr.next.next

theorem FakeIPPool.ready_restart {isIPv6 : Bool} {range : Prefix}
    (h : Configured isIPv6 range) : (FakeIPPool.new range).restart.Ready isIPv6 := by
  intro hvalid
  rw [FakeIPPool.restart] at hvalid ⊢
  rcases h with hnone | hrange
  · rw [if_neg (by simp [FakeIPPool.new, hnone])] at hvalid
    cases hvalid
  · rw [if_pos (by simp [FakeIPPool.new, hrange.1.valid])]
    exact hrange

namespace FakeIPState

/-- `NewStore` and `Start` without a cache file. -/
def startMemory (inet4Range inet6Range : Prefix) : FakeIPState MemoryStorage :=
  ⟨((FakeIPRangeStore.new inet4Range inet6Range).start ops .new).1,
    ((FakeIPRangeStore.new inet4Range inet6Range).start ops .new).2⟩

/-- **The invariant**: in each family the two caches are inverse to each other. -/
structure Consistent (s : FakeIPState MemoryStorage) : Prop where
  ready : ∀ isIPv6, (s.store.pool isIPv6).Ready isIPv6
  inverse : ∀ isIPv6, Inverse (s.storage.ofFamily isIPv6) (s.storage.domainCache isIPv6)

variable {s s' : FakeIPState MemoryStorage} {address : Addr} {domain : GoString} {isIPv6 : Bool}

theorem consistent_startMemory {inet4Range inet6Range : Prefix}
    (h4 : Configured false inet4Range) (h6 : Configured true inet6Range) :
    (startMemory inet4Range inet6Range).Consistent where
  ready isIPv6 := by
    cases isIPv6 with
    | false => exact FakeIPPool.ready_restart h4
    | true => exact FakeIPPool.ready_restart h6
  inverse isIPv6 := by
    intro a d
    cases isIPv6 <;> simp [startMemory, FakeIPRangeStore.start, ops, new, ofFamily, domainCache]

theorem Consistent.is4_nextAddress (h : s.Consistent)
    (hvalid : (s.store.pool isIPv6).current.isValid) :
    (s.store.pool isIPv6).nextAddress.is4 = !isIPv6 := by
  obtain ⟨hrange, hstart⟩ := h.ready isIPv6 hvalid
  exact hrange.is4_of_contains (FakeIPPool.contains_nextAddress hstart)

variable {c : FakeIPCall}

/-- **The step lemma.** -/
theorem Consistent.step (h : s.Consistent) (hstep : s.step ops c = some s') : s'.Consistent := by
  cases steps_of_step hstep with
  | found | missing | lookup => exact h
  | reset =>
    refine ⟨h.ready, fun isIPv6 => ?_⟩
    intro a d
    cases isIPv6 <;> simp [ops, new, ofFamily, domainCache]
  | @allocated domain isIPv6 hnone hvalid address haddr store hstore =>
    have hfamily : address.is4 = !isIPv6 := haddr ▸ h.is4_nextAddress hvalid
    subst hstore
    refine ⟨fun isIPv6' => ?_, fun isIPv6' => ?_⟩
    · by_cases hsame : isIPv6' = isIPv6
      · subst hsame
        rw [FakeIPRangeStore.pool_setCurrent_self]
        exact fun _ => h.ready isIPv6' hvalid
      · obtain rfl := Bool.eq_not.2 hsame
        rw [FakeIPRangeStore.pool_setCurrent_not]
        exact h.ready _
    · by_cases hsame : isIPv6' = isIPv6
      · subst hsame
        change Inverse ((s.storage.fakeIPStore address domain).ofFamily isIPv6')
          ((s.storage.fakeIPStore address domain).domainCache isIPv6')
        rw [ofFamily_fakeIPStore hfamily, domainCache_fakeIPStore hfamily]
        exact (h.inverse isIPv6').assign hnone
      · obtain rfl := Bool.eq_not.2 hsame
        change Inverse ((s.storage.fakeIPStore address domain).ofFamily (!isIPv6))
          ((s.storage.fakeIPStore address domain).domainCache (!isIPv6))
        rw [ofFamily_fakeIPStore_not hfamily, domainCache_fakeIPStore_not hfamily]
        exact h.inverse _

/-- **The run lemma.** -/
theorem Consistent.run {calls : List FakeIPCall} (h : s.Consistent)
    (hrun : Schedule.run (FakeIPState.step ops) s calls = some s') : s'.Consistent :=
  Schedule.run_invariant_always (fun _ _ _ hstep hs => hs.step hstep) hrun h

theorem Consistent.is4_of_addressOf (h : s.Consistent)
    (ha : s.addressOf ops domain isIPv6 = some address) :
    address.is4 = !isIPv6 := by
  have hfamily := (h.inverse isIPv6 address domain).2 ha
  rw [ofFamily] at hfamily
  split at hfamily
  · assumption
  · cases hfamily

theorem Consistent.lookup_iff (h : s.Consistent) (hfamily : address.is4 = !isIPv6) :
    s.lookup ops address = some domain ↔ s.addressOf ops domain isIPv6 = some address := by
  have hinverse := h.inverse isIPv6 address domain
  rw [ofFamily, if_pos hfamily] at hinverse
  exact hinverse

/-! ### How long an address is held -/

/-- A call that neither resets the store nor hands the address to another domain. -/
def Undisturbed (address : Addr) (domain : GoString) (s : FakeIPState MemoryStorage)
    (c : FakeIPCall) : Prop :=
  c ≠ .reset ∧ ∀ domain' isIPv6, c = .create domain' isIPv6 →
    s.create ops domain' isIPv6 = .ok address → domain' = domain

/-- A call that lets the pool of a family start again. -/
def Wraps (isIPv6 : Bool) (s : FakeIPState MemoryStorage) (c : FakeIPCall) : Prop :=
  ∃ domain, c = .create domain isIPv6 ∧ s.addressOf ops domain isIPv6 = none ∧
    (s.store.pool isIPv6).Wraps

/-- **What `Create` has returned is found.** -/
theorem Consistent.lookup_of_create (h : s.Consistent)
    (hcreate : s.create ops domain isIPv6 = .ok address)
    (hstep : s.step ops (.create domain isIPv6) = some s') :
    s'.lookup ops address = some domain ∧ s'.addressOf ops domain isIPv6 = some address := by
  have hafter : s'.addressOf ops domain isIPv6 = some address := by
    cases steps_of_step hstep with
    | found hfound =>
      rw [create, create_of_found hfound] at hcreate
      cases hcreate
      exact hfound
    | missing hnone hmissing =>
      rw [create, create_of_missing hnone hmissing] at hcreate
      cases hcreate
    | allocated hnone hvalid haddr hstore =>
      rw [create, create_of_allocated hnone hvalid, ← haddr] at hcreate
      cases hcreate
      have hfamily := h.is4_nextAddress hvalid
      rw [← haddr] at hfamily
      change (s.storage.fakeIPStore address domain).domainCache isIPv6 domain = _
      rw [domainCache_fakeIPStore hfamily, update_self]
  have hcons := h.step hstep
  exact ⟨(hcons.lookup_iff (hcons.is4_of_addressOf hafter)).2 hafter, hafter⟩

theorem lookup_step (hlookup : s.lookup ops address = some domain)
    (hstep : s.step ops c = some s') (hc : Undisturbed address domain s c) :
    s'.lookup ops address = some domain := by
  cases steps_of_step hstep with
  | found | missing | lookup => exact hlookup
  | reset => exact absurd rfl hc.1
  | @allocated domain' isIPv6 hnone hvalid address' haddr store hstore =>
    change (s.storage.fakeIPStore address' domain').addressCache address = _
    rw [addressCache_fakeIPStore]
    by_cases hsame : address = address'
    · have hcreate : s.create ops domain' isIPv6 = .ok address := by
        rw [create, create_of_allocated hnone hvalid, hsame, haddr]
      rw [hsame, update_self, hc.2 domain' isIPv6 rfl hcreate]
    · rw [update_of_ne hsame]
      exact hlookup

/-- **An address is held** until it is handed to another domain or the store is reset. -/
theorem lookup_run {calls : List FakeIPCall} (hlookup : s.lookup ops address = some domain)
    (hrun : Schedule.run (step ops) s calls = some s')
    (hcalls : Schedule.Along (step ops) (Undisturbed address domain) s calls) :
    s'.lookup ops address = some domain := by
  exact Schedule.run_invariant
    (I := fun s => s.lookup ops address = some domain)
    (fun _ _ _ hstep hc hs => lookup_step hs hstep hc) hrun hcalls hlookup

/-- **A domain is forgotten** when its address is handed to another one. -/
theorem Consistent.forgotten {domain' : GoString} (h : s.Consistent)
    (hlookup : s.lookup ops address = some domain) (hne : domain' ≠ domain)
    (hcreate : s.create ops domain' isIPv6 = .ok address)
    (hstep : s.step ops (.create domain' isIPv6) = some s') :
    s'.lookup ops address = some domain' ∧ s'.addressOf ops domain isIPv6 = none := by
  obtain ⟨hlookup', haddr'⟩ := h.lookup_of_create hcreate hstep
  refine ⟨hlookup', ?_⟩
  have hcons := h.step hstep
  have hfamily := hcons.is4_of_addressOf haddr'
  have hheld := (h.lookup_iff hfamily).1 hlookup
  cases steps_of_step hstep with
  | found hfound =>
    -- The other domain cannot have had the address already.
    rw [create, create_of_found hfound] at hcreate
    cases hcreate
    exact absurd ((h.inverse isIPv6).unique hfound hheld) hne
  | missing hnone hmissing =>
    rw [create, create_of_missing hnone hmissing] at hcreate
    cases hcreate
  | allocated hnone hvalid haddr hstore =>
    rw [create, create_of_allocated hnone hvalid, ← haddr] at hcreate
    cases hcreate
    have hold : s.storage.ofFamily isIPv6 address = some domain :=
      (h.inverse isIPv6 address domain).2 hheld
    change (s.storage.fakeIPStore address domain').domainCache isIPv6 domain = none
    rw [domainCache_fakeIPStore hfamily, update_of_ne (Ne.symm hne), hold, forget, update_self]

/-- Between two starts of a pool, addresses grow. -/
structure Passed (address : Addr) (domain : GoString) (isIPv6 : Bool)
    (s : FakeIPState MemoryStorage) : Prop where
  consistent : s.Consistent
  valid : (s.store.pool isIPv6).current.isValid
  passed : address.value ≤ (s.store.pool isIPv6).current.value
  holder : ∀ domain', s.addressOf ops domain' isIPv6 = some address →
    domain' = domain

theorem Passed.step (h : s.Passed address domain isIPv6)
    (hstep : s.step ops c = some s') (hc : ¬Wraps isIPv6 s c) :
    s'.Passed address domain isIPv6 := by
  have hcons := h.consistent.step hstep
  cases steps_of_step hstep with
  | found | missing | lookup => exact h
  | reset =>
    refine ⟨hcons, h.valid, h.passed, fun domain' hdom => ?_⟩
    cases isIPv6 <;> cases hdom
  | @allocated domain' isIPv6' hnone hvalid address' haddr store hstore =>
    have hfamily := h.consistent.is4_nextAddress hvalid
    rw [← haddr] at hfamily
    subst hstore
    by_cases hsame : isIPv6' = isIPv6
    · subst hsame
      have hnext : ¬(s.store.pool isIPv6').Wraps := fun hwraps =>
        hc ⟨domain', rfl, hnone, hwraps⟩
      obtain ⟨hnext, -, hcontains⟩ := FakeIPPool.nextAddress_of_not_wraps hnext
      have hvalue := Prefix.value_next_of_contains hvalid hcontains
      rw [← hnext, ← haddr] at hvalue hcontains
      have hpassed := h.passed
      have hne : address ≠ address' := by
        rintro rfl
        omega
      refine ⟨hcons, ?_, ?_, fun domain'' hdom => ?_⟩
      · rw [FakeIPRangeStore.pool_setCurrent_self]
        exact Prefix.isValid_of_contains hcontains
      · rw [FakeIPRangeStore.pool_setCurrent_self]
        dsimp only
        omega
      · -- The address was given to nobody in this call.
        change (s.storage.fakeIPStore address' domain').domainCache isIPv6' domain'' = _
          at hdom
        rw [domainCache_fakeIPStore hfamily] at hdom
        by_cases hd : domain'' = domain'
        · rw [hd, update_self, Option.some.injEq] at hdom
          exact absurd hdom.symm hne
        · rw [update_of_ne hd, PartialMap.forget_eq_some] at hdom
          exact h.holder domain'' hdom.1
    · obtain rfl := Bool.eq_not.2 (Ne.symm hsame)
      refine ⟨hcons, ?_, ?_, fun domain'' hdom => ?_⟩
      · rw [FakeIPRangeStore.pool_setCurrent_not]
        exact h.valid
      · rw [FakeIPRangeStore.pool_setCurrent_not]
        exact h.passed
      · change (s.storage.fakeIPStore address' domain').domainCache (!isIPv6') domain'' = _
          at hdom
        rw [domainCache_fakeIPStore_not hfamily] at hdom
        exact h.holder domain'' hdom

theorem Consistent.passed (h : s.Consistent) (hnone : s.addressOf ops domain isIPv6 = none)
    (hcreate : s.create ops domain isIPv6 = .ok address)
    (hstep : s.step ops (.create domain isIPv6) = some s') :
    s'.Passed address domain isIPv6 := by
  obtain ⟨-, haddr⟩ := h.lookup_of_create hcreate hstep
  have hcons := h.step hstep
  rcases create_eq_ok hcreate with hfound | ⟨-, hvalid, hnext⟩
  · rw [hnone] at hfound
    cases hfound
  · have hcur : (s'.store.pool isIPv6).current = address := by
      rw [FakeIPState.step, create_of_allocated hnone hvalid, Option.some.injEq] at hstep
      rw [← hstep, FakeIPRangeStore.pool_setCurrent_self, hnext]
    obtain ⟨hrange, hstart⟩ := h.ready isIPv6 hvalid
    have hcontains := FakeIPPool.contains_nextAddress hstart
    rw [← hnext] at hcontains
    refine ⟨hcons, ?_, ?_, fun domain' hdom => ?_⟩
    · rw [hcur]
      exact Prefix.isValid_of_contains hcontains
    · rw [hcur]
    · exact (hcons.inverse isIPv6).unique hdom haddr

/-- **An address is handed on only after the pool has started again.** -/
theorem Passed.wraps {domain' : GoString} {isIPv6' : Bool} (h : s.Passed address domain isIPv6)
    (hfamily : address.is4 = !isIPv6) (hne : domain' ≠ domain)
    (hcreate : s.create ops domain' isIPv6' = .ok address) :
    Wraps isIPv6 s (.create domain' isIPv6') := by
  have hsame : isIPv6' = isIPv6 := by
    obtain ⟨s', hstep⟩ : ∃ s', s.step ops (.create domain' isIPv6') = some s' := ⟨_, rfl⟩
    have hfamily' := (h.consistent.step hstep).is4_of_addressOf
      (h.consistent.lookup_of_create hcreate hstep).2
    rw [hfamily, Bool.not_inj_iff] at hfamily'
    exact hfamily'.symm
  subst hsame
  rcases create_eq_ok hcreate with hfound | ⟨hnone, hvalid, hnext⟩
  · exact absurd (h.holder domain' hfound) hne
  · refine ⟨domain', rfl, hnone, ?_⟩
    by_contra hwraps
    obtain ⟨hcur, -, hcontains⟩ := FakeIPPool.nextAddress_of_not_wraps hwraps
    have hvalue := Prefix.value_next_of_contains hvalid hcontains
    rw [← hcur, ← hnext] at hvalue
    have hpassed := h.passed
    omega

end FakeIPState

/-! ### The bijection -/

open FakeIPState

/-- **The two directions of the store are inverse to each other**, in each family and after any
calls, so that no two domains hold one address.  An address that `Create` has returned belongs to
its domain until a call hands it to another domain, which then takes the place of the first one, or
resets the store.  If the address was new, the pool has started again before that. -/
theorem fakeIP_bijection {inet4Range inet6Range : Prefix} (h4 : Configured false inet4Range)
    (h6 : Configured true inet6Range) {calls : List FakeIPCall} {s : FakeIPState MemoryStorage}
    (hrun : Schedule.run (step ops) (startMemory inet4Range inet6Range) calls = some s) :
    (∀ isIPv6 address domain, address.is4 = !isIPv6 →
      (s.lookup ops address = some domain ↔ s.addressOf ops domain isIPv6 = some address)) ∧
    (∀ isIPv6 address domain, s.addressOf ops domain isIPv6 = some address →
      address.is4 = !isIPv6 ∧
        ∀ domain', s.addressOf ops domain' isIPv6 = some address → domain' = domain) ∧
    ∀ domain isIPv6 address s₁, s.create ops domain isIPv6 = .ok address →
      s.step ops (.create domain isIPv6) = some s₁ →
      ∀ calls' s₂, Schedule.run (step ops) s₁ calls' = some s₂ →
        (Schedule.Along (step ops) (Undisturbed address domain) s₁ calls' →
          s₂.lookup ops address = some domain ∧ s₂.addressOf ops domain isIPv6 = some address) ∧
        ∀ domain' isIPv6' s₃, domain' ≠ domain → s₂.lookup ops address = some domain →
          s₂.create ops domain' isIPv6' = .ok address →
          s₂.step ops (.create domain' isIPv6') = some s₃ →
          s₃.lookup ops address = some domain' ∧ s₃.addressOf ops domain isIPv6 = none ∧
          (s.addressOf ops domain isIPv6 = none →
            Schedule.Along (step ops) (fun s c => ¬Wraps isIPv6 s c) s₁ calls' →
              Wraps isIPv6 s₂ (.create domain' isIPv6')) := by
  have hconsistent := (consistent_startMemory h4 h6).run hrun
  refine ⟨fun isIPv6 address domain hfamily => hconsistent.lookup_iff hfamily,
    fun isIPv6 address domain haddress => ⟨hconsistent.is4_of_addressOf haddress,
      fun domain' haddress' => (hconsistent.inverse isIPv6).unique haddress' haddress⟩, ?_⟩
  intro domain isIPv6 address s₁ hcreate hstep calls' s₂ hrun'
  have hconsistent₁ := hconsistent.step hstep
  have hconsistent₂ := hconsistent₁.run hrun'
  obtain ⟨hlookup₁, haddress₁⟩ := hconsistent.lookup_of_create hcreate hstep
  have hfamily := hconsistent₁.is4_of_addressOf haddress₁
  refine ⟨fun hcalls => ?_, ?_⟩
  · have hlookup₂ := lookup_run hlookup₁ hrun' hcalls
    exact ⟨hlookup₂, (hconsistent₂.lookup_iff hfamily).1 hlookup₂⟩
  · intro domain' isIPv6' s₃ hne hlookup₂ hcreate' hstep'
    obtain ⟨hlookup₃, hforgotten⟩ := hconsistent₂.forgotten hlookup₂ hne hcreate' hstep'
    obtain rfl : isIPv6' = isIPv6 := by
      have hfamily' := (hconsistent₂.step hstep').is4_of_addressOf
        (hconsistent₂.lookup_of_create hcreate' hstep').2
      rw [hfamily, Bool.not_inj_iff] at hfamily'
      exact hfamily'.symm
    refine ⟨hlookup₃, hforgotten, fun hnone hcalls => ?_⟩
    have hpassed : s₂.Passed address domain isIPv6' :=
      Schedule.run_invariant (I := fun s => s.Passed address domain isIPv6')
        (fun _ _ _ hstep hc hs => hs.step hstep hc) hrun' hcalls
        (hconsistent.passed hnone hcreate hstep)
    exact hpassed.wraps hfamily hne hcreate'

/-- `10.0.0.0/30` has one address to give. -/
def smallRange : Prefix := ⟨.v4 0x0a000000#32, 30⟩

theorem smallRange_handed_on :
    ∃ s₁ s₂, (startMemory smallRange ⟨.zero, 0⟩).step ops (.create [97] false) = some s₁ ∧
      s₁.step ops (.create [98] false) = some s₂ ∧
      s₁.lookup ops (.v4 0x0a000002#32) = some [97] ∧
      s₂.lookup ops (.v4 0x0a000002#32) = some [98] ∧ s₂.addressOf ops [97] false = none ∧
      Wraps false s₁ (.create [98] false) := by
  have h4 : Configured false smallRange := .inr ⟨⟨by decide, by decide, by decide⟩, by decide⟩
  have h6 : Configured true ⟨.zero, 0⟩ := .inl rfl
  have hrun : Schedule.run (step ops) (startMemory smallRange ⟨.zero, 0⟩) [] =
      some (startMemory smallRange ⟨.zero, 0⟩) := rfl
  obtain ⟨-, -, hheld⟩ := fakeIP_bijection h4 h6 hrun
  have hcreated := hheld [97] false (.v4 0x0a000002#32) _ rfl rfl [] _ rfl
  obtain ⟨hlookup, -⟩ := hcreated.1 trivial
  obtain ⟨hlookup', hforgotten, hwraps⟩ := hcreated.2 [98] false _ (by decide) hlookup rfl rfl
  exact ⟨_, _, rfl, rfl, hlookup, hlookup', hforgotten, hwraps rfl trivial⟩

end SingBox
