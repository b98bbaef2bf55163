/-
**FakeIP in the cache file** (`experimental/cachefile/fakeip.go`, `adapter/fakeip_metadata.go`).

With a cache file the two directions of the mapping, and the ranges that they were made for, outlive
the process.  `Start` compares the saved ranges with the configured ones and resets the storage if
they differ.  The reset deletes three buckets in one transaction, but each of the two buckets for
domains is created only with the first address of its family; deleting a bucket that does not exist
is an error, an error rolls the transaction back, and `Start` ignores it.  So the reset of a store
that has given addresses of one family only does nothing, and the next run goes on returning them.

* `FakeIPMetadata.unmarshal_marshal` — the saved form is read back;
* `FakeIPRuns.Kept.step` — the invariant: what is stored lies in the ranges that are saved;
* `fakeIP_ranges_iff` — **addresses stay in the ranges exactly if every start is safe**, and
  a reset takes effect exactly if no bucket is missing;
* `changedRange_kept` — an address of the first run is returned in the second.
-/

import SingBox.BinaryReading
import SingBox.FakeIPUsable

open ByteReader

/-! ### Addresses and prefixes in bytes -/

/-- `Addr.MarshalBinary`: the bytes of the address, then its zone. -/
def Addr.marshalBinary (a : Addr) : List UInt8 := a.asSlice ++ a.zone

/-- `Addr.UnmarshalBinary`. -/
def Addr.unmarshalBinary (bytes : List UInt8) : Except GoError Addr :=
  if bytes.length = 0 then .ok .zero
  else if bytes.length = 4 then .ok (.v4 (.ofNat 32 (ofBigEndian bytes)))
  else if bytes.length = 16 then .ok (.v6 (.ofNat 128 (ofBigEndian bytes)) [])
  else if bytes.length > 16 then
    .ok (.v6 (.ofNat 128 (ofBigEndian (bytes.take 16))) (bytes.drop 16))
  else .error (.new "unexpected slice size")

/-- `Addr.withoutZone`. -/
def Addr.withoutZone : Addr → Addr
  | .v6 bits _ => .v6 bits []
  | a => a

/-- `netip.PrefixFrom`.  A prefix whose length does not fit keeps its address but has no length; one
that is too long stands for it. -/
def Prefix.ofAddr (a : Addr) (bits : ℕ) : Prefix :=
  if a.isValid && decide (bits ≤ a.bitLen) then ⟨a.withoutZone, bits⟩
  else if a.isValid then ⟨a.withoutZone, a.bitLen + 1⟩
  else ⟨.zero, 0⟩

/-- `Prefix.MarshalBinary`. -/
def Prefix.marshalBinary (p : Prefix) : List UInt8 := p.addr.asSlice ++ [p.bitsByte]

/-- `Prefix.UnmarshalBinary`. -/
def Prefix.unmarshalBinary (bytes : List UInt8) : Except GoError Prefix :=
  match bytes.getLast? with
  | none => .error (.new "unexpected slice size")
  | some bits => do return Prefix.ofAddr (← Addr.unmarshalBinary bytes.dropLast) bits.toNat

theorem Addr.unmarshalBinary_asSlice {a : Addr} (ha : a.zone = []) :
    Addr.unmarshalBinary a.asSlice = .ok a := by
  cases a with
  | zero => rfl
  | v4 bits =>
    have hlt : bits.toNat < 256 ^ 4 := bits.isLt
    simp [Addr.asSlice, Addr.unmarshalBinary, ofBigEndian_put hlt]
  | v6 bits zone =>
    have hlt : bits.toNat < 256 ^ 16 := bits.isLt
    have hzone : zone = [] := ha
    simp [Addr.asSlice, Addr.unmarshalBinary, ofBigEndian_put hlt, hzone]

theorem Addr.unmarshal_marshal {a : Addr} (ha : a.zone = []) :
    Addr.unmarshalBinary a.marshalBinary = .ok a := by
  rw [Addr.marshalBinary, ha, List.append_nil, Addr.unmarshalBinary_asSlice ha]

theorem Addr.length_asSlice_le (a : Addr) : a.asSlice.length ≤ 16 := by
  cases a <;> simp [Addr.asSlice]

theorem Prefix.unmarshal_marshal {p : Prefix} (hp : p.Canonical) :
    Prefix.unmarshalBinary p.marshalBinary = .ok p := by
  have hzone : p.addr.zone = [] := by
    rcases hp with rfl | hp
    · rfl
    · exact hp.2
  rw [Prefix.unmarshalBinary, Prefix.marshalBinary, List.getLast?_concat, List.dropLast_concat,
    Addr.unmarshalBinary_asSlice hzone]
  rcases hp with rfl | ⟨hvalid, -⟩
  · rfl
  · have hbits : p.bitsByte.toNat = p.bits := by
      have hfits := hvalid
      rw [Prefix.isValid, Bool.and_eq_true, decide_eq_true_iff] at hfits
      have hlen : p.addr.bitLen ≤ 128 := by cases p.addr <;> simp [Addr.bitLen]
      rw [Prefix.bitsByte, if_pos hvalid, UInt8.toNat_ofNat']
      omega
    change Except.ok (Prefix.ofAddr p.addr p.bitsByte.toNat) = _
    rw [Prefix.isValid] at hvalid
    rw [hbits, Prefix.ofAddr, if_pos hvalid]
    obtain ⟨addr, bits⟩ := p
    cases addr with
    | zero => rfl
    | v4 b => rfl
    | v6 b z =>
      have hz : z = [] := hzone
      rw [hz]
      rfl

theorem Addr.zone_next {a : Addr} (ha : a.zone = []) : a.next.zone = [] := by
  cases a with
  | zero => rfl
  | v4 b =>
    rw [Addr.next]
    split <;> rfl
  | v6 b z =>
    rw [Addr.next]
    split
    · rfl
    · exact ha

namespace SingBox

open FakeIPPool List Option Function GoString

/-! ### Metadata -/

/-- How reading metadata ends if it does not succeed: `common.Must` panics. -/
inductive MetadataFailure where
  | panicked
  | err (e : GoError)

variable {m : FakeIPMetadata}

namespace FakeIPMetadata

/-- An element of the saved form, after its length as a `uint16`. -/
def putElement (data : List UInt8) : List UInt8 := putBigEndian 2 (data.length % 65536) ++ data

/-- `MarshalBinary`. -/
def marshalBinary (m : FakeIPMetadata) : List UInt8 :=
  putElement m.inet4Range.marshalBinary ++ (putElement m.inet6Range.marshalBinary ++
    (putElement m.inet4Current.marshalBinary ++ putElement m.inet6Current.marshalBinary))

/-- The bytes of the next element. -/
def readElement : ByteReader MetadataFailure (List UInt8) := do
  let length ← readFull ⟨.panicked, .panicked, .panicked⟩ 2
  readFull ⟨.err ioErrors.eof, .err ioErrors.unexpectedEOF, .err ioErrors.overflow⟩
    (ofBigEndian length)

/-- The next element, as `unmarshal` reads it. -/
def readAs {α : Type} (unmarshal : List UInt8 → Except GoError α) :
    ByteReader MetadataFailure α := do
  match unmarshal (← readElement) with
  | .ok value => pure value
  | .error e => throw (.err e)

/-- The reader of `UnmarshalBinary`. -/
def readMetadata : ByteReader MetadataFailure FakeIPMetadata := do
  let inet4Range ← readAs Prefix.unmarshalBinary
  let inet6Range ← readAs Prefix.unmarshalBinary
  let inet4Current ← readAs Addr.unmarshalBinary
  let inet6Current ← readAs Addr.unmarshalBinary
  return { inet4Range, inet6Range, inet4Current, inet6Current }

/-- `UnmarshalBinary`. -/
def unmarshalBinary (data : List UInt8) : Except MetadataFailure FakeIPMetadata :=
  (readMetadata data).map Prod.fst

theorem reads_element {data : List UInt8} (h : data.length < 65536) :
    Reads readElement (putElement data) data := by
  have hlen : ofBigEndian (putBigEndian 2 (data.length % 65536)) = data.length := by
    rw [Nat.mod_eq_of_lt h, ofBigEndian_put h]
  have hfull := reads_full (⟨.panicked, .panicked, .panicked⟩ : Errors MetadataFailure)
    (putBigEndian 2 (data.length % 65536))
  rw [length_putBigEndian] at hfull
  refine hfull.bind ?_
  rw [hlen]
  exact reads_full _ data

theorem reads_as {α : Type} {unmarshal : List UInt8 → Except GoError α} {data : List UInt8}
    {value : α} (h : data.length < 65536) (hvalue : unmarshal data = .ok value) :
    Reads (readAs unmarshal) (putElement data) value := by
  refine (reads_element h).bind_nil ?_
  rw [hvalue]
  exact reads_pure value

theorem marshalBinary_ne_nil (m : FakeIPMetadata) : m.marshalBinary ≠ [] := by
  intro h
  have hlen := congrArg List.length h
  simp only [marshalBinary, putElement, length_append, length_putBigEndian, length_nil] at hlen
  omega

/-- Metadata about ranges that options can name, with addresses that have no zone. -/
structure Plain (m : FakeIPMetadata) : Prop where
  inet4Range : m.inet4Range.Canonical
  inet6Range : m.inet6Range.Canonical
  inet4Current : m.inet4Current.zone = []
  inet6Current : m.inet6Current.zone = []

/-- **The saved form is read back.** -/
theorem unmarshal_marshal (h : m.Plain) : unmarshalBinary m.marshalBinary = .ok m := by
  have hranges : ∀ p : Prefix, p.marshalBinary.length < 65536 := by
    intro p
    have hle := p.addr.length_asSlice_le
    rw [Prefix.marshalBinary, length_append, length_singleton]
    omega
  have haddr : ∀ a : Addr, a.zone = [] → a.marshalBinary.length < 65536 := by
    intro a ha
    have hle := a.length_asSlice_le
    rw [Addr.marshalBinary, ha, append_nil]
    omega
  have hreads : Reads readMetadata m.marshalBinary m :=
    (reads_as (hranges _) (Prefix.unmarshal_marshal h.inet4Range)).bind <|
      (reads_as (hranges _) (Prefix.unmarshal_marshal h.inet6Range)).bind <|
        (reads_as (haddr _ h.inet4Current)
          (Addr.unmarshal_marshal h.inet4Current)).bind <|
          (reads_as (haddr _ h.inet6Current)
            (Addr.unmarshal_marshal h.inet6Current)).bind_nil (reads_pure _)
  have hnil := hreads []
  rw [append_nil] at hnil
  rw [unmarshalBinary, hnil]
  rfl

end FakeIPMetadata

/-! ### The database -/

/-- A bucket of `bbolt`, without nested ones. -/
abbrev Bucket : Type := GoString → Option GoString

namespace Bucket

/-- `Bucket.Put`, with the limits that `bbolt` has for keys and values. -/
def put (b : Bucket) (key value : GoString) : Except GoError Bucket :=
  if key.length = 0 then .error (.new "key required")
  else if key.length > 32768 then .error (.new "key too large")
  else if value.length > 2147483646 then .error (.new "value too large")
  else .ok (Function.update b key (some value))

/-- `Bucket.Delete`. -/
def delete (b : Bucket) (key : GoString) : Bucket := Function.update b key none

theorem put_eq_ok {b b' : Bucket} {key value : GoString} (h : b.put key value = .ok b') :
    b' = Function.update b key (some value) := by
  rw [put, iteError_eq_ok, iteError_eq_ok, iteError_eq_ok] at h
  obtain ⟨-, -, -, h⟩ := h
  cases h
  rfl

end Bucket

/-- The buckets of the database that FakeIP uses. -/
structure FakeIPDB where
  (address domain4 domain6 : Option Bucket)

/-- `keyMetadata`. -/
def keyMetadata : GoString := "fakeip_metadata"

/-- `DeleteBucket`. -/
def deleteBucket : Option Bucket → Except GoError (Option Bucket)
  | none => .error (.new "bucket not found")
  | some _ => .ok none

namespace FakeIPDB

/-- A new file. -/
def empty : FakeIPDB := ⟨none, none, none⟩

/-- `Batch`: a transaction that fails is rolled back. -/
def batch (tx : FakeIPDB → Except GoError FakeIPDB) (db : FakeIPDB) : FakeIPDB :=
  match tx db with
  | .ok db' => db'
  | .error _ => db

/-- The bucket for the domains of a family. -/
def domain (db : FakeIPDB) : Bool → Option Bucket
  | false => db.domain4
  | true => db.domain6

def setDomain (db : FakeIPDB) (bucket : Bucket) : Bool → FakeIPDB
  | false => { db with domain4 := some bucket }
  | true => { db with domain6 := some bucket }

/-- The transaction of `FakeIPSaveMetadata`. -/
def saveMetadata (metadata : FakeIPMetadata) (db : FakeIPDB) : Except GoError FakeIPDB := do
  let bucket ← (db.address.getD fun _ => none).put keyMetadata metadata.marshalBinary
  return { db with address := some bucket }

/-- The transaction of `FakeIPStore`. -/
def store (address : Addr) (domain : GoString) (db : FakeIPDB) : Except GoError FakeIPDB := do
  let bucket : Bucket := db.address.getD fun _ => none
  let oldDomain := bucket address.asSlice
  let addresses ← bucket.put address.asSlice domain
  let db := { db with address := some addresses }
  let bucket : Bucket := (db.domain !address.is4).getD fun _ => none
  -- the domain that had the address is deleted, if there was one
  let domains ← Bucket.put (PartialMap.forget bucket oldDomain) domain address.asSlice
  return db.setDomain domains !address.is4

/-- The transaction of `FakeIPReset`. -/
def reset (db : FakeIPDB) : Except GoError FakeIPDB := do
  let address ← deleteBucket db.address
  let domain4 ← deleteBucket db.domain4
  let domain6 ← deleteBucket db.domain6
  return ⟨address, domain4, domain6⟩

/-- `FakeIPMetadata`: the metadata are taken out.  Data that cannot be read stay, unless they are so
short that the panic makes `resetDB` delete the whole file. -/
def takeMetadata (db : FakeIPDB) : Option FakeIPMetadata × FakeIPDB :=
  match db.address with
  | none => (none, db)
  | some bucket =>
    match bucket keyMetadata with
    | none => (none, db)
    | some [] => (none, db)
    | some (b :: bytes) =>
      match FakeIPMetadata.unmarshalBinary (b :: bytes) with
      | .ok metadata => (some metadata, { db with address := some (bucket.delete keyMetadata) })
      | .error (.err _) => (none, db)
      | .error .panicked => (none, empty)

/-- `FakeIPLoad`. -/
def load (address : Addr) (db : FakeIPDB) : Option GoString :=
  match db.address.bind (· address.asSlice) with
  | some (b :: domain) => some (b :: domain)
  | _ => none

/-- `FakeIPLoadDomain`. -/
def loadDomain (domain : GoString) (isIPv6 : Bool) (db : FakeIPDB) : Option Addr :=
  let address := Addr.fromSlice (((db.domain isIPv6).bind (· domain)).getD [])
  if address.isValid then some address else none

end FakeIPDB

/-! ### The cache file as a storage -/

/-- The parts of `CacheFile` that FakeIP uses: the database, and the metadata for which the timer of
`FakeIPSaveMetadataAsync` is running.  `FakeIPStoreAsync` has no caller, so the maps that it fills
stay empty. -/
structure FakeIPCache where
  db : FakeIPDB
  pending : Option FakeIPMetadata

namespace FakeIPCache

/-- `CacheFile` as a `FakeIPStorage`. -/
def ops : FakeIPStorage FakeIPCache where
  metadata c := (c.db.takeMetadata.1, { c with db := c.db.takeMetadata.2 })
  saveMetadata metadata c := { c with db := c.db.batch (FakeIPDB.saveMetadata metadata) }
  saveMetadataAsync metadata c := { c with pending := some metadata }
  store address domain c := { c with db := c.db.batch (FakeIPDB.store address domain) }
  load address c := c.db.load address
  loadDomain domain isIPv6 c := c.db.loadDomain domain isIPv6
  reset c := { c with db := c.db.batch FakeIPDB.reset }

end FakeIPCache

/-! ### Runs -/

/-- What happens to the store and its file: a process starts with its ranges, the store is called,
the timer fires, and the store is closed.  A process that ends without closing the store is followed
by the next start. -/
inductive FakeIPEvent where
  | start (inet4Range inet6Range : Prefix)
  | call (c : FakeIPCall)
  | timer
  | close

/-- The store of the running process and the file. -/
structure FakeIPRuns where
  store : Option FakeIPRangeStore
  cache : FakeIPCache

namespace FakeIPRuns

open FakeIPCache (ops)

/-- No process has used the file. -/
def initial : FakeIPRuns := ⟨none, ⟨.empty, none⟩⟩

/-- `NewStore` and `Start`, in a new process. -/
def start (s : FakeIPRuns) (inet4Range inet6Range : Prefix) : FakeIPRuns :=
  let started :=
    (FakeIPRangeStore.new inet4Range inet6Range).start ops { s.cache with pending := none }
  ⟨some started.1, started.2⟩

def step (s : FakeIPRuns) : FakeIPEvent → Option FakeIPRuns
  | .start inet4Range inet6Range => some (s.start inet4Range inet6Range)
  | .call c =>
    match s.store with
    | none => none
    | some store =>
      (FakeIPState.step ops ⟨store, s.cache⟩ c).map fun t => ⟨some t.store, t.storage⟩
  | .timer =>
    match s.cache.pending with
    | none => none
    | some metadata =>
      some { s with cache := { ops.saveMetadata metadata s.cache with pending := none } }
  | .close =>
    match s.store with
    | none => none
    | some store => some ⟨none, ops.saveMetadata store.metadata s.cache⟩

/-- Every address that `Create` can return now lies in the range of the current run. -/
def InRange (s : FakeIPRuns) : Prop :=
  ∀ store, s.store = some store → ∀ domain isIPv6 address,
    FakeIPState.create ops ⟨store, s.cache⟩ domain isIPv6 = .ok address →
      (store.pool isIPv6).range.contains address

end FakeIPRuns

/-! ### What transactions do -/

namespace FakeIPDB

/-- The metadata that are saved. -/
def metadataBytes (db : FakeIPDB) : Option GoString := db.address.bind (· keyMetadata)

/-- Neither direction finds anything. -/
def Forgotten (db : FakeIPDB) : Prop :=
  (∀ address, db.load address = none) ∧ ∀ domain isIPv6, db.loadDomain domain isIPv6 = none

/-- All buckets exist. -/
def Complete (db : FakeIPDB) : Prop :=
  db.address.isSome ∧ db.domain4.isSome ∧ db.domain6.isSome

/-- A reset takes effect: all buckets exist, or there is nothing to forget. -/
def Resettable (db : FakeIPDB) : Prop := db.Complete ∨ db.Forgotten

variable {db db' : FakeIPDB} {address : Addr} {domain : GoString} {isIPv6 : Bool}

theorem batch_cases (tx : FakeIPDB → Except GoError FakeIPDB) :
    tx db = .ok (db.batch tx) ∨ db.batch tx = db := by
  rw [batch]
  cases tx db with
  | ok db' => exact .inl rfl
  | error e => exact .inr rfl

theorem forgotten_empty : empty.Forgotten := by
  refine ⟨fun _ => rfl, fun domain isIPv6 => ?_⟩
  cases isIPv6 <;> rfl

theorem batch_reset_of_complete (h : db.Complete) : db.batch reset = empty := by
  obtain ⟨address, domain4, domain6⟩ := db
  obtain ⟨h, h4, h6⟩ := h
  obtain ⟨a, rfl⟩ := Option.isSome_iff_exists.1 h
  obtain ⟨d4, rfl⟩ := Option.isSome_iff_exists.1 h4
  obtain ⟨d6, rfl⟩ := Option.isSome_iff_exists.1 h6
  rfl

/-- **A reset does nothing if a bucket is missing.** -/
theorem batch_reset_of_not_complete (h : ¬db.Complete) : db.batch reset = db := by
  obtain ⟨address, domain4, domain6⟩ := db
  rw [batch, reset]
  cases address with
  | none => rfl
  | some a =>
    cases domain4 with
    | none => rfl
    | some d4 =>
      cases domain6 with
      | none => rfl
      | some d6 => exact absurd ⟨rfl, rfl, rfl⟩ h

/-- **When a reset takes effect.** -/
theorem forgotten_batch_reset_iff : (db.batch reset).Forgotten ↔ db.Resettable := by
  by_cases h : db.Complete
  · rw [batch_reset_of_complete h]
    exact iff_of_true forgotten_empty (.inl h)
  · rw [batch_reset_of_not_complete h]
    exact (or_iff_right h).symm

theorem address_setDomain (bucket : Bucket) :
    (db.setDomain bucket isIPv6).address = db.address := by
  cases isIPv6 <;> rfl

theorem domain_setDomain (bucket : Bucket) (isIPv6' : Bool) :
    (db.setDomain bucket isIPv6).domain isIPv6' =
      if isIPv6' = isIPv6 then some bucket else db.domain isIPv6' := by
  cases isIPv6 <;> cases isIPv6' <;> rfl

theorem getD_apply (bucket : Option Bucket) (key : GoString) :
    bucket.getD (fun _ => none) key = bucket.bind (· key) := by
  cases bucket <;> rfl

theorem loadDomain_eq_some :
    db.loadDomain domain isIPv6 = some address ↔
      ∃ bytes, (db.domain isIPv6).bind (· domain) = some bytes ∧
        Addr.fromSlice bytes = address ∧ address.isValid := by
  rw [loadDomain]
  cases (db.domain isIPv6).bind (· domain) with
  | none =>
    refine iff_of_false (by simp [Addr.fromSlice, Addr.isValid]) ?_
    rintro ⟨bytes, hbytes, -⟩
    cases hbytes
  | some bytes =>
    rw [getD_some, ite_none_right_eq_some, some.injEq]
    constructor
    · rintro ⟨hvalid, rfl⟩
      exact ⟨bytes, rfl, rfl, hvalid⟩
    · rintro ⟨bytes', hbytes, rfl, hvalid⟩
      cases hbytes
      exact ⟨hvalid, rfl⟩

theorem keyMetadata_ne_asSlice (h : address.isValid) : keyMetadata ≠ address.asSlice := by
  intro heq
  have hlen := Addr.length_asSlice h
  rw [← heq] at hlen
  revert hlen
  decide

theorem store_eq_ok (h : db.store address domain = .ok db') :
    db'.address = some (Function.update (db.address.getD fun _ => none) address.asSlice
        (some domain)) ∧
      ∀ isIPv6, db'.domain isIPv6 =
        if isIPv6 = !address.is4 then
          some (Function.update (PartialMap.forget ((db.domain isIPv6).getD fun _ => none)
            (db.address.getD (fun _ => none) address.asSlice)) domain (some address.asSlice))
        else db.domain isIPv6 := by
  simp only [store, exceptBind_eq_ok] at h
  obtain ⟨addresses, haddresses, domains, hdomains, hdb'⟩ := h
  cases hdb'
  rw [Bucket.put_eq_ok haddresses] at hdomains ⊢
  rw [Bucket.put_eq_ok hdomains]
  refine ⟨address_setDomain _, fun isIPv6 => ?_⟩
  rw [domain_setDomain]
  by_cases hfam : isIPv6 = !address.is4
  · subst hfam
    cases address.is4 <;> rfl
  · rw [if_neg hfam, if_neg hfam]
    cases isIPv6 <;> rfl

/-- **What storing an address can change**: its domain is found with it, in its family. -/
theorem loadDomain_store {domain' : GoString} {a : Addr} (haddr : address.Plain)
    (hstore : db.store address domain = .ok db') (hfound : db'.loadDomain domain' isIPv6 = some a) :
    a = address ∧ isIPv6 = !address.is4 ∨ db.loadDomain domain' isIPv6 = some a := by
  obtain ⟨-, hdom⟩ := store_eq_ok hstore
  rw [loadDomain_eq_some, hdom isIPv6] at hfound
  obtain ⟨bytes, hbytes, hslice, hvalid⟩ := hfound
  by_cases hfam : isIPv6 = !address.is4
  · rw [if_pos hfam, bind_some] at hbytes
    by_cases hsame : domain' = domain
    · rw [hsame, update_self, some.injEq] at hbytes
      rw [← hbytes, Addr.fromSlice_asSlice haddr] at hslice
      exact .inl ⟨hslice.symm, hfam⟩
    · rw [update_of_ne hsame, PartialMap.forget_eq_some, getD_apply] at hbytes
      exact .inr (loadDomain_eq_some.2 ⟨bytes, hbytes.1, hslice, hvalid⟩)
  · rw [if_neg hfam] at hbytes
    exact .inr (loadDomain_eq_some.2 ⟨bytes, hbytes, hslice, hvalid⟩)

theorem metadataBytes_store (haddr : address.isValid)
    (hstore : db.store address domain = .ok db') : db'.metadataBytes = db.metadataBytes := by
  rw [metadataBytes, (store_eq_ok hstore).1, bind_some,
    update_of_ne (keyMetadata_ne_asSlice haddr), getD_apply, metadataBytes]

theorem saveMetadata_eq_ok {metadata : FakeIPMetadata} (h : db.saveMetadata metadata = .ok db') :
    db'.metadataBytes = some metadata.marshalBinary ∧
      ∀ isIPv6, db'.domain isIPv6 = db.domain isIPv6 := by
  simp only [saveMetadata, exceptBind_eq_ok] at h
  obtain ⟨bucket, hbucket, hdb'⟩ := h
  cases hdb'
  rw [Bucket.put_eq_ok hbucket]
  refine ⟨?_, fun isIPv6 => ?_⟩
  · rw [metadataBytes, bind_some, update_self]
  · cases isIPv6 <;> rfl

end FakeIPDB

/-! ### The invariant -/

/-- The range of a family. -/
def FakeIPMetadata.range (m : FakeIPMetadata) : Bool → Prefix :=
  familyRange m.inet4Range m.inet6Range

/-- The address that a family has come to. -/
def FakeIPMetadata.current (m : FakeIPMetadata) : Bool → Addr
  | false => m.inet4Current
  | true => m.inet6Current

/-- A family as options configure it: a pool that gives addresses starts inside of its range. -/
structure FamilyKept (isIPv6 : Bool) (range : Prefix) (current : Addr) : Prop where
  canonical : range.Canonical
  ready : current.isValid →
    FakeIPRange isIPv6 range ∧ range.contains range.addr.next.next
  zone : current.zone = []

/-- Metadata that belong to the ranges. -/
structure FakeIPMetadata.Kept (range : Bool → Prefix) (m : FakeIPMetadata) : Prop where
  range_eq : m.range = range
  family : ∀ isIPv6, FamilyKept isIPv6 (m.range isIPv6) (m.current isIPv6)

theorem FakeIPMetadata.Kept.plain {range : Bool → Prefix} (h : m.Kept range) : m.Plain where
  inet4Range := (h.family false).canonical
  inet6Range := (h.family true).canonical
  inet4Current := (h.family false).zone
  inet6Current := (h.family true).zone

/-- What is stored lies in the ranges, and the saved metadata name them. -/
structure FakeIPDB.Kept (range : Bool → Prefix) (db : FakeIPDB) : Prop where
  held : ∀ domain isIPv6 address, db.loadDomain domain isIPv6 = some address →
    (range isIPv6).contains address
  saved : ∀ bytes, db.metadataBytes = some bytes →
    ∃ m : FakeIPMetadata, m.Kept range ∧ bytes = m.marshalBinary

namespace FakeIPDB

variable {range : Bool → Prefix} {db : FakeIPDB}

theorem Kept.empty (range : Bool → Prefix) : FakeIPDB.empty.Kept range where
  held domain isIPv6 address h := by
    rw [forgotten_empty.2] at h
    cases h
  saved bytes h := by cases h

theorem Kept.store {address : Addr} {domain : GoString} {isIPv6 : Bool} (h : db.Kept range)
    (hplain : address.Plain) (hfam : address.is4 = !isIPv6)
    (hcontains : (range isIPv6).contains address) :
    (db.batch (FakeIPDB.store address domain)).Kept range := by
  rcases batch_cases (FakeIPDB.store address domain) with hok | hsame
  · refine ⟨fun domain' isIPv6' a hfound => ?_, fun bytes hbytes => ?_⟩
    · rcases loadDomain_store hplain hok hfound with ⟨rfl, hfam'⟩ | hfound
      · rw [hfam, Bool.not_not] at hfam'
        rw [hfam']
        exact hcontains
      · exact h.held domain' isIPv6' a hfound
    · rw [metadataBytes_store hplain.1 hok] at hbytes
      exact h.saved bytes hbytes
  · rw [hsame]
    exact h

theorem Kept.saveMetadata (h : db.Kept range) (hm : m.Kept range) :
    (db.batch (FakeIPDB.saveMetadata m)).Kept range := by
  rcases batch_cases (FakeIPDB.saveMetadata m) with hok | hsame
  · obtain ⟨hmetadata, hdom⟩ := saveMetadata_eq_ok hok
    refine ⟨fun domain isIPv6 a hfound => ?_, fun bytes hbytes => ?_⟩
    · rw [loadDomain, hdom] at hfound
      exact h.held domain isIPv6 a hfound
    · rw [hmetadata, some.injEq] at hbytes
      exact ⟨m, hm, hbytes.symm⟩
  · rw [hsame]
    exact h

theorem Kept.reset (h : db.Kept range) : (db.batch FakeIPDB.reset).Kept range := by
  by_cases hcomplete : db.Complete
  · rw [batch_reset_of_complete hcomplete]
    exact Kept.empty range
  · rw [batch_reset_of_not_complete hcomplete]
    exact h

/-- **Taking the metadata out**: they are read back, and nothing else changes. -/
theorem Kept.takeMetadata (h : db.Kept range) :
    (∀ m, db.takeMetadata.1 = some m → m.Kept range) ∧
      (∀ isIPv6, db.takeMetadata.2.domain isIPv6 = db.domain isIPv6) ∧
      (db.takeMetadata.2.Complete ↔ db.Complete) ∧ db.takeMetadata.2.metadataBytes = none := by
  rw [FakeIPDB.takeMetadata]
  split
  · rename_i haddr
    refine ⟨fun _ => nofun, fun _ => rfl, Iff.rfl, ?_⟩
    rw [metadataBytes, haddr]
    rfl
  · rename_i bucket haddr
    have hbytes : db.metadataBytes = bucket keyMetadata := by
      rw [metadataBytes, haddr, bind_some]
    split
    · rename_i hnone
      exact ⟨fun _ => nofun, fun _ => rfl, Iff.rfl, hbytes.trans hnone⟩
    · rename_i hnil
      obtain ⟨m, -, hmarshal⟩ := h.saved [] (hbytes.trans hnil)
      exact absurd hmarshal.symm m.marshalBinary_ne_nil
    · rename_i b bytes hcons
      obtain ⟨m, hm, hmarshal⟩ := h.saved (b :: bytes) (hbytes.trans hcons)
      rw [hmarshal, FakeIPMetadata.unmarshal_marshal hm.plain]
      refine ⟨fun m' hm' => ?_, fun isIPv6 => ?_, ?_, ?_⟩
      · cases hm'
        exact hm
      · cases isIPv6 <;> rfl
      · rw [Complete, Complete, haddr]
        rfl
      · rw [metadataBytes, bind_some, Bucket.delete, update_self]

end FakeIPDB

open FakeIPDB

namespace FakeIPRuns

open FakeIPCache (ops)

/-- **The invariant.** -/
structure Kept (range : Bool → Prefix) (s : FakeIPRuns) : Prop where
  db : s.cache.db.Kept range
  pending : ∀ m, s.cache.pending = some m → m.Kept range
  store : ∀ store, s.store = some store → store.metadata.Kept range

theorem forall_none_eq_some {α : Type} {P : α → Prop} (a : α) (h : none = some a) : P a := by
  cases h

theorem kept_initial (range : Bool → Prefix) : initial.Kept range where
  db := Kept.empty range
  pending := forall_none_eq_some
  store := forall_none_eq_some

theorem range_metadata (store : FakeIPRangeStore) (isIPv6 : Bool) :
    store.metadata.range isIPv6 = (store.pool isIPv6).range := by
  cases isIPv6 <;> rfl

theorem current_metadata (store : FakeIPRangeStore) (isIPv6 : Bool) :
    store.metadata.current isIPv6 = (store.pool isIPv6).current := by
  cases isIPv6 <;> rfl

variable {range : Bool → Prefix} {s s' : FakeIPRuns} {store : FakeIPRangeStore} {isIPv6 : Bool}

theorem contains_nextAddress_of_kept
    (h : store.metadata.Kept range) (hvalid : (store.pool isIPv6).current.isValid) :
    FakeIPRange isIPv6 (range isIPv6) ∧
      (range isIPv6).contains (store.pool isIPv6).nextAddress := by
  have hfam := h.family isIPv6
  rw [range_metadata, current_metadata] at hfam
  have hrange := congrFun h.range_eq isIPv6
  rw [range_metadata] at hrange
  obtain ⟨hfake, hstart⟩ := hfam.ready hvalid
  rw [← hrange]
  exact ⟨hfake, contains_nextAddress hstart⟩

/-- **Stored and new addresses lie in the range of the run.** -/
theorem Kept.inRange (h : s.Kept range) : s.InRange := by
  intro store hstore domain isIPv6 address hcreate
  have hmetadata := h.store store hstore
  rw [← range_metadata, hmetadata.range_eq]
  rcases FakeIPState.create_eq_ok hcreate with hfound | ⟨-, hvalid, hnext⟩
  · exact h.db.held domain isIPv6 address hfound
  · rw [hnext]
    exact (contains_nextAddress_of_kept hmetadata hvalid).2

theorem kept_setCurrent {address : Addr}
    (h : store.metadata.Kept range) (hvalid : (store.pool isIPv6).current.isValid)
    (hzone : address.zone = []) : (store.setCurrent address isIPv6).metadata.Kept range := by
  have hranges : (store.setCurrent address isIPv6).metadata.range = store.metadata.range := by
    cases isIPv6 <;> rfl
  refine ⟨hranges.trans h.range_eq, fun isIPv6' => ?_⟩
  have hfam := h.family isIPv6'
  rw [hranges, current_metadata]
  by_cases hsame : isIPv6' = isIPv6
  · subst hsame
    rw [FakeIPRangeStore.pool_setCurrent_self]
    rw [current_metadata] at hfam
    exact ⟨hfam.canonical, fun _ => hfam.ready hvalid, hzone⟩
  · obtain rfl := Bool.eq_not.2 hsame
    rw [FakeIPRangeStore.pool_setCurrent_not, ← current_metadata]
    exact hfam

theorem Kept.call {c : FakeIPCall} {t : FakeIPState FakeIPCache} (h : s.Kept range)
    (hstore : s.store = some store) (hstep : FakeIPState.step ops ⟨store, s.cache⟩ c = some t) :
    Kept range ⟨some t.store, t.storage⟩ := by
  have hmetadata := h.store store hstore
  have hunchanged : Kept range ⟨some store, s.cache⟩ :=
    ⟨h.db, h.pending, fun _ hsome => some.inj hsome ▸ hmetadata⟩
  cases FakeIPState.steps_of_step hstep with
  | found | missing | lookup => exact hunchanged
  | reset => exact { hunchanged with db := h.db.reset }
  | @allocated domain isIPv6 hnone hvalid address haddr store' hstore' =>
    obtain ⟨hrange, hcontains⟩ := contains_nextAddress_of_kept hmetadata hvalid
    rw [← haddr] at hcontains
    have hzone := (hrange.contains_iff_value.1 hcontains).1
    have hplain : address.Plain := ⟨Prefix.isValid_of_contains hcontains, hzone⟩
    have hmoved : store'.metadata.Kept range := by
      rw [hstore']
      exact kept_setCurrent hmetadata hvalid hzone
    exact ⟨h.db.store hplain (hrange.is4_of_contains hcontains) hcontains,
      fun _ hsome => some.inj hsome ▸ hmoved,
      fun _ hsome => some.inj hsome ▸ hmoved⟩

/-! ### Starts -/

/-- A range as options give it: none, or one of the family in which the pool starts inside. -/
def RangeConfigured (isIPv6 : Bool) (range : Prefix) : Prop :=
  range = ⟨.zero, 0⟩ ∨ FakeIPRange isIPv6 range ∧ range.contains range.addr.next.next

/-- The saved metadata name these ranges. -/
def Matches (inet4Range inet6Range : Prefix) (db : FakeIPDB) : Prop :=
  ∃ m, db.takeMetadata.1 = some m ∧ m.inet4Range = inet4Range ∧ m.inet6Range = inet6Range

/-- **When a start is safe**: the saved metadata name the configured ranges, or a reset takes
effect, or all stored addresses lie in the configured ranges anyway. -/
def StartSafe (s : FakeIPRuns) : FakeIPEvent → Prop
  | .start inet4Range inet6Range =>
    Matches inet4Range inet6Range s.cache.db ∨ s.cache.db.Resettable ∨
      ∀ domain isIPv6 address, s.cache.db.loadDomain domain isIPv6 = some address →
        (familyRange inet4Range inet6Range isIPv6).contains address
  | _ => True

theorem RangeConfigured.family {range : Prefix} (h : RangeConfigured isIPv6 range) :
    FamilyKept isIPv6 range (new range).restart.current := by
  rcases h with rfl | ⟨hrange, hstart⟩
  · exact ⟨.inl rfl, nofun, rfl⟩
  · have hcur : (new range).restart.current = range.addr.next := by
      have hpool : (new range).restart =
          { new range with current := range.addr.next } := if_pos hrange.valid
      rw [hpool]
    rw [hcur]
    exact ⟨.inr ⟨hrange.valid, hrange.zone⟩, fun _ => ⟨hrange, hstart⟩, Addr.zone_next hrange.zone⟩

variable {inet4Range inet6Range : Prefix}

theorem kept_restart (h4 : RangeConfigured false inet4Range)
    (h6 : RangeConfigured true inet6Range) :
    (FakeIPRangeStore.mk (new inet4Range).restart
      (new inet6Range).restart).metadata.Kept (familyRange inet4Range inet6Range) := by
  refine ⟨?_, fun isIPv6 => ?_⟩
  · rw [FakeIPMetadata.range, FakeIPRangeStore.metadata, range_restart, range_restart]
    rfl
  · rw [range_metadata, current_metadata]
    cases isIPv6 with
    | false =>
      change FamilyKept false (new inet4Range).restart.range _
      rw [range_restart]
      exact h4.family
    | true =>
      change FamilyKept true (new inet6Range).restart.range _
      rw [range_restart]
      exact h6.family

theorem start_of_matches (hm : s.cache.db.takeMetadata.1 = some m)
    (h4 : m.inet4Range = inet4Range) (h6 : m.inet6Range = inet6Range) :
    s.start inet4Range inet6Range =
      ⟨some ⟨{ new inet4Range with current := m.inet4Current },
        { new inet6Range with current := m.inet6Current }⟩,
        ⟨s.cache.db.takeMetadata.2, none⟩⟩ := by
  rw [start, FakeIPRangeStore.start]
  dsimp only [ops]
  rw [hm]
  dsimp only
  rw [if_pos ⟨h4, h6⟩]
  rfl

theorem start_of_not_matches (h : ¬Matches inet4Range inet6Range s.cache.db) :
    s.start inet4Range inet6Range =
      ⟨some ⟨(new inet4Range).restart, (new inet6Range).restart⟩,
        ⟨s.cache.db.takeMetadata.2.batch reset, none⟩⟩ := by
  rw [start, FakeIPRangeStore.start]
  dsimp only [ops]
  cases hm : s.cache.db.takeMetadata.1 with
  | none => rfl
  | some m =>
    dsimp only
    rw [if_neg fun hboth => h ⟨m, hm, hboth.1, hboth.2⟩]
    rfl

theorem Kept.start_of_matches (h : s.Kept range)
    (hmatches : Matches inet4Range inet6Range s.cache.db) :
    (s.start inet4Range inet6Range).Kept (familyRange inet4Range inet6Range) := by
  obtain ⟨hread, hdom, -, hbytes⟩ := h.db.takeMetadata
  obtain ⟨m, hm, h4, h6⟩ := hmatches
  have hkept := hread m hm
  have hrange : range = familyRange inet4Range inet6Range := by
    rw [← hkept.range_eq, FakeIPMetadata.range, h4, h6]
  rw [FakeIPRuns.start_of_matches hm h4 h6, ← hrange]
  refine ⟨⟨fun domain isIPv6 address hfound => ?_, fun bytes hsome => ?_⟩, forall_none_eq_some, ?_⟩
  · rw [loadDomain, hdom] at hfound
    exact h.db.held domain isIPv6 address hfound
  · rw [hbytes] at hsome
    cases hsome
  · intro store hstore
    cases hstore
    obtain ⟨inet4Range', inet6Range', inet4Current, inet6Current⟩ := m
    cases h4
    cases h6
    exact hkept

section

variable (h : s.Kept range) (h4 : RangeConfigured false inet4Range)
  (h6 : RangeConfigured true inet6Range)

include h h4 h6

theorem Kept.start_of_not_matches (hmatches : ¬Matches inet4Range inet6Range s.cache.db)
    (hheld : ¬s.cache.db.Complete → ∀ domain isIPv6 address,
      s.cache.db.loadDomain domain isIPv6 = some address →
        (familyRange inet4Range inet6Range isIPv6).contains address) :
    (s.start inet4Range inet6Range).Kept (familyRange inet4Range inet6Range) := by
  obtain ⟨-, hdom, hcomplete, hbytes⟩ := h.db.takeMetadata
  rw [FakeIPRuns.start_of_not_matches hmatches]
  refine ⟨?_, forall_none_eq_some, fun _ hsome => some.inj hsome ▸ kept_restart h4 h6⟩
  by_cases hall : s.cache.db.Complete
  · dsimp only
    rw [batch_reset_of_complete (hcomplete.2 hall)]
    exact Kept.empty _
  · dsimp only
    rw [batch_reset_of_not_complete fun hc => hall (hcomplete.1 hc)]
    refine ⟨fun domain isIPv6 address hfound => ?_, fun bytes hsome => ?_⟩
    · rw [loadDomain, hdom] at hfound
      exact hheld hall domain isIPv6 address hfound
    · rw [hbytes] at hsome
      cases hsome

/-- **A safe start keeps the invariant**, for the configured ranges. -/
theorem Kept.start (hsafe : s.StartSafe (.start inet4Range inet6Range)) :
    (s.start inet4Range inet6Range).Kept (familyRange inet4Range inet6Range) := by
  by_cases hmatches : Matches inet4Range inet6Range s.cache.db
  · exact h.start_of_matches hmatches
  · refine h.start_of_not_matches h4 h6 hmatches fun hall domain isIPv6 address hfound => ?_
    rcases hsafe with hmatches' | (hall' | hforgotten) | hheld
    · exact absurd hmatches' hmatches
    · exact absurd hall' hall
    · rw [hforgotten.2] at hfound
      cases hfound
    · exact hheld domain isIPv6 address hfound

end

/-- **Only safe starts respect the ranges**: an address that is left over is returned. -/
theorem Kept.startSafe (h : s.Kept range) (hinRange : (s.start inet4Range inet6Range).InRange) :
    s.StartSafe (.start inet4Range inet6Range) := by
  by_cases hmatches : Matches inet4Range inet6Range s.cache.db
  · exact .inl hmatches
  by_cases hall : s.cache.db.Complete
  · exact .inr (.inl (.inl hall))
  refine .inr (.inr fun domain isIPv6 address hfound => ?_)
  obtain ⟨-, hdom, hcomplete, -⟩ := h.db.takeMetadata
  rw [FakeIPRuns.start_of_not_matches hmatches,
    batch_reset_of_not_complete fun hc => hall (hcomplete.1 hc)] at hinRange
  have hleft : FakeIPState.addressOf ops
      ⟨⟨(new inet4Range).restart, (new inet6Range).restart⟩,
        ⟨s.cache.db.takeMetadata.2, none⟩⟩ domain isIPv6 = some address := by
    rw [← hfound]
    change loadDomain _ _ _ = _
    rw [loadDomain, loadDomain, hdom]
  have hcontains := hinRange _ rfl domain isIPv6 address
    (congrArg Prod.fst (FakeIPState.create_of_found hleft))
  cases isIPv6 with
  | false =>
    change (new inet4Range).restart.range.contains address at hcontains
    rw [range_restart] at hcontains
    exact hcontains
  | true =>
    change (new inet6Range).restart.range.contains address at hcontains
    rw [range_restart] at hcontains
    exact hcontains

/-! ### Events -/

/-- The ranges of a start are as options give them. -/
def RangesConfigured : FakeIPEvent → Prop
  | .start inet4Range inet6Range =>
    RangeConfigured false inet4Range ∧ RangeConfigured true inet6Range
  | _ => True

/-- **The step lemma.** -/
theorem Kept.step {e : FakeIPEvent} (h : s.Kept range) (hstep : s.step e = some s')
    (hconfigured : RangesConfigured e) (hsafe : s.StartSafe e) : ∃ range', s'.Kept range' := by
  cases e with
  | start inet4Range inet6Range =>
    rw [FakeIPRuns.step, some.injEq] at hstep
    subst hstep
    exact ⟨_, h.start hconfigured.1 hconfigured.2 hsafe⟩
  | call c =>
    rw [FakeIPRuns.step] at hstep
    cases hstore : s.store with
    | none =>
      rw [hstore] at hstep
      cases hstep
    | some store =>
      rw [hstore, map_eq_some_iff] at hstep
      obtain ⟨t, ht, rfl⟩ := hstep
      exact ⟨range, h.call hstore ht⟩
  | timer =>
    rw [FakeIPRuns.step] at hstep
    cases hpending : s.cache.pending with
    | none =>
      rw [hpending] at hstep
      cases hstep
    | some m =>
      rw [hpending, some.injEq] at hstep
      subst hstep
      exact ⟨range, h.db.saveMetadata (h.pending m hpending), forall_none_eq_some, h.store⟩
  | close =>
    rw [FakeIPRuns.step] at hstep
    cases hstore : s.store with
    | none =>
      rw [hstore] at hstep
      cases hstep
    | some store =>
      rw [hstore, some.injEq] at hstep
      subst hstep
      exact ⟨range, h.db.saveMetadata (h.store store hstore), h.pending, forall_none_eq_some⟩

/-- An event leads to a state that respects the ranges. -/
def LeadsInRange (s : FakeIPRuns) (e : FakeIPEvent) : Prop := ∀ s', s.step e = some s' → s'.InRange

theorem Kept.leadsInRange_iff {e : FakeIPEvent} (h : s.Kept range)
    (hconfigured : RangesConfigured e) : s.LeadsInRange e ↔ s.StartSafe e := by
  constructor
  · intro hleads
    cases e with
    | start inet4Range inet6Range => exact h.startSafe (hleads _ rfl)
    | call | timer | close => exact trivial
  · intro hsafe s' hstep
    obtain ⟨range', hkept⟩ := h.step hstep hconfigured hsafe
    exact hkept.inRange

end FakeIPRuns

/-! ### The result -/

open FakeIPRuns in
/-- **Addresses stay in the ranges exactly if every start is safe.**  In every history of runs on
one file, with ranges in which the pools start inside, all addresses that `Create` can return at any
point lie in the range of the current run, if and only if every start is safe.  And a reset makes
both directions forget everything exactly if all buckets exist or there is nothing to forget. -/
theorem fakeIP_ranges_iff {events : List FakeIPEvent}
    (hconfigured : ∀ e ∈ events, RangesConfigured e) :
    (Schedule.Along step LeadsInRange initial events ↔
      Schedule.Along step StartSafe initial events) ∧
      ∀ db : FakeIPDB, (db.batch reset).Forgotten ↔ db.Resettable := by
  refine ⟨?_, fun db => forgotten_batch_reset_iff⟩
  refine Schedule.along_congr (I := fun s => ∃ range, s.Kept range) hconfigured ?_ ?_
    ⟨_, kept_initial (familyRange ⟨.zero, 0⟩ ⟨.zero, 0⟩)⟩
  · rintro s e he ⟨range, hs⟩
    exact hs.leadsInRange_iff he
  · rintro s e s' he hstep hsafe ⟨range, hs⟩
    exact hs.step hstep he hsafe

open FakeIPRuns in
/-- A history in which both families have given addresses when the ranges change. -/
theorem changedRanges_respected :
    Schedule.Along step LeadsInRange initial
      [.start ⟨.v4 0xc6120000#32, 15⟩ ⟨.v6 0xfc000000000000000000000000000000#128 [], 18⟩,
        .call (.create [97] false), .call (.create [97] true), .close,
        .start ⟨.v4 0x0a000000#32, 8⟩ ⟨.zero, 0⟩] := by
  refine ((fakeIP_ranges_iff ?_).1).2 ?_
  · simp only [forall_mem_cons, not_mem_nil, false_implies, implies_true, and_true]
    exact ⟨⟨.inr ⟨⟨by decide, by decide, by decide⟩, by decide⟩,
      .inr ⟨⟨by decide, by decide, by decide⟩, by decide⟩⟩, trivial, trivial, trivial,
      .inr ⟨⟨by decide, by decide, by decide⟩, by decide⟩, .inl rfl⟩
  · refine ⟨.inr (.inl (.inr forgotten_empty)), fun s₁ h₁ => ⟨trivial, fun s₂ h₂ =>
      ⟨trivial, fun s₃ h₃ => ⟨trivial, fun s₄ h₄ => ⟨.inr (.inl (.inl ?_)), fun _ _ => trivial⟩⟩⟩⟩⟩
    cases h₁
    cases h₂
    cases h₃
    cases h₄
    exact ⟨by decide +kernel, by decide +kernel, by decide +kernel⟩

open FakeIPRuns in
/-- **The old address is returned**: after a run with `198.18.0.0/15` in which only IPv4 addresses
were given, a run with `10.0.0.0/8` returns `198.18.0.2`, and no reset makes it forgotten. -/
theorem changedRange_kept :
    ∃ s store, Schedule.run step initial
        [.start ⟨.v4 0xc6120000#32, 15⟩ ⟨.zero, 0⟩, .call (.create [97] false), .close,
          .start ⟨.v4 0x0a000000#32, 8⟩ ⟨.zero, 0⟩] = some s ∧
      s.store = some store ∧ (store.pool false).range = ⟨.v4 0x0a000000#32, 8⟩ ∧
      FakeIPState.create FakeIPCache.ops ⟨store, s.cache⟩ [97] false = .ok (.v4 0xc6120002#32) ∧
      (store.pool false).range.contains (.v4 0xc6120002#32) = false ∧
      (s.cache.db.batch reset).loadDomain [97] false = some (.v4 0xc6120002#32) :=
  ⟨_, _, rfl, rfl, rfl, rfl, rfl, rfl⟩

end SingBox
