/-
**Reading what was written** (`common/srs/binary.go`).

The reader of binary rule-sets follows the writer byte by byte.  For every value, item and rule this
module says which of two things happens to the bytes that were written for it: they are read back,
or the reader fails on them whatever follows.  Both answers are needed, since the writer accepts two
kinds of rules that the reader refuses.

* `reads_item`, `fails_item` — an item is read back, unless it holds a prefix that
  is not valid;
* `foldl_binaryItems` — what the items of a rule set, one after the other;
* `reads_rule`, `fails_rule` — a rule is read back, unless it is nested too deeply
  or holds such an item.
-/

import SingBox.BinaryRuleSet

open ByteReader

/-! ### Addresses in bytes -/

/-- An address without zone. -/
def Addr.Plain (a : Addr) : Prop := a.isValid ∧ a.zone = []

theorem Addr.length_asSlice {a : Addr} (ha : a.isValid) :
    a.asSlice.length = 4 ∨ a.asSlice.length = 16 := by
  cases a with
  | zero => simp [Addr.isValid] at ha
  | v4 bits | v6 bits zone => simp [Addr.asSlice]

theorem Addr.fromSlice_asSlice {a : Addr} (ha : a.Plain) : Addr.fromSlice a.asSlice = a := by
  obtain ⟨hvalid, hzone⟩ := ha
  cases a with
  | zero => simp [Addr.isValid] at hvalid
  | v4 bits =>
    have hlt : bits.toNat < 256 ^ 4 := bits.isLt
    simp [Addr.asSlice, Addr.fromSlice, ofBigEndian_put hlt]
  | v6 bits zone =>
    have hlt : bits.toNat < 256 ^ 16 := bits.isLt
    have hzone : zone = [] := hzone
    simp [Addr.asSlice, Addr.fromSlice, ofBigEndian_put hlt, hzone]

/-- A prefix as the decoders of options produce it: the zero prefix, or a valid one, which has no
zone. -/
def Prefix.Canonical (p : Prefix) : Prop :=
  p = ⟨.zero, 0⟩ ∨ p.isValid ∧ p.addr.zone = []

/-- The ends of every range are addresses without zone. -/
def IPSet.Plain (set : IPSet) : Prop := ∀ r ∈ set, r.from_.Plain ∧ r.to_.Plain

namespace SingBox

open BinaryItem LogicalTree List DefaultHeadlessRuleOptions Listable

/-! ### The readers of values -/

theorem reads_bool (b : Bool) : Reads readBool [writeBool b] b := by
  refine (reads_byte _ _).bind_nil ?_
  cases b with
  | true | false => exact reads_pure _

theorem reads_string {s : GoString} (hs : s.length < 2 ^ 64) : Reads readString (writeString s) s :=
  (reads_uvarint _ hs).bind (reads_full _ s)

theorem reads_strings {value : List GoString} (hlen : value.length < 2 ^ 64)
    (h : ∀ s ∈ value, s.length < 2 ^ 64) :
    Reads readStrings (putList writeString value) value :=
  reads_list _ hlen fun s hs => reads_string (h s hs)

theorem reads_uint16s {value : List UInt16} (hlen : value.length < 2 ^ 64) :
    Reads readUint16s (putList (fun n => putBigEndian 2 n.toNat) value) value := by
  refine reads_list _ hlen fun n _ => ?_
  have hfull := reads_full ioErrors (putBigEndian 2 n.toNat)
  rw [length_putBigEndian] at hfull
  have hlt : n.toNat < 256 ^ 2 := n.toNat_lt
  refine hfull.bind_nil ?_
  rw [ofBigEndian_put hlt, UInt16.ofNat_toNat]
  exact reads_pure n

theorem reads_addr {a : Addr} (ha : a.Plain) : Reads readAddr (writeAddr a) a := by
  have hlen := Addr.length_asSlice ha.1
  refine (reads_uvarint _ (by omega)).bind ?_
  have htest : ¬(a.asSlice.length ≠ 4 ∧ a.asSlice.length ≠ 16) := by omega
  rw [if_neg htest]
  refine (reads_full ioErrors a.asSlice).bind_nil ?_
  rw [Addr.fromSlice_asSlice ha]
  exact reads_pure a

theorem fails_addr_zero : Fails readAddr (writeAddr .zero) :=
  (reads_uvarint _ (by decide)).bind_fails fun _ => ⟨errInvalid, rfl⟩

theorem reads_ipSet {set : IPSet} (hlen : set.length < 2 ^ 64) (hset : IPSet.Plain set) :
    Reads readIPSet (writeIPSet set) set := by
  have hcount : Reads (readFull ioErrors 8) (putBigEndian 8 set.length)
      (putBigEndian 8 set.length) := by
    have hfull := reads_full ioErrors (putBigEndian 8 set.length)
    rwa [length_putBigEndian] at hfull
  have hranges : Reads (many (fun _ => readIPRange) 0 set.length)
      (set.flatMap fun r => writeAddr r.from_ ++ writeAddr r.to_) (set.map id) := by
    refine Reads.many id (fun r hr _ => ?_) 0
    exact (reads_addr (hset r hr).1).bind ((reads_addr (hset r hr).2).bind_nil (reads_pure _))
  have hlt : set.length < 256 ^ 8 := hlen
  refine (reads_byte ioErrors.eof 1).bind (hcount.bind ?_)
  rw [ofBigEndian_put hlt]
  rwa [map_id] at hranges

theorem reads_writePrefix {p : Prefix} (hp : p.Canonical) (hvalid : p.isValid) :
    Reads readPrefix (writePrefix p) p := by
  obtain ⟨haddr, hbits⟩ : p.addr.isValid ∧ p.bits ≤ p.addr.bitLen := by
    simpa [Prefix.isValid] using hvalid
  have hzone : p.addr.zone = [] := by
    rcases hp with rfl | hp
    · rfl
    · exact hp.2
  have hlen : p.addr.bitLen ≤ 128 := by cases p.addr <;> simp [Addr.bitLen]
  have hbyte : p.bitsByte.toNat = p.bits := by
    rw [Prefix.bitsByte, if_pos hvalid]
    simp
    omega
  refine (reads_addr ⟨haddr, hzone⟩).bind ((reads_byte _ _).bind_nil ?_)
  rw [hbyte]
  exact reads_pure p

theorem fails_writePrefix {p : Prefix} (hp : p.Canonical) (hvalid : p.isValid = false) :
    Fails readPrefix (writePrefix p) := by
  rcases hp with rfl | hp
  · exact fails_addr_zero.bind _ _
  · rw [hvalid] at hp
    exact absurd hp.1 (by decide)

/-- What the lists of prefixes in options satisfy. -/
def PrefixesCanonical (l : List Prefix) : Prop := l.length < 2 ^ 64 ∧ ∀ p ∈ l, p.Canonical

theorem reads_prefixes {l : List Prefix} (hl : PrefixesCanonical l)
    (hvalid : ∀ p ∈ l, p.isValid) :
    Reads (readList ioErrors readPrefix) (putList writePrefix l) l :=
  reads_list _ hl.1 fun p hp => reads_writePrefix (hl.2 p hp) (hvalid p hp)

theorem fails_prefixes {l : List Prefix} (hl : PrefixesCanonical l)
    (hinvalid : ∃ p ∈ l, p.isValid = false) :
    Fails (readList ioErrors readPrefix) (putList writePrefix l) := by
  refine fails_list _ hl.1 (fun p hp => ?_) ?_
  · cases hvalid : p.isValid with
    | true => exact .inl (reads_writePrefix (hl.2 p hp) hvalid)
    | false => exact .inr (fails_writePrefix (hl.2 p hp) hvalid)
  · obtain ⟨p, hp, hvalid⟩ := hinvalid
    exact ⟨p, hp, fails_writePrefix (hl.2 p hp) hvalid⟩

theorem foldl_putEntry {entries before : List (UInt8 × List Prefix)}
    (h : ((before ++ entries).map Prod.fst).Nodup) :
    entries.foldl putEntry before = before ++ entries := by
  induction entries generalizing before with
  | nil => simp
  | cons entry entries ih =>
    have hnew : before.any (·.1 == entry.1) = false := by
      rw [map_append, nodup_append'] at h
      rw [any_eq_false]
      intro old hold heq
      rw [beq_iff_eq] at heq
      refine h.2.2 (mem_map_of_mem hold) ?_
      rw [heq, map_cons]
      exact mem_cons_self
    have hput : putEntry before entry = before ++ [entry] := by
      rw [putEntry, hnew]
      rfl
    rw [foldl_cons, hput, ih (by simpa using h), append_assoc]
    rfl

/-! ### The reader of items -/

/-- What an item written from a rule satisfies: lengths are 64-bit numbers, a map has no key twice,
prefixes come from the decoders of options, and other packages' codecs read what they wrote. -/
def BinaryItem.Sound (codecs : Codecs) : BinaryItem → Prop
  | .strings _ value => value.length < 2 ^ 64 ∧ ∀ s ∈ value, s.length < 2 ^ 64
  | .uint16s _ value => value.length < 2 ^ 64
  | .domain matcher => Reads codecs.readMatcher (codecs.writeMatcher matcher) matcher
  | .ipCIDR _ ipSet => ipSet.length < 2 ^ 64 ∧ IPSet.Plain ipSet
  | .adGuardDomain matcher =>
    Reads codecs.readAdGuardMatcher (codecs.writeAdGuardMatcher matcher) matcher
  | .networkType value => value.length < 2 ^ 64
  | .networkIsExpensive => True
  | .networkIsConstrained => True
  | .networkInterfaceAddress value =>
    value.length < 2 ^ 64 ∧ (value.map Prod.fst).Nodup ∧
      ∀ entry ∈ value, PrefixesCanonical entry.2
  | .defaultInterfaceAddress value => PrefixesCanonical value

/-- The prefixes in an item. -/
def BinaryItem.prefixes : BinaryItem → List Prefix
  | .networkInterfaceAddress value => value.flatMap Prod.snd
  | .defaultInterfaceAddress value => value
  | _ => []

/-- **An item whose prefixes are valid is read back.** -/
theorem reads_item {codecs : Codecs} {item : BinaryItem} (h : item.Sound codecs)
    (hvalid : ∀ p ∈ item.prefixes, p.isValid) (lastItemType : UInt8) :
    Reads (readItem codecs item.itemType lastItemType) (item.payload codecs) item := by
  cases item with
  | strings field value =>
    have hvalue := reads_strings h.1 h.2
    cases field <;> exact hvalue.bind_nil (reads_pure _)
  | uint16s field value =>
    have hvalue := reads_uint16s h
    cases field <;> exact hvalue.bind_nil (reads_pure _)
  | domain matcher | adGuardDomain matcher => exact Reads.bind_nil h (reads_pure _)
  | ipCIDR isSource ipSet =>
    have hvalue := reads_ipSet h.1 h.2
    cases isSource <;> exact hvalue.bind_nil (reads_pure _)
  | networkType value =>
    exact (reads_list _ h fun t _ => reads_byte _ t).bind_nil (reads_pure _)
  | networkIsExpensive | networkIsConstrained => exact reads_pure _
  | networkInterfaceAddress value =>
    have hentries : Reads (readList ioErrors readEntry)
        (putList (fun entry => entry.1 :: putList writePrefix entry.2) value) value := by
      refine reads_list _ h.1 fun entry hentry => ?_
      refine (reads_byte _ entry.1).bind ((reads_prefixes (h.2.2 entry hentry) ?_).bind_nil
        (reads_pure _))
      exact fun p hp => hvalid p (List.mem_flatMap.2 ⟨entry, hentry, hp⟩)
    refine hentries.bind_nil ?_
    rw [foldl_putEntry (by simpa using h.2.1), nil_append]
    exact reads_pure _
  | defaultInterfaceAddress value => exact (reads_prefixes h hvalid).bind_nil (reads_pure _)

/-- **An item with a prefix that is not valid is not read.** -/
theorem fails_item {codecs : Codecs} {item : BinaryItem} (h : item.Sound codecs)
    (hinvalid : ∃ p ∈ item.prefixes, p.isValid = false) (lastItemType : UInt8) :
    Fails (readItem codecs item.itemType lastItemType) (item.payload codecs) := by
  cases item with
  | networkInterfaceAddress value =>
    obtain ⟨p, hp, hvalid⟩ := hinvalid
    obtain ⟨entry, hentry, hp⟩ := List.mem_flatMap.1 hp
    have hread : ∀ entry ∈ value,
        Reads readEntry (entry.1 :: putList writePrefix entry.2) entry ∨
          Fails readEntry (entry.1 :: putList writePrefix entry.2) := by
      intro entry hentry
      by_cases hall : ∀ p ∈ entry.2, p.isValid
      · exact .inl ((reads_byte _ entry.1).bind
          ((reads_prefixes (h.2.2 entry hentry) hall).bind_nil (reads_pure _)))
      · have hfails := fails_prefixes (h.2.2 entry hentry) (by simpa using hall)
        exact .inr ((reads_byte _ entry.1).bind_fails (hfails.bind_nil _))
    have hfails : Fails readEntry (entry.1 :: putList writePrefix entry.2) :=
      (reads_byte _ entry.1).bind_fails
        ((fails_prefixes (h.2.2 entry hentry) ⟨p, hp, hvalid⟩).bind_nil _)
    exact (fails_list _ h.1 hread ⟨entry, hentry, hfails⟩).bind_nil _
  | defaultInterfaceAddress value => exact (fails_prefixes h hinvalid).bind_nil _
  | _ => simp [prefixes] at hinvalid

/-! ### The reader of default rules -/

theorem BinaryItem.itemType_ne_final (item : BinaryItem) : item.itemType ≠ ruleItemFinal := by
  cases item with
  | strings field _ | uint16s field _ => cases field <;> simp [itemType, ruleItemFinal]
  | ipCIDR isSource _ => cases isSource <;> simp [itemType, ruleItemFinal]
  | _ => simp [itemType, ruleItemFinal]

section

variable {codecs : Codecs} {recover : Bool}

theorem reads_round {item : BinaryItem} (h : item.Sound codecs)
    (hvalid : ∀ p ∈ item.prefixes, p.isValid) {rounds : ℕ} {lastItemType : UInt8}
    {rule result : DefaultHeadlessRuleOptions} {bytes : List UInt8}
    (hrest : Reads (readItems codecs recover rounds item.itemType (item.apply codecs recover rule))
      bytes result) :
    Reads (readItems codecs recover (rounds + 1) lastItemType rule) (item.write codecs ++ bytes)
      result := by
  change Reads _ ([item.itemType] ++ (item.payload codecs ++ bytes)) _
  refine (reads_byte _ item.itemType).bind ?_
  rw [if_neg item.itemType_ne_final]
  exact (reads_item h hvalid lastItemType).bind hrest

variable {items : List BinaryItem} (hsound : ∀ item ∈ items, item.Sound codecs)

include hsound

/-- **A sequence of items is read back**, one round for each and one for the final byte. -/
theorem reads_items
    (hvalid : ∀ item ∈ items, ∀ p ∈ item.prefixes, p.isValid) (invert : Bool) {rounds : ℕ}
    (hrounds : items.length < rounds) (lastItemType : UInt8) (rule : DefaultHeadlessRuleOptions) :
    Reads (readItems codecs recover rounds lastItemType rule)
      (items.flatMap (write codecs) ++ [ruleItemFinal, writeBool invert])
      { items.foldl (apply codecs recover) rule with invert := invert } := by
  induction items generalizing rounds lastItemType rule with
  | nil =>
    obtain ⟨rounds, rfl⟩ : ∃ k, rounds = k + 1 := ⟨rounds - 1, by simp at hrounds; omega⟩
    refine (reads_byte _ ruleItemFinal).bind ?_
    rw [if_pos rfl]
    exact (reads_bool invert).bind_nil (reads_pure _)
  | cons item items ih =>
    rw [length_cons] at hrounds
    rw [forall_mem_cons] at hsound hvalid
    obtain ⟨rounds, rfl⟩ : ∃ k, rounds = k + 1 := ⟨rounds - 1, by omega⟩
    rw [flatMap_cons, append_assoc, foldl_cons]
    exact reads_round hsound.1 hvalid.1 (ih hsound.2 hvalid.2 (by omega) _ _)

/-- **A sequence with an item that is not read fails.** -/
theorem fails_items (hinvalid : ∃ item ∈ items, ∃ p ∈ item.prefixes, p.isValid = false)
    (bytes : List UInt8) (rounds : ℕ) (lastItemType : UInt8) (rule : DefaultHeadlessRuleOptions) :
    Fails (readItems codecs recover rounds lastItemType rule)
      (items.flatMap (write codecs) ++ bytes) := by
  induction items generalizing rounds lastItemType rule with
  | nil => simp at hinvalid
  | cons item items ih =>
    cases rounds with
    | zero => exact fun _ => ⟨_, rfl⟩
    | succ rounds =>
      rw [forall_mem_cons] at hsound
      rw [flatMap_cons, append_assoc]
      change Fails _ ([item.itemType] ++ (item.payload codecs ++ _))
      refine (reads_byte _ item.itemType).bind_fails ?_
      rw [if_neg item.itemType_ne_final]
      by_cases hitem : ∃ p ∈ item.prefixes, p.isValid = false
      · exact (fails_item hsound.1 hitem lastItemType).bind _ _
      · have hitems : ∃ item ∈ items, ∃ p ∈ item.prefixes, p.isValid = false := by
          simpa [hitem] using hinvalid
        have hvalid : ∀ p ∈ item.prefixes, p.isValid := by simpa using hitem
        exact (reads_item hsound.1 hvalid lastItemType).bind_fails (ih hsound.2 hitems _ _ _)

end

/-! ### The options that are read -/

/-- The options read for a rule whose texts became `parts`. -/
def decodedRule (lib : Libraries) (codecs : Codecs) (recover : Bool)
    (rule : DefaultHeadlessRuleOptions) (parts : WrittenParts) : DefaultHeadlessRuleOptions where
  queryType := appended rule.queryType.elems
  network := appended rule.network.elems
  domain := if recover then parts.domain.bind fun m => appended m.dump.1 else none
  domainSuffix := if recover then parts.domain.bind fun m => appended m.dump.2 else none
  domainKeyword := appended rule.domainKeyword.elems
  domainRegex := appended rule.domainRegex.elems
  sourceIPCIDR := if recover then parts.sourceIPSet.map codecs.prefixes else none
  ipCIDR := if recover then parts.ipSet.map codecs.prefixes else none
  sourcePort := appended rule.sourcePort.elems
  sourcePortRange := appended rule.sourcePortRange.elems
  port := appended rule.port.elems
  portRange := appended rule.portRange.elems
  processName := appended rule.processName.elems
  processPath := appended rule.processPath.elems
  processPathRegex := appended rule.processPathRegex.elems
  packageName := appended rule.packageName.elems
  networkType := appended rule.networkType.elems
  networkIsExpensive := rule.networkIsExpensive
  networkIsConstrained := rule.networkIsConstrained
  wifiSSID := appended rule.wifiSSID.elems
  wifiBSSID := appended rule.wifiBSSID.elems
  invert := rule.invert
  domainMatcher := parts.domain
  sourceIPSet := parts.sourceIPSet
  ipSet := parts.ipSet
  adGuardDomain :=
    if recover then
      (appended rule.adGuardDomain.elems).bind fun lines =>
        appended (lib.newAdGuardMatcher lines).dump
    else none
  adGuardDomainMatcher := (appended rule.adGuardDomain.elems).map lib.newAdGuardMatcher
  networkInterfaceAddress := appended (elems rule.networkInterfaceAddress)
  defaultInterfaceAddress := appended rule.defaultInterfaceAddress.elems

/-- Applying an item that may be missing. -/
def applySlot (codecs : Codecs) (recover : Bool) (rule : DefaultHeadlessRuleOptions) :
    Option BinaryItem → DefaultHeadlessRuleOptions
  | none => rule
  | some item => item.apply codecs recover rule

section

variable (codecs : Codecs) (recover : Bool) (rule : DefaultHeadlessRuleOptions)

theorem appended_of_nonempty {α : Type} {l : Listable α} (h : l.nonempty) :
    appended l.elems = some l.elems := by
  rw [appended, if_neg (by simpa [Listable.nonempty] using h)]

theorem appended_of_empty {α : Type} {l : Listable α} (h : l.nonempty = false) :
    appended l.elems = none := by
  rw [appended, if_pos (by simpa [Listable.nonempty] using h)]

theorem applySlot_strings (l : Listable GoString) (field : StringField) :
    applySlot codecs recover rule (sliceItem l (.strings field)) =
      rule.setStrings ((appended l.elems).or (rule.strings field)) field := by
  cases h : l.nonempty with
  | true =>
    rw [sliceItem, if_pos h, appended_of_nonempty h]
    cases field <;> simp [applySlot, apply, appended_of_nonempty h]
  | false =>
    rw [sliceItem, h, appended_of_empty h]
    cases field <;> rfl

theorem applySlot_uint16s (l : Listable UInt16) (field : Uint16Field) :
    applySlot codecs recover rule (sliceItem l (.uint16s field)) =
      rule.setUint16s ((appended l.elems).or (rule.uint16s field)) field := by
  cases h : l.nonempty with
  | true =>
    rw [sliceItem, if_pos h, appended_of_nonempty h]
    cases field <;> simp [applySlot, apply, setUint16s, appended_of_nonempty h]
  | false =>
    rw [sliceItem, h, appended_of_empty h]
    cases field <;> rfl

theorem applySlot_domain (o : Option DomainMatcher) :
    applySlot codecs recover rule (o.map .domain) =
      { rule with
        domain := match o with
          | some m => if recover then appended m.dump.1 else rule.domain
          | none => rule.domain
        domainSuffix := match o with
          | some m => if recover then appended m.dump.2 else rule.domainSuffix
          | none => rule.domainSuffix
        domainMatcher := o.or rule.domainMatcher } := by
  cases o with
  | none => rfl
  | some m => cases recover <;> rfl

theorem applySlot_sourceIPSet (o : Option IPSet) :
    applySlot codecs recover rule (o.map (.ipCIDR true)) =
      { rule with
        sourceIPCIDR := (if recover then o.map codecs.prefixes else none).or rule.sourceIPCIDR
        sourceIPSet := o.or rule.sourceIPSet } := by
  cases o with
  | none | some ipSet => cases recover <;> rfl

theorem applySlot_ipSet (o : Option IPSet) :
    applySlot codecs recover rule (o.map (.ipCIDR false)) =
      { rule with
        ipCIDR := (if recover then o.map codecs.prefixes else none).or rule.ipCIDR
        ipSet := o.or rule.ipSet } := by
  cases o with
  | none | some ipSet => cases recover <;> rfl

theorem applySlot_adGuardDomain (lib : Libraries) (l : Listable GoString) :
    applySlot codecs recover rule
        (sliceItem l fun lines => .adGuardDomain (lib.newAdGuardMatcher lines)) =
      { rule with
        adGuardDomain := match appended l.elems with
          | some lines =>
            if recover then appended (lib.newAdGuardMatcher lines).dump else rule.adGuardDomain
          | none => rule.adGuardDomain
        adGuardDomainMatcher :=
          ((appended l.elems).map lib.newAdGuardMatcher).or rule.adGuardDomainMatcher } := by
  cases h : l.nonempty with
  | true =>
    rw [sliceItem, if_pos h, appended_of_nonempty h]
    cases recover <;> rfl
  | false =>
    rw [sliceItem, h, appended_of_empty h]
    rfl

theorem applySlot_networkType (l : Listable UInt8) :
    applySlot codecs recover rule (sliceItem l .networkType) =
      { rule with networkType := (appended l.elems).or rule.networkType } := by
  cases h : l.nonempty with
  | true =>
    rw [sliceItem, if_pos h]
    simp [applySlot, apply, appended_of_nonempty h]
  | false =>
    rw [sliceItem, h, appended_of_empty h]
    rfl

theorem applySlot_networkIsExpensive (test : Bool) :
    applySlot codecs recover rule (flagItem test .networkIsExpensive) =
      { rule with networkIsExpensive := test || rule.networkIsExpensive } := by
  cases test <;> rfl

theorem applySlot_networkIsConstrained (test : Bool) :
    applySlot codecs recover rule (flagItem test .networkIsConstrained) =
      { rule with networkIsConstrained := test || rule.networkIsConstrained } := by
  cases test <;> rfl

theorem applySlot_networkInterfaceAddress (l : Listable (UInt8 × List Prefix)) :
    applySlot codecs recover rule (sliceItem l .networkInterfaceAddress) =
      { rule with
        networkInterfaceAddress := (appended l.elems).or rule.networkInterfaceAddress } := by
  cases h : l.nonempty with
  | true =>
    rw [sliceItem, if_pos h, appended_of_nonempty h]
    rfl
  | false =>
    rw [sliceItem, h, appended_of_empty h]
    rfl

theorem applySlot_defaultInterfaceAddress (l : Listable Prefix) :
    applySlot codecs recover rule (sliceItem l .defaultInterfaceAddress) =
      { rule with
        defaultInterfaceAddress := (appended l.elems).or rule.defaultInterfaceAddress } := by
  cases h : l.nonempty with
  | true =>
    rw [sliceItem, if_pos h]
    simp [applySlot, apply, appended_of_nonempty h]
  | false =>
    rw [sliceItem, h, appended_of_empty h]
    rfl

end

/-- **The items of a rule, applied one after the other, set what `decodedRule` says.** -/
theorem foldl_binaryItems (lib : Libraries) (codecs : Codecs) (recover : Bool)
    (rule : DefaultHeadlessRuleOptions) (parts : WrittenParts) :
    { (binaryItems lib rule parts).foldl (apply codecs recover) {} with
        invert := rule.invert } = decodedRule lib codecs recover rule parts := by
  have hslots : (binaryItems lib rule parts).foldl (apply codecs recover) {} =
      (itemSlots lib rule parts).foldl (applySlot codecs recover) {} := by
    rw [binaryItems, foldl_filterMap]
    congr 1
    funext acc slot
    cases slot <;> rfl
  rw [hslots, itemSlots, decodedRule]
  simp only [foldl_cons, foldl_nil, applySlot_strings, applySlot_uint16s,
    applySlot_domain, applySlot_sourceIPSet, applySlot_ipSet, applySlot_adGuardDomain,
    applySlot_networkType, applySlot_networkIsExpensive, applySlot_networkIsConstrained,
    applySlot_networkInterfaceAddress, applySlot_defaultInterfaceAddress,
    setStrings, setUint16s,
    DefaultHeadlessRuleOptions.strings, DefaultHeadlessRuleOptions.uint16s, Option.or_none,
    Bool.or_false]
  cases recover <;> cases parts.domain <;> cases appended rule.adGuardDomain.elems <;> rfl

/-! ### The reader of rules -/

/-- The prefixes of the two interface conditions. -/
def DefaultHeadlessRuleOptions.interfacePrefixes (rule : DefaultHeadlessRuleOptions) :
    List Prefix :=
  (elems rule.networkInterfaceAddress).flatMap Prod.snd ++
    rule.defaultInterfaceAddress.elems

theorem elem_prefixes_sliceItem {α : Type} (l : Listable α) (item : List α → BinaryItem) :
    (sliceItem l item).elim [] prefixes = if l.nonempty then (item l.elems).prefixes else [] := by
  rw [sliceItem]
  split <;> rfl

theorem elems_of_empty {α : Type} {l : Listable α} (h : l.nonempty = false) : l.elems = [] := by
  simpa [Listable.nonempty] using h

theorem flatMap_prefixes_binaryItems (lib : Libraries) (rule : DefaultHeadlessRuleOptions)
    (parts : WrittenParts) :
    (binaryItems lib rule parts).flatMap prefixes = rule.interfacePrefixes := by
  have hslots : (binaryItems lib rule parts).flatMap prefixes =
      (itemSlots lib rule parts).flatMap fun slot => slot.elim [] prefixes := by
    rw [binaryItems]
    induction itemSlots lib rule parts with
    | nil => rfl
    | cons slot slots ih => cases slot <;> simpa using ih
  have hnetwork : (if Listable.nonempty rule.networkInterfaceAddress then
      (elems rule.networkInterfaceAddress).flatMap Prod.snd else []) =
        (elems rule.networkInterfaceAddress).flatMap Prod.snd := by
    cases h : Listable.nonempty rule.networkInterfaceAddress with
    | true => rfl
    | false => simp [elems_of_empty h]
  have hdefault : (if rule.defaultInterfaceAddress.nonempty then
      rule.defaultInterfaceAddress.elems else []) = rule.defaultInterfaceAddress.elems := by
    cases h : rule.defaultInterfaceAddress.nonempty with
    | true => rfl
    | false => simp [elems_of_empty h]
  have hflag : ∀ (test : Bool) (item : BinaryItem), item.prefixes = [] →
      (flagItem test item).elim [] prefixes = [] := by
    intro test item hitem
    cases test <;> simp [flagItem, hitem]
  rw [hslots, itemSlots, interfacePrefixes]
  simp only [flatMap_cons, flatMap_nil, elem_prefixes_sliceItem, prefixes,
    hflag _ .networkIsExpensive rfl, hflag _ .networkIsConstrained rfl, hnetwork, hdefault,
    ite_self,
    nil_append, append_nil]
  cases parts.domain <;> cases parts.sourceIPSet <;> cases parts.ipSet <;> rfl

theorem length_le_length_write (codecs : Codecs) (items : List BinaryItem) :
    items.length ≤ (items.flatMap (write codecs)).length := by
  induction items with
  | nil => simp
  | cons item items ih =>
    rw [flatMap_cons, length_append, write, length_cons, length_cons]
    omega

variable {lib : Libraries} {codecs : Codecs} {generateVersion : UInt8} {recover : Bool}

/-- The bytes of a default rule after its type. -/
def defaultRuleBytes (lib : Libraries) (codecs : Codecs) (rule : DefaultHeadlessRuleOptions)
    (parts : WrittenParts) : List UInt8 :=
  (binaryItems lib rule parts).flatMap (write codecs) ++
    [ruleItemFinal, writeBool rule.invert]

variable {rule : DefaultHeadlessRuleOptions}

section

variable {parts : WrittenParts} (hsound : ∀ item ∈ binaryItems lib rule parts, item.Sound codecs)

include hsound

/-- **A default rule whose prefixes are valid is read back.** -/
theorem reads_defaultRule (hvalid : ∀ p ∈ rule.interfacePrefixes, p.isValid) :
    Reads (readDefaultRule codecs recover) (defaultRuleBytes lib codecs rule parts)
      (decodedRule lib codecs recover rule parts) := by
  intro rest
  have hrounds : (binaryItems lib rule parts).length <
      (defaultRuleBytes lib codecs rule parts ++ rest).length + 1 := by
    have hle := length_le_length_write codecs (binaryItems lib rule parts)
    simp only [defaultRuleBytes, length_append]
    omega
  have hitems : ∀ item ∈ binaryItems lib rule parts, ∀ p ∈ item.prefixes, p.isValid := by
    intro item hitem p hp
    refine hvalid p ?_
    rw [← flatMap_prefixes_binaryItems lib rule parts]
    exact List.mem_flatMap.2 ⟨item, hitem, hp⟩
  rw [← foldl_binaryItems]
  exact reads_items hsound hitems rule.invert hrounds 0 {} rest

/-- **A default rule with a prefix that is not valid is not read.** -/
theorem fails_defaultRule (hinvalid : ¬∀ p ∈ rule.interfacePrefixes, p.isValid) :
    Fails (readDefaultRule codecs recover) (defaultRuleBytes lib codecs rule parts) := by
  intro rest
  have hitems : ∃ item ∈ binaryItems lib rule parts, ∃ p ∈ item.prefixes, p.isValid = false := by
    push Not at hinvalid
    obtain ⟨p, hp, hpinvalid⟩ := hinvalid
    rw [← flatMap_prefixes_binaryItems lib rule parts] at hp
    obtain ⟨item, hitem, hp⟩ := List.mem_flatMap.1 hp
    exact ⟨item, hitem, p, hp, by simpa using hpinvalid⟩
  exact fails_items hsound hitems _ _ 0 {} rest

end

/-- The options that are read for a default rule that was written. -/
def readBack (lib : Libraries) (codecs : Codecs) (generateVersion : UInt8) (recover : Bool)
    (rule : DefaultHeadlessRuleOptions) : DefaultHeadlessRuleOptions :=
  match writtenParts lib generateVersion rule with
  | .ok parts => decodedRule lib codecs recover rule parts
  | .error _ => rule

/-- The items that are written for a default rule are sound. -/
def WritesSound (lib : Libraries) (codecs : Codecs) (generateVersion : UInt8)
    (rule : DefaultHeadlessRuleOptions) : Prop :=
  ∀ parts, writtenParts lib generateVersion rule = .ok parts →
    ∀ item ∈ binaryItems lib rule parts, item.Sound codecs

/-- The prefixes of a default rule are valid. -/
def ValidPrefixes (rule : DefaultHeadlessRuleOptions) : Prop :=
  ∀ p ∈ rule.interfacePrefixes, p.isValid

variable {bytes : List UInt8}

theorem writeRule_default_eq_ok
    (h : writeRule lib codecs generateVersion (.default rule) = .ok bytes) :
    ∃ parts, writtenParts lib generateVersion rule = .ok parts ∧
      bytes = 0 :: defaultRuleBytes lib codecs rule parts := by
  rw [writeRule, writeDefaultRule, exceptBind_eq_ok] at h
  obtain ⟨parts, hparts, hbytes⟩ := h
  simp only [pure, Except.pure, Except.ok.injEq] at hbytes
  exact ⟨parts, hparts, hbytes.symm⟩

/-- The byte of a mode that was checked. -/
def modeByte : LogicalType → UInt8
  | .and => 0
  | .or => 1

variable {rules : List HeadlessRuleOptions}

theorem writeRule_logical_eq_ok {mode : LogicalModeOption} {invert : Bool}
    (h : writeRule lib codecs generateVersion (.logical mode invert rules) = .ok bytes) :
    ∃ m written, mode = .known m ∧ writeRules lib codecs generateVersion rules = .ok written ∧
      bytes = 1 :: modeByte m :: (putUvarint rules.length ++ written ++ [writeBool invert]) := by
  simp only [writeRule, exceptBind_eq_ok, pure, Except.pure, Except.ok.injEq] at h
  obtain ⟨b, hmode, written, hwritten, hbytes⟩ := h
  cases mode with
  | unknown mode => simp [writeMode] at hmode
  | known m =>
    refine ⟨m, written, rfl, hwritten, ?_⟩
    cases m <;> simp_all [writeMode, modeByte]

/-- What is written for a rule, and nothing if there is an error. -/
def writtenRule (lib : Libraries) (codecs : Codecs) (generateVersion : UInt8)
    (rule : HeadlessRuleOptions) : List UInt8 :=
  match writeRule lib codecs generateVersion rule with
  | .ok bytes => bytes
  | .error _ => []

theorem writeRules_eq_ok (h : writeRules lib codecs generateVersion rules = .ok bytes) :
    (∀ r ∈ rules, writeRule lib codecs generateVersion r =
        .ok (writtenRule lib codecs generateVersion r)) ∧
      bytes = rules.flatMap (writtenRule lib codecs generateVersion) := by
  induction rules generalizing bytes with
  | nil =>
    rw [writeRules, Except.ok.injEq] at h
    simp [← h]
  | cons r rs ih =>
    simp only [writeRules, exceptBind_eq_ok, pure, Except.pure, Except.ok.injEq] at h
    obtain ⟨first, hfirst, rest, hrest, rfl⟩ := h
    obtain ⟨hall, rfl⟩ := ih hrest
    have hwritten : writtenRule lib codecs generateVersion r = first := by
      rw [writtenRule, hfirst]
    rw [forall_mem_cons, flatMap_cons, hwritten]
    exact ⟨⟨hfirst, hall⟩, rfl⟩

theorem reads_mode (m : LogicalType) : Reads readMode [modeByte m] (.known m) := by
  refine (reads_byte _ _).bind_nil ?_
  cases m with
  | and | or => exact reads_pure _

variable {r : HeadlessRuleOptions} {levels : ℕ}
  (hsound : r.All (WritesSound lib codecs generateVersion)) (hwidth : r.width < 2 ^ 64)
  (hwrite : writeRule lib codecs generateVersion r = .ok bytes)

include hsound hwidth hwrite

/-- **A rule is read back, if it is not nested too deeply and its prefixes are valid.** -/
theorem reads_rule (hvalid : r.All ValidPrefixes) (hdepth : r.depth < levels) :
    Reads (readRule codecs recover levels) bytes
      (r.map (readBack lib codecs generateVersion recover)) := by
  -- the levels left bound the depth of the subtrees, one less for each logical rule
  induction r using induction generalizing levels bytes with
  | default rule =>
    obtain ⟨levels, rfl⟩ : ∃ k, levels = k + 1 := ⟨levels - 1, by omega⟩
    obtain ⟨parts, hparts, rfl⟩ := writeRule_default_eq_ok hwrite
    rw [all_default] at hsound hvalid
    rw [map_default, readBack, hparts]
    refine (reads_byte _ 0).bind ?_
    exact (reads_defaultRule (hsound parts hparts) hvalid).bind_nil (reads_pure _)
  | logical mode invert rules ih =>
    obtain ⟨levels, rfl⟩ : ∃ k, levels = k + 1 := ⟨levels - 1, by omega⟩
    obtain ⟨m, written, rfl, hwritten, rfl⟩ := writeRule_logical_eq_ok hwrite
    obtain ⟨hall, rfl⟩ := writeRules_eq_ok hwritten
    rw [all_logical] at hsound hvalid
    rw [depth, Nat.lt_succ_iff, depthOf_le] at hdepth
    rw [width, Nat.max_lt, widthOf_lt (by decide)] at hwidth
    have hrules : Reads (many (fun i => mapError (.cause · (indexMessage "read logical rule [" i))
        (readRule codecs recover levels)) 0 rules.length)
        (rules.flatMap (writtenRule lib codecs generateVersion))
        (rules.map (map (readBack lib codecs generateVersion recover))) := by
      refine Reads.many _ (fun t ht i => ?_) 0
      exact (ih t ht (hsound t ht) (hwidth.2 t ht) (hall t ht) (hvalid t ht)
        (hdepth t ht)).mapError _
    rw [map_logical, append_assoc]
    refine (reads_byte _ 1).bind ((reads_mode m).bind ((reads_uvarint _ hwidth.1).bind ?_))
    exact hrules.bind ((reads_bool invert).bind_nil (reads_pure _))

/-- **A rule that is nested too deeply, or holds a prefix that is not valid, is not read.** -/
theorem fails_rule (hbad : ¬(r.depth < levels ∧ r.All ValidPrefixes)) :
    Fails (readRule codecs recover levels) bytes := by
  induction r using induction generalizing levels bytes with
  | default rule =>
    cases levels with
    | zero => exact fun _ => ⟨_, rfl⟩
    | succ levels =>
      obtain ⟨parts, hparts, rfl⟩ := writeRule_default_eq_ok hwrite
      rw [all_default] at hsound hbad
      have hinvalid : ¬ValidPrefixes rule := by
        intro hvalid
        exact hbad ⟨Nat.succ_pos _, hvalid⟩
      refine (reads_byte _ 0).bind_fails ?_
      exact (fails_defaultRule (hsound parts hparts) hinvalid).bind_nil _
  | logical mode invert rules ih =>
    cases levels with
    | zero => exact fun _ => ⟨_, rfl⟩
    | succ levels =>
      obtain ⟨m, written, rfl, hwritten, rfl⟩ := writeRule_logical_eq_ok hwrite
      obtain ⟨hall, rfl⟩ := writeRules_eq_ok hwritten
      rw [all_logical] at hsound hbad
      rw [depth, Nat.lt_succ_iff, depthOf_le] at hbad
      rw [width, Nat.max_lt, widthOf_lt (by decide)] at hwidth
      obtain ⟨t, ht, htbad⟩ : ∃ t ∈ rules, ¬(t.depth < levels ∧ t.All ValidPrefixes) := by
        by_contra hnone
        push Not at hnone
        exact hbad ⟨fun t ht => (hnone t ht).1, fun t ht => (hnone t ht).2⟩
      have hrules : Fails (many (fun i =>
            mapError (.cause · (indexMessage "read logical rule [" i))
              (readRule codecs recover levels)) 0 rules.length)
          (rules.flatMap (writtenRule lib codecs generateVersion)) := by
        refine Fails.many (LogicalTree.map (readBack lib codecs generateVersion recover))
          (fun t ht => ?_) ⟨t, ht, fun hreads => ?_⟩ 0
        · by_cases hgood : t.depth < levels ∧ t.All ValidPrefixes
          · exact .inl fun i => (reads_rule (hsound t ht) (hwidth.2 t ht) (hall t ht) hgood.2
              hgood.1).mapError _
          · exact .inr fun i =>
              (ih t ht (hsound t ht) (hwidth.2 t ht) (hall t ht) hgood).mapError _
        · exact ((ih t ht (hsound t ht) (hwidth.2 t ht) (hall t ht) htbad).mapError _).not_reads
            (hreads 0)
      rw [append_assoc]
      refine (reads_byte _ 1).bind_fails ((reads_mode m).bind_fails
        ((reads_uvarint _ hwidth.1).bind_fails ?_))
      exact hrules.bind _ _

end SingBox
