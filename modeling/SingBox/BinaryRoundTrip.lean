/-
**What a compiled rule-set keeps** (`common/srs/binary.go`, `option/rule_set.go`,
`route/rule/rule_headless.go`).

A rule-set that was written and read again should have the conditions of the original and match what
the original matches.  Whether it does is decided rule by rule: the writer has no item for the two
tunnel conditions, writes matchers and address sets from their texts only, and leaves out empty
lists, which `IsValid` counts; the reader bounds the nesting and refuses prefixes that are not
valid.

What is assumed about other packages is assumed for the texts of the rule at hand: their codecs read
what they wrote, and the texts listed for a matcher or an address set stand for the same one.

* `has_decodedRule`, `newDefaultHeadlessRule_readBack` — the conditions of the
  options that are read, and the rule constructed from them;
* `reads_rules`, `fails_rules` — which rule-sets are read;
* `roundTrips_iff_survives` — which rule-sets are kept.
-/

import SingBox.BinaryReading
import SingBox.RuleSet

namespace SingBox

open ByteReader DefaultHeadlessRuleOptions LogicalTree Listable List Option GoString Except Bool

/-! ### Conditions -/

/-- The conditions of a default rule. -/
inductive Condition where
  | strings (field : StringField)
  | uint16s (field : Uint16Field)
  | domain
  | ipCIDR (isSource : Bool)
  | adGuardDomain
  | networkType
  | networkIsExpensive
  | networkIsConstrained
  | networkInterfaceAddress
  | defaultInterfaceAddress
  | tunnelSource
  | tunnelDestination

namespace DefaultHeadlessRuleOptions

/-- The options have the condition, as texts or in binary form. -/
def has (rule : DefaultHeadlessRuleOptions) : Condition → Bool
  | .strings field => (rule.strings field).nonempty
  | .uint16s field => (rule.uint16s field).nonempty
  | .domain => rule.domain.nonempty || rule.domainSuffix.nonempty || rule.domainMatcher.isSome
  | .ipCIDR true => rule.sourceIPCIDR.nonempty || rule.sourceIPSet.isSome
  | .ipCIDR false => rule.ipCIDR.nonempty || rule.ipSet.isSome
  | .adGuardDomain => rule.adGuardDomain.nonempty || rule.adGuardDomainMatcher.isSome
  | .networkType => rule.networkType.nonempty
  | .networkIsExpensive => rule.networkIsExpensive
  | .networkIsConstrained => rule.networkIsConstrained
  | .networkInterfaceAddress => nonempty rule.networkInterfaceAddress
  | .defaultInterfaceAddress => rule.defaultInterfaceAddress.nonempty
  | .tunnelSource => rule.tunnelSource.nonempty
  | .tunnelDestination => rule.tunnelDestination.nonempty

/-- The writer has an item for the condition. -/
def writes (rule : DefaultHeadlessRuleOptions) : Condition → Bool
  | .domain => rule.domain.nonempty || rule.domainSuffix.nonempty
  | .ipCIDR true => rule.sourceIPCIDR.nonempty
  | .ipCIDR false => rule.ipCIDR.nonempty
  | .adGuardDomain => rule.adGuardDomain.nonempty
  | .tunnelSource => false
  | .tunnelDestination => false
  | c => rule.has c

end DefaultHeadlessRuleOptions

/-- Every condition of the options has an item: there is no tunnel condition, and nothing is given
in binary form only. -/
structure Writable (rule : DefaultHeadlessRuleOptions) : Prop where
  tunnelSource : rule.tunnelSource.nonempty = false
  tunnelDestination : rule.tunnelDestination.nonempty = false
  domain : rule.domainMatcher.isSome →
    (rule.domain.nonempty || rule.domainSuffix.nonempty)
  sourceIPSet : rule.sourceIPSet.isSome → rule.sourceIPCIDR.nonempty
  ipSet : rule.ipSet.isSome → rule.ipCIDR.nonempty
  adGuardDomain : rule.adGuardDomainMatcher.isSome → rule.adGuardDomain.nonempty

theorem writable_iff (rule : DefaultHeadlessRuleOptions) :
    Writable rule ↔ ∀ c, rule.has c → rule.writes c := by
  constructor
  · intro h c hc
    cases c with
    | domain =>
      rw [has, or_eq_true] at hc
      exact hc.elim id h.domain
    | ipCIDR isSource =>
      cases isSource with
      | true =>
        rw [has, or_eq_true] at hc
        exact hc.elim id h.sourceIPSet
      | false =>
        rw [has, or_eq_true] at hc
        exact hc.elim id h.ipSet
    | adGuardDomain =>
      rw [has, or_eq_true] at hc
      exact hc.elim id h.adGuardDomain
    | tunnelSource => simp [has, h.tunnelSource] at hc
    | tunnelDestination => simp [has, h.tunnelDestination] at hc
    | _ => exact hc
  · intro h
    refine ⟨?_, ?_, fun hm => h .domain ?_, fun hm => h (.ipCIDR true) ?_,
      fun hm => h (.ipCIDR false) ?_, fun hm => h .adGuardDomain ?_⟩
    · simpa [has, writes] using h .tunnelSource
    · simpa [has, writes] using h .tunnelDestination
    all_goals simp [has, hm]

variable {rule : DefaultHeadlessRuleOptions}

theorem has_of_writes {c : Condition} (h : rule.writes c) : rule.has c := by
  cases c with
  | domain | adGuardDomain => exact Bool.or_eq_true_iff.2 (.inl h)
  | ipCIDR isSource => cases isSource <;> exact Bool.or_eq_true_iff.2 (.inl h)
  | tunnelSource | tunnelDestination => simp [writes] at h
  | _ => exact h

section

variable {α : Type} (l : Listable α)

@[simp] theorem elems_appended (l : List α) : (appended l).elems = l := by
  cases l <;> rfl

theorem nonempty_appended (l : List α) : (appended l).nonempty = !l.isEmpty := by
  rw [nonempty, elems_appended]

@[simp] theorem nonempty_appended_elems : (appended l.elems).nonempty = l.nonempty := by
  rw [nonempty_appended, nonempty]

@[simp] theorem listItem_appended (item : List α → RuleItem) :
    listItem (appended l.elems) item = listItem l item := by
  rw [listItem, nonempty_appended_elems, elems_appended, listItem]

@[simp] theorem parseIfNonempty_appended {β : Type} (option : GoString)
    (parse : List α → Except GoError β) :
    parseIfNonempty (appended l.elems) option parse = parseIfNonempty l option parse := by
  rw [parseIfNonempty, nonempty_appended_elems, elems_appended, parseIfNonempty]

end

theorem isValid_eq_false_iff :
    rule.isValid = false ↔
      (∀ field, rule.strings field = none) ∧ (∀ field, rule.uint16s field = none) ∧
        (rule.domain = none ∧ rule.domainSuffix = none ∧ rule.domainMatcher = none) ∧
        (rule.sourceIPCIDR = none ∧ rule.sourceIPSet = none) ∧
        (rule.ipCIDR = none ∧ rule.ipSet = none) ∧
        (rule.adGuardDomain = none ∧ rule.adGuardDomainMatcher = none) ∧
        rule.networkType = none ∧ rule.networkIsExpensive = false ∧
        rule.networkIsConstrained = false ∧ rule.networkInterfaceAddress = none ∧
        rule.defaultInterfaceAddress = none ∧ rule.tunnelSource = none ∧
        rule.tunnelDestination = none := by
  simp only [isValid, or_eq_false_iff, isSome_eq_false_iff, isNone_iff_eq_none]
  constructor
  · intro h
    refine ⟨fun field => ?_, fun field => ?_, ?_⟩
    · cases field <;> simp_all [strings]
    · cases field <;> simp_all [uint16s]
    · simp_all
  · rintro ⟨hs, hu, h⟩
    have hs := And.intro (hs .network) <| And.intro (hs .domainKeyword) <|
      And.intro (hs .domainRegex) <| And.intro (hs .sourcePortRange) <| And.intro (hs .portRange) <|
      And.intro (hs .processName) <| And.intro (hs .processPath) <|
      And.intro (hs .processPathRegex) <| And.intro (hs .packageName) <|
      And.intro (hs .wifiSSID) (hs .wifiBSSID)
    have hu := And.intro (hu .queryType) <| And.intro (hu .sourcePort) (hu .port)
    simp_all [strings, uint16s]

theorem isValid_of_has {c : Condition} (h : rule.has c) : rule.isValid := by
  by_contra hvalid
  rw [not_eq_true, isValid_eq_false_iff] at hvalid
  obtain ⟨hs, hu, hfields⟩ := hvalid
  cases c with
  | strings field => simp [has, hs, nonempty_none] at h
  | uint16s field => simp [has, hu, nonempty_none] at h
  | ipCIDR isSource =>
    cases isSource <;> simp [has, hfields, nonempty_none] at h
  | _ => simp [has, hfields, nonempty_none] at h

/-! ### The options that are read -/

variable {lib : Libraries} {codecs : Codecs} {generateVersion : UInt8} {recover : Bool}
variable {rule : DefaultHeadlessRuleOptions} {parts : WrittenParts}

theorem writtenParts_eq_ok (h : writtenParts lib generateVersion rule = .ok parts) :
    writtenDomain lib generateVersion rule = .ok parts.domain ∧
      writtenIPSet lib rule.sourceIPCIDR "source_ip_cidr" = .ok parts.sourceIPSet ∧
      writtenIPSet lib rule.ipCIDR "ipcidr" = .ok parts.ipSet := by
  simp only [writtenParts, exceptBind_eq_ok, pure, Except.pure, ok.injEq] at h
  obtain ⟨_, hdom, _, hsrc, _, hipSet, _, _, _, _, _, _, _, _, _, _, _, _, rfl⟩ := h
  exact ⟨hdom, hsrc, hipSet⟩

theorem writtenDomain_eq_ok {o : Option DomainMatcher}
    (h : writtenDomain lib generateVersion rule = .ok o) :
    o = if rule.domain.nonempty || rule.domainSuffix.nonempty then
      some (lib.newMatcher rule.domain.elems rule.domainSuffix.elems (generateVersion == 1))
    else none := by
  unfold writtenDomain at h
  split at h
  · split at h
    · simp at h
    · rw [ok.injEq] at h
      rw [← h, if_pos ‹_›]
  · rw [ok.injEq] at h
    rw [← h, if_neg ‹_›]

variable {texts : Listable GoString}

theorem writtenIPSet_eq_ok {option : String} {o : Option IPSet} :
    writtenIPSet lib texts option = .ok o ↔
      if texts.nonempty then ∃ ipSet, newIPCIDRItem lib texts.elems = .ok ipSet ∧ o = some ipSet
      else o = none := by
  unfold writtenIPSet
  cases texts.nonempty with
  | false => simp [eq_comm]
  | true => cases newIPCIDRItem lib texts.elems <;> simp [eq_comm]

theorem isSome_writtenIPSet {option : String} {o : Option IPSet}
    (h : writtenIPSet lib texts option = .ok o) : o.isSome = texts.nonempty := by
  rw [writtenIPSet_eq_ok] at h
  cases htexts : texts.nonempty with
  | false => simpa [htexts] using h
  | true =>
    rw [htexts, if_pos rfl] at h
    obtain ⟨ipSet, -, rfl⟩ := h
    rfl

/-- **The options that are read have the conditions that were written.** -/
theorem has_decodedRule (h : writtenParts lib generateVersion rule = .ok parts) (c : Condition) :
    (decodedRule lib codecs recover rule parts).has c = rule.writes c := by
  obtain ⟨hdom, hsrc, hipSet⟩ := writtenParts_eq_ok h
  have hdom : parts.domain.isSome = (rule.domain.nonempty || rule.domainSuffix.nonempty) := by
    rw [writtenDomain_eq_ok hdom]
    cases rule.domain.nonempty || rule.domainSuffix.nonempty <;> rfl
  have hsrc := isSome_writtenIPSet hsrc
  have hipSet := isSome_writtenIPSet hipSet
  cases c with
  | strings field | uint16s field =>
    cases field <;> exact nonempty_appended_elems _
  | domain =>
    rw [writes, ← hdom]
    cases hm : parts.domain with
    | none => cases recover <;> simp [has, decodedRule, hm, nonempty_none]
    | some m => simp [has, decodedRule, hm]
  | ipCIDR isSource =>
    cases isSource with
    | true =>
      rw [writes, ← hsrc]
      cases hs : parts.sourceIPSet with
      | none => cases recover <;> simp [has, decodedRule, hs, nonempty_none]
      | some ipSet => simp [has, decodedRule, hs]
    | false =>
      rw [writes, ← hipSet]
      cases hs : parts.ipSet with
      | none => cases recover <;> simp [has, decodedRule, hs, nonempty_none]
      | some ipSet => simp [has, decodedRule, hs]
  | adGuardDomain =>
    rw [writes]
    cases hl : rule.adGuardDomain.nonempty with
    | false =>
      cases recover <;> simp [has, decodedRule, appended_of_empty hl, nonempty_none]
    | true =>
      simp [has, decodedRule, appended_of_nonempty hl]
  | networkType | defaultInterfaceAddress => exact nonempty_appended_elems _
  | networkIsExpensive | networkIsConstrained => rfl
  | networkInterfaceAddress =>
    have hinterface : nonempty (appended (elems rule.networkInterfaceAddress)) =
        nonempty rule.networkInterfaceAddress := nonempty_appended_elems _
    exact hinterface
  | tunnelSource | tunnelDestination => rfl

theorem exists_writes_of_isValid (h : writtenParts lib generateVersion rule = .ok parts)
    (hvalid : (decodedRule lib codecs recover rule parts).isValid) :
    ∃ c, rule.writes c := by
  by_contra hnone
  have hhas : ∀ c, rule.writes c = false := by simpa using hnone
  obtain ⟨hdom, hsrc, hipSet⟩ := writtenParts_eq_ok h
  have hparts : parts = ⟨none, none, none⟩ := by
    have hd : parts.domain = none := by
      rw [writtenDomain_eq_ok hdom, if_neg]
      have hwrites : (rule.domain.nonempty || rule.domainSuffix.nonempty) = false := hhas .domain
      simp [hwrites]
    have hs : parts.sourceIPSet = none := by
      have hsome := isSome_writtenIPSet hsrc
      rw [show rule.sourceIPCIDR.nonempty = false from hhas (.ipCIDR true)] at hsome
      simpa using hsome
    have hi : parts.ipSet = none := by
      have hsome := isSome_writtenIPSet hipSet
      rw [show rule.ipCIDR.nonempty = false from hhas (.ipCIDR false)] at hsome
      simpa using hsome
    cases parts
    simp_all
  have hadGuard : appended rule.adGuardDomain.elems = none :=
    appended_of_empty (hhas .adGuardDomain)
  rw [← not_eq_false] at hvalid
  refine hvalid ((isValid_eq_false_iff).2 ⟨fun field => ?_, fun field => ?_, ?_⟩)
  · have hempty := appended_of_empty (hhas (.strings field))
    cases field <;> exact hempty
  · have hempty := appended_of_empty (hhas (.uint16s field))
    cases field <;> exact hempty
  · have hinterface : appended (elems rule.networkInterfaceAddress) = none :=
      appended_of_empty (hhas .networkInterfaceAddress)
    simp [decodedRule, hparts, hadGuard, appended_of_empty (hhas .networkType), hinterface,
      appended_of_empty (hhas .defaultInterfaceAddress),
      show rule.networkIsExpensive = false from hhas .networkIsExpensive,
      show rule.networkIsConstrained = false from hhas .networkIsConstrained]

/-! ### What is assumed of other packages -/

/-- The matcher for texts: its codec reads it back, the form for version 1 matches the same names,
and so do the texts that it lists when they are asked for. -/
structure MatcherRoundTrips (lib : Libraries) (codecs : Codecs) (generateLegacy recover : Bool)
    (domains domainSuffix : List GoString) : Prop where
  reads : Reads codecs.readMatcher
    (codecs.writeMatcher (lib.newMatcher domains domainSuffix generateLegacy))
    (lib.newMatcher domains domainSuffix generateLegacy)
  sameMatch : (lib.newMatcher domains domainSuffix generateLegacy).Match =
    (lib.newMatcher domains domainSuffix false).Match
  dump : recover → ∀ listed,
    listed = (lib.newMatcher domains domainSuffix generateLegacy).dump →
    (listed.1 ≠ [] ∨ listed.2 ≠ []) ∧ [] ∉ listed.1 ∧ [] ∉ listed.2 ∧
      (lib.newMatcher listed.1 listed.2 false).Match =
        (lib.newMatcher domains domainSuffix false).Match

/-- The AdGuard matcher for rule lines, likewise. -/
structure AdGuardRoundTrips (lib : Libraries) (codecs : Codecs) (recover : Bool)
    (ruleLines : List GoString) : Prop where
  reads : Reads codecs.readAdGuardMatcher
    (codecs.writeAdGuardMatcher (lib.newAdGuardMatcher ruleLines)) (lib.newAdGuardMatcher ruleLines)
  dump : recover → ∀ listed, listed = (lib.newAdGuardMatcher ruleLines).dump →
    listed ≠ [] ∧ (lib.newAdGuardMatcher listed).Match = (lib.newAdGuardMatcher ruleLines).Match

/-- An address set: its addresses have no zone, and the prefixes it is split into make it up. -/
structure IPSetRoundTrips (lib : Libraries) (codecs : Codecs) (recover : Bool) (ipSet : IPSet) :
    Prop where
  length : ipSet.length < 2 ^ 64
  plain : IPSet.Plain ipSet
  prefixes : recover →
    codecs.prefixes ipSet ≠ [] ∧ newIPCIDRItem lib (codecs.prefixes ipSet) = .ok ipSet

/-- What is assumed of other packages for one default rule. -/
structure LibrariesRoundTrip (lib : Libraries) (codecs : Codecs) (generateVersion : UInt8)
    (recover : Bool) (rule : DefaultHeadlessRuleOptions) : Prop where
  domain : (rule.domain.nonempty || rule.domainSuffix.nonempty) →
    MatcherRoundTrips lib codecs (generateVersion == 1) recover rule.domain.elems
      rule.domainSuffix.elems
  adGuardDomain : rule.adGuardDomain.nonempty →
    AdGuardRoundTrips lib codecs recover rule.adGuardDomain.elems
  sourceIPSet : rule.sourceIPCIDR.nonempty → ∀ ipSet,
    newIPCIDRItem lib rule.sourceIPCIDR.elems = .ok ipSet → IPSetRoundTrips lib codecs recover ipSet
  ipSet : rule.ipCIDR.nonempty → ∀ ipSet,
    newIPCIDRItem lib rule.ipCIDR.elems = .ok ipSet → IPSetRoundTrips lib codecs recover ipSet

/-- What every value of the option type satisfies in Go: lengths are 64-bit numbers, a map has no
key twice, and prefixes come from the decoders of options. -/
structure Sized (rule : DefaultHeadlessRuleOptions) : Prop where
  strings : ∀ field, (rule.strings field).elems.length < 2 ^ 64 ∧
    ∀ s ∈ (rule.strings field).elems, s.length < 2 ^ 64
  uint16s : ∀ field, (rule.uint16s field).elems.length < 2 ^ 64
  networkType : rule.networkType.elems.length < 2 ^ 64
  networkInterfaceAddress : (elems rule.networkInterfaceAddress).length < 2 ^ 64 ∧
    ((elems rule.networkInterfaceAddress).map Prod.fst).Nodup ∧
    ∀ entry ∈ elems rule.networkInterfaceAddress, PrefixesCanonical entry.2
  defaultInterfaceAddress : PrefixesCanonical rule.defaultInterfaceAddress.elems

section

/-- The item in a slot, if there is one, is sound. -/
def SlotSound (codecs : Codecs) (slot : Option BinaryItem) : Prop :=
  ∀ item, slot = some item → item.Sound codecs

theorem slotSound_sliceItem {α : Type} {l : Listable α} {item : List α → BinaryItem}
    (h : l.nonempty → (item l.elems).Sound codecs) :
    SlotSound codecs (sliceItem l item) := by
  intro it hit
  unfold sliceItem at hit
  split at hit
  · rw [some.injEq] at hit
    exact hit ▸ h ‹_›
  · simp at hit

theorem slotSound_map {α : Type} {o : Option α} {item : α → BinaryItem}
    (h : ∀ a, o = some a → (item a).Sound codecs) : SlotSound codecs (o.map item) := by
  intro it hit
  obtain ⟨a, ha, rfl⟩ := Option.map_eq_some_iff.1 hit
  exact h a ha

theorem slotSound_flagItem {test : Bool} {item : BinaryItem} (h : item.Sound codecs) :
    SlotSound codecs (flagItem test item) := by
  intro it hit
  unfold flagItem at hit
  split at hit
  · rw [some.injEq] at hit
    exact hit ▸ h
  · simp at hit

theorem sound_writtenIPSet {option : String} {o : Option IPSet}
    {isSource : Bool} (hwritten : writtenIPSet lib texts option = .ok o)
    (h : texts.nonempty → ∀ ipSet, newIPCIDRItem lib texts.elems = .ok ipSet →
      IPSetRoundTrips lib codecs recover ipSet) :
    SlotSound codecs (o.map (.ipCIDR isSource)) := by
  refine slotSound_map fun ipSet hipSet => ?_
  have hne : texts.nonempty := by rw [← isSome_writtenIPSet hwritten, hipSet]; rfl
  rw [writtenIPSet_eq_ok, if_pos hne] at hwritten
  obtain ⟨ipSet', hnew, hsome⟩ := hwritten
  rw [hipSet, some.injEq] at hsome
  subst hsome
  exact ⟨(h hne ipSet hnew).length, (h hne ipSet hnew).plain⟩

/-- **The items written for a rule are sound**, if the codecs of other packages read what they
wrote. -/
theorem writesSound_of_reads (hsized : Sized rule)
    (hmatcher : (rule.domain.nonempty || rule.domainSuffix.nonempty) →
      Reads codecs.readMatcher
        (codecs.writeMatcher (lib.newMatcher rule.domain.elems rule.domainSuffix.elems
          (generateVersion == 1)))
        (lib.newMatcher rule.domain.elems rule.domainSuffix.elems (generateVersion == 1)))
    (hadGuard : rule.adGuardDomain.nonempty →
      Reads codecs.readAdGuardMatcher
        (codecs.writeAdGuardMatcher (lib.newAdGuardMatcher rule.adGuardDomain.elems))
        (lib.newAdGuardMatcher rule.adGuardDomain.elems))
    (hsourceSet : rule.sourceIPCIDR.nonempty → ∀ ipSet,
      newIPCIDRItem lib rule.sourceIPCIDR.elems = .ok ipSet →
        IPSetRoundTrips lib codecs recover ipSet)
    (haddressSet : rule.ipCIDR.nonempty → ∀ ipSet,
      newIPCIDRItem lib rule.ipCIDR.elems = .ok ipSet → IPSetRoundTrips lib codecs recover ipSet) :
    WritesSound lib codecs generateVersion rule := by
  intro parts hparts item hitem
  obtain ⟨hdom, hsrc, hipSet⟩ := writtenParts_eq_ok hparts
  have hslotDomain : SlotSound codecs (parts.domain.map .domain) := by
    refine slotSound_map fun m hm => ?_
    rw [writtenDomain_eq_ok hdom] at hm
    split at hm
    · rw [some.injEq] at hm
      exact hm ▸ hmatcher ‹_›
    · simp at hm
  have hslots : ∀ slot ∈ itemSlots lib rule parts, SlotSound codecs slot := by
    simp only [itemSlots, forall_mem_cons]
    repeat' apply And.intro
    all_goals
      first
      | exact slotSound_sliceItem fun _ => hsized.strings _
      | exact slotSound_sliceItem fun _ => hsized.uint16s _
      | exact slotSound_sliceItem fun _ => hsized.networkType
      | exact slotSound_sliceItem fun _ => hsized.networkInterfaceAddress
      | exact slotSound_sliceItem fun _ => hsized.defaultInterfaceAddress
      | exact slotSound_sliceItem fun h => hadGuard h
      | exact slotSound_flagItem trivial
      | exact hslotDomain
      | exact sound_writtenIPSet hsrc hsourceSet
      | exact sound_writtenIPSet hipSet haddressSet
      | simp
  obtain ⟨slot, hslot, hsome⟩ := List.mem_filterMap.1 hitem
  exact hslots slot hslot item hsome

theorem writesSound (hsized : Sized rule)
    (hlib : LibrariesRoundTrip lib codecs generateVersion recover rule) :
    WritesSound lib codecs generateVersion rule :=
  writesSound_of_reads hsized (fun h => (hlib.domain h).reads)
    (fun h => (hlib.adGuardDomain h).reads) hlib.sourceIPSet hlib.ipSet

/-! ### The rule constructed from the options that are read -/

theorem newDomainItem_eq_ok {domains domainSuffix : List GoString} {p : GoString → Bool} :
    newDomainItem lib domains domainSuffix = .ok p ↔
      ([] ∉ domains ∧ [] ∉ domainSuffix) ∧
        p = (lib.newMatcher domains domainSuffix false).Match := by
  unfold newDomainItem
  split
  · simp_all
  · split
    · simp_all
    · simp_all [eq_comm]

theorem parseIPSet_recovered {written : String} {option : GoString}
    {o raw s : Option IPSet} (hwritten : writtenIPSet lib texts written = .ok o)
    (hlib : texts.nonempty → ∀ ipSet, newIPCIDRItem lib texts.elems = .ok ipSet →
      IPSetRoundTrips lib codecs recover ipSet) (hraw : raw.isSome → texts.nonempty)
    (h : parseIfNonempty texts option (newIPCIDRItem lib) = .ok s) :
    ∃ s', parseIfNonempty (if recover then o.map codecs.prefixes else none) option
      (newIPCIDRItem lib) = .ok s' ∧ (s <|> raw) = (s' <|> o) := by
  rw [writtenIPSet_eq_ok] at hwritten
  cases hpresent : texts.nonempty with
  | false =>
    have hnone : raw = none := by simpa [hpresent] using hraw
    rw [hpresent] at hwritten
    obtain rfl : o = none := by simpa using hwritten
    rw [parseIfNonempty, hpresent] at h
    obtain rfl : none = s := by simpa using h
    exact ⟨none, by simp [parseIfNonempty, nonempty_none], by rw [hnone]⟩
  | true =>
    rw [if_pos hpresent] at hwritten
    obtain ⟨ipSet, hnew, rfl⟩ := hwritten
    rw [parseIfNonempty, if_pos hpresent, hnew] at h
    obtain rfl : some ipSet = s := by simpa using h
    cases recover with
    | false => exact ⟨none, by simp [parseIfNonempty, nonempty_none], rfl⟩
    | true =>
      obtain ⟨hne, hprefixes⟩ := (hlib hpresent ipSet hnew).prefixes rfl
      refine ⟨some ipSet, ?_, rfl⟩
      have hlisted : nonempty (some (codecs.prefixes ipSet)) := by
        simpa [nonempty, elems] using hne
      rw [if_pos rfl, map_some, parseIfNonempty, if_pos hlisted]
      rw [show elems (some (codecs.prefixes ipSet)) = codecs.prefixes ipSet from rfl, hprefixes]

theorem listItem_of_empty {α : Type} {l : Listable α} (h : l.nonempty = false)
    (item : List α → RuleItem) : listItem l item = [] := by
  rw [listItem, h]
  rfl

variable (hlib : LibrariesRoundTrip lib codecs generateVersion recover rule) (hw : Writable rule)

include hlib hw

theorem parseDomain_decodedRule (hparts : writtenParts lib generateVersion rule = .ok parts)
    {domain : Option (GoString → Bool)} (h : parseDomain lib rule = .ok domain) :
    parseDomain lib (decodedRule lib codecs recover rule parts) = .ok domain := by
  have hdom := writtenDomain_eq_ok (writtenParts_eq_ok hparts).1
  cases hpresent : rule.domain.nonempty || rule.domainSuffix.nonempty with
  | false =>
    -- neither texts nor a matcher: nothing is written and nothing is read
    have hnone : rule.domainMatcher = none := by
      have hmatcher := hw.domain
      rw [hpresent] at hmatcher
      simpa using hmatcher
    rw [hpresent] at hdom
    simp only [false_eq_true, if_false] at hdom
    rw [parseDomain, hpresent, hnone] at h
    rw [← h, parseDomain]
    simp [decodedRule, hdom, nonempty_none]
  | true =>
    rw [hpresent, if_pos rfl] at hdom
    have hround := hlib.domain hpresent
    have hmatch : some (lib.newMatcher rule.domain.elems rule.domainSuffix.elems false).Match =
        domain := by
      rw [parseDomain, if_pos hpresent] at h
      cases hitem : newDomainItem lib rule.domain.elems rule.domainSuffix.elems with
      | error err => simp [hitem, Except.map] at h
      | ok p =>
        rw [← (newDomainItem_eq_ok.1 hitem).2]
        simpa [hitem, Except.map] using h
    rw [← hmatch, parseDomain]
    cases recover with
    | false => simp [decodedRule, hdom, nonempty_none, hround.sameMatch]
    | true =>
      obtain ⟨hne, hd, hs, hdump⟩ := hround.dump rfl _ rfl
      have hlisted := newDomainItem_eq_ok.2 ⟨⟨hd, hs⟩, hdump.symm⟩
      simp only [decodedRule, hdom, if_true, bind_some, elems_appended, nonempty_appended]
      rw [if_pos (by simpa [or_iff_not_imp_left] using hne), hlisted]
      rfl

theorem parseItems_decodedRule (hparts : writtenParts lib generateVersion rule = .ok parts)
    {parsed : ParsedItems} (h : parseItems lib rule = .ok parsed) :
    parseItems lib (decodedRule lib codecs recover rule parts) = .ok parsed := by
  obtain ⟨-, hsrc, hipSet⟩ := writtenParts_eq_ok hparts
  obtain ⟨hdom, hregex, ⟨s, hs, hsparsed⟩, ⟨t, ht, htparsed⟩, hsourceRange, hrange, hpath⟩ :=
    parseItems_eq_ok.1 h
  obtain ⟨s', hs', hseq⟩ := parseIPSet_recovered hsrc hlib.sourceIPSet hw.sourceIPSet hs
  obtain ⟨t', ht', hteq⟩ := parseIPSet_recovered hipSet hlib.ipSet hw.ipSet ht
  refine parseItems_eq_ok.2 ⟨parseDomain_decodedRule hlib hw hparts hdom, ?_,
    ⟨s', hs', hsparsed.trans hseq⟩, ⟨t', ht', htparsed.trans hteq⟩, ?_, ?_, ?_⟩
  all_goals rwa [decodedRule, parseIfNonempty_appended]

theorem adGuardItems_decodedRule :
    adGuardItems lib (decodedRule lib codecs recover rule parts) = adGuardItems lib rule := by
  cases hpresent : rule.adGuardDomain.nonempty with
  | false =>
    have hnone : rule.adGuardDomainMatcher = none := by
      simpa [hpresent] using hw.adGuardDomain
    simp [adGuardItems, decodedRule, hpresent, hnone, appended_of_empty hpresent,
      nonempty_none, optionalItem]
  | true =>
    cases recover with
    | false =>
      simp [adGuardItems, decodedRule, hpresent, appended_of_nonempty hpresent,
        nonempty_none, optionalItem]
    | true =>
      obtain ⟨hne, hdump⟩ := (hlib.adGuardDomain hpresent).dump rfl _ rfl
      simp [adGuardItems, decodedRule, hpresent, appended_of_nonempty hpresent,
        nonempty_appended, hne, hdump]

theorem headlessGroups_decodedRule (parts : WrittenParts) (networkManager : Bool)
    (parsed : ParsedItems) :
    headlessGroups lib networkManager (decodedRule lib codecs recover rule parts) parsed =
      headlessGroups lib networkManager rule parsed := by
  have hnetwork : networkItems (decodedRule lib codecs recover rule parts) = networkItems rule := by
    simp [networkItems, decodedRule]
  have hplain : plainItems networkManager (decodedRule lib codecs recover rule parts) parsed =
      plainItems networkManager rule parsed := by
    rw [plainItems, plainItems, hnetwork]
    simp [decodedRule, listItem_of_empty hw.tunnelSource, listItem_of_empty hw.tunnelDestination,
      listItem_of_empty nonempty_none]
  rw [headlessGroups, headlessGroups, hplain, adGuardItems_decodedRule hlib hw]
  simp [decodedRule]

/-- **The constructor makes the same rule from the options that are read.** -/
theorem newDefaultHeadlessRule_readBack
    (hwritten : ∃ parts, writtenParts lib generateVersion rule = .ok parts) {networkManager : Bool}
    {r : DefaultHeadlessRule} (h : newDefaultHeadlessRule lib networkManager rule = .ok r) :
    newDefaultHeadlessRule lib networkManager (readBack lib codecs generateVersion recover rule) =
      .ok r := by
  obtain ⟨parts, hparts⟩ := hwritten
  obtain ⟨parsed, hparsed, rfl⟩ := newDefaultHeadlessRule_eq_ok h
  have hgroups := headlessGroups_decodedRule hlib hw parts networkManager parsed
  rw [readBack, hparts, newDefaultHeadlessRule, parseItems_decodedRule hlib hw hparts hparsed]
  simp only [assembleHeadlessRule, hgroups]

end

/-! ### Rules -/

section

variable {networkManager : Bool}

theorem isValid_leaves {r : HeadlessRuleOptions} (h : HeadlessRuleOptions.isValid r) :
    r.All fun o => o.isValid := by
  induction r using induction with
  | default o => exact all_default _ _ |>.2 h
  | logical mode invert rules ih =>
    rw [HeadlessRuleOptions.isValid, and_eq_true, HeadlessRuleOptions.allValid_eq_true] at h
    rw [all_logical]
    intro t ht
    exact ih t ht (h.2 t ht)

theorem newHeadlessRule_map {f : DefaultHeadlessRuleOptions → DefaultHeadlessRuleOptions}
    {r : HeadlessRuleOptions}
    (hleaf : r.All fun o => o.isValid → ∀ d,
      newDefaultHeadlessRule lib networkManager o = .ok d →
        (f o).isValid ∧ newDefaultHeadlessRule lib networkManager (f o) = .ok d)
    {rule : HeadlessRule} (h : newHeadlessRule lib networkManager r = .ok rule) :
    newHeadlessRule lib networkManager (r.map f) = .ok rule := by
  induction r using induction generalizing rule with
  | default o =>
    obtain ⟨hvalid, d, hd, rfl⟩ := newDefault_eq_ok.1 h
    obtain ⟨hvalid', hd'⟩ := all_default _ _ |>.1 hleaf hvalid d hd
    exact newDefault_eq_ok.2 ⟨hvalid', d, hd', rfl⟩
  | logical mode invert rules ih =>
    obtain ⟨hvalid, m, rs, rfl, hrs, rfl⟩ := newLogical_eq_ok.1 h
    rw [all_logical] at hleaf
    rw [newHeadlessRules_eq_ok] at hrs
    have hstep : ∀ t ∈ rules, ∀ rule, newHeadlessRule lib networkManager t = .ok rule →
        newHeadlessRule lib networkManager (t.map f) = .ok rule :=
      fun t ht rule => ih t ht (hleaf t ht)
    have hmap : List.Forall₂ (fun o r => newHeadlessRule lib networkManager o = .ok r)
        (rules.map (map f)) rs :=
      List.forall₂_map_left_iff.2
        (((forall₂_and_left _ _).2 ⟨hstep, hrs⟩).imp fun t rule htr => htr.1 rule htr.2)
    have hallValid : ∀ t ∈ rules.map (LogicalTree.map f), HeadlessRuleOptions.isValid t :=
      ((forall₂_and_left _ _).1 (hmap.imp fun t rule ht =>
        And.intro (isValid_of_newHeadlessRule ht) ht)).1
    have hvalid' : HeadlessRuleOptions.isValid
        (.logical (.known m) invert (rules.map (map f))) := by
      rw [HeadlessRuleOptions.isValid, and_eq_true] at hvalid ⊢
      exact ⟨by simpa using hvalid.1, HeadlessRuleOptions.allValid_eq_true.2 hallValid⟩
    rw [map_logical]
    exact newLogical_eq_ok.2 ⟨hvalid', m, rs, rfl, newHeadlessRules_eq_ok.2 hmap, rfl⟩

end

/-! ### Rule-sets -/

/-- The second rule has the conditions of the first, default rule by default rule, and if the first
can be constructed so can the second, to a rule that matches the same. -/
structure SameRule (lib : Libraries) (r r' : HeadlessRuleOptions) : Prop where
  conditions : List.Forall₂ (fun o o' => ∀ c, has o c →
    has o' c) r.leaves r'.leaves
  matches_ : ∀ networkManager rule, newHeadlessRule lib networkManager r = .ok rule →
    ∃ rule', newHeadlessRule lib networkManager r' = .ok rule' ∧
      ∀ env metadata, HeadlessRule.Match env rule' metadata = HeadlessRule.Match env rule metadata

/-- What was written is read, and nothing is lost. -/
def RoundTrips (lib : Libraries) (codecs : Codecs) (recover : Bool) (generateVersion : UInt8)
    (rules : List HeadlessRuleOptions) (bytes : List UInt8) : Prop :=
  ∃ rules', srsRead codecs recover bytes = .ok (generateVersion, rules') ∧
    List.Forall₂ (SameRule lib) rules rules'

/-- The rules that survive: not nested deeper than the reader goes, with an item for every
condition, with valid prefixes, and without default rules of empty lists only, unless the rule
cannot be constructed anyway. -/
structure Survives (lib : Libraries) (r : HeadlessRuleOptions) : Prop where
  depth : r.depth ≤ maxLogicalRuleDepth
  writable : r.All Writable
  validPrefixes : r.All ValidPrefixes
  hasCondition : (∃ networkManager rule, newHeadlessRule lib networkManager r = .ok rule) →
    r.All fun o => ∃ c, o.has c

section

variable {r : HeadlessRuleOptions}

theorem writtenParts_of_writeRule {bytes : List UInt8}
    (h : writeRule lib codecs generateVersion r = .ok bytes) :
    r.All fun o => ∃ parts, writtenParts lib generateVersion o = .ok parts := by
  induction r using induction generalizing bytes with
  | default o =>
    obtain ⟨parts, hparts, -⟩ := writeRule_default_eq_ok h
    exact all_default _ _ |>.2 ⟨parts, hparts⟩
  | logical mode invert rules ih =>
    obtain ⟨m, written, -, hwritten, -⟩ := writeRule_logical_eq_ok h
    rw [all_logical]
    intro t ht
    exact ih t ht ((writeRules_eq_ok hwritten).1 t ht)

theorem has_readBack
    (h : ∃ parts, writtenParts lib generateVersion rule = .ok parts) (c : Condition) :
    (readBack lib codecs generateVersion recover rule).has c = rule.writes c := by
  obtain ⟨parts, hparts⟩ := h
  rw [readBack, hparts]
  exact has_decodedRule hparts c

section

variable (hwritten : r.All fun o => ∃ parts, writtenParts lib generateVersion o = .ok parts)

include hwritten

theorem conditions_readBack_iff :
    List.Forall₂ (fun o o' => ∀ c, has o c →
        has o' c) r.leaves
        (r.map (readBack lib codecs generateVersion recover)).leaves ↔ r.All Writable := by
  rw [leaves_map, forall₂_map_right_iff, forall₂_same]
  refine forall₂_congr fun o ho => ?_
  rw [writable_iff]
  refine forall_congr' fun c => ?_
  rw [has_readBack (hwritten o ho)]

/-- **The rule that is read for a rule with an item for every condition is the same**, if no default
rule consists of empty lists only. -/
theorem sameRule_readBack_iff
    (hlib : r.All (LibrariesRoundTrip lib codecs generateVersion recover)) :
    SameRule lib r (r.map (readBack lib codecs generateVersion recover)) ↔
      r.All Writable ∧ ((∃ networkManager rule, newHeadlessRule lib networkManager r = .ok rule) →
        r.All fun o => ∃ c, o.has c) := by
  constructor
  · intro h
    have hwritable := (conditions_readBack_iff hwritten).1 h.conditions
    refine ⟨hwritable, ?_⟩
    rintro ⟨networkManager, rule, hrule⟩ o ho
    obtain ⟨rule', hrule', -⟩ := h.matches_ networkManager rule hrule
    -- the options that are read are valid, so something was written
    have hleaves := isValid_leaves (isValid_of_newHeadlessRule hrule')
    have hvalid : (readBack lib codecs generateVersion recover o).isValid := by
      refine hleaves _ ?_
      rw [leaves_map]
      exact List.mem_map_of_mem ho
    obtain ⟨parts, hparts⟩ := hwritten o ho
    rw [readBack, hparts] at hvalid
    obtain ⟨c, hc⟩ := exists_writes_of_isValid hparts hvalid
    exact ⟨c, has_of_writes hc⟩
  · rintro ⟨hwritable, hcondition⟩
    refine ⟨(conditions_readBack_iff hwritten).2 hwritable, ?_⟩
    intro networkManager rule hrule
    have hhas := hcondition ⟨networkManager, rule, hrule⟩
    refine ⟨rule, newHeadlessRule_map ?_ hrule, fun _ _ => rfl⟩
    intro o ho _ d hd
    obtain ⟨c, hc⟩ := hhas o ho
    have hread : (readBack lib codecs generateVersion recover o).has c := by
      rw [has_readBack (hwritten o ho)]
      exact (writable_iff o).1 (hwritable o ho) c hc
    exact ⟨isValid_of_has hread,
      newDefaultHeadlessRule_readBack (hlib o ho) (hwritable o ho) (hwritten o ho) hd⟩

end

theorem srsRead_header {version : UInt8} (hversion : version ≤ 4) {stream : List UInt8}
    (hzlib : codecs.inflate (codecs.deflate stream) = .ok stream) :
    srsRead codecs recover (magicBytes ++ version :: codecs.deflate stream) =
      (readRules codecs recover stream).map fun result => (version, result.1) := by
  have hmagic : readFull ioErrors 3 (magicBytes ++ version :: codecs.deflate stream) =
      .ok (magicBytes, version :: codecs.deflate stream) := reads_full ioErrors magicBytes _
  have hle : ¬4 < version := by
    rw [UInt8.not_lt]
    exact hversion
  rw [srsRead, hmagic]
  simp only [bind, Except.bind, ne_eq, not_true_eq_false, if_false, readUint8, readByte, hle, hzlib]
  cases readRules codecs recover stream <;> rfl

section

variable (recover : Bool) {rules : List HeadlessRuleOptions} (hlength : rules.length < 2 ^ 64)
  (hwidth : ∀ r ∈ rules, r.width < 2 ^ 64)
  (hsound : ∀ r ∈ rules, r.All (WritesSound lib codecs generateVersion)) {written : List UInt8}
  (hwrite : writeRules lib codecs generateVersion rules = .ok written)

include hlength hwidth hsound hwrite

theorem reads_rules (hgood : ∀ r ∈ rules, r.depth ≤ maxLogicalRuleDepth ∧ r.All ValidPrefixes) :
    Reads (readRules codecs recover) (putUvarint rules.length ++ written)
      (rules.map (map (readBack lib codecs generateVersion recover))) := by
  obtain ⟨hall, rfl⟩ := writeRules_eq_ok hwrite
  refine (reads_uvarint _ hlength).bind (Reads.many _ (fun r hr i => ?_) 0)
  exact (reads_rule (hsound r hr) (hwidth r hr) (hall r hr) (hgood r hr).2
    (Nat.lt_succ_of_le (hgood r hr).1)).mapError _

theorem fails_rules (hbad : ¬∀ r ∈ rules, r.depth ≤ maxLogicalRuleDepth ∧ r.All ValidPrefixes) :
    Fails (readRules codecs recover) (putUvarint rules.length ++ written) := by
  obtain ⟨hall, rfl⟩ := writeRules_eq_ok hwrite
  have hfails : ∀ r ∈ rules, ¬(r.depth ≤ maxLogicalRuleDepth ∧ r.All ValidPrefixes) → ∀ i : ℕ,
      Fails (mapError (.cause · (indexMessage "read rule[" i))
        (readRule codecs recover (maxLogicalRuleDepth + 1)))
        (writtenRule lib codecs generateVersion r) := by
    intro r hr hrbad i
    rw [← Nat.lt_succ_iff] at hrbad
    exact (fails_rule (hsound r hr) (hwidth r hr) (hall r hr) hrbad).mapError _
  refine (reads_uvarint _ hlength).bind_fails
    (Fails.many (LogicalTree.map (readBack lib codecs generateVersion recover))
      (fun r hr => ?_) ?_ 0)
  · by_cases hgood : r.depth ≤ maxLogicalRuleDepth ∧ r.All ValidPrefixes
    · exact .inl fun i => (reads_rule (hsound r hr) (hwidth r hr) (hall r hr) hgood.2
        (Nat.lt_succ_of_le hgood.1)).mapError _
    · exact .inr (hfails r hr hgood)
  · obtain ⟨r, hr, hrbad⟩ :
        ∃ r ∈ rules, ¬(r.depth ≤ maxLogicalRuleDepth ∧ r.All ValidPrefixes) := by
      by_contra hnone
      push Not at hnone
      exact hbad hnone
    exact ⟨r, hr, fun hreads => (hfails r hr hrbad 0).not_reads (hreads 0)⟩

end

/-- **A rule-set that was written comes back unchanged exactly if each of its rules survives.** -/
theorem roundTrips_iff_survives {rules : List HeadlessRuleOptions} {bytes : List UInt8}
    (hzlib : ∀ stream, codecs.inflate (codecs.deflate stream) = .ok stream)
    (hversion : generateVersion ≤ 4) (hlength : rules.length < 2 ^ 64)
    (hwidth : ∀ r ∈ rules, r.width < 2 ^ 64) (hsized : ∀ r ∈ rules, r.All Sized)
    (hlib : ∀ r ∈ rules, r.All (LibrariesRoundTrip lib codecs generateVersion recover))
    (hwrite : srsWrite lib codecs rules generateVersion = .ok bytes) :
    RoundTrips lib codecs recover generateVersion rules bytes ↔ ∀ r ∈ rules, Survives lib r := by
  simp only [srsWrite, exceptBind_eq_ok, pure, Except.pure, ok.injEq] at hwrite
  obtain ⟨written, hwritten, rfl⟩ := hwrite
  have hsound : ∀ r ∈ rules, r.All (WritesSound lib codecs generateVersion) := by
    intro r hr o ho
    exact writesSound (hsized r hr o ho) (hlib r hr o ho)
  have hparts : ∀ r ∈ rules, r.All fun o =>
      ∃ parts, writtenParts lib generateVersion o = .ok parts :=
    fun r hr => writtenParts_of_writeRule ((writeRules_eq_ok hwritten).1 r hr)
  rw [RoundTrips, srsRead_header hversion (hzlib _)]
  by_cases hgood : ∀ r ∈ rules, r.depth ≤ maxLogicalRuleDepth ∧ r.All ValidPrefixes
  · -- the rules that are read are known, and are compared one by one
    have hread := reads_rules recover hlength hwidth hsound hwritten hgood []
    rw [append_nil] at hread
    have hsame : ∀ r ∈ rules,
        (SameRule lib r (r.map (readBack lib codecs generateVersion recover)) ↔
          Survives lib r) := by
      intro r hr
      rw [sameRule_readBack_iff (hparts r hr) (hlib r hr)]
      exact ⟨fun h => ⟨(hgood r hr).1, h.1, (hgood r hr).2, h.2⟩,
        fun h => ⟨h.writable, h.hasCondition⟩⟩
    rw [hread, ← forall₂_congr hsame]
    simp [Except.map, forall₂_map_right_iff, forall₂_same]
  · -- nothing is read
    obtain ⟨err, herr⟩ := fails_rules recover hlength hwidth hsound hwritten hgood []
    rw [append_nil] at herr
    constructor
    · rintro ⟨rules', hread, -⟩
      simp [herr, Except.map] at hread
    · intro hall
      exact absurd (fun r hr => ⟨(hall r hr).depth, (hall r hr).validPrefixes⟩) hgood

end

/-! ### Cases -/

/-- The addresses of the prefix `10.0.0.0/8`. -/
def privateNet : IPSet := [⟨.v4 0x0a000000, .v4 0x0affffff⟩]

/-- Codecs that write the lists and do not compress. -/
def textCodecs : Codecs where
  deflate := id
  inflate := .ok
  writeMatcher := fun m => putList writeString m.dump.1 ++ putList writeString m.dump.2
  readMatcher := do
    let domains ← readStrings
    let domainSuffix ← readStrings
    return textLibraries.newMatcher domains domainSuffix false
  writeAdGuardMatcher := fun m => putList writeString m.dump
  readAdGuardMatcher := do return textLibraries.newAdGuardMatcher (← readStrings)
  prefixes := fun ipSet => if ipSet = privateNet then ["10.0.0.0/8"] else []

theorem matcherRoundTrips_text (generateLegacy recover : Bool)
    {domains domainSuffix : List GoString} (hne : domains ≠ [] ∨ domainSuffix ≠ [])
    (hdomains : domains.length < 2 ^ 64 ∧ ∀ s ∈ domains, s ≠ [] ∧ s.length < 2 ^ 64)
    (hsuffix : domainSuffix.length < 2 ^ 64 ∧ ∀ s ∈ domainSuffix, s ≠ [] ∧ s.length < 2 ^ 64) :
    MatcherRoundTrips textLibraries textCodecs generateLegacy recover domains domainSuffix where
  reads := (reads_strings hdomains.1 fun s hs => (hdomains.2 s hs).2).bind
    ((reads_strings hsuffix.1 fun s hs => (hsuffix.2 s hs).2).bind_nil (reads_pure _))
  sameMatch := rfl
  dump := by
    rintro - listed rfl
    exact ⟨hne, fun h => (hdomains.2 [] h).1 rfl, fun h => (hsuffix.2 [] h).1 rfl, rfl⟩

/-- A rule for a domain on the private net: a logical rule of two default rules. -/
def privateExample : HeadlessRuleOptions :=
  .logical (.known .and) false
    [.default { domainSuffix := some ["example.org"] },
      .default { ipCIDR := some ["10.0.0.0/8"], port := some [443] }]

theorem survives_privateExample : Survives textLibraries privateExample where
  depth := by decide
  writable := by
    simp only [privateExample, all_logical, forall_mem_cons, all_default]
    exact ⟨⟨rfl, rfl, by simp, by simp, by simp, by simp⟩,
      ⟨rfl, rfl, by simp, by simp, by simp, by simp⟩, by simp⟩
  validPrefixes := by
    simp only [privateExample, all_logical, forall_mem_cons, all_default]
    exact ⟨by simp [ValidPrefixes, interfacePrefixes, elems],
      by simp [ValidPrefixes, interfacePrefixes, elems],
      by simp⟩
  hasCondition := by
    intro _
    simp only [privateExample, all_logical, forall_mem_cons, all_default]
    exact ⟨⟨.domain, rfl⟩, ⟨.ipCIDR false, rfl⟩, by simp⟩

theorem sized_privateExample : privateExample.All Sized := by
  simp only [privateExample, all_logical, forall_mem_cons, all_default]
  refine ⟨⟨fun field => ?_, fun field => ?_, by decide, ?_, ?_⟩,
    ⟨fun field => ?_, fun field => ?_, by decide, ?_, ?_⟩, by simp⟩
  all_goals
    first
    | cases field <;> simp [strings, uint16s, elems]
    | simp [elems, PrefixesCanonical]

theorem librariesRoundTrip_privateExample :
    privateExample.All (LibrariesRoundTrip textLibraries textCodecs 2 true) := by
  simp only [privateExample, all_logical, forall_mem_cons, all_default]
  refine ⟨⟨fun _ => ?_, fun h => ?_, fun h => ?_, fun h => ?_⟩,
    ⟨fun h => ?_, fun h => ?_, fun h => ?_, fun _ ipSet hipSet => ?_⟩, by simp⟩
  · exact matcherRoundTrips_text _ _ (by decide) (by decide) (by decide)
  all_goals try (exact absurd h (by decide))
  · have hset : ipSet = privateNet := by
      have heq : newIPCIDRItem textLibraries ["10.0.0.0/8"] = .ok privateNet := rfl
      exact ok.inj (hipSet.symm.trans heq)
    rw [hset]
    refine ⟨by decide, ?_, fun _ => ⟨by decide, rfl⟩⟩
    simp [IPSet.Plain, privateNet, Addr.Plain, Addr.isValid, Addr.zone]

theorem roundTrips_privateExample :
    ∃ bytes, srsWrite textLibraries textCodecs [privateExample] 2 = .ok bytes ∧
      RoundTrips textLibraries textCodecs true 2 [privateExample] bytes := by
  refine ⟨_, rfl, (roundTrips_iff_survives (fun _ => rfl) (by decide) (by decide)
    ?_ ?_ ?_ rfl).2 ?_⟩
  · exact List.forall_mem_singleton.2 (by decide)
  · exact List.forall_mem_singleton.2 sized_privateExample
  · exact List.forall_mem_singleton.2 librariesRoundTrip_privateExample
  · exact List.forall_mem_singleton.2 survives_privateExample

/-- A rule for what comes through a tunnel. -/
def tunnelExample : HeadlessRuleOptions :=
  .default
    { network := some ["tcp"], tunnelSource := some ["exit"] }

/-- What is read for it. -/
def tunnelRead : HeadlessRuleOptions := .default { network := some ["tcp"] }

/-- The tunnel condition is dropped without an error, and the rule then matches connections that
came through no tunnel. -/
theorem tunnelExample_dropped :
    ∃ bytes rule rule', srsWrite textLibraries textCodecs [tunnelExample] 4 = .ok bytes ∧
      srsRead textCodecs false bytes = .ok (4, [tunnelRead]) ∧
      newHeadlessRule textLibraries false tunnelExample = .ok rule ∧
      newHeadlessRule textLibraries false tunnelRead = .ok rule' ∧
      HeadlessRule.Match .offline rule { network := "tcp" } = false ∧
      HeadlessRule.Match .offline rule' { network := "tcp" } = true ∧
      ¬RoundTrips textLibraries textCodecs false 4 [tunnelExample] bytes := by
  refine ⟨_, _, _, rfl, rfl, rfl, rfl, rfl, rfl, ?_⟩
  rintro ⟨rules', hread, hsame⟩
  obtain rfl : [tunnelRead] = rules' := congrArg Prod.snd (ok.inj hread)
  obtain ⟨⟨hconditions, -⟩, -⟩ := List.forall₂_cons.1 hsame
  have hlost := (List.forall₂_cons.1 hconditions).1 .tunnelSource rfl
  exact absurd hlost (by decide)

end SingBox
