/-
**One rule in a stream** (`common/srs/binary.go`, `ip_set.go`).

The reader of a rule-set reads rule after rule from one stream, so that each rule must be read from
exactly the bytes that were written for it, whatever follows.  And what is read must be the rule
that was written: the same tree, with the same lists and flags, and with the same sets of domains
and addresses, which are written in another form than the texts of the options.

* `sameOptions_decodedRule_iff` — what is read is the same, if the sets are given in texts;
* `readsSame_iff` — **a rule is read back with any trailing bytes exactly if its sets are
  given in texts and its prefixes are valid**.
-/

import SingBox.BinaryRoundTrip

namespace SingBox

open ByteReader Listable

/-! ### The same rule -/

/-- The domains of a rule: those of its texts, or else those of its matcher. -/
def domainSet (lib : Libraries) (rule : DefaultHeadlessRuleOptions) : Option (GoString → Bool) :=
  if rule.domain.nonempty || rule.domainSuffix.nonempty then
    some (lib.newMatcher rule.domain.elems rule.domainSuffix.elems false).Match
  else rule.domainMatcher.map DomainMatcher.Match

/-- The addresses of a condition: those of its texts, or else those of its set. -/
def addressSet (lib : Libraries) (texts : Listable GoString) (ipSet : Option IPSet) :
    Option (Except GoError IPSet) :=
  if texts.nonempty then some (newIPCIDRItem lib texts.elems) else ipSet.map .ok

/-- The names of the AdGuard condition, likewise. -/
def adGuardSet (lib : Libraries) (rule : DefaultHeadlessRuleOptions) :
    Option (GoString → Bool) :=
  if rule.adGuardDomain.nonempty then
    some (lib.newAdGuardMatcher rule.adGuardDomain.elems).Match
  else rule.adGuardDomainMatcher.map AdGuardMatcher.Match

/-- **The same default rule**, up to the form of its sets: all lists have the same elements, all
flags and all sets are the same. -/
structure SameOptions (lib : Libraries) (o o' : DefaultHeadlessRuleOptions) : Prop where
  strings : ∀ field, (o'.strings field).elems = (o.strings field).elems
  uint16s : ∀ field, (o'.uint16s field).elems = (o.uint16s field).elems
  networkType : o'.networkType.elems = o.networkType.elems
  networkIsExpensive : o'.networkIsExpensive = o.networkIsExpensive
  networkIsConstrained : o'.networkIsConstrained = o.networkIsConstrained
  networkInterfaceAddress :
    elems o'.networkInterfaceAddress = elems o.networkInterfaceAddress
  defaultInterfaceAddress : o'.defaultInterfaceAddress.elems = o.defaultInterfaceAddress.elems
  tunnelSource : o'.tunnelSource.elems = o.tunnelSource.elems
  tunnelDestination : o'.tunnelDestination.elems = o.tunnelDestination.elems
  invert : o'.invert = o.invert
  domain : domainSet lib o' = domainSet lib o
  sourceIPSet : addressSet lib o'.sourceIPCIDR o'.sourceIPSet =
    addressSet lib o.sourceIPCIDR o.sourceIPSet
  ipSet : addressSet lib o'.ipCIDR o'.ipSet = addressSet lib o.ipCIDR o.ipSet
  adGuardDomain : adGuardSet lib o' = adGuardSet lib o

/-- The same tree of rules: the same modes, flags and nesting, and the same default rules. -/
structure SameTree (lib : Libraries) (r r' : HeadlessRuleOptions) : Prop where
  shape : r'.map (fun _ => ()) = r.map fun _ => ()
  leaves : List.Forall₂ (SameOptions lib) r.leaves r'.leaves

/-- Neither of the two tunnel conditions. -/
def NoTunnel (rule : DefaultHeadlessRuleOptions) : Prop :=
  rule.tunnelSource.nonempty = false ∧ rule.tunnelDestination.nonempty = false

/-- No set is given in binary form only. -/
structure GivenInTexts (rule : DefaultHeadlessRuleOptions) : Prop where
  domain : rule.domainMatcher.isSome →
    (rule.domain.nonempty || rule.domainSuffix.nonempty)
  sourceIPSet : rule.sourceIPSet.isSome → rule.sourceIPCIDR.nonempty
  ipSet : rule.ipSet.isSome → rule.ipCIDR.nonempty
  adGuardDomain : rule.adGuardDomainMatcher.isSome → rule.adGuardDomain.nonempty

/-! ### What is assumed of other packages -/

/-- For the texts of one default rule: codecs read what they wrote, a matcher of version 1 matches
the same names, and texts that are listed stand for the same set. -/
structure SetsRoundTrip (lib : Libraries) (codecs : Codecs) (generateVersion : UInt8)
    (recover : Bool) (rule : DefaultHeadlessRuleOptions) : Prop where
  domain : (rule.domain.nonempty || rule.domainSuffix.nonempty) → ∀ matcher,
    matcher = lib.newMatcher rule.domain.elems rule.domainSuffix.elems (generateVersion == 1) →
      Reads codecs.readMatcher (codecs.writeMatcher matcher) matcher ∧
      matcher.Match = (lib.newMatcher rule.domain.elems rule.domainSuffix.elems false).Match ∧
      (recover → (matcher.dump.1 ≠ [] ∨ matcher.dump.2 ≠ []) ∧
        (lib.newMatcher matcher.dump.1 matcher.dump.2 false).Match = matcher.Match)
  adGuardDomain : rule.adGuardDomain.nonempty →
    AdGuardRoundTrips lib codecs recover rule.adGuardDomain.elems
  sourceIPSet : rule.sourceIPCIDR.nonempty → ∀ ipSet,
    newIPCIDRItem lib rule.sourceIPCIDR.elems = .ok ipSet → IPSetRoundTrips lib codecs recover ipSet
  ipSet : rule.ipCIDR.nonempty → ∀ ipSet,
    newIPCIDRItem lib rule.ipCIDR.elems = .ok ipSet → IPSetRoundTrips lib codecs recover ipSet

variable {lib : Libraries} {codecs : Codecs} {generateVersion : UInt8} {recover : Bool}
variable {rule : DefaultHeadlessRuleOptions} {parts : WrittenParts}

theorem SetsRoundTrip.writesSound (hlib : SetsRoundTrip lib codecs generateVersion recover rule)
    (hsized : Sized rule) : WritesSound lib codecs generateVersion rule :=
  writesSound_of_reads hsized (fun h => (hlib.domain h _ rfl).1)
    (fun h => (hlib.adGuardDomain h).reads) hlib.sourceIPSet hlib.ipSet

/-! ### The sets that are read -/

theorem domainSet_decodedRule (hparts : writtenParts lib generateVersion rule = .ok parts)
    (hlib : SetsRoundTrip lib codecs generateVersion recover rule) :
    domainSet lib (decodedRule lib codecs recover rule parts) =
      if rule.domain.nonempty || rule.domainSuffix.nonempty then
        some (lib.newMatcher rule.domain.elems rule.domainSuffix.elems false).Match
      else none := by
  have hdom := writtenDomain_eq_ok (writtenParts_eq_ok hparts).1
  cases hpresent : rule.domain.nonempty || rule.domainSuffix.nonempty with
  | false =>
    rw [hpresent] at hdom
    have hnone : parts.domain = none := hdom
    simp [domainSet, decodedRule, hnone, nonempty_none]
  | true =>
    rw [hpresent, if_pos rfl] at hdom
    obtain ⟨-, hsame, hdump⟩ := hlib.domain hpresent _ rfl
    rw [if_pos rfl, domainSet]
    cases recover with
    | false => simp [decodedRule, hdom, nonempty_none, hsame]
    | true =>
      obtain ⟨hne, hlisted⟩ := hdump rfl
      simp only [decodedRule, hdom, if_true, Option.bind_some, elems_appended, nonempty_appended]
      rw [if_pos (by simpa [or_iff_not_imp_left] using hne), hlisted, hsame]

theorem addressSet_recovered {texts : Listable GoString} {written : String} {o : Option IPSet}
    (hwritten : writtenIPSet lib texts written = .ok o)
    (hlib : texts.nonempty → ∀ ipSet, newIPCIDRItem lib texts.elems = .ok ipSet →
      IPSetRoundTrips lib codecs recover ipSet) :
    addressSet lib (if recover then o.map codecs.prefixes else none) o =
      if texts.nonempty then some (newIPCIDRItem lib texts.elems) else none := by
  rw [writtenIPSet_eq_ok] at hwritten
  cases hpresent : texts.nonempty with
  | false =>
    rw [hpresent] at hwritten
    obtain rfl : o = none := hwritten
    simp [addressSet, nonempty_none]
  | true =>
    rw [if_pos hpresent] at hwritten
    obtain ⟨ipSet, hnew, rfl⟩ := hwritten
    rw [if_pos rfl, hnew]
    cases recover with
    | false => simp [addressSet, nonempty_none]
    | true =>
      obtain ⟨hne, hprefixes⟩ := (hlib hpresent ipSet hnew).prefixes rfl
      have hlisted : Listable.nonempty (some (codecs.prefixes ipSet)) := by
        simpa [Listable.nonempty, elems] using hne
      rw [if_pos rfl, Option.map_some, addressSet, if_pos hlisted]
      exact congrArg some hprefixes

theorem adGuardSet_decodedRule (hlib : SetsRoundTrip lib codecs generateVersion recover rule) :
    adGuardSet lib (decodedRule lib codecs recover rule parts) =
      if rule.adGuardDomain.nonempty then
        some (lib.newAdGuardMatcher rule.adGuardDomain.elems).Match
      else none := by
  cases hpresent : rule.adGuardDomain.nonempty with
  | false =>
    simp [adGuardSet, decodedRule, appended_of_empty hpresent, nonempty_none]
  | true =>
    cases recover with
    | false =>
      simp [adGuardSet, decodedRule, appended_of_nonempty hpresent, nonempty_none]
    | true =>
      obtain ⟨hne, hdump⟩ := (hlib.adGuardDomain hpresent).dump rfl _ rfl
      simp [adGuardSet, decodedRule, appended_of_nonempty hpresent, nonempty_appended,
        hne, hdump]

/-- A set that is read from texts only is the set of the options, unless there are no texts and the
set is given in binary form. -/
theorem ite_eq_ite_map_iff {α β : Type} (present : Bool) (a : β) (o : Option α) (f : α → β) :
    (if present then some a else none) = (if present then some a else o.map f) ↔
      (o.isSome → present) := by
  cases present with
  | true => simp
  | false => cases o <;> simp

/-- **What is read for a default rule is the same rule exactly if its sets are given in texts.** -/
theorem sameOptions_decodedRule_iff (hparts : writtenParts lib generateVersion rule = .ok parts)
    (hlib : SetsRoundTrip lib codecs generateVersion recover rule) (htunnel : NoTunnel rule) :
    SameOptions lib rule (decodedRule lib codecs recover rule parts) ↔ GivenInTexts rule := by
  obtain ⟨-, hsrc, hipSet⟩ := writtenParts_eq_ok hparts
  have hdom : domainSet lib (decodedRule lib codecs recover rule parts) = domainSet lib rule ↔
      (rule.domainMatcher.isSome → (rule.domain.nonempty || rule.domainSuffix.nonempty)) := by
    rw [domainSet_decodedRule hparts hlib, domainSet]
    exact ite_eq_ite_map_iff ..
  have hsourceSet : addressSet lib (decodedRule lib codecs recover rule parts).sourceIPCIDR
      (decodedRule lib codecs recover rule parts).sourceIPSet =
        addressSet lib rule.sourceIPCIDR rule.sourceIPSet ↔
      (rule.sourceIPSet.isSome → rule.sourceIPCIDR.nonempty) := by
    have hread := addressSet_recovered hsrc hlib.sourceIPSet
    rw [addressSet.eq_def lib rule.sourceIPCIDR, ← ite_eq_ite_map_iff _ _ _ Except.ok, ← hread]
    rfl
  have haddressSet : addressSet lib (decodedRule lib codecs recover rule parts).ipCIDR
      (decodedRule lib codecs recover rule parts).ipSet = addressSet lib rule.ipCIDR rule.ipSet ↔
      (rule.ipSet.isSome → rule.ipCIDR.nonempty) := by
    have hread := addressSet_recovered hipSet hlib.ipSet
    rw [addressSet.eq_def lib rule.ipCIDR, ← ite_eq_ite_map_iff _ _ _ Except.ok, ← hread]
    rfl
  have hadGuard : adGuardSet lib (decodedRule lib codecs recover rule parts) =
        adGuardSet lib rule ↔
      (rule.adGuardDomainMatcher.isSome → rule.adGuardDomain.nonempty) := by
    rw [adGuardSet_decodedRule hlib, adGuardSet]
    exact ite_eq_ite_map_iff ..
  constructor
  · intro h
    exact ⟨hdom.1 h.domain, hsourceSet.1 h.sourceIPSet, haddressSet.1 h.ipSet,
      hadGuard.1 h.adGuardDomain⟩
  · intro h
    exact {
      strings := fun field => by cases field <;> exact elems_appended _
      uint16s := fun field => by cases field <;> exact elems_appended _
      networkType := elems_appended _
      networkIsExpensive := rfl
      networkIsConstrained := rfl
      networkInterfaceAddress := elems_appended (elems rule.networkInterfaceAddress)
      defaultInterfaceAddress := elems_appended _
      tunnelSource := (elems_of_empty htunnel.1).symm
      tunnelDestination := (elems_of_empty htunnel.2).symm
      invert := rfl
      domain := hdom.2 h.domain
      sourceIPSet := hsourceSet.2 h.sourceIPSet
      ipSet := haddressSet.2 h.ipSet
      adGuardDomain := hadGuard.2 h.adGuardDomain }

/-! ### Trees -/

theorem sameTree_readBack_iff {r : HeadlessRuleOptions}
    (hwritten : r.All fun o => ∃ parts, writtenParts lib generateVersion o = .ok parts)
    (hlib : r.All (SetsRoundTrip lib codecs generateVersion recover)) (htunnel : r.All NoTunnel) :
    SameTree lib r (r.map (readBack lib codecs generateVersion recover)) ↔ r.All GivenInTexts := by
  have hleaf : ∀ o ∈ r.leaves,
      (SameOptions lib o (readBack lib codecs generateVersion recover o) ↔ GivenInTexts o) := by
    intro o ho
    obtain ⟨parts, hparts⟩ := hwritten o ho
    rw [readBack, hparts]
    exact sameOptions_decodedRule_iff hparts (hlib o ho) (htunnel o ho)
  have hleaves : List.Forall₂ (SameOptions lib) r.leaves
      (r.map (readBack lib codecs generateVersion recover)).leaves ↔ r.All GivenInTexts := by
    rw [LogicalTree.leaves_map, List.forall₂_map_right_iff, List.forall₂_same]
    exact forall₂_congr hleaf
  exact ⟨fun h => hleaves.1 h.leaves, fun h => ⟨LogicalTree.map_map _ _ r, hleaves.2 h⟩⟩

/-- With any trailing bytes the same rule is read, and the trailing bytes are left. -/
def ReadsSame (lib : Libraries) (codecs : Codecs) (recover : Bool) (r : HeadlessRuleOptions)
    (bytes : List UInt8) : Prop :=
  ∀ trailing, ∃ r', readRule codecs recover (maxLogicalRuleDepth + 1) (bytes ++ trailing) =
    .ok (r', trailing) ∧ SameTree lib r r'

/-- **A rule without tunnel conditions that was written, and is not nested too deeply, is read back
with any trailing bytes exactly if its prefixes are valid and its sets are given in texts.** -/
theorem readsSame_iff {r : HeadlessRuleOptions} {bytes : List UInt8} (hwidth : r.width < 2 ^ 64)
    (hsized : r.All Sized) (hlib : r.All (SetsRoundTrip lib codecs generateVersion recover))
    (htunnel : r.All NoTunnel) (hdepth : r.depth ≤ maxLogicalRuleDepth)
    (hwrite : writeRule lib codecs generateVersion r = .ok bytes) :
    ReadsSame lib codecs recover r bytes ↔ r.All ValidPrefixes ∧ r.All GivenInTexts := by
  have hsound : r.All (WritesSound lib codecs generateVersion) :=
    fun o ho => (hlib o ho).writesSound (hsized o ho)
  have hsame := sameTree_readBack_iff (writtenParts_of_writeRule hwrite) hlib htunnel
  by_cases hvalid : r.All ValidPrefixes
  · -- what is read is known, and is compared with the rule
    have hreads : Reads (readRule codecs recover (maxLogicalRuleDepth + 1)) bytes
        (r.map (readBack lib codecs generateVersion recover)) :=
      reads_rule hsound hwidth hwrite hvalid (Nat.lt_succ_of_le hdepth)
    rw [and_iff_right hvalid, ← hsame]
    constructor
    · intro h
      obtain ⟨r', hread, hr'⟩ := h []
      have hpair := Except.ok.inj ((hreads []).symm.trans hread)
      obtain rfl := congrArg Prod.fst hpair
      exact hr'
    · intro h trailing
      exact ⟨_, hreads trailing, h⟩
  · -- nothing is read
    have hfails : Fails (readRule codecs recover (maxLogicalRuleDepth + 1)) bytes :=
      fails_rule hsound hwidth hwrite fun h => hvalid h.2
    refine iff_of_false (fun h => ?_) fun h => hvalid h.1
    obtain ⟨r', hread, -⟩ := h []
    obtain ⟨err, herr⟩ := hfails []
    rw [herr] at hread
    cases hread

/-! ### Cases -/

theorem setsRoundTrip_privateExample :
    privateExample.All (SetsRoundTrip textLibraries textCodecs 2 true) := by
  intro o ho
  have hlib := librariesRoundTrip_privateExample o ho
  refine ⟨fun h matcher hmatcher => ?_, hlib.adGuardDomain, hlib.sourceIPSet, hlib.ipSet⟩
  subst hmatcher
  have hround := hlib.domain h
  refine ⟨hround.reads, hround.sameMatch, fun hrecover => ?_⟩
  obtain ⟨hne, -, -, hdump⟩ := hround.dump hrecover _ rfl
  exact ⟨hne, hdump.trans hround.sameMatch.symm⟩

theorem privateExample_readsSame :
    ∃ bytes, writeRule textLibraries textCodecs 2 privateExample = .ok bytes ∧
      ReadsSame textLibraries textCodecs true privateExample bytes := by
  have hsurvives := survives_privateExample
  refine ⟨_, rfl, (readsSame_iff (by decide) sized_privateExample setsRoundTrip_privateExample
    (fun o ho => ?_) hsurvives.depth rfl).2 ⟨hsurvives.validPrefixes, fun o ho => ?_⟩⟩
  · exact ⟨(hsurvives.writable o ho).tunnelSource, (hsurvives.writable o ho).tunnelDestination⟩
  · have hwritable := hsurvives.writable o ho
    exact ⟨hwritable.domain, hwritable.sourceIPSet, hwritable.ipSet, hwritable.adGuardDomain⟩

/-- A rule whose only condition is a list with a prefix that is missing. -/
def nullPrefixExample : HeadlessRuleOptions :=
  .default { defaultInterfaceAddress := some [⟨.zero, 0⟩] }

theorem nullPrefixExample_not_read :
    ∃ bytes, writeRule textLibraries textCodecs 4 nullPrefixExample = .ok bytes ∧
      (∀ trailing, ∃ err, readRule textCodecs false (maxLogicalRuleDepth + 1) (bytes ++ trailing) =
        .error err) ∧
      ¬ReadsSame textLibraries textCodecs false nullPrefixExample bytes := by
  have hread : ∀ trailing, ∃ err, readRule textCodecs false (maxLogicalRuleDepth + 1)
      ([0, 22, 1, 0, 255, 255, 0] ++ trailing) = .error err := fun trailing => ⟨_, rfl⟩
  refine ⟨_, rfl, hread, fun h => ?_⟩
  obtain ⟨r', hsame, -⟩ := h []
  obtain ⟨err, herr⟩ := hread []
  cases herr.symm.trans hsame

end SingBox
