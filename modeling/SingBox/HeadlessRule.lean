/-
**Headless rules** (`option/rule_set.go`, `route/rule/rule_headless.go`).

The rules inside a rule-set are *headless*: they have conditions and no action.  Their options are
decoded from JSON or from the binary format with every slice either nil or present, a difference
that `IsValid` sees; the constructors then turn options into the rules that are evaluated.  Both
decoders set the type of a rule to `default` or `logical`, so the empty type does not occur.

Domain matchers, AdGuard matchers, regular expressions and the builder of address sets belong to
other packages and are gathered in `Libraries`.

* `newDefaultHeadlessRule_eq_ok` — what a constructed default rule is made of.
-/

import SingBox.RuleAbstract

namespace SingBox

open GoString RuleItem Except

/-! ### Options -/

/-- `badoption.Listable`: a slice, which may be nil. -/
abbrev Listable (α : Type) : Type := Option (List α)

/-- The elements of a slice; a nil slice has none. -/
def Listable.elems {α : Type} (l : Listable α) : List α := l.getD []

variable {α : Type}

theorem elems_some (l : List α) : Listable.elems (some l) = l := rfl

/-- `len(l) > 0`. -/
def Listable.nonempty {α : Type} (l : Listable α) : Bool := !l.elems.isEmpty

theorem nonempty_none : Listable.nonempty (none : Listable α) = false := rfl

theorem nonempty_some (l : List α) : Listable.nonempty (some l) = !l.isEmpty := rfl

/-- `domain.Matcher`, as its callers see it: what it matches and what `Dump` lists. -/
structure DomainMatcher where
  Match : GoString → Bool
  dump : List GoString × List GoString

/-- `domain.AdGuardMatcher`, likewise. -/
structure AdGuardMatcher where
  Match : GoString → Bool
  dump : List GoString

/-- What the constructors take from other packages. -/
structure Libraries where
  newMatcher : (domains domainSuffix : List GoString) → (generateLegacy : Bool) → DomainMatcher
  newAdGuardMatcher : (ruleLines : List GoString) → AdGuardMatcher
  compileRegexp : GoString → Option (GoString → Bool)
  buildIPSet : List (Prefix ⊕ Addr) → Except GoError IPSet

/-- `option.DefaultHeadlessRule`. -/
structure DefaultHeadlessRuleOptions where
  queryType : Listable UInt16 := none
  (network domain domainSuffix domainKeyword domainRegex sourceIPCIDR ipCIDR
    : Listable GoString := none)
  sourcePort : Listable UInt16 := none
  sourcePortRange : Listable GoString := none
  port : Listable UInt16 := none
  (portRange processName processPath processPathRegex packageName : Listable GoString := none)
  networkType : Listable UInt8 := none
  (networkIsExpensive networkIsConstrained : Bool := false)
  (wifiSSID wifiBSSID : Listable GoString := none)
  invert : Bool := false
  domainMatcher : Option DomainMatcher := none
  (sourceIPSet ipSet : Option IPSet := none)
  adGuardDomain : Listable GoString := none
  adGuardDomainMatcher : Option AdGuardMatcher := none
  (tunnelSource tunnelDestination : Listable GoString := none)
  networkInterfaceAddress : Option (List (UInt8 × List Prefix)) := none
  defaultInterfaceAddress : Listable Prefix := none

/-- `DefaultHeadlessRule.IsValid`: the options differ from the zero value in a field other than
`Invert`.  An empty slice that is not nil is such a difference. -/
def DefaultHeadlessRuleOptions.isValid (r : DefaultHeadlessRuleOptions) : Bool :=
  r.queryType.isSome || r.network.isSome || r.domain.isSome || r.domainSuffix.isSome ||
    r.domainKeyword.isSome || r.domainRegex.isSome || r.sourceIPCIDR.isSome || r.ipCIDR.isSome ||
    r.sourcePort.isSome || r.sourcePortRange.isSome || r.port.isSome || r.portRange.isSome ||
    r.processName.isSome || r.processPath.isSome || r.processPathRegex.isSome ||
    r.packageName.isSome || r.networkType.isSome || r.networkIsExpensive ||
    r.networkIsConstrained || r.wifiSSID.isSome || r.wifiBSSID.isSome || r.domainMatcher.isSome ||
    r.sourceIPSet.isSome || r.ipSet.isSome || r.adGuardDomain.isSome ||
    r.adGuardDomainMatcher.isSome || r.tunnelSource.isSome || r.tunnelDestination.isSome ||
    r.networkInterfaceAddress.isSome || r.defaultInterfaceAddress.isSome

/-- The `Mode` of a logical rule's options, which is not checked when it is decoded. -/
inductive LogicalModeOption where
  | known (mode : LogicalType)
  | unknown (mode : GoString)
  deriving DecidableEq

/-- `option.HeadlessRule`. -/
abbrev HeadlessRuleOptions : Type := LogicalTree LogicalModeOption DefaultHeadlessRuleOptions

namespace HeadlessRuleOptions

mutual

/-- `HeadlessRule.IsValid`: a logical rule has rules, all of them valid. -/
def isValid : HeadlessRuleOptions → Bool
  | .default options => options.isValid
  | .logical _ _ rules => !rules.isEmpty && allValid rules

/-- `common.All (r.Rules, HeadlessRule.IsValid)`. -/
def allValid : List HeadlessRuleOptions → Bool
  | [] => true
  | r :: rs => isValid r && allValid rs

end

theorem allValid_eq_true {rules : List HeadlessRuleOptions} :
    allValid rules ↔ ∀ r ∈ rules, isValid r := by
  induction rules with
  | nil => simp [allValid]
  | cons r rs ih => rw [allValid, Bool.and_eq_true, ih, List.forall_mem_cons]

end HeadlessRuleOptions

/-! ### Default rules -/

/-- `rule.DefaultHeadlessRule`.  No headless rule includes a rule-set, and the conditions that read
the IP of the destination are `ip_cidr` items in their own list. -/
structure DefaultHeadlessRule extends AbstractDefaultRule Empty where
  blind : ∀ it ∈ toAbstractDefaultRule.conditionItems, it.readsDestinationIP = false
  ipCIDRs : ∀ it ∈ destinationIPCIDRItems, ∃ ipSet, it = .ipCIDR false ipSet

/-- `NewDomainItem`, without its description. -/
def newDomainItem (lib : Libraries) (domains domainSuffixes : List GoString) :
    Except GoError (GoString → Bool) :=
  if domains.contains [] then
    .error (.new "domain: empty item is not allowed")
  else if domainSuffixes.contains [] then
    .error (.new "domain_suffix: empty item is not allowed")
  else .ok (lib.newMatcher domains domainSuffixes false).Match

/-- The loop of `NewDomainRegexItem` and `NewProcessPathRegexItem`, from index `i` on. -/
def compileExpressions (lib : Libraries) :
    ℕ → List GoString → Except GoError (List (GoString → Bool))
  | _, [] => .ok []
  | i, regex :: rest =>
    match lib.compileRegexp regex with
    | none =>
      .error (.cause (.library "regexp.Compile" regex)
        ("parse expression " ++ ofNat i))
    | some matcher => do return matcher :: (← compileExpressions lib (i + 1) rest)

variable {lib : Libraries}

theorem compileExpressions_eq_ok {i : ℕ} {regexps : List GoString}
    {matchers : List (GoString → Bool)} :
    compileExpressions lib i regexps = .ok matchers ↔
      List.Forall₂ (fun regex matcher => lib.compileRegexp regex = some matcher)
        regexps matchers := by
  induction regexps generalizing i matchers with
  | nil => cases matchers <;> simp [compileExpressions]
  | cons regex rest ih =>
    rw [compileExpressions]
    cases hregex : lib.compileRegexp regex with
    | none => cases matchers <;> simp [hregex]
    | some matcher =>
      simp only [exceptBind_eq_ok, ih, pure, Except.pure, ok.injEq]
      cases matchers with
      | nil => simp
      | cons matcher' matchers =>
        simp only [List.cons.injEq, List.forall₂_cons, hregex, Option.some.injEq]
        constructor
        · rintro ⟨_, hrest, rfl, rfl⟩
          exact ⟨rfl, hrest⟩
        · rintro ⟨rfl, hrest⟩
          exact ⟨matchers, hrest, rfl, rfl⟩

/-- The loop of `NewIPCIDRItem`, from index `i` on: each text is a prefix or an address. -/
def parseIPCIDRs : ℕ → List GoString → Except GoError (List (Prefix ⊕ Addr))
  | _, [] => .ok []
  | i, text :: rest =>
    match Prefix.parsePrefix text, Addr.parseAddr text with
    | some p, _ => do return .inl p :: (← parseIPCIDRs (i + 1) rest)
    | none, some a => do return .inr a :: (← parseIPCIDRs (i + 1) rest)
    | none, none =>
      .error (.cause (.library "netip.ParsePrefix" text)
        ("parse [" ++ ofNat i ++ "]"))

/-- `NewIPCIDRItem`, without its description. -/
def newIPCIDRItem (lib : Libraries) (texts : List GoString) : Except GoError IPSet := do
  lib.buildIPSet (← parseIPCIDRs 0 texts)

/-- One round of `NewPortRangeItem`: `start:end`, either of which may be missing. -/
def parsePortRange (portRange : GoString) : Except GoError (UInt16 × UInt16) :=
  let badPortRange := GoError.extend (.new "bad port range") portRange
  let bound (s : GoString) (missing : UInt16) : Except GoError UInt16 :=
    if s = [] then .ok missing
    else
      match s.parseUint 16 with
      | none =>
        .error (.cause (.library "strconv.ParseUint" s) badPortRange.text)
      | some n => .ok (.ofNat n)
  match portRange.cut 58 with
  | none => .error badPortRange
  | some (before, after) => do return (← bound before 0, ← bound after 0xFFFF)

/-- `NewPortRangeItem`, without its description. -/
def newPortRangeItem (rangeList : List GoString) : Except GoError (List (UInt16 × UInt16)) :=
  rangeList.mapM parsePortRange

/-- Parsing what is there: `E.Cause` adds the name of the option to an error. -/
def parseIfNonempty {α β : Type} (l : Listable α) (option : GoString)
    (parse : List α → Except GoError β) : Except GoError (Option β) :=
  if l.nonempty then
    match parse l.elems with
    | .error err => .error (.cause err option)
    | .ok x => .ok (some x)
  else .ok none

/-- The parts of a default rule whose construction can fail. -/
structure ParsedItems where
  domain : Option (GoString → Bool)
  domainRegex : Option (List (GoString → Bool))
  (sourceIPSet ipSet : Option IPSet)
  (sourcePortRange portRange : Option (List (UInt16 × UInt16)))
  processPathRegex : Option (List (GoString → Bool))

/-- The domain item: texts, or else a matcher that was read in binary form. -/
def parseDomain (lib : Libraries) (options : DefaultHeadlessRuleOptions) :
    Except GoError (Option (GoString → Bool)) :=
  if options.domain.nonempty || options.domainSuffix.nonempty then
    (newDomainItem lib options.domain.elems options.domainSuffix.elems).map some
  else .ok (options.domainMatcher.map DomainMatcher.Match)

/-- The fallible steps of `NewDefaultHeadlessRule`, in its order.  An address set that was read in
binary form is used when there is no text. -/
def parseItems (lib : Libraries) (options : DefaultHeadlessRuleOptions) :
    Except GoError ParsedItems := do
  let domain ← parseDomain lib options
  let domainRegex ← parseIfNonempty options.domainRegex "domain_regex"
    (compileExpressions lib 0)
  let sourceIPSet ← parseIfNonempty options.sourceIPCIDR "source_ip_cidr"
    (newIPCIDRItem lib)
  let ipSet ← parseIfNonempty options.ipCIDR "ipcidr" (newIPCIDRItem lib)
  let sourcePortRange ← parseIfNonempty options.sourcePortRange
    "source_port_range" newPortRangeItem
  let portRange ← parseIfNonempty options.portRange "port_range"
    newPortRangeItem
  let processPathRegex ← parseIfNonempty options.processPathRegex
    "process_path_regex" (compileExpressions lib 0)
  return {
    sourceIPSet := sourceIPSet <|> options.sourceIPSet
    ipSet := ipSet <|> options.ipSet
    domain, domainRegex, sourcePortRange, portRange, processPathRegex }

variable {options : DefaultHeadlessRuleOptions}

theorem parseItems_eq_ok {parsed : ParsedItems} :
    parseItems lib options = .ok parsed ↔
      parseDomain lib options = .ok parsed.domain ∧
      parseIfNonempty options.domainRegex "domain_regex"
        (compileExpressions lib 0) = .ok parsed.domainRegex ∧
      (∃ s, parseIfNonempty options.sourceIPCIDR "source_ip_cidr"
        (newIPCIDRItem lib) = .ok s ∧ parsed.sourceIPSet = (s <|> options.sourceIPSet)) ∧
      (∃ s, parseIfNonempty options.ipCIDR "ipcidr"
        (newIPCIDRItem lib) = .ok s ∧ parsed.ipSet = (s <|> options.ipSet)) ∧
      parseIfNonempty options.sourcePortRange "source_port_range"
        newPortRangeItem = .ok parsed.sourcePortRange ∧
      parseIfNonempty options.portRange "port_range" newPortRangeItem = .ok parsed.portRange ∧
      parseIfNonempty options.processPathRegex "process_path_regex"
        (compileExpressions lib 0) = .ok parsed.processPathRegex := by
  simp only [parseItems, exceptBind_eq_ok, pure, Except.pure, ok.injEq]
  constructor
  · rintro ⟨domain, hdom, regex, hregex, source, hsrc, ipSet, hipSet, sourceRange,
      hsourceRange, range, hrange, pathRegex, hpathRegex, rfl⟩
    exact ⟨hdom, hregex, ⟨source, hsrc, rfl⟩, ⟨ipSet, hipSet, rfl⟩, hsourceRange, hrange,
      hpathRegex⟩
  · rintro ⟨hdom, hregex, ⟨source, hsrc, hsrc'⟩, ⟨ipSet, hipSet, hipSet'⟩, hsourceRange,
      hrange, hpathRegex⟩
    refine ⟨_, hdom, _, hregex, source, hsrc, ipSet, hipSet, _, hsourceRange, _, hrange, _,
      hpathRegex, ?_⟩
    rw [← hsrc', ← hipSet']

theorem parseItems_ipSet_eq_none {parsed : ParsedItems} (h : parseItems lib options = .ok parsed)
    (htext : options.ipCIDR.nonempty = false) (hset : options.ipSet = none) :
    parsed.ipSet = none := by
  obtain ⟨-, -, -, ⟨ipSet, hipSet, hparsed⟩, -⟩ := parseItems_eq_ok.1 h
  simp only [parseIfNonempty, htext, Bool.false_eq_true, if_false, ok.injEq] at hipSet
  simp [hparsed, ← hipSet, hset]

/-- The item of a non-empty slice. -/
def listItem {α : Type} (l : Listable α) (item : List α → RuleItem) : List RuleItem :=
  if l.nonempty then [item l.elems] else []

/-- The item of an optional part. -/
def optionalItem {α : Type} (o : Option α) (item : α → RuleItem) : List RuleItem :=
  (o.map item).toList

/-- An item under a condition. -/
def itemIf (test : Bool) (item : RuleItem) : List RuleItem := if test then [item] else []

/-- No item of the list reads what `reads` is about. -/
def Avoids (reads : RuleItem → Bool) (items : List RuleItem) : Prop :=
  ∀ it ∈ items, reads it = false

section

variable {reads : RuleItem → Bool}

@[simp] theorem avoids_nil : Avoids reads [] := by simp [Avoids]

@[simp] theorem avoids_append (l l' : List RuleItem) :
    Avoids reads (l ++ l') ↔ Avoids reads l ∧ Avoids reads l' := by
  simp [Avoids, or_imp, forall_and]

theorem avoids_listItem (l : Listable α) {item : List α → RuleItem}
    (h : ∀ x, reads (item x) = false) : Avoids reads (listItem l item) := by
  unfold listItem Avoids
  split <;> simp [h]

theorem avoids_optionalItem (o : Option α) {item : α → RuleItem}
    (h : ∀ x, reads (item x) = false) : Avoids reads (optionalItem o item) := by
  cases o <;> simp [optionalItem, Avoids, h]

theorem avoids_itemIf (test : Bool) {item : RuleItem} (h : reads item = false) :
    Avoids reads (itemIf test item) := by
  cases test <;> simp [itemIf, Avoids, h]

end

/-- The items of `NewDefaultHeadlessRule` that ask the network manager. -/
def networkItems (options : DefaultHeadlessRuleOptions) : List RuleItem :=
  listItem options.networkType .networkType ++
    itemIf options.networkIsExpensive .networkIsExpensive ++
    itemIf options.networkIsConstrained .networkIsConstrained ++
    listItem options.wifiSSID .wifiSSID ++ listItem options.wifiBSSID .wifiBSSID ++
    listItem options.networkInterfaceAddress .networkInterfaceAddress ++
    listItem options.defaultInterfaceAddress .defaultInterfaceAddress

/-- The items that belong to no group. -/
def plainItems (networkManager : Bool) (options : DefaultHeadlessRuleOptions)
    (parsed : ParsedItems) : List RuleItem :=
  listItem options.queryType .queryType ++ listItem options.network .network ++
    listItem options.tunnelSource .tunnelSource ++
    listItem options.tunnelDestination .tunnelDestination ++
    listItem options.processName .processName ++ listItem options.processPath .processPath ++
    optionalItem parsed.processPathRegex .processPathRegex ++
    listItem options.packageName .packageName ++
    (if networkManager then networkItems options else [])

/-- The AdGuard item: rule lines, or else a matcher that was read in binary form. -/
def adGuardItems (lib : Libraries) (options : DefaultHeadlessRuleOptions) : List RuleItem :=
  if options.adGuardDomain.nonempty then
    [.adGuardDomain (lib.newAdGuardMatcher options.adGuardDomain.elems).Match]
  else optionalItem options.adGuardDomainMatcher fun m => .adGuardDomain m.Match

section

variable (lib : Libraries) (networkManager : Bool) (options : DefaultHeadlessRuleOptions)
  (parsed : ParsedItems)

theorem avoids_networkItems : Avoids readsDestinationIP (networkItems options) := by
  simp only [networkItems, avoids_append]
  repeat' apply And.intro
  all_goals
    first
    | exact avoids_listItem _ fun _ => rfl
    | exact avoids_itemIf _ rfl

theorem avoids_plainItems :
    Avoids readsDestinationIP (plainItems networkManager options parsed) := by
  have hnetwork : Avoids readsDestinationIP
      (if networkManager then networkItems options else []) := by
    cases networkManager with
    | true => exact avoids_networkItems options
    | false => exact avoids_nil
  simp only [plainItems, avoids_append]
  refine ⟨?_, hnetwork⟩
  repeat' apply And.intro
  all_goals
    first
    | exact avoids_listItem _ fun _ => rfl
    | exact avoids_optionalItem _ fun _ => rfl

theorem avoids_adGuardItems : Avoids readsDestinationIP (adGuardItems lib options) := by
  unfold adGuardItems
  split
  · simp [Avoids, readsDestinationIP, readsResponse]
  · exact avoids_optionalItem _ fun _ => rfl

/-- The groups of a default headless rule. -/
def headlessGroups (lib : Libraries) (networkManager : Bool)
    (options : DefaultHeadlessRuleOptions) (parsed : ParsedItems) : AbstractDefaultRule Empty where
  items := plainItems networkManager options parsed
  sourceAddressItems := optionalItem parsed.sourceIPSet (.ipCIDR true)
  sourcePortItems := listItem options.sourcePort (.port true) ++
    optionalItem parsed.sourcePortRange (.portRange true)
  destinationAddressItems := optionalItem parsed.domain .domain ++
    listItem options.domainKeyword .domainKeyword ++
    optionalItem parsed.domainRegex .domainRegex ++ adGuardItems lib options
  destinationIPCIDRItems := optionalItem parsed.ipSet (.ipCIDR false)
  destinationPortItems := listItem options.port (.port false) ++
    optionalItem parsed.portRange (.portRange false)
  invert := options.invert

theorem avoids_headlessGroups :
    Avoids readsDestinationIP
      (headlessGroups lib networkManager options parsed).conditionItems := by
  simp only [AbstractDefaultRule.conditionItems, headlessGroups, avoids_append]
  refine ⟨⟨⟨⟨avoids_plainItems _ _ _, ?_⟩, ?_⟩, ?_, avoids_adGuardItems _ _⟩, ?_⟩ <;>
    repeat' apply And.intro
  all_goals
    first
    | exact avoids_listItem _ fun _ => rfl
    | exact avoids_optionalItem _ fun _ => rfl

end

/-- The rule made of the groups. -/
def assembleHeadlessRule (lib : Libraries) (networkManager : Bool)
    (options : DefaultHeadlessRuleOptions) (parsed : ParsedItems) : DefaultHeadlessRule where
  toAbstractDefaultRule := headlessGroups lib networkManager options parsed
  blind := avoids_headlessGroups lib networkManager options parsed
  ipCIDRs := by
    intro it hit
    cases hset : parsed.ipSet with
    | none => simp [headlessGroups, optionalItem, hset] at hit
    | some ipSet =>
      refine ⟨ipSet, ?_⟩
      simpa [headlessGroups, optionalItem, hset] using hit

/-- `NewDefaultHeadlessRule`. -/
def newDefaultHeadlessRule (lib : Libraries) (networkManager : Bool)
    (options : DefaultHeadlessRuleOptions) : Except GoError DefaultHeadlessRule :=
  match parseItems lib options with
  | .error err => .error err
  | .ok parsed => .ok (assembleHeadlessRule lib networkManager options parsed)

variable {networkManager : Bool}

theorem newDefaultHeadlessRule_eq_ok {r : DefaultHeadlessRule}
    (h : newDefaultHeadlessRule lib networkManager options = .ok r) :
    ∃ parsed, parseItems lib options = .ok parsed ∧
      r = assembleHeadlessRule lib networkManager options parsed := by
  unfold newDefaultHeadlessRule at h
  cases hparsed : parseItems lib options with
  | error err => simp [hparsed] at h
  | ok parsed =>
    simp only [hparsed, ok.injEq] at h
    exact ⟨parsed, rfl, h.symm⟩

/-! ### Headless rules -/

/-- `adapter.HeadlessRule`: default rules under logical rules. -/
abbrev HeadlessRule : Type := RuleTree DefaultHeadlessRule

/-- `"missing conditions"`. -/
def missingConditions : GoError := .new "missing conditions"

/-- The message that names a rule of a list. -/
def indexMessage (before : String) (i : ℕ) : GoString :=
  ofString before ++ ofNat i ++ "]"

mutual

/-- `NewHeadlessRule` and `NewLogicalHeadlessRule`. -/
def newHeadlessRule (lib : Libraries) (networkManager : Bool) :
    HeadlessRuleOptions → Except GoError HeadlessRule
  | .default options =>
    if options.isValid then
      (newDefaultHeadlessRule lib networkManager options).map .default
    else .error missingConditions
  | .logical mode invert rules =>
    if HeadlessRuleOptions.isValid (.logical mode invert rules) then
      match mode with
      | .known mode =>
        (newHeadlessRules lib networkManager "sub rule[" 0 rules).map (.logical mode invert)
      | .unknown mode => .error (.new ("unknown logical mode: " ++ mode))
    else .error missingConditions

/-- The constructor loop over a list of options, from index `i` on. -/
def newHeadlessRules (lib : Libraries) (networkManager : Bool) (before : String) :
    ℕ → List HeadlessRuleOptions → Except GoError (List HeadlessRule)
  | _, [] => .ok []
  | i, r :: rs =>
    match newHeadlessRule lib networkManager r with
    | .error err => .error (.cause err (indexMessage before i))
    | .ok rule => (newHeadlessRules lib networkManager before (i + 1) rs).map (rule :: ·)

end

variable {rule : HeadlessRule}

theorem newDefault_eq_ok :
    newHeadlessRule lib networkManager (.default options) = .ok rule ↔
      options.isValid ∧
        ∃ r, newDefaultHeadlessRule lib networkManager options = .ok r ∧ rule = .default r := by
  rw [newHeadlessRule]
  cases hvalid : options.isValid <;>
    cases newDefaultHeadlessRule lib networkManager options <;> simp [Except.map, eq_comm]

theorem newLogical_eq_ok
    {mode : LogicalModeOption} {invert : Bool} {options : List HeadlessRuleOptions} :
    newHeadlessRule lib networkManager (.logical mode invert options) = .ok rule ↔
      HeadlessRuleOptions.isValid (.logical mode invert options) ∧
        ∃ m rs, mode = .known m ∧
          newHeadlessRules lib networkManager "sub rule[" 0 options = .ok rs ∧
            rule = .logical m invert rs := by
  cases mode <;> rw [newHeadlessRule] <;>
    cases hvalid : HeadlessRuleOptions.isValid _ <;>
    cases newHeadlessRules lib networkManager "sub rule[" 0 options <;>
    simp [Except.map, eq_comm]

theorem isValid_of_newHeadlessRule {options : HeadlessRuleOptions}
    (h : newHeadlessRule lib networkManager options = .ok rule) : options.isValid := by
  cases options with
  | default options => exact (newDefault_eq_ok.1 h).1
  | logical mode invert rules => exact (newLogical_eq_ok.1 h).1

theorem newHeadlessRules_eq_ok {before : String}
    {i : ℕ} {options : List HeadlessRuleOptions} {rules : List HeadlessRule} :
    newHeadlessRules lib networkManager before i options = .ok rules ↔
      List.Forall₂ (fun o r => newHeadlessRule lib networkManager o = .ok r) options rules := by
  induction options generalizing i rules with
  | nil => cases rules <;> simp [newHeadlessRules]
  | cons o os ih =>
    rw [newHeadlessRules]
    cases ho : newHeadlessRule lib networkManager o with
    | error err => cases rules <;> simp [ho]
    | ok r =>
      cases hos : newHeadlessRules lib networkManager before (i + 1) os <;>
        cases rules <;> simp [Except.map, ← ih (i := i + 1), hos, ho]

/-! ### Libraries that keep texts -/

/-- The name is the suffix or ends in a dot and the suffix. -/
def matchesSuffix (name suffix : GoString) : Bool :=
  name == suffix || (46 :: suffix).isSuffixOf name

/-- An AdGuard rule line without wildcards: `||` and `|` say where the text may start, `^` that it
ends the name. -/
def matchesRuleLine (name ruleLine : GoString) : Bool :=
  let isSuffix := (ofString "||").isPrefixOf ruleLine
  let hasStart := !isSuffix && (ofString "|").isPrefixOf ruleLine
  let ruleLine := if isSuffix then ruleLine.drop 2
    else if hasStart then ruleLine.drop 1
    else ruleLine
  let hasEnd := (ofString "^").isSuffixOf ruleLine
  let ruleLine := if hasEnd then ruleLine.dropLast else ruleLine
  let starts : List GoString :=
    if hasStart then [name]
    else if isSuffix then
      name :: name.tails.filterMap fun t => if t.head? = some 46 then some t.tail else none
    else name.tails
  starts.any fun rest => if hasEnd then rest == ruleLine else ruleLine.isPrefixOf rest

/-- The range of a prefix or of a single address. -/
def rangeOf : Prefix ⊕ Addr → IPRange
  | .inl ⟨.v4 bits, n⟩ =>
    let first := bits >>> (32 - n) <<< (32 - n)
    ⟨.v4 first, .v4 (first ||| BitVec.allOnes 32 >>> n)⟩
  | .inl ⟨.v6 bits _, n⟩ =>
    let first := bits >>> (128 - n) <<< (128 - n)
    ⟨.v6 first [], .v6 (first ||| BitVec.allOnes 128 >>> n) []⟩
  | .inl ⟨.zero, _⟩ => ⟨.zero, .zero⟩
  | .inr addr => ⟨addr, addr⟩

/-- Libraries that keep texts as lists, and ranges as they come. -/
def textLibraries : Libraries where
  newMatcher := fun domains domainSuffix _ =>
    { Match := fun name => domains.contains name || domainSuffix.any (matchesSuffix name)
      dump := (domains, domainSuffix) }
  newAdGuardMatcher := fun ruleLines =>
    { Match := fun name => ruleLines.any (matchesRuleLine name), dump := ruleLines }
  compileRegexp := fun _ => none
  buildIPSet := fun items => .ok (items.map rangeOf)

end SingBox
