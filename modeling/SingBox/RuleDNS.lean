/-
**DNS rules** (`option/rule_dns.go`, `route/rule/rule_dns.go`).

A DNS rule is consulted twice.  Before the lookup, `Match` decides whether its server is asked at
all, with the conditions on destination IPs left out; after it, if the rule has such conditions,
`MatchAddressLimit` decides whether the response is accepted.  Whether there is anything to check
afterwards is decided by `WithAddressLimit` alone.
-/

import SingBox.RuleMerge

namespace SingBox

open GoString

/-! ### Options -/

/-- `option.RawDefaultDNSRule`. -/
structure DefaultDNSRuleOptions where
  inbound : Listable GoString := none
  ipVersion : Int := 0
  queryType : Listable UInt16 := none
  (network authUser protocol domain domainSuffix domainKeyword domainRegex geosite sourceGeoIP geoIP
    ipCIDR : Listable GoString := none)
  (ipIsPrivate ipAcceptAny : Bool := false)
  sourceIPCIDR : Listable GoString := none
  sourceIPIsPrivate : Bool := false
  sourcePort : Listable UInt16 := none
  sourcePortRange : Listable GoString := none
  port : Listable UInt16 := none
  (portRange processName processPath processPathRegex packageName user : Listable GoString := none)
  userId : Listable Int32 := none
  outbound : Listable GoString := none
  clashMode : GoString := []
  networkType : Listable UInt8 := none
  (networkIsExpensive networkIsConstrained : Bool := false)
  (wifiSSID wifiBSSID ruleSet : Listable GoString := none)
  (ruleSetIPCIDRMatchSource ruleSetIPCIDRAcceptEmpty invert : Bool := false)
  (tunnelSource tunnelDestination : Listable GoString := none)
  interfaceAddress : Option (List (GoString × List Prefix)) := none
  networkInterfaceAddress : Option (List (UInt8 × List Prefix)) := none
  defaultInterfaceAddress : Listable Prefix := none
  deprecatedRulesetIPCIDRMatchSource : Bool := false

/-! ### Default rules -/

/-- `rule.DefaultDNSRule`, as far as it decides: only its destination IP items read the response. -/
structure DefaultDNSRule extends AbstractDefaultRule RuleSetItem where
  settled : ∀ it ∈ toAbstractDefaultRule.conditionItems, it.readsResponse = false

/-- `NewOutboundRule`: the name `any` stands for every outbound. -/
def newOutboundRule (outbounds : List GoString) : RuleItem :=
  .outbound (outbounds.contains "any")
    (outbounds.filter (· ≠ "any"))

/-- The parts of a default DNS rule whose construction can fail. -/
structure ParsedDNSItems extends ParsedItems where
  ipVersion : Option Bool
  ruleSet : Option RuleSetItem

/-- The IP version, which must be 4 or 6 when it is positive. -/
def parseIPVersion (ipVersion : Int) : Except GoError (Option Bool) :=
  if ipVersion ≤ 0 then .ok none
  else if ipVersion = 4 ∨ ipVersion = 6 then .ok (some (ipVersion = 6))
  else .error (.new ("invalid ip version: " ++ GoString.ofNat ipVersion.toNat))

/-- The removed options. -/
def refuseIf (test : Bool) (message : String) : Except GoError Unit :=
  if test then .error (.new (ofString message)) else .ok ()

/-- `RuleSetItem.Start`: every tag must name a rule-set. -/
def lookupRuleSets (ruleSets : GoString → Option RuleSet) :
    List GoString → Except GoError (List RuleSet)
  | [] => .ok []
  | tag :: tags =>
    match ruleSets tag with
    | none => .error (.new ("rule-set not found: " ++ tag))
    | some ruleSet => (lookupRuleSets ruleSets tags).map (ruleSet :: ·)

/-- The rule-set item, started. -/
def parseRuleSet (ruleSets : GoString → Option RuleSet) (options : DefaultDNSRuleOptions) :
    Except GoError (Option RuleSetItem) :=
  if options.ruleSet.nonempty then
    if options.deprecatedRulesetIPCIDRMatchSource then
      .error (.new (ofString
        "rule_set_ipcidr_match_source is deprecated in sing-box 1.10.0 and removed in sing-box 1.11.0"))
    else (lookupRuleSets ruleSets options.ruleSet.elems).map fun setList =>
      some ⟨setList, options.ruleSetIPCIDRMatchSource, options.ruleSetIPCIDRAcceptEmpty⟩
  else .ok none

/-- The domain item of a DNS rule. -/
def parseDNSDomain (lib : Libraries) (options : DefaultDNSRuleOptions) :
    Except GoError (Option (GoString → Bool)) :=
  if options.domain.nonempty || options.domainSuffix.nonempty then
    (newDomainItem lib options.domain.elems options.domainSuffix.elems).map some
  else .ok none

/-- The fallible steps of `NewDefaultDNSRule`, in its order. -/
def parseDNSItems (lib : Libraries) (ruleSets : GoString → Option RuleSet)
    (options : DefaultDNSRuleOptions) : Except GoError ParsedDNSItems := do
  let geoip := "geoip database is deprecated in sing-box 1.8.0 and removed in sing-box 1.12.0"
  let ipVersion ← parseIPVersion options.ipVersion
  let domain ← parseDNSDomain lib options
  let domainRegex ← parseIfNonempty options.domainRegex "domain_regex"
    (compileExpressions lib 0)
  refuseIf options.geosite.nonempty
    "geosite database is deprecated in sing-box 1.8.0 and removed in sing-box 1.12.0"
  refuseIf options.sourceGeoIP.nonempty geoip
  refuseIf options.geoIP.nonempty geoip
  let sourceIPSet ← parseIfNonempty options.sourceIPCIDR "source_ip_cidr"
    (newIPCIDRItem lib)
  let ipSet ← parseIfNonempty options.ipCIDR "ip_cidr" (newIPCIDRItem lib)
  let sourcePortRange ← parseIfNonempty options.sourcePortRange
    "source_port_range" newPortRangeItem
  let portRange ← parseIfNonempty options.portRange "port_range"
    newPortRangeItem
  let processPathRegex ← parseIfNonempty options.processPathRegex
    "process_path_regex" (compileExpressions lib 0)
  let ruleSet ← parseRuleSet ruleSets options
  return {
    ipVersion, domain, domainRegex, sourceIPSet, ipSet, sourcePortRange, portRange,
    processPathRegex, ruleSet }

/-- The items that belong to no group: the query and its origin. -/
def dnsQueryItems (options : DefaultDNSRuleOptions) (parsed : ParsedDNSItems) : List RuleItem :=
  listItem options.inbound .inbound ++ optionalItem parsed.ipVersion .ipVersion ++
    listItem options.queryType .queryType ++ listItem options.network .network ++
    listItem options.authUser .authUser ++ listItem options.protocol .protocol ++
    listItem options.tunnelSource .tunnelSource ++
    listItem options.tunnelDestination .tunnelDestination ++
    listItem options.processName .processName ++ listItem options.processPath .processPath ++
    optionalItem parsed.processPathRegex .processPathRegex ++
    listItem options.packageName .packageName ++ listItem options.user .user ++
    listItem options.userId .userId ++ listItem options.outbound newOutboundRule

/-- The items that belong to no group: the state of the system. -/
def dnsSystemItems (options : DefaultDNSRuleOptions) : List RuleItem :=
  itemIf (options.clashMode ≠ []) (.clashMode options.clashMode) ++
    listItem options.networkType .networkType ++
    itemIf options.networkIsExpensive .networkIsExpensive ++
    itemIf options.networkIsConstrained .networkIsConstrained ++
    listItem options.wifiSSID .wifiSSID ++ listItem options.wifiBSSID .wifiBSSID ++
    listItem options.interfaceAddress .interfaceAddress ++
    listItem options.networkInterfaceAddress .networkInterfaceAddress ++
    listItem options.defaultInterfaceAddress .defaultInterfaceAddress

/-- The groups of a default DNS rule. -/
def dnsGroups (options : DefaultDNSRuleOptions) (parsed : ParsedDNSItems) :
    AbstractDefaultRule RuleSetItem where
  items := dnsQueryItems options parsed ++ dnsSystemItems options
  sourceAddressItems := optionalItem parsed.sourceIPSet (.ipCIDR true) ++
    itemIf options.sourceIPIsPrivate (.ipIsPrivate true)
  sourcePortItems := listItem options.sourcePort (.port true) ++
    optionalItem parsed.sourcePortRange (.portRange true)
  destinationAddressItems := optionalItem parsed.domain .domain ++
    listItem options.domainKeyword .domainKeyword ++ optionalItem parsed.domainRegex .domainRegex
  destinationIPCIDRItems := optionalItem parsed.ipSet (.ipCIDR false) ++
    itemIf options.ipIsPrivate (.ipIsPrivate false) ++ itemIf options.ipAcceptAny .ipAcceptAny
  destinationPortItems := listItem options.port (.port false) ++
    optionalItem parsed.portRange (.portRange false)
  ruleSetItem := parsed.ruleSet
  invert := options.invert

theorem avoids_dnsGroups (options : DefaultDNSRuleOptions) (parsed : ParsedDNSItems) :
    Avoids RuleItem.readsResponse (dnsGroups options parsed).conditionItems := by
  simp only [AbstractDefaultRule.conditionItems, dnsGroups, dnsQueryItems, dnsSystemItems,
    avoids_append]
  refine ⟨⟨⟨⟨?_, ?_⟩, ?_⟩, ?_⟩, ?_⟩ <;> repeat' apply And.intro
  all_goals
    first
    | exact avoids_listItem _ fun _ => rfl
    | exact avoids_optionalItem _ fun _ => rfl
    | exact avoids_itemIf _ rfl

/-- `NewDefaultDNSRule`, without the action. -/
def newDefaultDNSRule (lib : Libraries) (ruleSets : GoString → Option RuleSet)
    (options : DefaultDNSRuleOptions) : Except GoError DefaultDNSRule :=
  (parseDNSItems lib ruleSets options).map fun parsed =>
    ⟨dnsGroups options parsed, avoids_dnsGroups options parsed⟩

/-- `DefaultDNSRule.WithAddressLimit`. -/
def DefaultDNSRule.withAddressLimit (r : DefaultDNSRule) : Bool :=
  if !r.destinationIPCIDRItems.isEmpty then true
  else
    match r.ruleSetItem with
    | some ruleSet => ruleSet.containsDestinationIPCIDRRule
    | none => false

/-! ### DNS rules -/

/-- `adapter.DNSRule`: default rules under logical rules. -/
abbrev DNSRule : Type := RuleTree DefaultDNSRule

namespace DNSRule

mutual

/-- `WithAddressLimit` of a DNS rule. -/
def withAddressLimit : DNSRule → Bool
  | .default r => r.withAddressLimit
  | .logical _ _ rules => anyWithAddressLimit rules

/-- The loop of `LogicalDNSRule.WithAddressLimit`. -/
def anyWithAddressLimit : List DNSRule → Bool
  | [] => false
  | r :: rs => if withAddressLimit r then true else anyWithAddressLimit rs

end

theorem withAddressLimit_eq_false (t : DNSRule) :
    t.withAddressLimit = false ↔ t.All fun r => r.withAddressLimit = false := by
  have hany : ∀ rules : List DNSRule,
      anyWithAddressLimit rules = false ↔ ∀ t ∈ rules, withAddressLimit t = false := by
    intro rules
    induction rules with
    | nil => simp [anyWithAddressLimit]
    | cons t ts ih => cases ht : withAddressLimit t <;> simp [anyWithAddressLimit, ht, ih]
  induction t using LogicalTree.induction with
  | default r => rw [withAddressLimit, LogicalTree.all_default]
  | logical mode invert rules ih =>
    rw [withAddressLimit, hany, LogicalTree.all_logical]
    exact forall₂_congr ih

variable (env : Environment)

/-- The states of a DNS rule. -/
def matchStates (t : DNSRule) (metadata : InboundContext) : MatchResult :=
  ruleMatchStates DefaultDNSRule.toAbstractDefaultRule env t metadata 0

/-- `Match`, with the metadata it leaves behind: the pre-lookup mode is on for the evaluation and
off again when the function returns. -/
def Match (t : DNSRule) (metadata : InboundContext) : Bool × InboundContext :=
  let result := t.matchStates env { metadata with ignoreDestinationIPCIDRMatch := true }
  (!result.states.isEmpty, { metadata with
      definitiveMatchStates := result.definitive
      ignoreDestinationIPCIDRMatch := false })

/-- `MatchAddressLimit`. -/
def matchAddressLimit (t : DNSRule) (metadata : InboundContext) : Bool :=
  !(t.matchStates env metadata).states.isEmpty

/-- The function that `addressLimitResponseCheck` returns: the addresses of the response are filled
into a copy of the metadata that `Match` has left behind. -/
def responseCheck (t : DNSRule) (metadata : InboundContext) (responseAddrs : List Addr) : Bool :=
  t.matchAddressLimit env
    { (t.Match env metadata).2 with destinationAddresses := responseAddrs }

end DNSRule

end SingBox
