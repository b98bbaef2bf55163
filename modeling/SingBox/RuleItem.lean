/-
**Rule items** (`route/rule/rule_item_*.go` and the three interface-address items).

A rule item is one condition on the metadata.  Every kind of item that a route rule, a DNS rule or
a headless rule can carry is a constructor of `RuleItem`, holding what its Go constructor stores;
`RuleItem.Match` is the union of the `Match` methods.  Matchers that come from other packages are
held as the predicates they compute, and what an item asks of the running system (interfaces, Wi-Fi,
the Clash mode, the platform) is gathered in `Environment`.

* `RuleItem.Match_query` — an item that does not read the response is decided by the query;
* `RuleItem.Match_hideDestinationIP`, `RuleItem.Match_ipCIDR_of_matchSource` — the items that are
  decided without the destination IP.
-/

import SingBox.InboundContext

namespace SingBox

open Bool

/-- A network interface as `adapter.NetworkInterface` reports it. -/
structure NetworkInterface where
  name : GoString
  type : UInt8
  addresses : List Prefix
  (expensive constrained : Bool)

/-- What items read besides the metadata: the case functions of package `strings` and the path
functions of the platform, the network manager, the Wi-Fi state and the Clash mode. -/
structure Environment where
  toLower : GoString → GoString
  equalFold : GoString → GoString → Bool
  filepathBase : GoString → GoString
  isAndroid : Bool
  defaultNetworkInterface : Option NetworkInterface
  networkInterfaces : List NetworkInterface
  myInterfaces : List GoString
  interfaces : List (GoString × List Prefix)
  defaultInterface : Option (List Prefix)
  (wifiSSID wifiBSSID : GoString)
  clashMode : Option GoString

/-- A system without network interfaces, Wi-Fi or Clash mode, on which names are plain ASCII in
lower case. -/
def Environment.offline : Environment where
  toLower := id
  equalFold := fun a b => a = b
  filepathBase := id
  isAndroid := false
  defaultNetworkInterface := none
  networkInterfaces := []
  myInterfaces := []
  interfaces := []
  defaultInterface := none
  wifiSSID := []
  wifiBSSID := []
  clashMode := none

/-- `adapter.OutboundWithPreferredRoutes`. -/
structure PreferredRoutes where
  preferredDomain : GoString → Bool
  preferredAddress : Addr → Bool

/-- One condition of a rule. -/
inductive RuleItem where
  | queryType (typeMap : List UInt16)
  | network (networkMap : List GoString)
  | inbound (inboundMap : List GoString)
  | ipVersion (isIPv6 : Bool)
  | authUser (userMap : List GoString)
  | protocol (protocolMap : List GoString)
  | client (clientMap : List GoString)
  | domain (matcher : GoString → Bool)
  | domainKeyword (keywords : List GoString)
  | domainRegex (matchers : List (GoString → Bool))
  | adGuardDomain (matcher : GoString → Bool)
  | ipCIDR (isSource : Bool) (ipSet : IPSet)
  | ipIsPrivate (isSource : Bool)
  | ipAcceptAny
  | port (isSource : Bool) (portMap : List UInt16)
  | portRange (isSource : Bool) (portRangeList : List (UInt16 × UInt16))
  | tunnelSource (sourceMap : List GoString)
  | tunnelDestination (destinationMap : List GoString)
  | processName (processMap : List GoString)
  | processPath (processMap : List GoString)
  | processPathRegex (matchers : List (GoString → Bool))
  | packageName (packageMap : List GoString)
  | user (userMap : List GoString)
  | userId (userIdMap : List Int32)
  | outbound (matchAny : Bool) (outboundMap : List GoString)
  | clashMode (mode : GoString)
  | networkType (networkType : List UInt8)
  | networkIsExpensive
  | networkIsConstrained
  | wifiSSID (ssidMap : List GoString)
  | wifiBSSID (bssidMap : List GoString)
  | interfaceAddress (interfaceAddresses : List (GoString × List Prefix))
  | networkInterfaceAddress (interfaceAddresses : List (UInt8 × List Prefix))
  | defaultInterfaceAddress (interfaceAddresses : List Prefix)
  | preferredBy (outbounds : List PreferredRoutes)

namespace RuleItem

/-- The common prologue of the domain items: no name matches nothing, and names are lowered. -/
def matchDomainHost (env : Environment) (metadata : InboundContext) (p : GoString → Bool) : Bool :=
  if metadata.domainHost = [] then false else p (env.toLower metadata.domainHost)

/-- The process path, when the owner is known and has one. -/
def processPathOf (metadata : InboundContext) : Option GoString :=
  match metadata.processInfo with
  | none => none
  | some info => if info.processPath = [] then none else some info.processPath

/-- `IPCIDRItem.Match`. -/
def matchIPCIDR (isSource : Bool) (ipSet : IPSet) (metadata : InboundContext) : Bool :=
  if isSource || metadata.ipCIDRMatchSource then ipSet.contains metadata.source.addr
  else if metadata.destination.isIP then ipSet.contains metadata.destination.addr
  else if metadata.destinationAddresses ≠ [] then
    metadata.destinationAddresses.any ipSet.contains
  else metadata.ipCIDRAcceptEmpty

/-- `IPIsPrivateItem.Match`. -/
def matchIPIsPrivate (isSource : Bool) (metadata : InboundContext) : Bool :=
  let destination := if isSource then metadata.source.addr else metadata.destination.addr
  if destination.isValid then !destination.isPublicAddr
  else if !isSource then metadata.destinationAddresses.any fun a => !a.isPublicAddr
  else false

/-- `PreferredByItem.Match`. -/
def matchPreferredBy (outbounds : List PreferredRoutes) (metadata : InboundContext) : Bool :=
  (metadata.domainHost ≠ [] && outbounds.any fun o => o.preferredDomain metadata.domainHost) ||
    (metadata.destination.isIP &&
      outbounds.any fun o => o.preferredAddress metadata.destination.addr) ||
    metadata.destinationAddresses.any fun a => outbounds.any fun o => o.preferredAddress a

/-- `InterfaceAddressItem.Match`: every listed interface exists and has one of the prefixes. -/
def matchInterfaceAddress (interfaces : List (GoString × List Prefix))
    (interfaceAddresses : List (GoString × List Prefix)) : Bool :=
  interfaceAddresses.all fun entry =>
    match interfaces.find? fun iface => iface.1 = entry.1 with
    | none => false
    | some iface =>
      iface.1 ≠ [] && entry.2.any fun address => iface.2.any fun it => address.overlaps it

/-- `NetworkInterfaceAddressItem.Match`: every listed type has an interface, not one of our own,
with one of the prefixes. -/
def matchNetworkInterfaceAddress (env : Environment)
    (interfaceAddresses : List (UInt8 × List Prefix)) : Bool :=
  interfaceAddresses.all fun entry =>
    env.networkInterfaces.any fun iface =>
      !env.myInterfaces.contains iface.name && iface.type = entry.1 &&
        iface.addresses.any fun it => entry.2.any fun p => p.overlaps it

/-- The `Match` methods of the items. -/
def Match (env : Environment) (metadata : InboundContext) : RuleItem → Bool
  | queryType typeMap => metadata.queryType ≠ 0 && typeMap.contains metadata.queryType
  | network networkMap => networkMap.contains metadata.network
  | inbound inboundMap => inboundMap.contains metadata.inbound
  | ipVersion isIPv6 =>
    (metadata.ipVersion ≠ 0 && decide (metadata.ipVersion = 6) == isIPv6) ||
      (metadata.destination.isIP && metadata.destination.isIPv6 == isIPv6)
  | authUser userMap => userMap.contains metadata.user
  | protocol protocolMap => protocolMap.contains metadata.protocol
  | client clientMap => clientMap.contains metadata.client
  | domain matcher => matchDomainHost env metadata matcher
  | domainKeyword keywords =>
    matchDomainHost env metadata fun host => keywords.any fun k => GoString.contains host k
  | domainRegex matchers => matchDomainHost env metadata fun host => matchers.any fun r => r host
  | adGuardDomain matcher => matchDomainHost env metadata matcher
  | ipCIDR isSource ipSet => matchIPCIDR isSource ipSet metadata
  | ipIsPrivate isSource => matchIPIsPrivate isSource metadata
  | ipAcceptAny => metadata.destinationAddresses ≠ []
  | port isSource portMap =>
    portMap.contains (if isSource then metadata.source.port else metadata.destination.port)
  | portRange isSource portRangeList =>
    let port := if isSource then metadata.source.port else metadata.destination.port
    portRangeList.any fun r => r.1 ≤ port && port ≤ r.2
  | tunnelSource sourceMap => sourceMap.contains metadata.tunnelSource
  | tunnelDestination destinationMap => destinationMap.contains metadata.tunnelDestination
  | processName processMap =>
    match processPathOf metadata with
    | none => false
    | some path => processMap.contains (env.filepathBase path)
  | processPath processMap =>
    match metadata.processInfo with
    | none => false
    | some info =>
      (info.processPath ≠ [] && processMap.contains info.processPath) ||
        (env.isAndroid && info.androidPackageNames.any processMap.contains)
  | processPathRegex matchers =>
    match processPathOf metadata with
    | none => false
    | some path => matchers.any fun r => r path
  | packageName packageMap =>
    match metadata.processInfo with
    | none => false
    | some info => info.androidPackageNames.any packageMap.contains
  | user userMap =>
    match metadata.processInfo with
    | none => false
    | some info => info.userName ≠ [] && userMap.contains info.userName
  | userId userIdMap =>
    match metadata.processInfo with
    | none => false
    | some info => info.userId ≠ -1 && userIdMap.contains info.userId
  | outbound matchAny outboundMap =>
    if matchAny then metadata.outbound ≠ [] else outboundMap.contains metadata.outbound
  | clashMode mode =>
    match env.clashMode with
    | none => false
    | some current => env.equalFold current mode
  | networkType types =>
    match env.defaultNetworkInterface with
    | none => false
    | some iface => types.contains iface.type
  | networkIsExpensive =>
    match env.defaultNetworkInterface with
    | none => false
    | some iface => iface.expensive
  | networkIsConstrained =>
    match env.defaultNetworkInterface with
    | none => false
    | some iface => iface.constrained
  | wifiSSID ssidMap => ssidMap.contains env.wifiSSID
  | wifiBSSID bssidMap => bssidMap.contains env.wifiBSSID
  | interfaceAddress interfaceAddresses => matchInterfaceAddress env.interfaces interfaceAddresses
  | networkInterfaceAddress interfaceAddresses =>
    matchNetworkInterfaceAddress env interfaceAddresses
  | defaultInterfaceAddress interfaceAddresses =>
    match env.defaultInterface with
    | none => false
    | some addresses =>
      interfaceAddresses.all fun address => addresses.any fun it => address.overlaps it
  | preferredBy outbounds => matchPreferredBy outbounds metadata

/-! ### What an item reads -/

/-- The item reads the resolved addresses of the destination. -/
def readsResponse : RuleItem → Bool
  | ipCIDR isSource _ => !isSource
  | ipIsPrivate isSource => !isSource
  | ipAcceptAny => true
  | preferredBy _ => true
  | _ => false

/-- The item reads the IP of the destination, resolved or not. -/
def readsDestinationIP : RuleItem → Bool
  | ipVersion _ => true
  | item => item.readsResponse

theorem readsResponse_of_readsDestinationIP {item : RuleItem}
    (h : item.readsDestinationIP = false) : item.readsResponse = false := by
  cases item <;> first | rfl | exact h

end RuleItem

namespace InboundContext

/-- The metadata as it is known before a lookup: no resolved addresses, no lookup mode. -/
def query (c : InboundContext) : InboundContext :=
  { c with
    destinationAddresses := []
    definitiveMatchStates := 0
    ignoreDestinationIPCIDRMatch := false
    ipCIDRMatchSource := false
    ipCIDRAcceptEmpty := false }

/-- The metadata with the destination IP and the resolved addresses removed. -/
def hideDestinationIP (c : InboundContext) : InboundContext :=
  { c with
    destination := { c.destination with addr := .zero }
    destinationAddresses := []
    definitiveMatchStates := 0 }

end InboundContext

namespace RuleItem

variable (env : Environment) {item : RuleItem}

theorem Match_query (m : InboundContext)
    (h : item.readsResponse = false) : item.Match env m = item.Match env m.query := by
  cases item with
  | ipCIDR isSource ipSet =>
    simp only [readsResponse, not_eq_false'] at h
    simp [Match, matchIPCIDR, InboundContext.query, h]
  | ipIsPrivate isSource =>
    simp only [readsResponse, not_eq_false'] at h
    simp [Match, matchIPIsPrivate, InboundContext.query, h]
  | ipAcceptAny | preferredBy outbounds => simp [readsResponse] at h
  | _ => rfl

theorem Match_congr_query {m m' : InboundContext} (hq : m.query = m'.query)
    (h : item.readsResponse = false) : item.Match env m = item.Match env m' := by
  rw [Match_query env m h, Match_query env m' h, hq]

/-- An item that does not read the destination IP is decided by the rest of the metadata. -/
theorem Match_hideDestinationIP (m : InboundContext) (h : item.readsDestinationIP = false) :
    item.Match env m = item.Match env m.hideDestinationIP := by
  cases item with
  | ipCIDR isSource ipSet =>
    simp only [readsDestinationIP, readsResponse, not_eq_false'] at h
    simp [Match, matchIPCIDR, InboundContext.hideDestinationIP, h]
  | ipIsPrivate isSource =>
    simp only [readsDestinationIP, readsResponse, not_eq_false'] at h
    simp [Match, matchIPIsPrivate, InboundContext.hideDestinationIP, h]
  | ipVersion isIPv6 => simp [readsDestinationIP] at h
  | ipAcceptAny | preferredBy outbounds => simp [readsDestinationIP, readsResponse] at h
  | _ => rfl

/-- An IP-CIDR item that is told to match the source reads the source address only. -/
theorem Match_ipCIDR_of_matchSource {m : InboundContext}
    (h : m.ipCIDRMatchSource = true) (isSource : Bool) (ipSet : IPSet) :
    (ipCIDR isSource ipSet).Match env m = ipSet.contains m.source.addr := by
  simp [Match, matchIPCIDR, h]

/-- Of an IP-CIDR item that is held against the destination, accepting empty responses can only add
matches. -/
theorem Match_ipCIDR_mono {m m' : InboundContext} (ipSet : IPSet)
    (hm : m.ipCIDRMatchSource = false) (hm' : m'.ipCIDRMatchSource = false)
    (hdestination : m.destination = m'.destination)
    (haddresses : m.destinationAddresses = m'.destinationAddresses)
    (haccept : m.ipCIDRAcceptEmpty = true → m'.ipCIDRAcceptEmpty = true)
    (h : (ipCIDR false ipSet).Match env m = true) : (ipCIDR false ipSet).Match env m' = true := by
  simp only [Match, matchIPCIDR, hm, hm', hdestination, haddresses, Bool.or_self,
    Bool.false_eq_true, if_false] at h ⊢
  split_ifs at h ⊢
  · exact h
  · exact h
  · exact haccept h

end RuleItem

end SingBox
