/-
**The metadata of a connection or query** (`adapter/inbound.go`).

`adapter.InboundContext` travels with a connection through sniffing, rule matching and DNS.  The
fields kept here are those that a rule item, a sniffer or one of the modelled routers reads.
-/

import SingBox.MatchState
import SingBox.Netip

namespace SingBox

/-- `M.Socksaddr`: an address or a domain name, with a port. -/
structure Socksaddr where
  addr : Addr := .zero
  port : UInt16 := 0
  fqdn : GoString := []
  deriving DecidableEq

/-- `Socksaddr.IsIP`. -/
def Socksaddr.isIP (s : Socksaddr) : Bool := s.addr.isValid

/-- `Socksaddr.IsIPv6`. -/
def Socksaddr.isIPv6 (s : Socksaddr) : Bool := s.addr.is6

/-- `adapter.ConnectionOwner`, the process behind a connection. -/
structure ConnectionOwner where
  userId : Int32
  (userName processPath : GoString)
  androidPackageNames : List GoString

/-- A fragment of a QUIC handshake message, the sniffing state kept between datagrams. -/
structure CryptoFragment where
  (offset length : UInt64)
  payload : List UInt8
  deriving DecidableEq

/-- How a sniffer can fail; `errors.Is (err, ErrNeedMoreData)` is what the callers ask. -/
inductive SniffError where
  | needMoreData
  | other
  deriving DecidableEq

/-- `adapter.InboundContext`. -/
structure InboundContext where
  inbound : GoString := []
  ipVersion : UInt8 := 0
  network : GoString := []
  (source destination : Socksaddr := {})
  (tunnelSource tunnelDestination user outbound protocol domain client : GoString := [])
  sniffContext : List CryptoFragment := []
  snifferNames : List GoString := []
  sniffError : Option SniffError := none
  destinationAddresses : List Addr := []
  processInfo : Option ConnectionOwner := none
  queryType : UInt16 := 0
  (ipCIDRMatchSource ipCIDRAcceptEmpty : Bool := false)
  definitiveMatchStates : RuleMatchStateSet := 0
  ignoreDestinationIPCIDRMatch : Bool := false

namespace InboundContext

/-- `ResetRuleMatchCache` keeps the rule-set flags. -/
def resetRuleMatchCache (c : InboundContext) : InboundContext :=
  { c with definitiveMatchStates := 0 }

/-- `ResetRuleCache` clears the rule-set flags as well. -/
def resetRuleCache (c : InboundContext) : InboundContext :=
  { c with ipCIDRMatchSource := false, ipCIDRAcceptEmpty := false }.resetRuleMatchCache

/-- The name the domain items look at: the sniffed or queried domain, else the destination's. -/
def domainHost (c : InboundContext) : GoString :=
  if c.domain ≠ [] then c.domain else c.destination.fqdn

end InboundContext

end SingBox
