/-
**The binary format of rule-sets** (`common/srs/binary.go`, `ip_set.go`, `ip_cidr.go`).

A compiled rule-set is a magic number, a version and a compressed stream of rules.  A rule is a
tree: a logical rule holds its mode, its rules and a flag; a default rule is a sequence of items,
each a type byte and a payload, up to a final byte.  `writeRule` goes from options to bytes, and
`readRule` from bytes to options, with a bound on the nesting that only the reader has.

Domain matchers and AdGuard matchers have codecs of their own, and the stream is compressed by zlib;
these functions, and the splitting of an address set into prefixes, are gathered in `Codecs`.
-/

import SingBox.HeadlessRule

open ByteReader

/-! ### Addresses in bytes -/

/-- `Addr.AsSlice`, which leaves the zone out. -/
def Addr.asSlice : Addr → List UInt8
  | .zero => []
  | .v4 bits => putBigEndian 4 bits.toNat
  | .v6 bits _ => putBigEndian 16 bits.toNat

/-- `netip.AddrFromSlice`: four bytes or sixteen. -/
def Addr.fromSlice (bytes : List UInt8) : Addr :=
  if bytes.length = 4 then .v4 (.ofNat 32 (ofBigEndian bytes))
  else if bytes.length = 16 then .v6 (.ofNat 128 (ofBigEndian bytes)) []
  else .zero

/-- `uint8 (p.Bits())`; `Bits` is `-1` for prefixes that are not valid. -/
def Prefix.bitsByte (p : Prefix) : UInt8 := if p.isValid then .ofNat p.bits else 255

namespace SingBox

open GoString

/-! ### Items -/

/-- The string lists that are written as they are. -/
inductive StringField where
  | network
  | domainKeyword
  | domainRegex
  | sourcePortRange
  | portRange
  | processName
  | processPath
  | processPathRegex
  | packageName
  | wifiSSID
  | wifiBSSID

/-- The lists of 16-bit numbers. -/
inductive Uint16Field where
  | queryType
  | sourcePort
  | port

namespace DefaultHeadlessRuleOptions

def strings (rule : DefaultHeadlessRuleOptions) : StringField → Listable GoString
  | .network => rule.network
  | .domainKeyword => rule.domainKeyword
  | .domainRegex => rule.domainRegex
  | .sourcePortRange => rule.sourcePortRange
  | .portRange => rule.portRange
  | .processName => rule.processName
  | .processPath => rule.processPath
  | .processPathRegex => rule.processPathRegex
  | .packageName => rule.packageName
  | .wifiSSID => rule.wifiSSID
  | .wifiBSSID => rule.wifiBSSID

def setStrings (rule : DefaultHeadlessRuleOptions) (value : Listable GoString) :
    StringField → DefaultHeadlessRuleOptions
  | .network => { rule with network := value }
  | .domainKeyword => { rule with domainKeyword := value }
  | .domainRegex => { rule with domainRegex := value }
  | .sourcePortRange => { rule with sourcePortRange := value }
  | .portRange => { rule with portRange := value }
  | .processName => { rule with processName := value }
  | .processPath => { rule with processPath := value }
  | .processPathRegex => { rule with processPathRegex := value }
  | .packageName => { rule with packageName := value }
  | .wifiSSID => { rule with wifiSSID := value }
  | .wifiBSSID => { rule with wifiBSSID := value }

def uint16s (rule : DefaultHeadlessRuleOptions) : Uint16Field → Listable UInt16
  | .queryType => rule.queryType
  | .sourcePort => rule.sourcePort
  | .port => rule.port

def setUint16s (rule : DefaultHeadlessRuleOptions) (value : Listable UInt16) :
    Uint16Field → DefaultHeadlessRuleOptions
  | .queryType => { rule with queryType := value }
  | .sourcePort => { rule with sourcePort := value }
  | .port => { rule with port := value }

end DefaultHeadlessRuleOptions

/-- One item of a default rule in binary form. -/
inductive BinaryItem where
  | strings (field : StringField) (value : List GoString)
  | uint16s (field : Uint16Field) (value : List UInt16)
  | domain (matcher : DomainMatcher)
  | ipCIDR (isSource : Bool) (ipSet : IPSet)
  | adGuardDomain (matcher : AdGuardMatcher)
  | networkType (value : List UInt8)
  | networkIsExpensive
  | networkIsConstrained
  | networkInterfaceAddress (value : List (UInt8 × List Prefix))
  | defaultInterfaceAddress (value : List Prefix)

/-- The constants `ruleItemQueryType` to `ruleItemDefaultInterfaceAddress`. -/
def BinaryItem.itemType : BinaryItem → UInt8
  | .uint16s .queryType _ => 0
  | .strings .network _ => 1
  | .domain _ => 2
  | .strings .domainKeyword _ => 3
  | .strings .domainRegex _ => 4
  | .ipCIDR true _ => 5
  | .ipCIDR false _ => 6
  | .uint16s .sourcePort _ => 7
  | .strings .sourcePortRange _ => 8
  | .uint16s .port _ => 9
  | .strings .portRange _ => 10
  | .strings .processName _ => 11
  | .strings .processPath _ => 12
  | .strings .packageName _ => 13
  | .strings .wifiSSID _ => 14
  | .strings .wifiBSSID _ => 15
  | .adGuardDomain _ => 16
  | .strings .processPathRegex _ => 17
  | .networkType _ => 18
  | .networkIsExpensive => 19
  | .networkIsConstrained => 20
  | .networkInterfaceAddress _ => 21
  | .defaultInterfaceAddress _ => 22

def ruleItemFinal : UInt8 := 0xFF

/-- What the format takes from other packages. -/
structure Codecs where
  deflate : List UInt8 → List UInt8
  /-- What a compressed stream delivers, or the error in its header. -/
  inflate : List UInt8 → Except GoError (List UInt8)
  writeMatcher : DomainMatcher → List UInt8
  readMatcher : ByteReader GoError DomainMatcher
  writeAdGuardMatcher : AdGuardMatcher → List UInt8
  readAdGuardMatcher : ByteReader GoError AdGuardMatcher
  /-- `IPSet.Prefixes`, printed by `Prefix.String`. -/
  prefixes : IPSet → List GoString

/-! ### Writing -/

/-- Why nothing was written. -/
inductive WriteFailure where
  | error (err : GoError)
  | panicked (message : GoString)

def writeString (s : GoString) : List UInt8 := putUvarint s.length ++ s

def writeAddr (a : Addr) : List UInt8 := putUvarint a.asSlice.length ++ a.asSlice

def writeIPSet (set : IPSet) : List UInt8 :=
  1 :: putBigEndian 8 set.length ++ set.flatMap fun r => writeAddr r.from_ ++ writeAddr r.to_

def writePrefix (p : Prefix) : List UInt8 := writeAddr p.addr ++ [p.bitsByte]

def writeBool (b : Bool) : UInt8 := if b then 1 else 0

/-- The bytes of an item after its type. -/
def BinaryItem.payload (codecs : Codecs) : BinaryItem → List UInt8
  | .strings _ value => putList writeString value
  | .uint16s _ value => putList (fun n => putBigEndian 2 n.toNat) value
  | .domain matcher => codecs.writeMatcher matcher
  | .ipCIDR _ ipSet => writeIPSet ipSet
  | .adGuardDomain matcher => codecs.writeAdGuardMatcher matcher
  | .networkType value => putList (fun t => [t]) value
  | .networkIsExpensive => []
  | .networkIsConstrained => []
  | .networkInterfaceAddress value =>
    putList (fun entry => entry.1 :: putList writePrefix entry.2) value
  | .defaultInterfaceAddress value => putList writePrefix value

def BinaryItem.write (codecs : Codecs) (item : BinaryItem) : List UInt8 :=
  item.itemType :: item.payload codecs

/-- What the writer makes of the texts of a rule. -/
structure WrittenParts where
  domain : Option DomainMatcher
  (sourceIPSet ipSet : Option IPSet)

/-- The matcher of `ruleItemDomain`.  `NewMatcher` looks at the first byte of every suffix. -/
def writtenDomain (lib : Libraries) (generateVersion : UInt8) (rule : DefaultHeadlessRuleOptions) :
    Except WriteFailure (Option DomainMatcher) :=
  if rule.domain.nonempty || rule.domainSuffix.nonempty then
    if rule.domainSuffix.elems.contains [] then
      .error (.panicked "index out of range [0] with length 0")
    else
      .ok (some (lib.newMatcher rule.domain.elems rule.domainSuffix.elems (generateVersion == 1)))
  else .ok none

/-- `writeRuleItemCIDR`, whose loop over the texts is that of `NewIPCIDRItem`. -/
def writtenIPSet (lib : Libraries) (texts : Listable GoString) (option : String) :
    Except WriteFailure (Option IPSet) :=
  if texts.nonempty then
    match newIPCIDRItem lib texts.elems with
    | .error err => .error (.error (.cause err (ofString option)))
    | .ok ipSet => .ok (some ipSet)
  else .ok none

/-- A condition that older versions do not have. -/
def requireVersion (present : Bool) (generateVersion minimum : UInt8) (message : String) :
    Except WriteFailure Unit :=
  if present && generateVersion < minimum then .error (.error (.new (ofString message)))
  else .ok ()

/-- The steps of `writeDefaultRule` that can fail, in its order. -/
def writtenParts (lib : Libraries) (generateVersion : UInt8) (rule : DefaultHeadlessRuleOptions) :
    Except WriteFailure WrittenParts := do
  let domain ← writtenDomain lib generateVersion rule
  let sourceIPSet ← writtenIPSet lib rule.sourceIPCIDR "source_ip_cidr"
  let ipSet ← writtenIPSet lib rule.ipCIDR "ipcidr"
  requireVersion rule.networkType.nonempty generateVersion 3
    "`network_type` rule item is only supported in version 3 or later"
  requireVersion rule.networkIsExpensive generateVersion 3
    "`network_is_expensive` rule item is only supported in version 3 or later"
  requireVersion rule.networkIsConstrained generateVersion 3
    "`network_is_constrained` rule item is only supported in version 3 or later"
  requireVersion (Listable.nonempty rule.networkInterfaceAddress) generateVersion 4
    "`network_interface_address` rule item is only supported in version 4 or later"
  requireVersion rule.defaultInterfaceAddress.nonempty generateVersion 4
    "`default_interface_address` rule item is only supported in version 4 or later"
  requireVersion rule.adGuardDomain.nonempty generateVersion 2
    "AdGuard rule items is only supported in version 2 or later"
  return { domain := domain, sourceIPSet := sourceIPSet, ipSet := ipSet }

/-- The item of a slice, which an empty slice does not have. -/
def sliceItem {α : Type} (l : Listable α) (item : List α → BinaryItem) : Option BinaryItem :=
  if l.nonempty then some (item l.elems) else none

def flagItem (test : Bool) (item : BinaryItem) : Option BinaryItem :=
  if test then some item else none

/-- Every item that `writeDefaultRule` may write, in its order. -/
def itemSlots (lib : Libraries) (rule : DefaultHeadlessRuleOptions) (parts : WrittenParts) :
    List (Option BinaryItem) :=
  let strings (field : StringField) := sliceItem (rule.strings field) (.strings field)
  let uint16s (field : Uint16Field) := sliceItem (rule.uint16s field) (.uint16s field)
  [uint16s .queryType, strings .network, parts.domain.map .domain, strings .domainKeyword,
    strings .domainRegex, parts.sourceIPSet.map (.ipCIDR true), parts.ipSet.map (.ipCIDR false),
    uint16s .sourcePort, strings .sourcePortRange, uint16s .port, strings .portRange,
    strings .processName, strings .processPath, strings .processPathRegex, strings .packageName,
    sliceItem rule.networkType .networkType,
    flagItem rule.networkIsExpensive .networkIsExpensive,
    flagItem rule.networkIsConstrained .networkIsConstrained,
    sliceItem rule.networkInterfaceAddress .networkInterfaceAddress,
    sliceItem rule.defaultInterfaceAddress .defaultInterfaceAddress,
    strings .wifiSSID, strings .wifiBSSID,
    sliceItem rule.adGuardDomain fun lines => .adGuardDomain (lib.newAdGuardMatcher lines)]

/-- The items that `writeDefaultRule` writes. -/
def binaryItems (lib : Libraries) (rule : DefaultHeadlessRuleOptions) (parts : WrittenParts) :
    List BinaryItem :=
  (itemSlots lib rule parts).filterMap id

def writeDefaultRule (lib : Libraries) (codecs : Codecs) (generateVersion : UInt8)
    (rule : DefaultHeadlessRuleOptions) : Except WriteFailure (List UInt8) := do
  let parts ← writtenParts lib generateVersion rule
  return 0 :: ((binaryItems lib rule parts).flatMap (BinaryItem.write codecs) ++
    [ruleItemFinal, writeBool rule.invert])

/-- The byte of a mode; a mode that was never checked panics. -/
def writeMode : LogicalModeOption → Except WriteFailure UInt8
  | .known .and => .ok 0
  | .known .or => .ok 1
  | .unknown mode => .error (.panicked ("unknown logical mode: " ++ mode))

mutual

/-- `writeRule` and `writeLogicalRule`. -/
def writeRule (lib : Libraries) (codecs : Codecs) (generateVersion : UInt8) :
    HeadlessRuleOptions → Except WriteFailure (List UInt8)
  | .default rule => writeDefaultRule lib codecs generateVersion rule
  | .logical mode invert rules => do
      let mode ← writeMode mode
      let written ← writeRules lib codecs generateVersion rules
      return 1 :: mode :: (putUvarint rules.length ++ written ++ [writeBool invert])

/-- The loop over rules. -/
def writeRules (lib : Libraries) (codecs : Codecs) (generateVersion : UInt8) :
    List HeadlessRuleOptions → Except WriteFailure (List UInt8)
  | [] => .ok []
  | rule :: rules => do
      let written ← writeRule lib codecs generateVersion rule
      return written ++ (← writeRules lib codecs generateVersion rules)

end

def magicBytes : List UInt8 := [0x53, 0x52, 0x53]

/-- `srs.Write`, to a writer that does not fail. -/
def srsWrite (lib : Libraries) (codecs : Codecs) (rules : List HeadlessRuleOptions)
    (generateVersion : UInt8) : Except WriteFailure (List UInt8) := do
  let written ← writeRules lib codecs generateVersion rules
  return magicBytes ++ generateVersion :: codecs.deflate (putUvarint rules.length ++ written)

/-! ### Reading -/

/-- `os.ErrInvalid`. -/
def errInvalid : GoError := .new "invalid argument"

def readUint8 : ByteReader GoError UInt8 := readByte ioErrors.eof

def readBool : ByteReader GoError Bool := do return (← readUint8) != 0

def readString : ByteReader GoError GoString := do
  let length ← readUvarint ioErrors
  readFull ioErrors length

/-- `readRuleItemString`. -/
def readStrings : ByteReader GoError (List GoString) := readList ioErrors readString

def readUint16s : ByteReader GoError (List UInt16) :=
  readList ioErrors do return .ofNat (ofBigEndian (← readFull ioErrors 2))

/-- `readIPSetAddr`, and the first half of `readPrefix`. -/
def readAddr : ByteReader GoError Addr := do
  let addrLen ← readUvarint ioErrors
  if addrLen ≠ 4 ∧ addrLen ≠ 16 then throw errInvalid
  return Addr.fromSlice (← readFull ioErrors addrLen)

def readIPRange : ByteReader GoError IPRange := do
  let fromAddr ← readAddr
  let toAddr ← readAddr
  return ⟨fromAddr, toAddr⟩

def readIPSet : ByteReader GoError IPSet := do
  let version ← readUint8
  if version ≠ 1 then throw errInvalid
  let length ← readFull ioErrors 8
  many (fun _ => readIPRange) 0 (ofBigEndian length)

def readPrefix : ByteReader GoError Prefix := do
  let addr ← readAddr
  let prefixBits ← readUint8
  return ⟨addr, prefixBits.toNat⟩

def readEntry : ByteReader GoError (UInt8 × List Prefix) := do
  let key ← readUint8
  let value ← readList ioErrors readPrefix
  return (key, value)

/-- `TypedMap.Put`: the value of a key is replaced, a new key comes last. -/
def putEntry (entries : List (UInt8 × List Prefix)) (entry : UInt8 × List Prefix) :
    List (UInt8 × List Prefix) :=
  if entries.any (·.1 == entry.1) then
    entries.map fun old => if old.1 == entry.1 then entry else old
  else entries ++ [entry]

/-- The payload of an item of the given type. -/
def readItem (codecs : Codecs) (itemType lastItemType : UInt8) : ByteReader GoError BinaryItem :=
  match itemType with
  | 0 => do return .uint16s .queryType (← readUint16s)
  | 1 => do return .strings .network (← readStrings)
  | 2 => do return .domain (← codecs.readMatcher)
  | 3 => do return .strings .domainKeyword (← readStrings)
  | 4 => do return .strings .domainRegex (← readStrings)
  | 5 => do return .ipCIDR true (← readIPSet)
  | 6 => do return .ipCIDR false (← readIPSet)
  | 7 => do return .uint16s .sourcePort (← readUint16s)
  | 8 => do return .strings .sourcePortRange (← readStrings)
  | 9 => do return .uint16s .port (← readUint16s)
  | 10 => do return .strings .portRange (← readStrings)
  | 11 => do return .strings .processName (← readStrings)
  | 12 => do return .strings .processPath (← readStrings)
  | 13 => do return .strings .packageName (← readStrings)
  | 14 => do return .strings .wifiSSID (← readStrings)
  | 15 => do return .strings .wifiBSSID (← readStrings)
  | 16 => do return .adGuardDomain (← codecs.readAdGuardMatcher)
  | 17 => do return .strings .processPathRegex (← readStrings)
  | 18 => do return .networkType (← readList ioErrors readUint8)
  | 19 => return .networkIsExpensive
  | 20 => return .networkIsConstrained
  | 21 => do
      let entries ← readList ioErrors readEntry
      return .networkInterfaceAddress (entries.foldl putEntry [])
  | 22 => do return .defaultInterfaceAddress (← readList ioErrors readPrefix)
  | _ =>
    throw (.new ("unknown rule item type: " ++ ofNat itemType.toNat ++
      ", last type: " ++ ofNat lastItemType.toNat))

/-- A slice that was built by `append`, which leaves it nil when there is nothing to append. -/
def appended {α : Type} (l : List α) : Listable α := if l.isEmpty then none else some l

/-- What an item sets in the options; `recover` asks for the texts as well. -/
def BinaryItem.apply (codecs : Codecs) (recover : Bool) (rule : DefaultHeadlessRuleOptions) :
    BinaryItem → DefaultHeadlessRuleOptions
  | .strings field value => rule.setStrings (appended value) field
  -- `common.Map` returns a slice that is not nil
  | .uint16s .queryType value => { rule with queryType := some value }
  | .uint16s field value => rule.setUint16s (appended value) field
  | .domain matcher =>
    let rule := { rule with domainMatcher := some matcher }
    if recover then
      { rule with domain := appended matcher.dump.1, domainSuffix := appended matcher.dump.2 }
    else rule
  | .ipCIDR true ipSet =>
    let rule := { rule with sourceIPSet := some ipSet }
    if recover then { rule with sourceIPCIDR := some (codecs.prefixes ipSet) } else rule
  | .ipCIDR false ipSet =>
    let rule := { rule with ipSet := some ipSet }
    if recover then { rule with ipCIDR := some (codecs.prefixes ipSet) } else rule
  | .adGuardDomain matcher =>
    let rule := { rule with adGuardDomainMatcher := some matcher }
    if recover then { rule with adGuardDomain := appended matcher.dump } else rule
  | .networkType value => { rule with networkType := appended value }
  | .networkIsExpensive => { rule with networkIsExpensive := true }
  | .networkIsConstrained => { rule with networkIsConstrained := true }
  | .networkInterfaceAddress value => { rule with networkInterfaceAddress := some value }
  | .defaultInterfaceAddress value => { rule with defaultInterfaceAddress := appended value }

/-- The loop of `readDefaultRule`.  A round takes at least the byte of a type, so a number of rounds
that exceeds the number of bytes is never used up. -/
def readItems (codecs : Codecs) (recover : Bool) :
    ℕ → UInt8 → DefaultHeadlessRuleOptions → ByteReader GoError DefaultHeadlessRuleOptions
  | 0, _, _ => throw ioErrors.eof
  | rounds + 1, lastItemType, rule => do
      let itemType ← readUint8
      if itemType = ruleItemFinal then
        let invert ← readBool
        return { rule with invert := invert }
      else
        let item ← readItem codecs itemType lastItemType
        readItems codecs recover rounds itemType (item.apply codecs recover rule)

def readDefaultRule (codecs : Codecs) (recover : Bool) :
    ByteReader GoError DefaultHeadlessRuleOptions :=
  fun bytes => readItems codecs recover (bytes.length + 1) 0 {} bytes

def maxLogicalRuleDepth : ℕ := 100

def readMode : ByteReader GoError LogicalModeOption := do
  let mode ← readUint8
  match mode with
  | 0 => return .known .and
  | 1 => return .known .or
  | _ => throw (.new ("unknown logical mode: " ++ ofNat mode.toNat))

/-- `readRule` and `readLogicalRule`.  The argument counts the levels down to the deepest one that
is accepted: a rule at `depth` is read with `maxLogicalRuleDepth + 1 - depth`. -/
def readRule (codecs : Codecs) (recover : Bool) : ℕ → ByteReader GoError HeadlessRuleOptions
  | 0 => throw (.new "logical rule nested too deep")
  | levels + 1 => do
      let ruleType ← readUint8
      match ruleType with
      | 0 => return .default (← readDefaultRule codecs recover)
      | 1 =>
        let mode ← readMode
        let length ← readUvarint ioErrors
        let rules ← many (fun i => mapError (.cause · (indexMessage "read logical rule [" i))
          (readRule codecs recover levels)) 0 length
        let invert ← readBool
        return .logical mode invert rules
      | _ =>
        throw (.new ("unknown rule type: " ++ ofNat ruleType.toNat))

/-- The rules of an uncompressed stream. -/
def readRules (codecs : Codecs) (recover : Bool) :
    ByteReader GoError (List HeadlessRuleOptions) := do
  let length ← readUvarint ioErrors
  many (fun i => mapError (.cause · (indexMessage "read rule[" i))
    (readRule codecs recover (maxLogicalRuleDepth + 1))) 0 length

/-- `srs.Read`: the version and the rules. -/
def srsRead (codecs : Codecs) (recover : Bool) (bytes : List UInt8) :
    Except GoError (UInt8 × List HeadlessRuleOptions) := do
  let (magic, bytes) ← readFull ioErrors 3 bytes
  if magic ≠ magicBytes then throw (.new "invalid sing-box rule-set file")
  let (version, bytes) ← readUint8 bytes
  if 4 < version then
    throw (.new ("unsupported version: " ++ ofNat version.toNat))
  let stream ← codecs.inflate bytes
  let (rules, _) ← readRules codecs recover stream
  return (version, rules)

end SingBox
