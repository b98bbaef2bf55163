/-
**What a malformed rule-set can do to its reader** (`common/srs/binary.go`, `Read`).

The counts in a rule-set file are what its author claims them to be.  The reader is modelled once
more, now with a meter: every value that is decoded is counted, also in a run that fails later, and
the depth of every call is noted.  With `recover` the texts of the matchers and the prefixes of the
address sets are got out too; a matcher whose texts cannot be got out makes the reader panic.

* `Metered.erases_readRules` — without the meter it is `readRules`;
* `Metered.costs_readRules` — **every byte pays for 32 values, and no call is deeper than
  one level below the limit**;
* `Metered.shadows_readRules` — with `recover` the reader does the same until it panics;
* `bounded_iff` — **the body is bounded exactly if all matchers in it have texts**.
-/

import SingBox.MatcherDump
import SingBox.MeteredReader

namespace SingBox

open MeteredReader GoString

open MeteredReader (Costs Shadows Erases Takes)

/-! ### Matchers -/

/-- What reading takes from other packages: the functions of a matcher that are not called while it
is read. -/
structure MatcherLibrary where
  codecs : Codecs
  (matchDomain matchAdGuard : SuccinctSet → GoString → Bool)

namespace MatcherLibrary

variable (lib : MatcherLibrary)

def domainMatcher (set : SuccinctSet) : DomainMatcher :=
  { Match := lib.matchDomain set, dump := set.dump.getD ([], []) }

def adGuardMatcher (set : SuccinctSet) : AdGuardMatcher :=
  { Match := lib.matchAdGuard set, dump := set.dumpAdGuard.getD [] }

/-- The matchers are read as sets: `ReadMatcher` and `ReadAdGuardMatcher`. -/
def srsCodecs : Codecs :=
  { lib.codecs with
    readMatcher := do return lib.domainMatcher (← readSuccinctSet)
    readAdGuardMatcher := do return lib.adGuardMatcher (← readSuccinctSet) }

end MatcherLibrary

/-- A set that the reader comes across, with what it is the set of. -/
inductive MatcherSet where
  | domain (set : SuccinctSet)
  | adGuard (set : SuccinctSet)

/-- How many texts there are, or `none` if getting them out panics. -/
def MatcherSet.texts : MatcherSet → Option ℕ
  | .domain set => set.dump.map fun texts => texts.1.length + texts.2.length
  | .adGuard set => set.dumpAdGuard.map List.length

/-- The texts can be got out. -/
def MatcherSet.Dumps : MatcherSet → Prop
  | .domain set => set.Dumps
  | .adGuard set => set.DumpsAdGuard

theorem MatcherSet.texts_eq_none_iff (s : MatcherSet) : s.texts = none ↔ ¬s.Dumps := by
  cases s with
  | domain set => exact Option.map_eq_none_iff.trans set.dump_eq_none_iff
  | adGuard set => exact Option.map_eq_none_iff.trans set.dumpAdGuard_eq_none_iff

/-! ### The readers with the meter -/

namespace Metered

variable (lib : MatcherLibrary) (recover : Bool)

/-- A reader of the parts of a rule-set. -/
abbrev SRSReader (α : Type) : Type := MeteredReader MatcherSet GoError α

def readStrings : SRSReader (List GoString) :=
  readList ioErrors (.counted readString)

def readUint16s : SRSReader (List UInt16) :=
  readList ioErrors
    (.counted do return .ofNat (ByteReader.ofBigEndian (← ByteReader.readFull ioErrors 2)))

def readIPRanges (length : List UInt8) : SRSReader IPSet :=
  many (fun _ => .counted readIPRange) 0 (ByteReader.ofBigEndian length)

def readIPSet : SRSReader IPSet := do
  let version ← lift readUint8
  if version ≠ 1 then fail errInvalid
  else do
    let length ← lift (ByteReader.readFull ioErrors 8)
    readIPRanges length

def readPrefixes : SRSReader (List Prefix) :=
  readList ioErrors (.counted readPrefix)

def readEntry : SRSReader (UInt8 × List Prefix) := do
  let key ← lift readUint8
  let value ← readPrefixes
  return (key, value)

/-- `Dump`, if it is asked for. -/
def recoverTexts (s : MatcherSet) : SRSReader Unit :=
  if recover then
    match s.texts with
    | none => crash
    | some n => tick n
  else pure ()

/-- `Prefixes`, if it is asked for. -/
def recoverPrefixes (set : IPSet) : SRSReader Unit :=
  if recover then tick (lib.codecs.prefixes set).length else pure ()

/-- What follows `ReadMatcher` or `ReadAdGuardMatcher`. -/
def recoverMatcher (s : MatcherSet) : SRSReader Unit := do
  note s
  recoverTexts recover s

/-- The item of a matcher. -/
def readMatcherItem (kind : SuccinctSet → MatcherSet) (item : SuccinctSet → BinaryItem) :
    SRSReader BinaryItem := do
  let set ← lift readSuccinctSet
  recoverMatcher recover (kind set)
  return item set

def readIPSetItem (isSource : Bool) : SRSReader BinaryItem := do
  let set ← readIPSet
  recoverPrefixes lib recover set
  return .ipCIDR isSource set

def readStringsItem (field : StringField) : SRSReader BinaryItem := do
  return .strings field (← readStrings)

def readUint16sItem (field : Uint16Field) : SRSReader BinaryItem := do
  return .uint16s field (← readUint16s)

/-- The payload of an item of the given type. -/
def readItem (itemType lastItemType : UInt8) : SRSReader BinaryItem :=
  match itemType with
  | 0 => readUint16sItem .queryType
  | 1 => readStringsItem .network
  | 2 => readMatcherItem recover .domain fun set => .domain (lib.domainMatcher set)
  | 3 => readStringsItem .domainKeyword
  | 4 => readStringsItem .domainRegex
  | 5 => readIPSetItem lib recover true
  | 6 => readIPSetItem lib recover false
  | 7 => readUint16sItem .sourcePort
  | 8 => readStringsItem .sourcePortRange
  | 9 => readUint16sItem .port
  | 10 => readStringsItem .portRange
  | 11 => readStringsItem .processName
  | 12 => readStringsItem .processPath
  | 13 => readStringsItem .packageName
  | 14 => readStringsItem .wifiSSID
  | 15 => readStringsItem .wifiBSSID
  | 16 => readMatcherItem recover .adGuard fun set => .adGuardDomain (lib.adGuardMatcher set)
  | 17 => readStringsItem .processPathRegex
  | 18 => do return .networkType (← readList ioErrors (.counted readUint8))
  | 19 => return .networkIsExpensive
  | 20 => return .networkIsConstrained
  | 21 => do
      let entries ← readList ioErrors readEntry
      return .networkInterfaceAddress (entries.foldl putEntry [])
  | 22 => do return .defaultInterfaceAddress (← readPrefixes)
  | _ =>
    fail
      (.new ("unknown rule item type: " ++ GoString.ofNat itemType.toNat ++
        ", last type: " ++ GoString.ofNat lastItemType.toNat))

/-- The end of a default rule. -/
def readInvert (rule : DefaultHeadlessRuleOptions) : SRSReader DefaultHeadlessRuleOptions := do
  let invert ← lift readBool
  return { rule with invert := invert }

/-- The loop of `readDefaultRule`, for a number of rounds. -/
def readItems : ℕ → UInt8 → DefaultHeadlessRuleOptions → SRSReader DefaultHeadlessRuleOptions
  | 0, _, _ => exhaust
  | rounds + 1, lastItemType, rule => do
      let itemType ← lift readUint8
      if itemType = ruleItemFinal then readInvert rule
      else do
        let item ← readItem lib recover itemType lastItemType
        readItems rounds itemType (item.apply lib.srsCodecs recover rule)

/-- `readDefaultRule`; a round takes at least the byte of a type. -/
def readDefaultRule : SRSReader DefaultHeadlessRuleOptions :=
  fun bytes => readItems lib recover (bytes.length + 1) 0 {} bytes

/-- `readLogicalRule`, with the reader of its rules. -/
def readLogicalRule (rule : SRSReader HeadlessRuleOptions) : SRSReader HeadlessRuleOptions := do
  let mode ← lift readMode
  let length ← lift (ByteReader.readUvarint ioErrors)
  let rules ← many (fun i =>
    mapError (.cause · (indexMessage "read logical rule [" i)) rule) 0 length
  let invert ← lift readBool
  return .logical mode invert rules

def readTypedRule (rule : SRSReader HeadlessRuleOptions) (ruleType : UInt8) :
    SRSReader HeadlessRuleOptions :=
  match ruleType with
  | 0 => do
      tick 1
      return .default (← readDefaultRule lib recover)
  | 1 => do
      tick 1
      readLogicalRule rule
  | _ =>
    fail
      (.new ("unknown rule type: " ++ GoString.ofNat ruleType.toNat))

/-- `readRule`, for a number of calls inside each other. -/
def readRule : ℕ → ℕ → SRSReader HeadlessRuleOptions
  | 0, _ => exhaust
  | calls + 1, depth => do
      enter depth
      if maxLogicalRuleDepth < depth then
        fail (.new "logical rule nested too deep")
      else do
        let ruleType ← lift readUint8
        readTypedRule lib recover (readRule calls (depth + 1)) ruleType

/-- The number of calls of `readRule` inside each other. -/
def maxCalls : ℕ := maxLogicalRuleDepth + 2

/-- The rules of an uncompressed stream. -/
def readRules : SRSReader (List HeadlessRuleOptions) := do
  let length ← lift (ByteReader.readUvarint ioErrors)
  many (fun i =>
    mapError (.cause · (indexMessage "read rule[" i))
      (readRule lib recover maxCalls 0)) 0 length

end Metered

/-! ### The bytes that values take -/

theorem takes_uint8 : Takes readUint8 fun _ => 1 := takes_byte _

theorem takes_bool : Takes readBool fun _ => 0 :=
  takes_uint8.bind fun a bytes b rest hrun => by
    cases hrun
    exact Nat.le_add_right _ _

theorem takes_string : Takes readString fun _ => 1 :=
  (takes_uvarint _).bind fun a bytes b rest hrun => by
    have htakes := takes_full _ _ bytes b rest hrun
    omega

variable {α β : Type}

theorem takes_map {p : ByteReader GoError α} {n : ℕ} (h : Takes p fun _ => n)
    (g : α → β) : Takes (do return g (← p)) fun _ => n :=
  h.bind fun a bytes b rest hrun => by
    cases hrun
    exact le_rfl

theorem takes_addr : Takes readAddr fun _ => 5 := by
  refine (takes_uvarint _).bind fun addrLen bytes a rest hrun => ?_
  split at hrun
  · cases hrun
  · have htakes := takes_map (takes_full ioErrors addrLen) Addr.fromSlice bytes a rest hrun
    dsimp only at htakes ⊢
    omega

theorem takes_ipRange : Takes readIPRange fun _ => 10 := by
  refine takes_addr.bind fun fromAddr bytes a rest hrun => ?_
  have htakes := takes_map takes_addr (fun toAddr => (⟨fromAddr, toAddr⟩ : IPRange)) bytes a rest
    hrun
  dsimp only at htakes
  omega

theorem takes_prefix : Takes readPrefix fun _ => 6 := by
  refine takes_addr.bind fun addr bytes a rest hrun => ?_
  have htakes := takes_map takes_uint8 (fun bits => (⟨addr, bits.toNat⟩ : Prefix)) bytes a rest hrun
  dsimp only at htakes
  omega

theorem checkSuccinctSet_labels {leaves labelBitmap : List UInt64} {labels : List UInt8}
    {set : SuccinctSet} (h : checkSuccinctSet leaves labelBitmap labels = .ok set) :
    set.labels = labels := by
  simp only [checkSuccinctSet] at h
  split at h
  · cases h
    rfl
  · cases h

theorem takes_labels (leaves labelBitmap : List UInt64) :
    Takes (do
      let labels ← ByteReader.readList ioErrors readUint8
      fun bytes => (checkSuccinctSet leaves labelBitmap labels).map fun set => (set, bytes) :
        ByteReader GoError SuccinctSet) fun set => set.labels.length := by
  refine takes_uint8.readList.bind fun labels bytes set rest hrun => ?_
  cases hcheck : checkSuccinctSet leaves labelBitmap labels with
  | error err =>
    rw [hcheck] at hrun
    cases hrun
  | ok set' =>
    rw [hcheck] at hrun
    cases hrun
    rw [checkSuccinctSet_labels hcheck]
    omega

theorem takes_uint64s : Takes readUint64s fun _ => 0 :=
  ((takes_map (takes_full ioErrors 8) _).readList).weaken fun _ => Nat.zero_le _

theorem takes_succinctSet : Takes readSuccinctSet fun set => set.labels.length + 1 := by
  refine takes_uint8.bind fun _ bytes set rest hrun => ?_
  have htakes := (takes_uint64s.bind fun leaves bytes set rest hrun =>
    (takes_uint64s.bind fun labelBitmap bytes set rest hrun =>
      takes_labels leaves labelBitmap bytes set rest hrun) bytes set rest hrun) bytes set rest hrun
  dsimp only at htakes
  omega

/-! ### The price of the readers -/

namespace Metered

variable (lib : MatcherLibrary) (recover : Bool)

/-- The price of a value: every byte pays for 32 of them. -/
abbrev Pays {α : Type} (bytes : List UInt8) (s : ℕ) (p : SRSReader α) (c : α → ℕ) : Prop :=
  Costs 32 (maxLogicalRuleDepth + 1) bytes s p c

/-- Everything is paid for, and nothing is left over. -/
abbrev PaysAll {α : Type} (bytes : List UInt8) (p : SRSReader α) : Prop :=
  Pays bytes 0 p fun _ => 0

variable {bytes : List UInt8}

theorem paysAll_map {p : SRSReader α} {c : α → ℕ} (h : Pays bytes 0 p c)
    (g : α → β) : PaysAll bytes (do return g (← p)) :=
  (h.weaken fun _ => Nat.zero_le _).bind fun a _ _ => Costs.pure (g a) fun _ => 0

theorem pays_readStrings : Pays bytes 0 readStrings fun as => 31 * as.length :=
  Costs.readList (fun _ => Costs.counted takes_string (by decide)) bytes

theorem pays_readUint16s : Pays bytes 0 readUint16s fun as => 63 * as.length :=
  Costs.readList (fun _ => Costs.counted (takes_map (takes_full _ 2) _) (by decide)) bytes

theorem pays_readPrefixes : Pays bytes 0 readPrefixes fun as => 191 * as.length :=
  Costs.readList (fun _ => Costs.counted takes_prefix (by decide)) bytes

theorem paysAll_lift {p : ByteReader GoError α} {n : α → ℕ} (h : Takes p n) :
    PaysAll bytes (lift p) :=
  (Costs.lift h).weaken fun _ => Nat.zero_le _

theorem pays_readIPSet : Pays bytes 0 readIPSet fun set => 256 * set.length := by
  refine (paysAll_lift takes_uint8).bind fun version m _ => ?_
  split
  · exact Costs.fail _ _
  · refine (paysAll_lift (takes_full _ 8)).bind fun length m' _ => ?_
    have hranges : Pays m'.rest 0 (readIPRanges length) fun set => 319 * set.length :=
      Costs.many (fun _ _ => Costs.counted takes_ipRange (by decide)) 0 _ m'.rest
    exact hranges.weaken fun set => Nat.mul_le_mul_right _ (by decide)

theorem paysAll_readEntry : PaysAll bytes readEntry := by
  refine (paysAll_lift takes_uint8).bind fun key m _ => ?_
  exact paysAll_map pays_readPrefixes fun value => (key, value)

theorem texts_le {s : MatcherSet} {set : SuccinctSet} {n : ℕ}
    (hset : s = .domain set ∨ s = .adGuard set) (h : s.texts = some n) :
    n ≤ set.labels.length + 1 := by
  rcases hset with rfl | rfl
  · obtain ⟨texts, htexts, rfl⟩ := Option.map_eq_some_iff.1 h
    exact SuccinctSet.length_dump_le htexts
  · obtain ⟨texts, htexts, rfl⟩ := Option.map_eq_some_iff.1 h
    exact SuccinctSet.length_dumpAdGuard_le htexts

theorem pays_recoverTexts {s : MatcherSet} {k : ℕ} (h : ∀ n, s.texts = some n → n ≤ k) :
    Pays bytes k (recoverTexts recover s) fun _ => 0 := by
  rw [recoverTexts]
  split
  · split
    · exact Costs.crash _
    · next n htexts =>
        have htick := (Costs.tick n (k - n) : Pays bytes _ _ _)
        rw [Nat.add_sub_cancel' (h n htexts)] at htick
        exact htick.weaken fun _ => Nat.zero_le _
  · exact (Costs.pure () fun _ => k).weaken fun _ => Nat.zero_le _

theorem paysAll_readMatcherItem {kind : SuccinctSet → MatcherSet}
    (hkind : ∀ set, kind set = .domain set ∨ kind set = .adGuard set)
    (item : SuccinctSet → BinaryItem) : PaysAll bytes (readMatcherItem recover kind item) := by
  refine (Costs.lift takes_succinctSet).bind fun set m _ => ?_
  have hrecover : Pays m.rest (32 * (set.labels.length + 1)) (recoverMatcher recover (kind set))
      fun _ => 0 := by
    refine (Costs.note (kind set) _).bind fun _ m' _ => pays_recoverTexts recover fun n hn => ?_
    have hle := texts_le (hkind set) hn
    omega
  exact hrecover.bind fun _ _ _ => Costs.pure (item set) fun _ => 0

/-- `Prefixes` makes no more than 256 prefixes of a range. -/
def PrefixesBounded : Prop :=
  ∀ set, (lib.codecs.prefixes set).length ≤ 256 * set.length

variable {lib}

theorem paysAll_readIPSetItem (hprefixes : PrefixesBounded lib) (isSource : Bool) :
    PaysAll bytes (readIPSetItem lib recover isSource) := by
  refine pays_readIPSet.bind fun set m _ => ?_
  have hrecover : Pays m.rest (256 * set.length) (recoverPrefixes lib recover set) fun _ => 0 := by
    rw [recoverPrefixes]
    split
    · have htick := (Costs.tick (lib.codecs.prefixes set).length
        (256 * set.length - (lib.codecs.prefixes set).length) : Pays m.rest _ _ _)
      rw [Nat.add_sub_cancel' (hprefixes set)] at htick
      exact htick.weaken fun _ => Nat.zero_le _
    · exact (Costs.pure () fun _ => 256 * set.length).weaken fun _ => Nat.zero_le _
  exact hrecover.bind fun _ _ _ => Costs.pure _ fun _ => 0

/-- **Every item pays for itself.** -/
theorem paysAll_readItem (hprefixes : PrefixesBounded lib) (itemType lastItemType : UInt8) :
    PaysAll bytes (readItem lib recover itemType lastItemType) := by
  unfold readItem
  split
  case h_19 =>
      exact paysAll_map (Costs.readList (fun _ => Costs.counted takes_uint8 (by decide)) _) _
  case h_22 => exact paysAll_map (Costs.readList (fun _ => paysAll_readEntry) _) _
  case h_23 => exact paysAll_map pays_readPrefixes _
  case h_24 => exact Costs.fail _ _
  all_goals first
    | exact paysAll_map pays_readStrings _
    | exact paysAll_map pays_readUint16s _
    | exact paysAll_readIPSetItem recover hprefixes _
    | exact paysAll_readMatcherItem recover (fun _ => .inl rfl) _
    | exact paysAll_readMatcherItem recover (fun _ => .inr rfl) _
    | exact Costs.pure _ fun _ => 0

theorem length_of_lift_uint8 {b : UInt8} {m : Meter MatcherSet}
    (h : (lift readUint8 : SRSReader UInt8) bytes = (.ok b, m)) :
    m.rest.length + 1 = bytes.length := by
  cases bytes with
  | nil => cases h
  | cons c bytes =>
    cases h
    rfl

/-- **The loop over the items ends**: a round takes a byte, so that a number of rounds that exceeds
the number of bytes is not used up. -/
theorem paysAll_readItems (hprefixes : PrefixesBounded lib) {rounds : ℕ} (lastItemType : UInt8)
    (rule : DefaultHeadlessRuleOptions) (bytes : List UInt8) (hrounds : bytes.length < rounds) :
    PaysAll bytes (readItems lib recover rounds lastItemType rule) := by
  induction rounds generalizing lastItemType rule bytes with
  | zero => omega
  | succ rounds ih =>
    refine (paysAll_lift takes_uint8).bind fun itemType m hread => ?_
    have hlen := length_of_lift_uint8 hread
    split
    · exact paysAll_map (paysAll_lift takes_bool) _
    · have hitem : PaysAll m.rest (readItem lib recover itemType lastItemType) :=
        paysAll_readItem recover hprefixes itemType lastItemType
      refine hitem.bind fun item m' hrun => ?_
      have hshrinks := hitem.shrinks
      rw [hrun] at hshrinks
      exact ih _ _ m'.rest (by dsimp only at hshrinks; omega)

theorem paysAll_readDefaultRule (hprefixes : PrefixesBounded lib) :
    PaysAll bytes (readDefaultRule lib recover) := by
  have hitems := paysAll_readItems recover hprefixes 0 {} bytes (Nat.lt_succ_self bytes.length)
  exact ⟨hitems.pays, hitems.shrinks, hitems.deepest_le, hitems.ends⟩

theorem takes_mode : Takes readMode fun _ => 0 := by
  refine takes_uint8.bind fun mode bytes a rest hrun => ?_
  split at hrun
  · cases hrun
    exact Nat.le_add_right _ _
  · cases hrun
    exact Nat.le_add_right _ _
  · cases hrun

variable {rule : SRSReader HeadlessRuleOptions}

theorem paysAll_readLogicalRule
    (hrule : ∀ bytes, PaysAll bytes rule) : PaysAll bytes (readLogicalRule rule) := by
  refine (paysAll_lift takes_mode).bind fun mode m _ => ?_
  refine (paysAll_lift (takes_uvarint _)).bind fun length m' _ => ?_
  have hrules := Costs.many (fun i bytes => (hrule bytes).mapError
    (.cause · (indexMessage "read logical rule [" i))) 0 length m'.rest
  refine (hrules.weaken fun _ => Nat.zero_le _).bind fun rules m'' _ => ?_
  exact paysAll_map (paysAll_lift takes_bool) _

theorem pays_readTypedRule (hprefixes : PrefixesBounded lib)
    (hrule : ∀ bytes, PaysAll bytes rule) (ruleType : UInt8) :
    Pays bytes 32 (readTypedRule lib recover rule ruleType) fun _ => 0 := by
  have htick : ∀ bytes, Pays bytes 32 (tick 1) fun _ => 0 :=
    fun bytes => (Costs.tick 1 31 : Pays bytes _ _ _).weaken fun _ => Nat.zero_le _
  unfold readTypedRule
  split
  · refine (htick bytes).bind fun _ m _ => ?_
    exact paysAll_map (paysAll_readDefaultRule recover hprefixes) _
  · exact (htick bytes).bind fun _ m _ => paysAll_readLogicalRule hrule
  · exact Costs.fail _ _

/-- **The recursion ends**, one level below the limit at the latest. -/
theorem paysAll_readRule (hprefixes : PrefixesBounded lib) {calls depth : ℕ}
    (hdepth : depth ≤ maxLogicalRuleDepth + 1) (hcalls : maxCalls ≤ calls + depth)
    (bytes : List UInt8) : PaysAll bytes (readRule lib recover calls depth) := by
  induction calls generalizing depth bytes with
  | zero =>
    rw [maxCalls] at hcalls
    omega
  | succ calls ih =>
    refine (Costs.enter hdepth 0).bind fun _ m _ => ?_
    split
    · exact Costs.fail _ _
    · have hbyte : Pays m.rest 0 (lift readUint8) fun _ => 32 := Costs.lift takes_uint8
      refine hbyte.bind fun ruleType m' _ => ?_
      exact pays_readTypedRule recover hprefixes
        (fun bytes => ih (by omega) (by omega) bytes) ruleType

/-- **Every byte pays for 32 values, and no call is deeper than one level below the limit.** -/
theorem costs_readRules (hprefixes : PrefixesBounded lib) (bytes : List UInt8) :
    PaysAll bytes (readRules lib recover) := by
  refine (paysAll_lift (takes_uvarint _)).bind fun length m _ => ?_
  have hrule : ∀ bytes, PaysAll bytes (readRule lib recover maxCalls 0) :=
    paysAll_readRule recover hprefixes (Nat.zero_le _) le_rfl
  have hrules := Costs.many (fun i bytes => (hrule bytes).mapError
    (.cause · (indexMessage "read rule[" i))) 0 length m.rest
  exact hrules.weaken fun _ => Nat.zero_le _

/-! ### Reading with and without the texts -/

/-- The set does not make the reader panic. -/
def Harmless (s : MatcherSet) : Prop := recover = true → s.Dumps

/-- With `recover` a reader does what it does without it, until it panics. -/
abbrev Follows {α : Type} (R : α → α → Prop) (p q : SRSReader α) : Prop :=
  Shadows (Harmless recover) R p q

variable {recover}

theorem follows_map {p q : SRSReader α} (h : Follows recover Eq p q) (g : α → β) :
    Follows recover Eq (do return g (← p)) (do return g (← q)) := by
  refine h.bind ?_
  rintro a _ rfl
  exact Shadows.pure rfl

theorem follows_readPrefixes : Follows recover Eq readPrefixes readPrefixes :=
  (Shadows.counted _).readList

theorem follows_readIPSet : Follows recover Eq readIPSet readIPSet := by
  refine (Shadows.lift _).bind ?_
  rintro version _ rfl
  split
  · exact Shadows.fail _
  · refine (Shadows.lift _).bind ?_
    rintro length _ rfl
    refine (Shadows.many (fun _ => Shadows.counted _) 0 _).mono fun as bs habs => ?_
    exact List.forall₂_eq_eq_eq ▸ habs

theorem follows_readEntry : Follows recover Eq readEntry readEntry := by
  refine (Shadows.lift _).bind ?_
  rintro key _ rfl
  exact follows_map follows_readPrefixes fun value => (key, value)

theorem follows_recoverMatcher (s : MatcherSet) :
    Follows recover Eq (recoverMatcher false s) (recoverMatcher recover s) := by
  intro bytes
  have hleft : recoverMatcher false s bytes = (.ok (), { rest := bytes, seen := [s] }) := rfl
  rw [hleft]
  cases hrecover : recover with
  | false =>
    rw [hleft]
    exact .value nofun rfl rfl
  | true =>
    cases htexts : s.texts with
    | none =>
      have hright : recoverMatcher true s bytes = (.panicked, { rest := bytes, seen := [s] }) := by
        rw [recoverMatcher, bind_eq, recoverTexts, if_pos rfl, htexts]
        rfl
      rw [hright]
      refine .bad s List.mem_cons_self fun hharmless => ?_
      exact (s.texts_eq_none_iff.1 htexts) (hharmless rfl)
    | some n =>
      have hright : recoverMatcher true s bytes =
          (.ok (), { rest := bytes, decoded := 0 + n, seen := [s] }) := by
        rw [recoverMatcher, bind_eq, recoverTexts, if_pos rfl, htexts]
        rfl
      rw [hright]
      refine .value (fun x hx _ => ?_) rfl rfl
      rw [List.mem_singleton.1 hx]
      by_contra hnot
      rw [s.texts_eq_none_iff.2 hnot] at htexts
      cases htexts

variable (kind : SuccinctSet → MatcherSet)

theorem follows_readMatcherItem (item : SuccinctSet → BinaryItem) :
    Follows recover Eq (readMatcherItem false kind item) (readMatcherItem recover kind item) := by
  refine (Shadows.lift _).bind ?_
  rintro set _ rfl
  exact (follows_recoverMatcher (kind set)).bind fun _ _ _ => Shadows.pure rfl

theorem follows_readIPSetItem (isSource : Bool) :
    Follows recover Eq (readIPSetItem lib false isSource) (readIPSetItem lib recover isSource) := by
  refine follows_readIPSet.bind ?_
  rintro set _ rfl
  have hrecover : Follows recover Eq (recoverPrefixes lib false set)
      (recoverPrefixes lib recover set) := by
    cases recover with
    | false => exact Shadows.pure rfl
    | true => exact Shadows.tick 0 _
  exact hrecover.bind fun _ _ _ => Shadows.pure rfl

variable (itemType lastItemType : UInt8)

theorem follows_readItem :
    Follows recover Eq (readItem lib false itemType lastItemType)
      (readItem lib recover itemType lastItemType) := by
  unfold readItem
  split
  case h_22 => exact follows_map follows_readEntry.readList _
  case h_23 => exact follows_map follows_readPrefixes _
  case h_24 => exact Shadows.fail _
  all_goals first
    | exact follows_map (Shadows.counted _).readList _
    | exact follows_readIPSetItem _
    | exact follows_readMatcherItem _ _
    | exact Shadows.pure rfl

theorem follows_readItems (rounds : ℕ) (lastItemType : UInt8)
    (rule rule' : DefaultHeadlessRuleOptions) :
    Follows recover (fun _ _ => True) (readItems lib false rounds lastItemType rule)
      (readItems lib recover rounds lastItemType rule') := by
  -- the options differ in the texts, and nothing that is read depends on them
  induction rounds generalizing lastItemType rule rule' with
  | zero => exact Shadows.exhaust
  | succ rounds ih =>
    refine (Shadows.lift _).bind ?_
    rintro itemType _ rfl
    split
    · exact (Shadows.lift _).bind fun _ _ _ => Shadows.pure trivial
    · refine (follows_readItem itemType lastItemType).bind ?_
      rintro item _ rfl
      exact ih _ _ _

theorem follows_readDefaultRule :
    Follows recover (fun _ _ => True) (readDefaultRule lib false) (readDefaultRule lib recover) :=
  fun bytes => follows_readItems (bytes.length + 1) 0 {} {} bytes

theorem follows_many {p q : ℕ → SRSReader HeadlessRuleOptions}
    (h : ∀ i, Follows recover (fun _ _ => True) (p i) (q i)) (n : ℕ) :
    Follows recover (fun _ _ => True) (many p 0 n) (many q 0 n) :=
  (Shadows.many h 0 n).mono fun _ _ _ => trivial

variable {rule rule' : SRSReader HeadlessRuleOptions}

theorem follows_readLogicalRule (h : Follows recover (fun _ _ => True) rule rule') :
    Follows recover (fun _ _ => True) (readLogicalRule rule) (readLogicalRule rule') := by
  refine (Shadows.lift _).bind ?_
  rintro mode _ rfl
  refine (Shadows.lift _).bind ?_
  rintro length _ rfl
  refine (follows_many (fun i => h.mapError _) length).bind fun _ _ _ => ?_
  exact (Shadows.lift _).bind fun _ _ _ => Shadows.pure trivial

theorem follows_readTypedRule
    (h : Follows recover (fun _ _ => True) rule rule') (ruleType : UInt8) :
    Follows recover (fun _ _ => True) (readTypedRule lib false rule ruleType)
      (readTypedRule lib recover rule' ruleType) := by
  unfold readTypedRule
  split
  · refine (Shadows.tick 1 1).bind fun _ _ _ => ?_
    exact follows_readDefaultRule.bind fun _ _ _ => Shadows.pure trivial
  · exact (Shadows.tick 1 1).bind fun _ _ _ => follows_readLogicalRule h
  · exact Shadows.fail _

theorem follows_readRule (calls depth : ℕ) :
    Follows recover (fun _ _ => True) (readRule lib false calls depth)
      (readRule lib recover calls depth) := by
  induction calls generalizing depth with
  | zero => exact Shadows.exhaust
  | succ calls ih =>
    refine (Shadows.enter depth).bind fun _ _ _ => ?_
    split
    · exact Shadows.fail _
    · refine (Shadows.lift _).bind ?_
      rintro ruleType _ rfl
      exact follows_readTypedRule (ih (depth + 1)) ruleType

/-- **With `recover` the rules are read as without it, until a set makes the reader panic.** -/
theorem shadows_readRules :
    Follows recover (fun _ _ => True) (readRules lib false) (readRules lib recover) := by
  refine (Shadows.lift _).bind ?_
  rintro length _ rfl
  exact follows_many (fun i => (follows_readRule maxCalls 0).mapError _) length

/-! ### Without the meter -/

section

variable (lib recover)

theorem erases_map {p : SRSReader α} {q : ByteReader GoError α} (h : Erases p q)
    (g : α → β) : Erases (do return g (← p)) (do return g (← q)) :=
  h.bind fun a => Erases.pure (g a)

theorem erases_readPrefixes : Erases readPrefixes (ByteReader.readList ioErrors readPrefix) :=
  (Erases.counted _).readList

theorem erases_readIPSet : Erases readIPSet SingBox.readIPSet := by
  refine (Erases.lift _).bind fun version => ?_
  by_cases hversion : version ≠ 1
  · rw [if_pos hversion, if_pos hversion]
    exact Erases.fail _
  · rw [if_neg hversion, if_neg hversion]
    exact (Erases.lift _).bind fun length => Erases.many (fun _ => Erases.counted _) 0 _

theorem erases_readEntry : Erases readEntry SingBox.readEntry :=
  (Erases.lift _).bind fun key => erases_readPrefixes.bind fun value => Erases.pure (key, value)

theorem erases_recoverMatcher (s : MatcherSet) : Erases (recoverMatcher recover s) (pure ()) := by
  refine (Erases.note s).skip ?_
  rw [recoverTexts]
  split
  · split
    · exact Erases.crash _
    · exact Erases.tick _
  · exact Erases.pure ()

theorem erases_recoverPrefixes (set : IPSet) :
    Erases (recoverPrefixes lib recover set) (pure ()) := by
  rw [recoverPrefixes]
  split
  · exact Erases.tick _
  · exact Erases.pure ()

theorem erases_readMatcherItem {μ : Type} (matcher : SuccinctSet → μ) (item : μ → BinaryItem) :
    Erases (readMatcherItem recover kind fun set => item (matcher set))
      ((readSuccinctSet >>= fun set => pure (matcher set)) >>= fun m => pure (item m)) := by
  rw [bind_assoc]
  refine (Erases.lift _).bind fun set => ?_
  rw [pure_bind]
  exact (erases_recoverMatcher recover _).skip (Erases.pure (item (matcher set)))

theorem erases_readIPSetItem (isSource : Bool) :
    Erases (readIPSetItem lib recover isSource)
      (do return BinaryItem.ipCIDR isSource (← SingBox.readIPSet)) :=
  erases_readIPSet.bind fun set =>
    (erases_recoverPrefixes lib recover set).skip (Erases.pure (BinaryItem.ipCIDR isSource set))

theorem erases_readItem :
    Erases (readItem lib recover itemType lastItemType)
      (SingBox.readItem lib.srsCodecs itemType lastItemType) := by
  unfold readItem
  split
  case h_3 => exact erases_readMatcherItem recover _ lib.domainMatcher _
  case h_17 => exact erases_readMatcherItem recover _ lib.adGuardMatcher _
  case h_22 => exact erases_map erases_readEntry.readList _
  case h_23 => exact erases_map erases_readPrefixes _
  case h_24 =>
      -- no type that is known to one of the tables is left for the other
      unfold SingBox.readItem
      split <;> first | contradiction | exact Erases.fail _
  all_goals first
    | exact erases_map (Erases.counted _).readList _
    | exact erases_readIPSetItem lib recover _
    | exact Erases.pure _

theorem erases_readItems (rounds : ℕ) (lastItemType : UInt8) (rule : DefaultHeadlessRuleOptions) :
    Erases (readItems lib recover rounds lastItemType rule)
      (SingBox.readItems lib.srsCodecs recover rounds lastItemType rule) := by
  induction rounds generalizing lastItemType rule with
  | zero => exact Erases.exhaust _
  | succ rounds ih =>
    refine (Erases.lift _).bind fun itemType => ?_
    by_cases hfinal : itemType = ruleItemFinal
    · rw [if_pos hfinal, if_pos hfinal]
      exact (Erases.lift _).bind fun invert => Erases.pure _
    · rw [if_neg hfinal, if_neg hfinal]
      exact (erases_readItem lib recover itemType lastItemType).bind fun item => ih _ _

theorem erases_readRule (calls depth levels : ℕ)
    (hlevels : depth + levels = maxLogicalRuleDepth + 1) :
    Erases (readRule lib recover calls depth) (SingBox.readRule lib.srsCodecs recover levels) := by
  induction calls generalizing depth levels with
  | zero => exact Erases.exhaust _
  | succ calls ih =>
    refine (Erases.enter depth).skip ?_
    cases levels with
    | zero =>
      rw [if_pos (by omega)]
      exact Erases.fail _
    | succ levels =>
      rw [if_neg (by omega)]
      refine (Erases.lift _).bind fun ruleType => ?_
      split
      · refine (Erases.tick 1).skip (erases_map ?_ _)
        exact fun bytes => erases_readItems lib recover (bytes.length + 1) 0 {} bytes
      · refine (Erases.tick 1).skip ?_
        refine (Erases.lift _).bind fun mode => (Erases.lift _).bind fun length => ?_
        have hrule := ih (depth + 1) levels (by omega)
        refine (Erases.many (fun _ => hrule.mapError _) 0 length).bind fun rules => ?_
        exact (Erases.lift _).bind fun invert => Erases.pure _
      · unfold readTypedRule
        split <;> first | contradiction | exact Erases.fail _

/-- **Without the meter, and where it does not panic, the reader is the one without bounds.** -/
theorem erases_readRules :
    Erases (readRules lib recover) (SingBox.readRules lib.srsCodecs recover) :=
  (Erases.lift _).bind fun length =>
    Erases.many (fun _ => (erases_readRule lib recover maxCalls 0 _ (Nat.zero_add _)).mapError _) 0
      length

end

end Metered

/-! ### The bounds -/

open Metered

/-- A run of the reader comes to a result or an error, what it has decoded is paid for by the bytes
it has taken, and no call is deeper than one level below the limit. -/
structure Bounded (body : List UInt8)
    (run : Outcome GoError (List HeadlessRuleOptions) ×
      Meter MatcherSet) : Prop where
  ends : (∃ rules, run.1 = .ok rules) ∨ ∃ err, run.1 = .error err
  decoded_le : run.2.decoded ≤ 32 * (body.length - run.2.rest.length)
  deepest_le : run.2.deepest ≤ maxLogicalRuleDepth + 1

/-- **When a body is bounded.**  Without `recover` every body is.  With `recover` those are of which
every matcher that stands before the first mistake has texts that can be got out. -/
theorem bounded_iff (lib : MatcherLibrary) (hprefixes : PrefixesBounded lib) (recover : Bool)
    (body : List UInt8) :
    Bounded body (Metered.readRules lib recover body) ↔
      ∀ s ∈ (Metered.readRules lib false body).2.seen, recover = true → s.Dumps := by
  obtain ⟨hpays, -, hdeep, hends⟩ := costs_readRules recover hprefixes body
  have hshadow : Shadowed (Harmless recover) (fun _ _ => True)
      (Metered.readRules lib false body) (Metered.readRules lib recover body) :=
    shadows_readRules body
  have hpaid : (Metered.readRules lib recover body).2.decoded ≤
      32 * (body.length - (Metered.readRules lib recover body).2.rest.length) := by
    omega
  generalize Metered.readRules lib recover body = run at hshadow hdeep hends hpaid ⊢
  generalize Metered.readRules lib false body = plain at hshadow ⊢
  cases hshadow with
  | bad x hx hbad =>
    refine ⟨fun h => ?_, fun hall => absurd (hall x hx) hbad⟩
    rcases h.ends with ⟨rules, hpanic⟩ | ⟨err, hpanic⟩
    · cases hpanic
    · cases hpanic
  | value hgood => exact ⟨fun _ => hgood, fun _ => ⟨.inl ⟨_, rfl⟩, hpaid, hdeep⟩⟩
  | error hgood => exact ⟨fun _ => hgood, fun _ => ⟨.inr ⟨_, rfl⟩, hpaid, hdeep⟩⟩
  | exhausted => exact absurd rfl hends

/-- The functions that reading does not call, and no prefixes. -/
def plainLibrary : MatcherLibrary :=
  { codecs :=
      { deflate := id
        inflate := .ok
        writeMatcher := fun _ => []
        readMatcher := throw errInvalid
        writeAdGuardMatcher := fun _ => []
        readAdGuardMatcher := throw errInvalid
        prefixes := fun _ => [] }
    matchDomain := fun _ _ => false
    matchAdGuard := fun _ _ => false }

/-- One rule with a matcher, of which the leaves, the nodes and the labels are given. -/
def matcherBody (leaves labelBitmap : UInt8) (labels : List UInt8) : List UInt8 :=
  [1, 0, 2, 0, 1, 0, 0, 0, 0, 0, 0, 0, leaves, 1, 0, 0, 0, 0, 0, 0, 0, labelBitmap] ++
    (UInt8.ofNat labels.length :: labels) ++ [0xFF, 0]

theorem matcherBody_bounded :
    PrefixesBounded plainLibrary ∧ Bounded (matcherBody 2 6 [97])
      (Metered.readRules plainLibrary true (matcherBody 2 6 [97])) := by
  have hprefixes : PrefixesBounded plainLibrary := fun set => Nat.zero_le _
  refine ⟨hprefixes, (bounded_iff plainLibrary hprefixes true (matcherBody 2 6 [97])).2 ?_⟩
  have hall : ((Metered.readRules plainLibrary false (matcherBody 2 6 [97])).2.seen.all
      fun s => s.texts.isSome) = true := by
    decide +kernel
  intro s hs _
  by_contra hnot
  have hsome := List.all_eq_true.1 hall s hs
  rw [s.texts_eq_none_iff.2 hnot] at hsome
  cases hsome

theorem emptyName_not_bounded :
    ¬Bounded (matcherBody 1 1 []) (Metered.readRules plainLibrary true (matcherBody 1 1 [])) := by
  have hrun : (Metered.readRules plainLibrary true (matcherBody 1 1 [])).1 = .panicked := by
    rfl
  rintro ⟨⟨rules, hok⟩ | ⟨err, herror⟩, -, -⟩
  · rw [hrun] at hok
    cases hok
  · rw [hrun] at herror
    cases herror

end SingBox
