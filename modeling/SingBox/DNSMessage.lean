/-
**DNS messages**, as far as the DNS client looks at them (`dns/client.go`).

A message has a question and three sections of records.  The client reads and rewrites the times to
live of the records, the options of `OPT` records, and the hints of `HTTPS` records; the contents of
other records are bytes.  The Go type of a record is determined by its type number, as in a message
that was unpacked.  All loops over times to live pass over `OPT` records.

* `DNS.leastTTL_of_allTTL` — the least time to live of records that all have the same;
* `DNS.Msg.unwantedHint_not_mem` — a filtered response has no hint of the other family.
-/

import SingBox.AdGuard
import SingBox.BinaryRuleSet
import SingBox.DNSRouter

namespace SingBox.DNS

open List

/-! ### Records -/

/-- `dns.Question`. -/
structure Question where
  name : GoString
  (qtype qclass : UInt16)
  deriving DecidableEq

/-- `dns.SVCBKeyValue`: its key and its text. -/
structure SVCBKeyValue where
  key : UInt16
  text : GoString
  deriving DecidableEq

/-- `dns.EDNS0`: the option for client subnets, and all others. -/
inductive EDNS0 where
  | subnet (code family : UInt16) (sourceNetmask sourceScope : UInt8) (address : List UInt8)
  | other (code : UInt16) (data : List UInt8)
  deriving DecidableEq

/-- `EDNS0.Option`. -/
def EDNS0.option : EDNS0 → UInt16
  | subnet .. => 8
  | other code _ => code

/-- Whether an option has the type `*dns.EDNS0_SUBNET`. -/
def EDNS0.isSubnet : EDNS0 → Bool
  | subnet .. => true
  | other .. => false

/-- The type numbers of records that have no constructor of their own in `RData`. -/
def OtherType : Type := { t : UInt16 // t ∉ [1, 6, 28, 41, 65] }

instance : DecidableEq OtherType := inferInstanceAs (DecidableEq (Subtype _))

/-- What a record holds. -/
inductive RData where
  | a (ip : List UInt8)
  | aaaa (ip : List UInt8)
  | soa (minttl : UInt32) (rest : List UInt8)
  | https (priority : UInt16) (target : GoString) (value : List SVCBKeyValue)
  | opt (options : List EDNS0)
  | other (rrtype : OtherType) (data : List UInt8)
  deriving DecidableEq

/-- `dns.RR` with its header; the type is that of the data. -/
structure RR where
  name : GoString
  rrclass : UInt16
  ttl : UInt32
  data : RData
  deriving DecidableEq

/-- `Header().Rrtype`. -/
def RR.rrtype (r : RR) : UInt16 :=
  match r.data with
  | .a _ => 1
  | .soa _ _ => 6
  | .aaaa _ => 28
  | .opt _ => 41
  | .https _ _ _ => 65
  | .other t _ => t.1

/-- The options of a record of the type `*dns.OPT`. -/
def RR.options? (r : RR) : Option (List EDNS0) :=
  match r.data with
  | .opt options => some options
  | _ => none

/-- Whether a record is an `OPT` record. -/
def RR.isOPT (r : RR) : Bool := r.options?.isSome

/-- The assignment of a time to live that the loops of the client make. -/
def RR.setTTL (ttl : UInt32) (r : RR) : RR := if r.isOPT then r else { r with ttl := ttl }

@[simp] theorem RR.isOPT_setTTL (ttl : UInt32) (r : RR) : (r.setTTL ttl).isOPT = r.isOPT := by
  rw [RR.setTTL]
  split <;> rfl

theorem RR.ttl_setTTL {ttl : UInt32} {r : RR} (h : r.isOPT = false) : (r.setTTL ttl).ttl = ttl := by
  rw [RR.setTTL, if_neg (by simp [h])]

/-! ### Times to live -/

/-- The step of the loops over times to live: the least positive one is kept. -/
def lesserTTL (ttl : UInt32) (r : RR) : UInt32 :=
  if r.isOPT then ttl else if ttl = 0 || r.ttl > 0 && r.ttl < ttl then r.ttl else ttl

/-- The least positive time to live of the records, or zero. -/
def leastTTL (records : List RR) : UInt32 := records.foldl lesserTTL 0

/-- Records that all have one time to live. -/
def AllTTL (ttl : UInt32) (records : List RR) : Prop :=
  ∀ r ∈ records, r.isOPT = false → r.ttl = ttl

/-- The times to live of the records that are no `OPT` records. -/
def plainTTLs (records : List RR) : List UInt32 := (records.filter (!·.isOPT)).map (·.ttl)

/-- The loop keeps a time to live that is there, zero only if all are, and none below it but
zeros. -/
theorem foldl_lesserTTL_spec (records : List RR) (ttl : UInt32) :
    (records.foldl lesserTTL ttl = ttl ∨ records.foldl lesserTTL ttl ∈ plainTTLs records) ∧
      (records.foldl lesserTTL ttl = 0 → ttl = 0 ∧ ∀ x ∈ plainTTLs records, x = 0) ∧
      (ttl ≠ 0 → records.foldl lesserTTL ttl ≤ ttl) ∧
      ∀ x ∈ plainTTLs records, x ≠ 0 → records.foldl lesserTTL ttl ≤ x := by
  induction records generalizing ttl with
  | nil => simp [plainTTLs]
  | cons r records ih =>
    cases hopt : r.isOPT with
    | true => simpa [lesserTTL, plainTTLs, hopt] using ih ttl
    | false =>
      have hplain : plainTTLs (r :: records) = r.ttl :: plainTTLs records := by
        simp [plainTTLs, hopt]
      have hlesser : lesserTTL ttl r =
          if ttl = 0 || r.ttl > 0 && r.ttl < ttl then r.ttl else ttl := by
        simp [lesserTTL, hopt]
      rw [foldl_cons, hplain]
      specialize ih (lesserTTL ttl r)
      -- From here on only numbers are compared.
      generalize records.foldl lesserTTL (lesserTTL ttl r) = least at ih ⊢
      generalize lesserTTL ttl r = next at ih hlesser
      generalize plainTTLs records = ttls at ih ⊢
      grind

/-- **The least time to live of records that all have the same.** -/
theorem leastTTL_of_allTTL {ttl : UInt32} {records : List RR} (h : AllTTL ttl records)
    (hsome : ∃ r ∈ records, r.isOPT = false) : leastTTL records = ttl := by
  obtain ⟨r, hr, hopt⟩ := hsome
  have hall : ∀ x ∈ plainTTLs records, x = ttl := forall_mem_map.2 fun r hr =>
    h r (mem_of_mem_filter hr) (by simpa using of_mem_filter hr)
  have hmem : r.ttl ∈ plainTTLs records := mem_map_of_mem (by simp [hr, hopt])
  obtain ⟨hleast | hleast, hzero, -⟩ := foldl_lesserTTL_spec records 0
  · rw [leastTTL, hleast, ← (hzero hleast).2 _ hmem, hall _ hmem]
  · exact hall _ hleast

/-! ### Messages -/

/-- `dns.Msg`, with the flags of the header that the client sets. -/
structure Msg where
  id : UInt16
  (response authoritative recursionDesired recursionAvailable : Bool := false)
  rcode : ℕ := 0
  question : List Question := []
  (answer ns extra : List RR := [])
  deriving DecidableEq

/-- `dns.RcodeSuccess` and `dns.RcodeNameError`. -/
def rcodeSuccess : ℕ := 0

def rcodeNameError : ℕ := 3

def rcodeFormatError : ℕ := 1

/-- `FixedResponseStatus`. -/
def fixedResponseStatus (message : Msg) (rcode : ℕ) : Msg where
  id := message.id
  response := true
  authoritative := true
  recursionDesired := true
  recursionAvailable := true
  rcode := rcode
  question := message.question

/-- `extractNegativeTTL`: of the first `SOA` record. -/
def extractNegativeTTL (response : Msg) : Option UInt32 :=
  response.ns.findSome? fun record =>
    match record.data with
    | .soa minttl _ => some (if record.ttl < minttl then record.ttl else minttl)
    | _ => none

namespace Msg

/-- The records that the loops of the client go through. -/
def records (m : Msg) : List RR := m.answer ++ (m.ns ++ m.extra)

/-- A change of every record. -/
def mapRecords (f : RR → RR) (m : Msg) : Msg :=
  { m with answer := m.answer.map f, ns := m.ns.map f, extra := m.extra.map f }

theorem records_mapRecords (f : RR → RR) (m : Msg) :
    (m.mapRecords f).records = m.records.map f := by
  simp only [records, mapRecords, map_append]

/-- `stripDNSPadding`. -/
def stripPadding (m : Msg) : Msg :=
  { m with
    extra := m.extra.map fun record =>
      match record.data with
      | .opt options => { record with data := .opt (options.filter (·.option ≠ 12)) }
      | _ => record }

/-- `IsEdns0`: the last `OPT` record. -/
def isEdns0 (m : Msg) : Option RR := m.extra.reverse.find? (·.isOPT)

end Msg

/-- `OPT.Version`, `OPT.Do`. -/
def RR.version (r : RR) : UInt8 := ((r.ttl &&& 0x00ff0000) >>> 16).toUInt8

def RR.do_ (r : RR) : Bool := r.ttl &&& 0x8000 = 0x8000

/-- `Msg.SetEdns0`. -/
def Msg.setEdns0 (m : Msg) (udpsize : UInt16) (do_ : Bool) : Msg :=
  { m with extra := m.extra ++ [⟨[46], udpsize, if do_ then 0x8000 else 0, .opt []⟩] }

/-- What `Exchange` does with the `OPT` records of a response for the sake of the request. -/
def Msg.matchEdns0 (request response : Msg) : Msg :=
  match response.isEdns0 with
  | none => response
  | some responseOPT =>
    match request.isEdns0 with
    | none => { response with extra := response.extra.filter fun r => !r.isOPT }
    | some requestOPT =>
      if requestOPT.version < responseOPT.version then
        { response with extra := response.extra.filter fun r => !r.isOPT }.setEdns0
          responseOPT.rrclass responseOPT.do_
      else response

/-! ### Hints -/

/-- `dns.SVCB_IPV4HINT` and `dns.SVCB_IPV6HINT`. -/
def ipv4Hint : UInt16 := 4

def ipv6Hint : UInt16 := 6

/-- The hint that a strategy does not want. -/
def unwantedHint : DomainStrategy → Option UInt16
  | .ipv4Only => some ipv6Hint
  | .ipv6Only => some ipv4Hint
  | _ => none

/-- The loop body of the filter of `Exchange` for one record. -/
def RR.filterHints (strategy : DomainStrategy) (r : RR) : RR :=
  match r.data with
  | .https priority target value =>
    { r with data := .https priority target (value.filter fun it =>
      if strategy = .ipv4Only then it.key ≠ ipv6Hint else it.key ≠ ipv4Hint) }
  | _ => r

/-- The filter of `Exchange` for hints of the family that the strategy does not want. -/
def Msg.filterHints (strategy : DomainStrategy) (m : Msg) : Msg :=
  if strategy = .ipv4Only || strategy = .ipv6Only then
    { m with answer := m.answer.map (RR.filterHints strategy) }
  else m

/-- The keys of the parameters in the `HTTPS` records of an answer. -/
def Msg.hintKeys (m : Msg) : List UInt16 :=
  m.answer.flatMap fun r =>
    match r.data with
    | .https _ _ value => value.map (·.key)
    | _ => []

/-- **A filtered response has no hint of the family that is not wanted.** -/
theorem Msg.unwantedHint_not_mem {strategy : DomainStrategy} {hint : UInt16}
    (hhint : unwantedHint strategy = some hint) (m : Msg) :
    hint ∉ (m.filterHints strategy).hintKeys := by
  have hstrategy : strategy = .ipv4Only ∧ hint = ipv6Hint ∨
      strategy = .ipv6Only ∧ hint = ipv4Hint := by
    cases strategy <;> simp_all [unwantedHint]
  have hfilter : m.filterHints strategy =
      { m with answer := m.answer.map (RR.filterHints strategy) } := by
    rcases hstrategy with ⟨rfl, -⟩ | ⟨rfl, -⟩ <;> rfl
  rw [hfilter, hintKeys, flatMap_map, mem_flatMap]
  rintro ⟨⟨name, rrclass, ttl, data⟩, -, hmem⟩
  cases data with
  | https priority target value =>
    simp only [RR.filterHints, mem_map, mem_filter] at hmem
    obtain ⟨it, ⟨-, hkept⟩, rfl⟩ := hmem
    rcases hstrategy with ⟨rfl, hkey⟩ | ⟨rfl, hkey⟩
    · simp [hkey] at hkept
    · simp [hkey] at hkept
  | a ip => cases hmem
  | aaaa ip => cases hmem
  | soa minttl rest => cases hmem
  | opt options => cases hmem
  | other t data => cases hmem

theorem Msg.hintKeys_mapRecords {f : RR → RR} (hf : ∀ r, (f r).data = r.data) (m : Msg) :
    (m.mapRecords f).hintKeys = m.hintKeys := by
  simp only [hintKeys, mapRecords, flatMap_map, hf]

theorem RR.data_setTTL (ttl : UInt32) (r : RR) : (r.setTTL ttl).data = r.data := by
  rw [RR.setTTL]
  split <;> rfl

/-! ### Addresses -/

/-- The addresses that one record of an answer has. -/
def RR.addresses (r : RR) : List Addr :=
  match r.data with
  | .a ip => [Addr.fromSlice ip]
  | .aaaa ip => [Addr.fromSlice ip]
  | .https _ _ value =>
    (value.filter fun it => it.key = ipv4Hint || it.key = ipv6Hint).flatMap fun it =>
      (GoString.split 44 it.text).map parseBracketedAddr
  | _ => []

/-- `MessageToAddresses`. -/
def messageToAddresses (response : Msg) : List Addr :=
  if response.rcode ≠ rcodeSuccess then [] else response.answer.flatMap RR.addresses

end SingBox.DNS
