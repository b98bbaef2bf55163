/-
**The age of answers from the DNS cache** (`dns/client.go`).

`Exchange` gives all records of a response one time to live and stores the response for that long.
It is the least one that is not zero, or that of a negative answer.
`loadResponse` computes how much of it is left, and takes the difference off the times to live of
the records.  The subtraction is one of 32-bit numbers, and is harmless because the records all have
the time to live of the entry.

What is left comes from a floating point number.  If more than 2²⁴ seconds are left, and only a few
nanoseconds are missing to the next second, it is that second.

* `DNS.aged_eq_mapRecords` — all records get the time to live that is left;
* `DNS.ttlBound_of_reaches` — entries are as they should be;
* `DNS.agesWell_iff` — **the times to live are right** if and only if the rounding is
  harmless;
* `DNS.nextSecond_served` — an answer with a second too much;
* `DNS.ttlsKept_iff` — when **no time to live is raised**.
-/

import SingBox.DNSClientRuns

namespace SingBox.DNS

open Binary64 List

/-! ### Reducing times to live -/

variable {ttl : UInt32}

theorem sub_duration {n : ℕ} (h : n ≤ ttl.toNat) :
    ttl - UInt32.ofBitVec (.ofInt 32 ((ttl.toNat : ℤ) - n)) = .ofNat n := by
  have hlt := ttl.toNat_lt
  have hduration : UInt32.ofBitVec (.ofInt 32 ((ttl.toNat : ℤ) - n)) = .ofNat (ttl.toNat - n) := by
    rw [← Nat.cast_sub h, BitVec.ofInt_natCast]
    rfl
  rw [hduration, ← UInt32.toNat_inj, UInt32.toNat_sub, UInt32.toNat_ofNat', UInt32.toNat_ofNat']
  omega

theorem Msg.mapRecords_congr {f g : RR → RR} {m : Msg} (h : ∀ r ∈ m.records, f r = g r) :
    m.mapRecords f = m.mapRecords g := by
  have hmap : ∀ {records : List RR}, (∀ r ∈ records, r ∈ m.records) →
      records.map f = records.map g := fun hsub => map_congr_left fun r hr => h r (hsub r hr)
  rw [mapRecords, mapRecords, hmap, hmap, hmap]
  · exact fun r hr => mem_append_right _ (mem_append_right _ hr)
  · exact fun r hr => mem_append_right _ (mem_append_left _ hr)
  · exact fun r hr => mem_append_left _ hr

/-- **All records get the time to live that is left.** -/
theorem aged_eq_mapRecords {m : Msg} {nowTTL : ℕ} (hpos : ttl ≠ 0)
    (hall : AllTTL ttl m.records) (hle : nowTTL ≤ ttl.toNat) :
    m.aged nowTTL = m.mapRecords (RR.setTTL (.ofNat nowTTL)) := by
  by_cases hsome : ∃ r ∈ m.records, r.isOPT = false
  · have horigin := leastTTL_of_allTTL hall hsome
    have hpos' : 0 < ttl.toNat := by
      rcases Nat.eq_zero_or_pos ttl.toNat with hzero | hpos'
      · exact absurd (UInt32.toNat_inj.1 hzero) hpos
      · exact hpos'
    rw [Msg.aged]
    dsimp only
    rw [horigin, if_pos hpos']
    refine Msg.mapRecords_congr fun r hr => ?_
    rw [RR.setTTL]
    cases hopt : r.isOPT with
    | true => rfl
    | false => rw [hall r hr hopt, sub_duration hle]
  · -- Only `OPT` records, which no loop touches.
    have hopt : ∀ r ∈ m.records, r.isOPT := by
      intro r hr
      cases h : r.isOPT with
      | true => rfl
      | false => exact absurd ⟨r, hr, h⟩ hsome
    rw [Msg.aged]
    dsimp only
    split
    · refine Msg.mapRecords_congr fun r hr => ?_
      rw [RR.setTTL, hopt r hr]
      rfl
    · rfl

/-! ### Entries -/

/-- All records have one time to live, and the entry expires within that time. -/
def TTLBound (now : ℕ) (entry : ExpiringEntry Stored) : Prop :=
  ∃ ttl : UInt32, ttl ≠ 0 ∧ AllTTL ttl entry.value.msg.records ∧
    entry.expire * 10 ^ 6 ≤ now + ttl.toNat * 10 ^ 9

theorem allTTL_prepare (q : Query) (response : Msg) :
    AllTTL (q.storeTTL response) (q.prepare response).records := by
  intro r hr hopt
  rw [Query.prepare, Msg.records_mapRecords, mem_map] at hr
  obtain ⟨r₀, -, rfl⟩ := hr
  rw [RR.isOPT_setTTL] at hopt
  exact RR.ttl_setTTL hopt

theorem ttlBound_entry {c : Client} (hexpire : c.disableExpire = false) (now : ℕ) {q : Query}
    {response : Msg} (httl : q.storeTTL response ≠ 0) : TTLBound now (c.entry now q response) := by
  refine ⟨q.storeTTL response, httl, allTTL_prepare q response, ?_⟩
  rw [Client.entry]
  dsimp only
  rw [hexpire, if_neg Bool.false_ne_true]
  generalize (q.storeTTL response).toNat = ttl
  calc (now / 10 ^ 6 + ttl * 1000) * 10 ^ 6
      = now / 10 ^ 6 * 10 ^ 6 + ttl * 10 ^ 9 := by ring
    _ ≤ now + ttl * 10 ^ 9 := Nat.add_le_add_right (Nat.div_mul_le_self now _) _

/-- **Entries are as they should be**, after any history. -/
theorem ttlBound_of_reaches {c : Client} (hexpire : c.disableExpire = false) {es : List Event}
    {s : State} (h : c.Reaches es s) : s.cache.All fun _ => TTLBound s.now := by
  refine Client.cache_of_reaches (P := fun now _ => TTLBound now)
    (fun now now' _ _ hle hbound => ?_)
    (fun now q response _ httl => ttlBound_entry hexpire now httl) h
  obtain ⟨ttl, hpos, hall, hle'⟩ := hbound
  exact ⟨ttl, hpos, hall, by omega⟩

/-! ### What is served -/

/-- The times to live of the second message are at most those of the first. -/
def TTLsAtMost (m m' : Msg) : Prop :=
  List.Forall₂ (fun r r' => r'.ttl ≤ r.ttl) m.records m'.records

/-- An answer that is served from the cache at a given time: the times to live are the whole seconds
that are left, they are not above those that were stored, as they would be after a subtraction that
wraps, and no later answer from this entry has greater ones. -/
structure AgesWell (c : Client) (cache : ExpiringMap CacheKey Stored) (key : CacheKey)
    (entry : ExpiringEntry Stored) (timeNow : ℕ) (m : Msg) : Prop where
  remaining : ∀ r ∈ m.records, r.isOPT = false →
    r.ttl.toNat = (entry.expire * 10 ^ 6 - timeNow) / 10 ^ 9
  noWrap : TTLsAtMost entry.value.msg m
  later : ∀ now' timeNow' m', timeNow ≤ now' → now' ≤ timeNow' →
    c.loadResponse cache now' timeNow' key = .response m' entry.value → TTLsAtMost m m'

variable {c : Client} {cache : ExpiringMap CacheKey Stored} {key : CacheKey}
  {entry : ExpiringEntry Stored} {now timeNow : ℕ} {m : Msg}

theorem toNat_ofNat_of_le {n : ℕ} (h : n ≤ ttl.toNat) : (UInt32.ofNat n).toNat = n := by
  have hlt := ttl.toNat_lt
  rw [UInt32.toNat_ofNat']
  omega

theorem seconds_le (hbound : entry.expire * 10 ^ 6 ≤ now + ttl.toNat * 10 ^ 9)
    (hnow : now ≤ timeNow) :
    seconds (entry.expire * 10 ^ 6 - timeNow) ≤ ttl.toNat := by
  have hlt := ttl.toNat_lt
  calc seconds (entry.expire * 10 ^ 6 - timeNow)
      ≤ seconds (ttl.toNat * 10 ^ 9) := seconds_mono (by omega) (by omega)
    _ = ttl.toNat := seconds_mul hlt

theorem ttlsAtMost_setTTL {a b : UInt32} (h : b ≤ a) :
    TTLsAtMost (m.mapRecords (RR.setTTL a)) (m.mapRecords (RR.setTTL b)) := by
  rw [TTLsAtMost, Msg.records_mapRecords, Msg.records_mapRecords, forall₂_map_left_iff,
    forall₂_map_right_iff, forall₂_same]
  intro r _
  cases hopt : r.isOPT with
  | true =>
    rw [RR.setTTL, RR.setTTL, if_pos hopt, if_pos hopt]
    exact UInt32.le_refl _
  | false =>
    rw [RR.ttl_setTTL hopt, RR.ttl_setTTL hopt]
    exact h

theorem ttlsAtMost_of_allTTL {ttl a : UInt32} (hall : AllTTL ttl m.records)
    (h : a ≤ ttl) : TTLsAtMost m (m.mapRecords (RR.setTTL a)) := by
  rw [TTLsAtMost, Msg.records_mapRecords, forall₂_map_right_iff, forall₂_same]
  intro r hr
  cases hopt : r.isOPT with
  | true =>
    rw [RR.setTTL, if_pos hopt]
    exact UInt32.le_refl _
  | false =>
    rw [RR.ttl_setTTL hopt, hall r hr hopt]
    exact h

theorem loaded_eq (hexpire : c.disableExpire = false) {entry' : ExpiringEntry Stored}
    (hfind : cache key = some entry)
    (hload : c.loadResponse cache now timeNow key = .response m entry'.value) :
    timeNow ≤ entry.expire * 10 ^ 6 ∧
      m = entry.value.msg.aged (seconds (entry.expire * 10 ^ 6 - timeNow)) := by
  obtain ⟨entry'', hfind', -, hcases⟩ := Client.loadResponse_eq.1 hload
  have hentry : entry'' = entry := by
    have heq := (ExpiringMap.find_eq_some.1 hfind').1
    rw [hfind, Option.some.injEq] at heq
    exact heq.symm
  subst hentry
  rcases hcases with ⟨htrue, -⟩ | ⟨-, hle, hm⟩
  · rw [hexpire] at htrue
    cases htrue
  · exact ⟨hle, hm⟩

theorem loads_of_le (hexpire : c.disableExpire = false) (hfind : cache key = some entry)
    (now timeNow : ℕ) (hnow : now / 10 ^ 6 < entry.expire)
    (htimeNow : timeNow ≤ entry.expire * 10 ^ 6) :
    ∃ m, c.loadResponse cache now timeNow key = .response m entry.value :=
  ⟨_, Client.loadResponse_eq.2 ⟨entry, ExpiringMap.find_eq_some.2 ⟨hfind, fun _ => hnow⟩,
    rfl, .inr ⟨hexpire, htimeNow, rfl⟩⟩⟩

theorem remaining_iff {d : ℕ} {msg : Msg} (hd : d ≤ ttl.toNat * 10 ^ 9)
    (hle : seconds d ≤ ttl.toNat) :
    (∀ r ∈ (msg.mapRecords (RR.setTTL (.ofNat (seconds d)))).records, r.isOPT = false →
        r.ttl.toNat = d / 10 ^ 9) ↔
      Exact d ∨ ∀ r ∈ msg.records, r.isOPT := by
  have hlt := ttl.toNat_lt
  rw [← seconds_eq_iff (by omega), Msg.records_mapRecords]
  constructor
  · intro h
    by_cases hopt : ∀ r ∈ msg.records, r.isOPT
    · exact .inr hopt
    · simp only [not_forall, Bool.not_eq_true] at hopt
      obtain ⟨r, hr, hopt⟩ := hopt
      have hr' := h _ (mem_map_of_mem hr) ((RR.isOPT_setTTL _ _).trans hopt)
      rw [RR.ttl_setTTL hopt, toNat_ofNat_of_le hle] at hr'
      exact .inl hr'
  · intro h r hr hopt
    obtain ⟨r₀, hr₀, rfl⟩ := List.mem_map.1 hr
    rw [RR.isOPT_setTTL] at hopt
    rcases h with hexact | hall
    · rw [RR.ttl_setTTL hopt, toNat_ofNat_of_le hle, hexact]
    · rw [hall r₀ hr₀] at hopt
      cases hopt

theorem agesWell_entry_iff (hexpire : c.disableExpire = false) (hfind : cache key = some entry)
    (hbound : TTLBound now entry) (hnow : now ≤ timeNow)
    (hload : c.loadResponse cache now timeNow key = .response m entry.value) :
    AgesWell c cache key entry timeNow m ↔
      Exact (entry.expire * 10 ^ 6 - timeNow) ∨ ∀ r ∈ entry.value.msg.records, r.isOPT := by
  obtain ⟨ttl, hpos, hall, hlife⟩ := hbound
  have hle := seconds_le hlife hnow
  obtain ⟨-, rfl⟩ := loaded_eq hexpire hfind hload
  rw [aged_eq_mapRecords hpos hall hle, ← remaining_iff (by omega) hle]
  refine ⟨AgesWell.remaining, fun h => ⟨h, ?_, ?_⟩⟩
  · refine ttlsAtMost_of_allTTL hall ?_
    rw [UInt32.le_iff_toNat_le, toNat_ofNat_of_le hle]
    exact hle
  · intro now' timeNow' m' hnow' htimeNow' hload'
    have hle' := seconds_le hlife (hnow.trans (hnow'.trans htimeNow'))
    obtain ⟨-, rfl⟩ := loaded_eq hexpire hfind hload'
    rw [aged_eq_mapRecords hpos hall hle']
    refine ttlsAtMost_setTTL ?_
    rw [UInt32.le_iff_toNat_le, toNat_ofNat_of_le hle, toNat_ofNat_of_le hle']
    have hlt := ttl.toNat_lt
    exact seconds_mono (by omega) (by omega)

/-- **The times to live are right.**  With expiry, after any history and for every answer that is
served from the cache, each time to live is what is left in whole seconds, no subtraction wraps, and
later answers from the entry have no greater ones, if and only if the conversion to seconds is exact
or there is no record that has a time to live. -/
theorem agesWell_iff (hexpire : c.disableExpire = false) {es : List Event} {s : State}
    (h : c.Reaches es s) (hfind : s.cache key = some entry) (hnow : s.now ≤ timeNow)
    (hload : c.loadResponse s.cache s.now timeNow key = .response m entry.value) :
    AgesWell c s.cache key entry timeNow m ↔
      Exact (entry.expire * 10 ^ 6 - timeNow) ∨ ∀ r ∈ entry.value.msg.records, r.isOPT = true :=
  agesWell_entry_iff hexpire hfind (ttlBound_of_reaches hexpire h key entry hfind) hnow hload

/-- A query for an address, and an answer that holds for a bit more than 2²⁴ seconds. -/
def addressQuery : Query where
  transport := "remote"
  message := { id := 7, question := [⟨"a.", typeA, 1⟩] }

def longAnswer : Msg where
  id := 7
  question := [⟨"a.", typeA, 1⟩]
  answer := [⟨"a.", 1, 16777217, .a [192, 0, 2, 1]⟩]

/-- A client that has stored the answer at the time zero. -/
def longClient : Client where
  timeout := 10 ^ 10

def longHistory : List Event :=
  [.exchange 1 addressQuery, .call 1 (.enter none), .call 1 (.load 0),
    .call 1 (.check false none), .call 1 (.respond (.answered longAnswer)), .call 1 .release]

theorem longHistory_stores :
    ∃ s entry, longClient.Reaches longHistory s ∧ s.now = 0 ∧
      s.cache (longClient.cacheKey addressQuery) = some entry ∧ entry.expire = 16777217000 ∧
      entry.value.msg = longAnswer := by
  have hruns : ((Schedule.run longClient.step {} longHistory).bind fun s =>
      (s.cache (longClient.cacheKey addressQuery)).map fun entry =>
        (s.now, entry.expire, entry.value.msg)) = some (0, 16777217000, longAnswer) := by
    decide +kernel
  obtain ⟨s, hs, hruns⟩ := Option.bind_eq_some_iff.1 hruns
  obtain ⟨entry, hentry, hruns⟩ := Option.map_eq_some_iff.1 hruns
  rw [Prod.mk.injEq, Prod.mk.injEq] at hruns
  exact ⟨s, entry, hs, hruns.1, hentry, hruns.2.1, hruns.2.2⟩

theorem exactSecond_served :
    ∃ s entry m, longClient.Reaches longHistory s ∧
      longClient.loadResponse s.cache s.now (10 ^ 9) (longClient.cacheKey addressQuery) =
        .response m entry.value ∧
      AgesWell longClient s.cache (longClient.cacheKey addressQuery) entry (10 ^ 9) m := by
  obtain ⟨s, entry, hs, hnow, hentry, hexpire, -⟩ := longHistory_stores
  obtain ⟨m, hload⟩ := loads_of_le (c := longClient) rfl hentry s.now (10 ^ 9)
    (by rw [hnow, hexpire]; decide) (by rw [hexpire]; decide)
  refine ⟨s, entry, m, hs, hload, (agesWell_iff rfl hs hentry (by rw [hnow]; decide) hload).2 ?_⟩
  rw [hexpire]
  exact .inl (by decide +kernel)

/-- **An answer with a second too much.**  A nanosecond after an answer for 16777217 seconds was
stored, 16777216 whole seconds are left, and the time to live is still 16777217. -/
theorem nextSecond_served :
    ∃ s entry m, longClient.Reaches longHistory s ∧
      longClient.loadResponse s.cache s.now 1 (longClient.cacheKey addressQuery) =
        .response m entry.value ∧
      ¬AgesWell longClient s.cache (longClient.cacheKey addressQuery) entry 1 m := by
  obtain ⟨s, entry, hs, hnow, hentry, hexpire, hmsg⟩ := longHistory_stores
  obtain ⟨m, hload⟩ := loads_of_le (c := longClient) rfl hentry s.now 1
    (by rw [hnow, hexpire]; decide) (by rw [hexpire]; decide)
  have hbound := ttlBound_of_reaches rfl hs _ entry hentry
  refine ⟨s, entry, m, hs, hload, fun h => ?_⟩
  rw [agesWell_entry_iff rfl hentry hbound (by rw [hnow]; decide) hload, hexpire, hmsg] at h
  revert h
  decide +kernel

/-! ### The times to live that are set -/

/-- The times to live of a message but for those of `OPT` records. -/
def Msg.ttls (m : Msg) : List UInt32 := plainTTLs m.records

/-- What `Exchange` makes of a response gives no record more time than the server gave it, and
nothing is cached for longer than that. -/
def TTLsKept (c : Client) (s : State) (call : Call) (response : Msg) : Prop :=
  (∀ answer, (c.finish s call response).call.phase = .returning (.answered answer) →
      Forall₂ (· ≥ ·) response.ttls answer.ttls) ∧
    ∀ key entry, (c.finish s call response).effect = .store key entry →
      Forall₂ (· ≥ ·) response.ttls entry.value.msg.ttls ∧ entry.expire ≠ 0 ∧
        ∀ ttl ∈ response.ttls, entry.expire ≤ s.now / 10 ^ 6 + ttl.toNat * 1000

/-- The time to live of a negative answer, or zero. -/
def Msg.negativeTTL (m : Msg) : UInt32 :=
  if m.answer.length = 0 then (extractNegativeTTL m).getD 0 else 0

/-- The times to live are all zero or all positive, or none is below that of a negative answer. -/
def EvenTTLs (m : Msg) : Prop :=
  if m.negativeTTL = 0 then 0 ∈ m.ttls → ∀ ttl ∈ m.ttls, ttl = 0
  else ∀ ttl ∈ m.ttls, m.negativeTTL ≤ ttl

theorem leastTTL_le_iff (m : Msg) :
    (∀ ttl ∈ m.ttls, leastTTL m.records ≤ ttl) ↔ (0 ∈ m.ttls → ∀ ttl ∈ m.ttls, ttl = 0) := by
  obtain ⟨hmem, hzero, -, hle⟩ := foldl_lesserTTL_spec m.records 0
  constructor
  · intro h hzeros
    exact (hzero (UInt32.le_zero_iff.1 (h 0 hzeros))).2
  · intro h ttl httl
    by_cases hpos : ttl = 0
    · rw [hpos] at httl ⊢
      rcases hmem with hmem | hmem
      · exact UInt32.le_of_eq hmem
      · exact UInt32.le_of_eq (h httl _ hmem)
    · exact hle ttl httl hpos

theorem plainTTLs_map {f : RR → RR} {g : UInt32 → UInt32} (hopt : ∀ r, (f r).isOPT = r.isOPT)
    (hf : ∀ r, r.isOPT = false → (f r).ttl = g r.ttl) (records : List RR) :
    plainTTLs (records.map f) = (plainTTLs records).map g := by
  induction records with
  | nil => rfl
  | cons r records ih =>
    rw [plainTTLs] at ih
    cases h : r.isOPT <;> simp [plainTTLs, hopt, h, hf, ih]

theorem ttls_eq : m.ttls = plainTTLs m.answer ++ (plainTTLs m.ns ++ plainTTLs m.extra) := by
  simp [Msg.ttls, Msg.records, plainTTLs]

theorem ttls_matchEdns0 (request m : Msg) : (request.matchEdns0 m).ttls = m.ttls := by
  have hfilter : plainTTLs (m.extra.filter fun r => !r.isOPT) = plainTTLs m.extra := by
    simp [plainTTLs]
  rw [Msg.matchEdns0]
  split
  · rfl
  · split
    · rw [ttls_eq, ttls_eq, hfilter]
    · split
      · rw [ttls_eq, ttls_eq, ← hfilter]
        simp [Msg.setEdns0, plainTTLs, RR.isOPT, RR.options?]
      · rfl

theorem filterHints_spec (strategy : DomainStrategy) :
    (m.filterHints strategy).ttls = m.ttls ∧
      (m.filterHints strategy).negativeTTL = m.negativeTTL := by
  have hsame (r : RR) : (r.filterHints strategy).isOPT = r.isOPT ∧
      (r.filterHints strategy).ttl = r.ttl := by
    rw [RR.filterHints]
    split
    · rename_i h
      simp [RR.isOPT, RR.options?, h]
    · exact ⟨rfl, rfl⟩
  rw [Msg.filterHints]
  split
  · have hmap := plainTTLs_map (g := id) (fun r => (hsame r).1) (fun r _ => (hsame r).2) m.answer
    rw [ttls_eq, ttls_eq, hmap]
    simp [Msg.negativeTTL, extractNegativeTTL]
  · exact ⟨rfl, rfl⟩

variable {q : Query} {response : Msg}

theorem evenTTLs_iff (hrewrite : q.options.rewriteTTL = none) :
    EvenTTLs response ↔ ∀ ttl ∈ response.ttls, q.storeTTL response ≤ ttl := by
  have hle (m : Msg) : EvenTTLs m ↔ ∀ ttl ∈ m.ttls, timeToLive q.options m ≤ ttl := by
    rw [timeToLive, hrewrite, EvenTTLs, ← leastTTL_le_iff]
    change _ ↔ ∀ ttl ∈ m.ttls, (if m.negativeTTL = 0 then _ else m.negativeTTL) ≤ ttl
    split <;> rfl
  rw [Query.storeTTL]
  split
  · obtain ⟨httls, hnegative⟩ := filterHints_spec q.options.strategy
    rw [← httls, ← hle, EvenTTLs, EvenTTLs, httls, hnegative]
  · exact hle response

theorem forall₂_prepare :
    Forall₂ (· ≥ ·) response.ttls (q.prepare response).ttls ↔
      ∀ ttl ∈ response.ttls, q.storeTTL response ≤ ttl := by
  have hmap : (q.prepare response).ttls = response.ttls.map fun _ => q.storeTTL response := by
    rw [Query.prepare, Msg.ttls, Msg.records_mapRecords]
    refine (plainTTLs_map (RR.isOPT_setTTL _) (g := fun _ => q.storeTTL response)
      (fun _ h => RR.ttl_setTTL h) _).trans (congrArg (map _) ?_)
    split
    · exact (filterHints_spec _).1
    · rfl
  rw [hmap, forall₂_map_right_iff, forall₂_same]

/-- **No time to live is raised** exactly if the response is rejected, or its times to live are even
and it is not stored for ever. -/
theorem ttlsKept_iff {c : Client} {s : State} {call : Call}
    (hrewrite : call.query.options.rewriteTTL = none) :
    TTLsKept c s call response ↔ call.query.rejects response = true ∨
      EvenTTLs response ∧ (c.disableExpire = true → c.cacheDisabled call.query = true ∨
        response.rcodeCacheable = false ∨ call.query.storeTTL response = 0) := by
  rw [evenTTLs_iff hrewrite, ← forall₂_prepare, TTLsKept, Client.finish]
  cases hrejects : call.query.rejects response with
  | true => simp
  | false =>
    simp only [Bool.false_eq_true, if_false, Phase.returning.injEq, Return.answered.injEq,
      forall_eq', ttls_matchEdns0, false_or]
    refine and_congr_right fun hkept => ?_
    split
    · rename_i hquiet
      simp_all [or_assoc]
    · rename_i hstored
      simp only [Bool.or_eq_true, Bool.not_eq_true', decide_eq_true_eq, or_assoc] at hstored
      -- A stored response expires, with the time to live that all records get.
      cases hexpire : c.disableExpire with
      | true => simp [Client.entry, hexpire, hstored]
      | false =>
        refine iff_of_true ?_ fun h => by cases h
        rintro key entry ⟨⟩
        have hpos : (call.query.storeTTL response).toNat ≠ 0 := fun h =>
          hstored (.inr (.inr (UInt32.toNat_inj.1 h)))
        simp only [Client.entry, hexpire, Bool.false_eq_true, if_false]
        refine ⟨hkept, by omega, fun ttl httl => ?_⟩
        have hle := UInt32.le_iff_toNat_le.1 (forall₂_prepare.1 hkept ttl httl)
        omega

/-- An answer with two records. -/
def twoRecords (ttl : UInt32) : Msg :=
  { longAnswer with answer := [⟨"a.", 1, ttl, .a [192, 0, 2, 1]⟩,
      ⟨"a.", 1, 300, .a [192, 0, 2, 2]⟩] }

theorem positiveTTLs_kept :
    TTLsKept longClient {} { query := addressQuery, phase := .asking } (twoRecords 60) :=
  (ttlsKept_iff rfl).2 (.inr ⟨by rw [EvenTTLs]; decide, fun h => by cases h⟩)

/-- A record that must not be cached is returned and stored for five minutes. -/
theorem zeroTTL_raised :
    ¬TTLsKept longClient {} { query := addressQuery, phase := .asking } (twoRecords 0) := by
  intro h
  have hreturned := h.1 _ rfl
  revert hreturned
  decide

end SingBox.DNS
