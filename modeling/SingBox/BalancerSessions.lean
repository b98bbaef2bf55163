/-
**Hashing and sticky sessions** (`protocol/group/balancer/common.go`, `consistent_hashing.go`,
`sticky_session.go`).

Two strategies choose an outbound by the hash of a connection and ask whether it is alive.  For this
they compare the delay on record, zero if there was no test, with a tolerance that comes from the
normalised delays.  The tolerance is a product that is cut to 16 bits.  `StickySession` keeps the
index that it has chosen for a key in a cache, one for the lists of both networks.

* `Balancer.alive_agrees_iff` — **when being alive is being acceptable**;
* `Balancer.bestEligible_iff` — **when the best outbound is eligible**;
* `Balancer.sticks` — **selections stick while the cached indices fit the lists**.
-/

import SingBox.Balancer
import Mathlib.Data.Rat.Floor

namespace SingBox.Balancer

open List Option Nat

/-! ### Who is alive -/

/-- The loop of `getMinDelay`. -/
def minDelayLoop (history : History) : List Outbound → UInt16 → UInt16
  | [], minDelay => minDelay
  | out :: outs, minDelay => minDelayLoop history outs
      (if getTagDelay history out.tag ≤ minDelay then getTagDelay history out.tag else minDelay)

/-- `getMinDelay`, for one network. -/
def getMinDelay (history : History) (outs : List Outbound) : UInt16 :=
  minDelayLoop history outs timeoutDelay

/-- `getDelayMap`. -/
def getDelayMap (history : History) (tag : GoString) : Option UInt16 :=
  (history tag).map fun his =>
    match his with
    | some his => his.delay
    | none => timeoutDelay

/-- `Alive` of both strategies, after `UpdateOutboundsInfo`. -/
def alive (tolerance : UInt16 → UInt16) (history : History) (outs : List Outbound)
    (proxy : Outbound) : Bool :=
  match getDelayMap history proxy.tag with
  | some delay => delay ≤ tolerance (getMinDelay history outs)
  | none => false

/-- `ConsistentHashing.Select`.  The `i`-th call of `jumpHash` gives `jump i`, modulo the number of
buckets. -/
def hashingSelect (alive : Outbound → Bool) (outs : List Outbound) (maxRetry : ℕ)
    (jump : ℕ → ℕ) : Option Outbound :=
  let retried := (List.range maxRetry).findSome? fun i =>
    (outs[jump i % outs.length]?).filter alive
  (retried.or (outs.find? alive)).or outs[jump maxRetry % outs.length]?

/-- The loop of `StickySession.Select`: the index, and whether the outbound there is alive. -/
def stickyLoop (alive : Outbound → Bool) (outs : List Outbound) (jump : ℕ → ℕ) :
    ℕ → ℕ → ℕ × Bool
  | 0, nowIdx => (nowIdx, false)
  | tries + 1, nowIdx =>
    if (outs[nowIdx]?).any alive then (nowIdx, true)
    else stickyLoop alive outs jump tries (jump tries % outs.length)

/-- `StickySession.Select`: the outbound, and the cache of indices. -/
def stickySelect (alive : Outbound → Bool) (outs : List Outbound) (maxRetry : ℕ)
    (cache : UInt64 → Option ℕ) (key : UInt64) (jump : ℕ → ℕ) :
    Option Outbound × (UInt64 → Option ℕ) :=
  let idx := ((cache key).filter (· < outs.length)).getD (jump maxRetry % outs.length)
  let (nowIdx, found) := stickyLoop alive outs jump (maxRetry - 1) idx
  (outs[nowIdx]?, if found ∧ (cache key).isSome ∧ nowIdx = idx then cache
    else Function.update cache key (some nowIdx))

/-! ### Being alive and being acceptable -/

section

variable {history : History} {outs : List Outbound} {tolerance : UInt16 → UInt16}

theorem minDelayLoop_spec (outs : List Outbound) (start : UInt16) :
    minDelayLoop history outs start ≤ start ∧
      (∀ out ∈ outs, minDelayLoop history outs start ≤ getTagDelay history out.tag) ∧
      (minDelayLoop history outs start = start ∨
        ∃ out ∈ outs, minDelayLoop history outs start = getTagDelay history out.tag) := by
  induction outs generalizing start with
  | nil => exact ⟨UInt16.le_refl _, fun _ h => (not_mem_nil h).elim, .inl rfl⟩
  | cons out outs ih =>
    obtain ⟨hstart, hall, hsome⟩ := ih (if getTagDelay history out.tag ≤ start then
      getTagDelay history out.tag else start)
    simp only [minDelayLoop, mem_cons]
    grind

theorem le_timeoutDelay (delay : UInt16) : delay ≤ timeoutDelay :=
  UInt16.le_iff_toNat_le.2 (le_of_lt_succ delay.toNat_lt)

theorem IndexFound.getMinDelay_eq {first : Outbound} {index : ℕ}
    (h : IndexFound tolerance history outs first index) :
    getMinDelay history outs = getTagDelay history first.tag := by
  obtain ⟨-, hall, hsome⟩ := minDelayLoop_spec outs timeoutDelay
  refine UInt16.le_antisymm (hall first h.first_mem) ?_
  rcases hsome with hsome | ⟨out, hout, hsome⟩
  · rw [getMinDelay, hsome]
    exact le_timeoutDelay _
  · rw [getMinDelay, hsome]
    exact h.least out hout

/-- The acceptability that `getAcceptableIndex` uses. -/
def Acceptable (tolerance : UInt16 → UInt16) (history : History) (outs : List Outbound)
    (out : Outbound) : Prop :=
  ∃ first ∈ (sortOutboundsByDelay history outs).head?,
    getTagDelay history out.tag ≤ tolerance (getTagDelay history first.tag)

theorem acceptable_iff (hne : outs ≠ []) (out : Outbound) :
    Acceptable tolerance history outs out ↔
      getTagDelay history out.tag ≤ tolerance (getMinDelay history outs) := by
  obtain ⟨first, index, -, h⟩ := exists_indexFound tolerance history hne
  rw [Acceptable, h.head, h.getMinDelay_eq]
  simp

/-- The recorded delay of an entry and the normalised one are on the same side of a tolerance. -/
def EntryAgrees (max : UInt16) : Option (Option URLTestHistory) → Prop
  | none => max ≠ timeoutDelay
  | some none => True
  | some (some his) => (his.delay = 0 → max = timeoutDelay) ∧
      (his.delay ≠ 0 → his.isFromCache → his.delay < 20000 →
        max < his.delay ∨ his.delay + 20000 ≤ max)

theorem delay_le_getModifiedDelay (his : URLTestHistory) :
    his.delay ≤ getModifiedDelay (some his) := by
  simp only [getModifiedDelay, timeoutDelay]
  grind

theorem alive_iff_iff (proxy : Outbound) :
    (alive tolerance history outs proxy ↔
        getTagDelay history proxy.tag ≤ tolerance (getMinDelay history outs)) ↔
      EntryAgrees (tolerance (getMinDelay history outs)) (history proxy.tag) := by
  rw [alive, getDelayMap, getTagDelay]
  generalize tolerance (getMinDelay history outs) = max
  rcases history proxy.tag with _ | _ | his
  · simp only [EntryAgrees, timeoutDelay, map_none]
    grind
  · simp [EntryAgrees]
  · simp only [EntryAgrees, getModifiedDelay, timeoutDelay, map_some, decide_eq_true_eq]
    grind

theorem mem_of_hashingSelect {alive : Outbound → Bool} {maxRetry : ℕ} {jump : ℕ → ℕ}
    {chosen : Outbound} (h : hashingSelect alive outs maxRetry jump = some chosen) :
    chosen ∈ outs := by
  rw [hashingSelect, or_eq_some_iff, or_eq_some_iff] at h
  rcases h with (h | ⟨-, h⟩) | ⟨-, h⟩
  · obtain ⟨i, -, h⟩ := exists_of_findSome?_eq_some h
    exact mem_of_getElem? (Option.filter_eq_some_iff.1 h).1
  · exact mem_of_find?_eq_some h
  · exact mem_of_getElem? h

/-- **Being alive is being acceptable, and no outbound without a successful test is chosen while one
is acceptable**, exactly if the entries of the outbounds agree with the tolerance, and no outbound
is without a successful test while one is acceptable. -/
theorem alive_agrees_iff (tolerance : UInt16 → UInt16) (history : History) (hne : outs ≠ []) :
    ((∀ out ∈ outs, alive tolerance history outs out = true ↔
        Acceptable tolerance history outs out) ∧
      ∀ maxRetry cache key jump chosen,
        (hashingSelect (alive tolerance history outs) outs maxRetry jump = some chosen ∨
          (stickySelect (alive tolerance history outs) outs maxRetry cache key jump).1 =
            some chosen) →
        (∃ out ∈ outs, Acceptable tolerance history outs out) →
          getTagDelay history chosen.tag ≠ timeoutDelay) ↔
      (∀ out ∈ outs, EntryAgrees (tolerance (getMinDelay history outs)) (history out.tag)) ∧
        ((∃ out ∈ outs, getTagDelay history out.tag ≤ tolerance (getMinDelay history outs)) →
          ∀ out ∈ outs, getTagDelay history out.tag ≠ timeoutDelay) := by
  simp only [acceptable_iff hne, alive_iff_iff]
  refine and_congr_right fun _ => ⟨fun h hsome out hout => ?_, fun h maxRetry cache key jump chosen
    hchosen hsome => ?_⟩
  · -- With one try and the index of the outbound, a sticky session does not ask who is alive.
    obtain ⟨k, hk⟩ := getElem?_of_mem hout
    refine h 1 (fun _ => none) 0 (fun _ => k) out (.inr ?_) hsome
    change outs[k % outs.length]? = some out
    rw [mod_eq_of_lt (List.getElem?_eq_some_iff.1 hk).1, hk]
  · rcases hchosen with hchosen | hchosen
    · exact h hsome chosen (mem_of_hashingSelect hchosen)
    · exact h hsome chosen (mem_of_getElem? hchosen)

end

/-- An outbound for both networks. -/
def both (id : ℕ) : Outbound := ⟨id, [.ofNat id], [.tcp, .udp]⟩

/-- A tested outbound, one that is too slow, and one whose delay is from the cache. -/
def mixedHistory : History := fun tag =>
  some (some (if tag = [1] then ⟨50, false⟩ else if tag = [2] then ⟨90, false⟩ else ⟨60, true⟩))

theorem tested_agrees :
    (∀ out ∈ [both 1, both 2, both 3], alive id mixedHistory [both 1, both 2, both 3] out = true ↔
      Acceptable id mixedHistory [both 1, both 2, both 3] out) ∧
    alive id mixedHistory [both 1, both 2, both 3] (both 1) = true ∧
    alive id mixedHistory [both 1, both 2, both 3] (both 3) = false := by
  refine ⟨((alive_agrees_iff id mixedHistory (cons_ne_nil _ _)).2 ⟨?_, ?_⟩).1, by decide, by decide⟩
  · simp only [mem_cons, not_mem_nil, or_false]
    rintro _ (rfl | rfl | rfl) <;> exact ⟨by decide, by decide⟩
  · decide

/-- **An outbound that was never tested is alive**, and is not acceptable. -/
theorem untested_alive :
    let history : History := fun tag => some (some ⟨if tag = [1] then 100 else 0, false⟩)
    alive id history [both 1, both 2] (both 2) = true ∧
      ¬Acceptable id history [both 1, both 2] (both 2) := by
  refine ⟨by decide, fun h => ?_⟩
  rw [acceptable_iff (cons_ne_nil _ _)] at h
  exact absurd h (by decide)

/-! ### The best outbound -/

/-- The tolerance, in exact arithmetic. -/
def exactTolerance (ratio : ℚ) (minDelay : UInt16) : ℚ := max 100 (minDelay.toNat : ℚ) * ratio

/-- The tolerance, cut to 16 bits. -/
def cutTolerance (ratio : ℚ) (minDelay : UInt16) : UInt16 :=
  .ofNat ⌊exactTolerance ratio minDelay⌋₊

/-- The outbound was tested successfully. -/
def Tested (history : History) (out : Outbound) : Prop :=
  ∃ his, history out.tag = some (some his) ∧ his.delay ≠ 0 ∧ his.delay ≠ timeoutDelay

section

variable {history : History} {outs : List Outbound} {ratio : ℚ}

theorem le_cutTolerance {minDelay delay : UInt16} (h : exactTolerance ratio minDelay < 65536)
    (hle : (delay.toNat : ℚ) ≤ exactTolerance ratio minDelay) :
    delay ≤ cutTolerance ratio minDelay := by
  have hlt : ⌊exactTolerance ratio minDelay⌋₊ < 65536 :=
    (floor_lt' (by decide)).2 (by exact_mod_cast h)
  rw [UInt16.le_iff_toNat_le, cutTolerance, UInt16.toNat_ofNat', mod_eq_of_lt hlt]
  exact le_floor hle

theorem le_exactTolerance (hratio : 1 ≤ ratio) (minDelay : UInt16) :
    (minDelay.toNat : ℚ) ≤ exactTolerance ratio minDelay :=
  (le_max_right _ _).trans
    (le_mul_of_one_le_right (le_trans (by norm_num) (le_max_left (100 : ℚ) _)) hratio)

theorem alive_iff_of_tested {tolerance : UInt16 → UInt16} {best out : Outbound}
    (hout : Tested history out) (hle : getTagDelay history best.tag ≤ getTagDelay history out.tag) :
    ∃ delay, getDelayMap history best.tag = some delay ∧ delay ≤ getTagDelay history best.tag ∧
      (alive tolerance history outs best ↔ delay ≤ tolerance (getMinDelay history outs)) := by
  obtain ⟨his, hhis, hzero, htimeout⟩ := hout
  have hlt : getTagDelay history out.tag ≠ timeoutDelay := by
    rw [getTagDelay, hhis]
    simp only [getModifiedDelay, timeoutDelay] at htimeout ⊢
    grind
  obtain ⟨his', hbest⟩ : ∃ his', history best.tag = some (some his') := by
    rw [getTagDelay] at hle
    split at hle
    · exact ⟨_, ‹_›⟩
    · exact absurd (UInt16.le_antisymm (le_timeoutDelay _) hle) hlt
  refine ⟨his'.delay, by rw [getDelayMap, hbest]; rfl, ?_, ?_⟩
  · rw [getTagDelay, hbest]
    exact delay_le_getModifiedDelay his'
  · rw [alive, getDelayMap, hbest]
    exact decide_eq_true_iff

/-- **The best outbound is alive, and those within the exact tolerance are acceptable**, exactly if
the tolerance fits into 16 bits, or what is left of it is not below any delay, or, if there is only
one outbound, not below the delay on record. -/
theorem bestEligible_iff (hratio : 1 ≤ ratio) (htested : ∃ out ∈ outs, Tested history out) :
    ((∀ best ∈ outs, (∀ out ∈ outs, getTagDelay history best.tag ≤ getTagDelay history out.tag) →
        alive (cutTolerance ratio) history outs best = true) ∧
      ∀ index, getAcceptableIndex (cutTolerance ratio) history
          (sortOutboundsByDelay history outs) = some index →
        ∀ out ∈ outs, ((getTagDelay history out.tag).toNat : ℚ) ≤
            exactTolerance ratio (getMinDelay history outs) →
          out ∈ (sortOutboundsByDelay history outs).take (index + 1)) ↔
      exactTolerance ratio (getMinDelay history outs) < 65536 ∨
        (∀ out ∈ outs,
          getTagDelay history out.tag ≤ cutTolerance ratio (getMinDelay history outs)) ∨
        ∃ only, ∀ out ∈ outs, out = only ∧ ∃ delay ∈ getDelayMap history out.tag,
          delay ≤ cutTolerance ratio (getMinDelay history outs) := by
  obtain ⟨tested, htestedMem, htested⟩ := htested
  obtain ⟨first, index, hindex, h⟩ :=
    exists_indexFound (cutTolerance ratio) history (ne_nil_of_mem htestedMem)
  have hmin := h.getMinDelay_eq
  constructor
  · rintro ⟨halive, hprefix⟩
    refine or_iff_not_imp_left.2 fun hlarge => ?_
    -- Beyond 16 bits everything is within the exact tolerance.
    have hall : ∀ out ∈ outs, out ∈ (sortOutboundsByDelay history outs).take (index + 1) := by
      intro out hout
      have hlt : ((getTagDelay history out.tag).toNat : ℚ) < 65536 := by
        exact_mod_cast (getTagDelay history out.tag).toNat_lt
      exact hprefix index hindex out hout (hlt.le.trans (not_lt.1 hlarge))
    rcases h.within with rfl | hwithin
    · refine .inr ⟨first, fun out hout => ?_⟩
      obtain ⟨delay, hdelay, -, hiff⟩ := alive_iff_of_tested htested (h.least tested htestedMem)
      have hfirst : out = first := by
        have hmem := hall out hout
        rw [take_one, h.head] at hmem
        exact List.mem_singleton.1 hmem
      exact ⟨hfirst, delay, hfirst ▸ hdelay, hiff.1 (halive first h.first_mem h.least)⟩
    · exact .inl fun out hout => hmin ▸ hwithin out (hall out hout)
  · intro hcond
    refine ⟨fun best hbest hleast => ?_, fun index' hindex' out hout hle => ?_⟩
    · obtain ⟨delay, hdelay, hle, hiff⟩ := alive_iff_of_tested htested (hleast tested htestedMem)
      refine hiff.2 ?_
      rcases hcond with hsmall | hall | ⟨only, honly⟩
      · have hdelayMin : delay ≤ getMinDelay history outs :=
          hmin ▸ UInt16.le_trans hle (hleast first h.first_mem)
        refine le_cutTolerance hsmall (le_trans ?_ (le_exactTolerance hratio _))
        exact_mod_cast UInt16.le_iff_toNat_le.1 hdelayMin
      · exact UInt16.le_trans hle (hall best hbest)
      · obtain ⟨-, delay', hdelay', hle'⟩ := honly best hbest
        rw [hdelay] at hdelay'
        cases hdelay'
        exact hle'
    · rw [hindex] at hindex'
      cases hindex'
      rcases hcond with hsmall | hall | ⟨only, honly⟩
      · exact h.mem out hout (hmin ▸ le_cutTolerance hsmall hle)
      · exact h.mem out hout (hmin ▸ hall out hout)
      · obtain ⟨rest, hrest⟩ := List.head?_eq_some_iff.1 h.head
        rw [(honly out hout).1, ← (honly first h.first_mem).1, hrest, take_succ_cons]
        exact mem_cons_self

end

theorem fast_eligible :
    alive (cutTolerance 2) mixedHistory [both 2, both 1, both 3] (both 1) = true := by
  have hmin : getMinDelay mixedHistory [both 2, both 1, both 3] = 50 := by decide
  have hsmall : exactTolerance 2 (getMinDelay mixedHistory [both 2, both 1, both 3]) < 65536 := by
    rw [hmin, exactTolerance, show (50 : UInt16).toNat = 50 from rfl]
    norm_num
  exact ((bestEligible_iff (by norm_num) ⟨both 1, by simp, _, rfl, by decide, by decide⟩).2
    (.inl hsmall)).1 _ (by simp) (by decide)

/-- Histories in which all outbounds have the same delay. -/
def equalDelays (delay : UInt16) : History := fun _ => some (some ⟨delay, false⟩)

/-- **Twice 40 seconds is more than 16 bits**: the only outbound is not alive. -/
theorem slow_notAlive : Tested (equalDelays 40000) (both 1) ∧
    alive (cutTolerance 2) (equalDelays 40000) [both 1] (both 1) = false :=
  ⟨⟨_, rfl, by decide, by decide⟩, by decide +kernel⟩

/-! ### Sticky sessions -/

/-- What happens to the cache: a selection, or the loss of an entry. -/
inductive SessionEvent where
  | select (network : Network) (key : UInt64) (jump : ℕ → ℕ)
  | evict (key : UInt64)

section

variable (alive : Outbound → Bool) (outs : Network → List Outbound) (maxRetry : ℕ)

def sessionStep (cache : UInt64 → Option ℕ) : SessionEvent → Option (UInt64 → Option ℕ)
  | .select network key jump => some (stickySelect alive (outs network) maxRetry cache key jump).2
  | .evict key => some (Function.update cache key none)

/-- At selections with the key, the cached index is one of the list. -/
def Fits (key : UInt64) (cache : UInt64 → Option ℕ) : SessionEvent → Prop
  | .select network key' _ => key' = key → ∀ idx ∈ cache key, idx < (outs network).length
  | .evict key' => key' ≠ key

instance (key : UInt64) (cache : UInt64 → Option ℕ) : DecidablePred (Fits outs key cache)
  | .select _ key' _ => inferInstanceAs (Decidable (key' = key → ∀ idx ∈ cache key, idx < _))
  | .evict key' => inferInstanceAs (Decidable (key' ≠ key))

variable {alive outs}

/-- **One selection**: if the cached index fits, it is used and kept; otherwise there is one now. -/
theorem stickySelect_spec {list : List Outbound} (hne : list ≠ [])
    (halive : ∀ out ∈ list, alive out) {cache : UInt64 → Option ℕ} {key : UInt64}
    (hfits : ∀ idx, cache key = some idx → idx < list.length) (jump : ℕ → ℕ) :
    ∃ i < list.length, (∀ idx, cache key = some idx → i = idx) ∧
      (stickySelect alive list maxRetry cache key jump).1 = list[i]? ∧
      (stickySelect alive list maxRetry cache key jump).2 key = some i := by
  obtain ⟨i, hi, hlt, hcached⟩ : ∃ i, ((cache key).filter (· < list.length)).getD
      (jump maxRetry % list.length) = i ∧ i < list.length ∧
        ∀ idx, cache key = some idx → i = idx := by
    cases hkey : cache key with
    | none => exact ⟨_, rfl, mod_lt _ (List.length_pos_iff.2 hne), fun _ h => nomatch h⟩
    | some idx =>
      refine ⟨idx, ?_, hfits idx hkey, fun _ h => some.inj h⟩
      rw [filter_some, if_pos (decide_eq_true (hfits idx hkey))]
      rfl
  have hany : (list[i]?).any alive := by
    rw [getElem?_eq_getElem hlt]
    exact halive _ (getElem_mem hlt)
  have hloop : ∃ found, stickyLoop alive list jump (maxRetry - 1) i = (i, found) := by
    cases maxRetry - 1 with
    | zero => exact ⟨false, rfl⟩
    | succ tries => exact ⟨true, by rw [stickyLoop, if_pos hany]⟩
  obtain ⟨found, hfound⟩ := hloop
  simp only [stickySelect, hi, hfound]
  refine ⟨i, hlt, hcached, rfl, ?_⟩
  split
  · rename_i hkept
    obtain ⟨idx, hidx⟩ := Option.isSome_iff_exists.1 hkept.2.1
    rw [hidx, hcached idx hidx]
  · exact Function.update_self ..

theorem stickySelect_other (list : List Outbound) (cache : UInt64 → Option ℕ) (jump : ℕ → ℕ)
    {key other : UInt64} (hother : other ≠ key) :
    (stickySelect alive list maxRetry cache key jump).2 other = cache other := by
  rw [stickySelect]
  dsimp only
  split
  · rfl
  · exact Function.update_of_ne hother ..

theorem run_keeps (hne : ∀ network, outs network ≠ [])
    (halive : ∀ network, ∀ out ∈ outs network, alive out) {key : UInt64} {i : ℕ}
    {events : List SessionEvent} {cache cache' : UInt64 → Option ℕ}
    (hfits : Schedule.Along (sessionStep alive outs maxRetry) (Fits outs key) cache events)
    (hrun : Schedule.run (sessionStep alive outs maxRetry) cache events = some cache')
    (hkey : cache key = some i) : cache' key = some i := by
  refine Schedule.run_invariant (I := fun cache => cache key = some i) ?_ hrun hfits hkey
  intro cache e cache' hstep hfits hkey
  cases e with
  | select network key' jump =>
    cases hstep
    by_cases hsame : key = key'
    · subst hsame
      obtain ⟨i', -, hcached, -, hnew⟩ :=
        stickySelect_spec maxRetry (hne network) (halive network) (hfits rfl) jump
      rw [hnew, hcached i hkey]
    · rw [stickySelect_other maxRetry _ _ _ hsame, hkey]
  | evict key' =>
    cases hstep
    exact (Function.update_of_ne hfits.symm ..).trans hkey

/-- **Sessions stick**: two selections with the same key and network give the same outbound, if the
entry is not lost in between and at selections with this key the cached index fits the list. -/
theorem sticks (hne : ∀ network, outs network ≠ [])
    (halive : ∀ network, ∀ out ∈ outs network, alive out = true) {network : Network}
    {key : UInt64} {jump jump' : ℕ → ℕ} {between : List SessionEvent}
    {cache cache' : UInt64 → Option ℕ}
    (hfits : Schedule.Along (sessionStep alive outs maxRetry) (Fits outs key) cache
      (.select network key jump :: between))
    (hrun : Schedule.run (sessionStep alive outs maxRetry) cache
      (.select network key jump :: between) = some cache') :
    (stickySelect alive (outs network) maxRetry cache' key jump').1 =
      (stickySelect alive (outs network) maxRetry cache key jump).1 := by
  obtain ⟨t, ht, hrest⟩ := Schedule.run_cons_eq_some.1 hrun
  obtain ⟨i, hlt, -, hchosen, hkey⟩ :=
    stickySelect_spec maxRetry (hne network) (halive network) (hfits.1 rfl) jump
  cases ht
  have hkept := run_keeps maxRetry hne halive (hfits.2 _ rfl) hrest hkey
  obtain ⟨i', -, hcached, hchosen', -⟩ := stickySelect_spec maxRetry (hne network)
    (halive network) (fun idx hidx => some.inj (hkept.symm.trans hidx) ▸ hlt) jump'
  rw [hchosen, hchosen', hcached i hkept]

end

/-- The third outbound is for TCP alone. -/
def twoLists : Network → List Outbound
  | .tcp => [both 1, both 2, both 3]
  | .udp => [both 1, both 2]

/-- Selections for both networks, and one with another key whose index does not fit. -/
theorem twoLists_sticks :
    let between : List SessionEvent := [.select .tcp 7 fun _ => 0, .select .tcp 8 fun _ => 2,
      .select .udp 8 fun _ => 0, .evict 8, .select .udp 7 fun _ => 0]
    ∃ cache, Schedule.run (sessionStep (fun _ => true) twoLists 3) (fun _ => none)
      (.select .udp 7 (fun _ => 1) :: between) = some cache ∧
      (stickySelect (fun _ => true) (twoLists .udp) 3 cache 7 fun _ => 0).1 =
        (stickySelect (fun _ => true) (twoLists .udp) 3 (fun _ => none) 7 fun _ => 1).1 := by
  intro between
  refine ⟨_, rfl, sticks 3 (fun network => ?_) (fun _ _ _ => rfl)
    (?_ : Schedule.Along _ _ _ (_ :: between)) rfl⟩
  · cases network <;> exact cons_ne_nil _ _
  · decide

/-- **An index of the longer list makes the sessions of the shorter one jump.** -/
theorem longerList_jumps :
    let cache := (stickySelect (fun _ => true) (twoLists .tcp) 3 (fun _ => none) 7 fun _ => 2).2
    let first := stickySelect (fun _ => true) (twoLists .udp) 3 cache 7 fun _ => 0
    let second := stickySelect (fun _ => true) (twoLists .udp) 3 first.2 7 fun _ => 1
    first.1 = some (both 1) ∧ second.1 = some (both 2) := by
  decide

end SingBox.Balancer
