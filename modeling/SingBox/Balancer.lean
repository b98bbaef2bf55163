/-
**Round-robin over the outbounds of a balancer** (`protocol/group/balancer/common.go`,
`roundrobin.go`).

The outbounds of a network are sorted by their delays, where an outbound without a successful test
counts as slowest and a delay from the cache as 20 seconds slower.  Those up to the last one within
the tolerance are acceptable.  `RoundRobin` goes through them in a circle; the place where it is
survives updates, after which there can be more or fewer of them.

How the tolerance is computed from the least delay is a parameter here.

* `Balancer.RoundRobin.acceptable_update` — who is acceptable after an update;
* `Balancer.RoundRobin.roundRobin_fair` — **the index is in range, and in a circle each acceptable
  outbound is selected once**.
-/

import SingBox.GoString
import SingBox.Schedule
import Mathlib.Data.List.Rotate

namespace SingBox.Balancer

open List Nat

/-! ### Delays -/

/-- `N.NetworkTCP` and `N.NetworkUDP`. -/
inductive Network where
  | tcp
  | udp
  deriving DecidableEq

/-- An outbound object: its identity, its tag and the networks it supports. -/
structure Outbound where
  id : ℕ
  tag : GoString
  networks : List Network
  deriving DecidableEq

/-- `adapter.URLTestHistory`, as far as delays are concerned. -/
structure URLTestHistory where
  delay : UInt16
  isFromCache : Bool

/-- The histories by tags; an entry can be `nil`. -/
abbrev History : Type := GoString → Option (Option URLTestHistory)

/-- `monitoring.TimeoutDelay`. -/
def timeoutDelay : UInt16 := 65535

/-- `getModifiedDelay`. -/
def getModifiedDelay : Option URLTestHistory → UInt16
  | none => timeoutDelay
  | some his =>
    let delay := if his.delay = 0 then timeoutDelay else his.delay
    if his.isFromCache ∧ delay < 20000 then delay + 20000 else delay

/-- `getTagDelay`. -/
def getTagDelay (history : History) (tag : GoString) : UInt16 :=
  match history tag with
  | some (some his) => getModifiedDelay (some his)
  | _ => timeoutDelay

/-- `filterOutbounds`. -/
def filterOutbounds (outbounds : List Outbound) (network : Network) : List Outbound :=
  let res := outbounds.filter fun out => network ∈ out.networks
  if res.length = 0 then outbounds else res

/-- `sortOutboundsByDelay`, for one network.  The sort is stable. -/
def sortOutboundsByDelay (history : History) (outs : List Outbound) : List Outbound :=
  outs.mergeSort fun a b => getTagDelay history a.tag ≤ getTagDelay history b.tag

/-- The loop of `getAcceptableIndex`: the last index of an outbound within the tolerance. -/
def maxAvailableIndex (within : Outbound → Bool) : List Outbound → ℕ → ℕ → ℕ
  | [], _, found => found
  | outbound :: outs, i, found =>
    maxAvailableIndex within outs (i + 1) (if within outbound then i else found)

/-- `getAcceptableIndex`, for one network; without outbounds `outs[0]` panics.  The tolerance is
`uint16(math.Max(100, float64(minDelay)) * ratio)`. -/
def getAcceptableIndex (tolerance : UInt16 → UInt16) (history : History) (outs : List Outbound) :
    Option ℕ := do
  let minDelay := getTagDelay history (← outs.head?).tag
  return maxAvailableIndex (fun outbound => getTagDelay history outbound.tag ≤ tolerance minDelay)
    outs 0 0

/-! ### Round-robin -/

/-- `RoundRobin`, with `maxAcceptableIndex` increased by one. -/
structure RoundRobin where
  (outbounds sortedOutbounds : Network → List Outbound)
  (length idx : Network → ℕ)

namespace RoundRobin

/-- `NewRoundRobin`. -/
def new (outbounds : List Outbound) : RoundRobin where
  outbounds := filterOutbounds outbounds
  sortedOutbounds := filterOutbounds outbounds
  length network := (filterOutbounds outbounds network).length
  idx _ := 0

/-- `UpdateOutboundsInfo`. -/
def updateOutboundsInfo (tolerance : UInt16 → UInt16) (s : RoundRobin) (history : History) :
    Option RoundRobin := do
  let sorted network := sortOutboundsByDelay history (s.outbounds network)
  let tcp ← getAcceptableIndex tolerance history (sorted .tcp)
  let udp ← getAcceptableIndex tolerance history (sorted .udp)
  return { s with
    sortedOutbounds := sorted
    length := fun network => match network with | .tcp => tcp + 1 | .udp => udp + 1 }

/-- `Select`: the outbound, if there is one; an index out of range panics. -/
def select (s : RoundRobin) (network : Network) (touch : Bool) :
    Option (Option Outbound × RoundRobin) :=
  if s.length network = 0 then some (none, s)
  else do
    let id := (s.idx network + 1) % s.length network
    let proxy ← (s.sortedOutbounds network)[id]?
    return (some proxy, if touch then { s with idx := Function.update s.idx network id } else s)

/-- A call of `Select`; networks with other names are taken for TCP. -/
structure Call where
  net : Option Network
  touch : Bool

/-- The call counts for the network. -/
def Call.touches (network : Network) (call : Call) : Bool :=
  call.net.getD .tcp = network ∧ call.touch

/-- Calls one after the other, with the outbounds that are selected for those that count. -/
def selectAll (network : Network) : List Call → RoundRobin → Option (List Outbound × RoundRobin)
  | [], s => some ([], s)
  | call :: calls, s => do
    let (proxy, s) ← s.select (call.net.getD .tcp) call.touch
    let (picked, s) ← selectAll network calls s
    return (if call.touches network then proxy.toList ++ picked else picked, s)

inductive Event where
  | update (history : History)
  | select (call : Call)

def step (tolerance : UInt16 → UInt16) (s : RoundRobin) : Event → Option RoundRobin
  | .update history => s.updateOutboundsInfo tolerance history
  | .select call => (s.select (call.net.getD .tcp) call.touch).map Prod.snd

/-- The acceptable outbounds of a network. -/
def acceptable (s : RoundRobin) (network : Network) : List Outbound :=
  (s.sortedOutbounds network).take (s.length network)

/-- There is an acceptable outbound for each network. -/
structure Valid (s : RoundRobin) : Prop where
  outbounds : ∀ network, s.outbounds network ≠ []
  pos : ∀ network, 0 < s.length network
  le : ∀ network, s.length network ≤ (s.sortedOutbounds network).length

end RoundRobin

/-! ### Who is acceptable -/

section

variable (within : Outbound → Bool) (tolerance : UInt16 → UInt16) (history : History)
  (outs : List Outbound)

theorem maxAvailableIndex_spec (i found : ℕ) (hfound : found ≤ i) :
    found ≤ maxAvailableIndex within outs i found ∧
      (maxAvailableIndex within outs i found = found ∨ ∃ k out, outs[k]? = some out ∧
        within out ∧ maxAvailableIndex within outs i found = i + k) ∧
      ∀ k out, outs[k]? = some out → within out →
        i + k ≤ maxAvailableIndex within outs i found := by
  induction outs generalizing i found with
  | nil => exact ⟨le_rfl, .inl rfl, fun _ _ h => nomatch h⟩
  | cons outbound outs ih =>
    rw [maxAvailableIndex]
    obtain ⟨hle, hsome, hall⟩ := ih (i + 1) (if within outbound then i else found)
      (by split <;> omega)
    refine ⟨by grind, ?_, fun k out hout hwithin => ?_⟩
    · rcases hsome with h | ⟨k, out, hk, hout, h⟩
      · cases hwithin : within outbound with
        | true => exact .inr ⟨0, outbound, rfl, hwithin, by simpa [hwithin] using h⟩
        | false => exact .inl (by simpa [hwithin] using h)
      · exact .inr ⟨k + 1, out, hk, hout, by omega⟩
    · cases k with
      | zero => grind
      | succ k => exact Nat.add_right_comm i 1 k ▸ hall k out hout hwithin

/-- What `getAcceptableIndex` finds for the outbounds of a network. -/
structure IndexFound (outs : List Outbound) (first : Outbound) (index : ℕ) : Prop where
  first_mem : first ∈ outs
  head : (sortOutboundsByDelay history outs).head? = some first
  least : ∀ out ∈ outs, getTagDelay history first.tag ≤ getTagDelay history out.tag
  lt : index < outs.length
  mem : ∀ out ∈ outs, getTagDelay history out.tag ≤ tolerance (getTagDelay history first.tag) →
    out ∈ (sortOutboundsByDelay history outs).take (index + 1)
  within : index = 0 ∨ ∀ out ∈ (sortOutboundsByDelay history outs).take (index + 1),
    getTagDelay history out.tag ≤ tolerance (getTagDelay history first.tag)

theorem pairwise_sortOutboundsByDelay :
    (sortOutboundsByDelay history outs).Pairwise fun a b =>
      getTagDelay history a.tag ≤ getTagDelay history b.tag := by
  refine (pairwise_mergeSort (fun a b c hab hbc => ?_) (fun a b => ?_) outs).imp of_decide_eq_true
  · rw [decide_eq_true_eq] at hab hbc ⊢
    exact UInt16.le_trans hab hbc
  · rw [Bool.or_eq_true, decide_eq_true_eq, decide_eq_true_eq]
    exact UInt16.le_total _ _

theorem exists_indexFound {outs : List Outbound} (hne : outs ≠ []) : ∃ first index,
    getAcceptableIndex tolerance history (sortOutboundsByDelay history outs) = some index ∧
      IndexFound tolerance history outs first index := by
  have hperm : (sortOutboundsByDelay history outs).Perm outs := mergeSort_perm outs _
  have hsorted := pairwise_sortOutboundsByDelay history outs
  cases hsort : sortOutboundsByDelay history outs with
  | nil =>
    rw [hsort] at hperm
    exact absurd hperm.nil_eq.symm hne
  | cons first rest =>
    rw [hsort] at hperm hsorted
    let within : Outbound → Bool := fun out =>
      getTagDelay history out.tag ≤ tolerance (getTagDelay history first.tag)
    obtain ⟨-, hspec, hmax⟩ := maxAvailableIndex_spec within (first :: rest) 0 0 le_rfl
    refine ⟨first, maxAvailableIndex within (first :: rest) 0 0, rfl,
      hperm.mem_iff.1 mem_cons_self, by rw [hsort]; rfl, fun out hout => ?_, ?_,
      fun out hout hwithin => ?_, ?_⟩
    · rcases List.mem_cons.1 (hperm.mem_iff.2 hout) with rfl | hout
      · exact UInt16.le_refl _
      · exact rel_of_pairwise_cons hsorted hout
    · rw [← hperm.length_eq]
      rcases hspec with h | ⟨k, out, hk, -, h⟩
      · rw [h]
        exact zero_lt_succ _
      · rw [h, Nat.zero_add]
        exact (List.getElem?_eq_some_iff.1 hk).1
    · obtain ⟨k, hk⟩ := getElem?_of_mem (hperm.mem_iff.2 hout)
      have hle := hmax k out hk (decide_eq_true hwithin)
      rw [Nat.zero_add] at hle
      rw [hsort]
      exact mem_of_getElem? (getElem?_take_of_lt (lt_succ_of_le hle) ▸ hk)
    · refine hspec.imp_right fun ⟨k, last, hk, hlast, h⟩ out hout => ?_
      -- Those before the last one within the tolerance are not slower.
      rw [h, Nat.zero_add, hsort] at hout
      obtain ⟨i, hi, rfl⟩ := List.mem_take_iff_getElem.1 hout
      obtain ⟨hklt, rfl⟩ := List.getElem?_eq_some_iff.1 hk
      rw [Nat.lt_min] at hi
      rcases Nat.lt_succ_iff_lt_or_eq.1 hi.1 with hlt | rfl
      · exact UInt16.le_trans (List.pairwise_iff_getElem.1 hsorted i k hi.2 hklt hlt)
          (of_decide_eq_true hlast)
      · exact of_decide_eq_true hlast

end

namespace RoundRobin

variable (tolerance : UInt16 → UInt16) {s s' : RoundRobin} {outbounds : List Outbound}

theorem filterOutbounds_ne_nil (hne : outbounds ≠ [])
    (network : Network) : filterOutbounds outbounds network ≠ [] := by
  rw [filterOutbounds]
  split
  · exact hne
  · rename_i hlen
    exact fun hnil => hlen (by rw [hnil]; rfl)

theorem valid_new (hne : outbounds ≠ []) : (new outbounds).Valid where
  outbounds := filterOutbounds_ne_nil hne
  pos network := List.length_pos_iff.2 (filterOutbounds_ne_nil hne network)
  le _ := le_rfl

/-- **After an update** those up to the index that was found are acceptable. -/
theorem acceptable_update (hs : s.Valid) (history : History) :
    ∃ s', s.updateOutboundsInfo tolerance history = some s' ∧ s'.Valid ∧
      ∀ network, ∃ first index, IndexFound tolerance history (s.outbounds network) first index ∧
        s'.acceptable network =
          (sortOutboundsByDelay history (s.outbounds network)).take (index + 1) := by
  obtain ⟨first, index, hindex, h⟩ := exists_indexFound tolerance history (hs.outbounds .tcp)
  obtain ⟨first', index', hindex', h'⟩ := exists_indexFound tolerance history (hs.outbounds .udp)
  refine ⟨_, by rw [updateOutboundsInfo, hindex, hindex']; rfl, ?_, ?_⟩
  · refine ⟨hs.outbounds, ?_, ?_⟩
    · rintro (_ | _) <;> exact succ_pos _
    · rintro (_ | _)
      · exact (length_mergeSort _).symm ▸ h.lt
      · exact (length_mergeSort _).symm ▸ h'.lt
  · rintro (_ | _)
    · exact ⟨first, index, h, rfl⟩
    · exact ⟨first', index', h', rfl⟩

/-- The acceptable outbounds in the order in which they are selected next. -/
def circle (s : RoundRobin) (network : Network) : List Outbound :=
  (s.acceptable network).rotate (s.idx network + 1)

theorem length_acceptable (hs : s.Valid) (network : Network) :
    (s.acceptable network).length = s.length network :=
  length_take_of_le (hs.le network)

/-- **One selection** gives the first outbound of the circle, and turns the circle if it counts. -/
theorem select_eq (hs : s.Valid) (network : Network) (touch : Bool) :
    ∃ proxy s', s.select network touch = some (some proxy, s') ∧ s'.Valid ∧
      s'.acceptable = s.acceptable ∧ (s.circle network).head? = some proxy ∧
      (touch → s'.circle network = (s.circle network).rotate 1) ∧
      ∀ other, (touch → other ≠ network) → s'.circle other = s.circle other := by
  have hpos := hs.pos network
  have hlen := length_acceptable hs network
  have hlt := mod_lt (s.idx network + 1) hpos
  obtain ⟨proxy, hproxy⟩ : ∃ proxy, (s.sortedOutbounds network)[(s.idx network + 1) %
      s.length network]? = some proxy :=
    ⟨_, getElem?_eq_getElem (hlt.trans_le (hs.le network))⟩
  have hhead : (s.circle network).head? = some proxy := by
    rw [circle, ← rotate_mod, hlen, head?_rotate (hlen.symm ▸ hlt), acceptable,
      getElem?_take_of_lt hlt, hproxy]
  refine ⟨proxy, _, by rw [select, if_neg hpos.ne']; dsimp only; rw [hproxy]; rfl, ?_, ?_, hhead,
    ?_, ?_⟩
  · cases touch <;> exact ⟨hs.outbounds, hs.pos, hs.le⟩
  · cases touch <;> rfl
  · rintro rfl
    change (s.acceptable network).rotate (Function.update s.idx network _ network + 1) = _
    rw [Function.update_self, circle, rotate_rotate, ← rotate_mod, hlen,
      mod_add_mod, ← hlen, rotate_mod]
  · intro other hother
    cases touch with
    | false => rfl
    | true =>
      change (s.acceptable other).rotate (Function.update s.idx network _ other + 1) = _
      rw [Function.update_of_ne (hother rfl)]
      rfl

theorem Valid.step (hs : s.Valid) (e : Event) : ∃ s', step tolerance s e = some s' ∧ s'.Valid := by
  cases e with
  | update history =>
    obtain ⟨s', hs', hvalid, -⟩ := acceptable_update tolerance hs history
    exact ⟨s', hs', hvalid⟩
  | select call =>
    obtain ⟨proxy, s', hs', hvalid, -⟩ := select_eq hs (call.net.getD .tcp) call.touch
    exact ⟨s', by rw [RoundRobin.step, hs']; rfl, hvalid⟩

theorem exists_run (hs : s.Valid) (events : List Event) :
    ∃ s', Schedule.run (step tolerance) s events = some s' ∧ s'.Valid := by
  induction events generalizing s with
  | nil => exact ⟨s, rfl, hs⟩
  | cons e events ih =>
    obtain ⟨t, ht, hvalid⟩ := hs.step tolerance e
    obtain ⟨s', hrun, hs'⟩ := ih hvalid
    exact ⟨s', Schedule.run_cons_eq_some.2 ⟨t, ht, hrun⟩, hs'⟩

theorem take_rotate_one {α : Type} {l : List α} {a : α} (hhead : l.head? = some a) {k : ℕ}
    (hk : k + 1 ≤ l.length) : l.take (k + 1) = a :: (l.rotate 1).take k := by
  cases l with
  | nil => cases hhead
  | cons b l =>
    obtain rfl := Option.some.inj hhead
    rw [rotate_cons_succ, rotate_zero, take_succ_cons,
      take_append_of_le_length (le_of_succ_le_succ hk)]

/-- **Selections follow the circle**, whatever the calls that do not count. -/
theorem selectAll_eq (hs : s.Valid) (network : Network) (calls : List Call) :
    ∃ picked s', selectAll network calls s = some (picked, s') ∧
      (calls.countP (·.touches network) ≤ s.length network →
        picked = (s.circle network).take (calls.countP (·.touches network))) := by
  induction calls generalizing s with
  | nil => exact ⟨[], s, rfl, fun _ => rfl⟩
  | cons call calls ih =>
    obtain ⟨proxy, t, hselect, ht, hacceptable, hhead, hturn, hother⟩ :=
      select_eq hs (call.net.getD .tcp) call.touch
    obtain ⟨picked, s', hrest, hpicked⟩ := ih ht
    have hlengths : t.length network = s.length network := by
      rw [← length_acceptable ht, ← length_acceptable hs, hacceptable]
    refine ⟨_, s', by rw [selectAll, hselect]; dsimp only [bind, Option.bind]; rw [hrest]; rfl, ?_⟩
    cases htouches : call.touches network with
    | false =>
      have hcircle : t.circle network = s.circle network := by
        refine hother network fun htouch hnet => ?_
        simp [Call.touches, htouch, hnet] at htouches
      rw [countP_cons_of_neg (by simp [htouches]), ← hlengths, ← hcircle]
      exact hpicked
    | true =>
      rw [Call.touches, decide_eq_true_eq] at htouches
      obtain ⟨hnet, htouch⟩ := htouches
      rw [hnet] at hhead hturn
      rw [countP_cons_of_pos (by simp [Call.touches, hnet, htouch])]
      intro hle
      have hlen : (s.circle network).length = s.length network := by
        rw [circle, length_rotate, length_acceptable hs]
      rw [take_rotate_one hhead (hlen.symm ▸ hle), ← hturn htouch,
        ← hpicked (hlengths.symm ▸ le_of_succ_le hle)]
      rfl

/-- **Round-robin is fair.**  After any updates and selections, selections find an outbound, and as
many of them that count as there are acceptable outbounds select each of these once. -/
theorem roundRobin_fair {outbounds : List Outbound} (hne : outbounds ≠ []) (events : List Event) :
    ∃ s, Schedule.run (step tolerance) (new outbounds) events = some s ∧
      (∀ network touch, ∃ proxy s', s.select network touch = some (some proxy, s')) ∧
      ∀ network calls, ∃ picked s', selectAll network calls s = some (picked, s') ∧
        (calls.countP (·.touches network) = (s.acceptable network).length →
          picked.Perm (s.acceptable network)) := by
  obtain ⟨s, hrun, hs⟩ := exists_run tolerance (valid_new hne) events
  refine ⟨s, hrun, fun network touch => ?_, fun network calls => ?_⟩
  · obtain ⟨proxy, s', hselect, -⟩ := select_eq hs network touch
    exact ⟨proxy, s', hselect⟩
  · obtain ⟨picked, s', hcalls, hpicked⟩ := selectAll_eq hs network calls
    refine ⟨picked, s', hcalls, fun hcount => ?_⟩
    rw [length_acceptable hs] at hcount
    rw [hpicked hcount.le, hcount, take_of_length_le]
    · exact rotate_perm _ _
    · rw [circle, length_rotate, length_acceptable hs]

/-- Outbounds with 40, 10 and 20 ms, for TCP. -/
def three : List Outbound :=
  [⟨0, [40], [.tcp]⟩, ⟨1, [10], [.tcp]⟩, ⟨2, [20], [.tcp]⟩]

def threeDelays : History := fun tag => some (some ⟨(tag.headD 0).toUInt16, false⟩)

/-- The first one is too slow.  The other two are selected once each, whatever calls are mixed with
those that count. -/
theorem roundRobin_fair_three :
    ∃ s, Schedule.run (step (· + 15)) (new three) [.update threeDelays, .select ⟨none, true⟩] =
        some s ∧ (s.acceptable .tcp).map (·.id) = [1, 2] ∧
      ∃ picked s', selectAll .tcp
          [⟨some .udp, true⟩, ⟨none, true⟩, ⟨none, false⟩, ⟨some .tcp, true⟩] s =
        some (picked, s') ∧ picked.Perm (s.acceptable .tcp) := by
  obtain ⟨s, hrun, -, hfair⟩ := roundRobin_fair (· + 15) (by decide : three ≠ [])
    [.update threeDelays, .select ⟨none, true⟩]
  have hsorted (network : Network) : sortOutboundsByDelay threeDelays
      (filterOutbounds three network) =
      [⟨1, [10], [.tcp]⟩, ⟨2, [20], [.tcp]⟩, ⟨0, [40], [.tcp]⟩] := by
    rw [show filterOutbounds three network = three by cases network <;> rfl]
    have hdelay : getTagDelay threeDelays [10] = 10 ∧ getTagDelay threeDelays [20] = 20 ∧
      getTagDelay threeDelays [40] = 40 := ⟨rfl, rfl, rfl⟩
    simp [sortOutboundsByDelay, three, mergeSort, hdelay]
  have hids : (s.acceptable .tcp).map (·.id) = [1, 2] := by
    simp only [Schedule.run, step, updateOutboundsInfo, new, hsorted] at hrun
    cases hrun
    rfl
  obtain ⟨picked, s', hcalls, hpicked⟩ := hfair .tcp
    [⟨some .udp, true⟩, ⟨none, true⟩, ⟨none, false⟩, ⟨some .tcp, true⟩]
  refine ⟨s, hrun, hids, picked, s', hcalls, hpicked ?_⟩
  rw [← length_map, hids]
  rfl

end RoundRobin

end SingBox.Balancer
