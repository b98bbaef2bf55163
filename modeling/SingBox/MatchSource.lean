/-
**Rule-sets that match the source** (`route/rule/rule_item_rule_set.go`, `adapter/inbound.go`).

A rule-set item can ask that the `ip_cidr` conditions of its sets be held against the source
address. It does so by a flag in the copy of the metadata that it hands to its sets.  Each nested
evaluation makes a copy of its own, and logical rules clear the flag in theirs; so the request
reaches the default rules that stand in a set themselves, and none of those below a logical rule.

* `RuleSetItem.matchesSourceOnly_iff` — **match-source items are decided by the source alone exactly
  if no evaluation gets to an `ip_cidr` condition below a logical rule**.
-/

import SingBox.RuleSet

namespace SingBox

open LogicalTree

/-- The metadata differ in the IP of the destination and its resolved addresses only. -/
def SameButDestinationIP (m m' : InboundContext) : Prop :=
  m.hideDestinationIP = m'.hideDestinationIP

namespace SameButDestinationIP

variable {m m' : InboundContext}

theorem resetRuleCache (h : SameButDestinationIP m m') :
    SameButDestinationIP m.resetRuleCache m'.resetRuleCache :=
  congrArg InboundContext.resetRuleCache h

theorem withRuleSetFlags (h : SameButDestinationIP m m') (matchSource acceptEmpty : Bool) :
    SameButDestinationIP (m.withRuleSetFlags matchSource acceptEmpty).resetRuleMatchCache
      (m'.withRuleSetFlags matchSource acceptEmpty).resetRuleMatchCache :=
  congrArg (fun c : InboundContext => c.withRuleSetFlags matchSource acceptEmpty) h

end SameButDestinationIP

/-! ### Default rules -/

variable {m m' : InboundContext}

theorem DefaultHeadlessRule.matchStatesWithBase_congr (env : Environment)
    (r : DefaultHeadlessRule) {b : RuleMatchState} (h : SameButDestinationIP m m')
    (hip : r.needsIP env m b → m.ipCIDRMatchSource) :
    r.matchStatesWithBase env m b = r.matchStatesWithBase env m' b := by
  have hsrc : m.ipCIDRMatchSource = m'.ipCIDRMatchSource := congrArg (·.ipCIDRMatchSource) h
  refine AbstractDefaultRule.matchStatesWithBase_congr hsrc
    (congrArg (·.ignoreDestinationIPCIDRMatch) h) ?_ ?_ (fun e => e.elim)
  · intro it hit
    rw [RuleItem.Match_hideDestinationIP env m (r.blind it hit),
      RuleItem.Match_hideDestinationIP env m' (r.blind it hit), h]
  · intro hasked it hit
    have hflag : m.ipCIDRMatchSource := hasked.elim id hip
    obtain ⟨ipSet, rfl⟩ := r.ipCIDRs it hit
    have haddr : m.source.addr = m'.source.addr := congrArg (·.source.addr) h
    rw [RuleItem.Match_ipCIDR_of_matchSource env hflag,
      RuleItem.Match_ipCIDR_of_matchSource env (hsrc ▸ hflag), haddr]

/-! ### Rule-set items -/

variable {env : Environment} {r : DefaultHeadlessRule} {b b' : RuleMatchState}

theorem ipCIDRMatchSource_of_visits {t : HeadlessRule}
    (h : RuleTree.Visits (DefaultHeadlessRule.matchStatesWithBase env) t m b r m' b')
    (hm : m.ipCIDRMatchSource = false) : m'.ipCIDRMatchSource = false := by
  induction h with
  | default => exact hm
  | logical _ _ ih => exact ih rfl

namespace RuleSetItem

/-- The evaluation of a rule of one of the sets consults the default rule `r`. -/
def Visits (env : Environment) (item : RuleSetItem) (m : InboundContext) (b : RuleMatchState)
    (rule : HeadlessRule) (r : DefaultHeadlessRule) (m' : InboundContext) (b' : RuleMatchState) :
    Prop :=
  (∃ s ∈ item.setList, rule ∈ s.rules) ∧
    RuleTree.Visits (DefaultHeadlessRule.matchStatesWithBase env) rule
      (m.withRuleSetFlags item.ipCidrMatchSource item.ipCidrAcceptEmpty).resetRuleMatchCache b r
      m' b'

/-- The result does not depend on the destination IP, whatever the rule that has the item has
inherited. -/
def IgnoresDestinationIP (item : RuleSetItem) : Prop :=
  ∀ env m m' b, SameButDestinationIP m m' →
    item.matchStatesWithBase env m b = item.matchStatesWithBase env m' b

/-- No `ip_cidr` condition is evaluated against the destination: where the group of the destination
would need one, the flag is set. -/
def EvaluatesAgainstSource (item : RuleSetItem) : Prop :=
  ∀ env m b rule r m' b', item.Visits env m b rule r m' b' → r.needsIP env m' b' →
    m'.ipCIDRMatchSource

/-- The default rules whose `ip_cidr` conditions an evaluation gets to are rules of the sets
themselves, and do not stand below a logical rule. -/
def IPOutsideLogical (item : RuleSetItem) : Prop :=
  ∀ env m b rule r m' b', item.Visits env m b rule r m' b' → r.needsIP env m' b' →
    rule = .default r

theorem ignoresDestinationIP_of_evaluatesAgainstSource {item : RuleSetItem}
    (h : item.EvaluatesAgainstSource) : item.IgnoresDestinationIP := by
  intro env m m' b hm
  refine mergeAll_congr fun s hs => mergeAll_congr fun rule hrule => ?_
  have hflags := hm.withRuleSetFlags item.ipCidrMatchSource item.ipCidrAcceptEmpty
  refine RuleTree.matchStatesWithBase_congr (R := SameButDestinationIP)
    (fun _ _ hm => hm.resetRuleCache) (fun r m₁ b₁ hvisit m₁' hm₁ => ?_) hflags
  exact r.matchStatesWithBase_congr env hm₁ (h env m b rule r m₁ b₁ ⟨⟨s, hs, hrule⟩, hvisit⟩)

theorem evaluatesAgainstSource_iff {item : RuleSetItem} (hitem : item.ipCidrMatchSource) :
    item.EvaluatesAgainstSource ↔ item.IPOutsideLogical := by
  constructor
  · rintro h env m b rule r m' b' ⟨hrule, hvisit⟩ hip
    have hflag := h env m b rule r m' b' ⟨hrule, hvisit⟩ hip
    cases hvisit with
    | default => rfl
    | logical ht hvisit =>
      -- below the logical rule the flag is not set
      rw [ipCIDRMatchSource_of_visits hvisit rfl] at hflag
      cases hflag
  · rintro h env m b rule r m' b' hvisits hip
    obtain rfl := h env m b rule r m' b' hvisits hip
    obtain ⟨-, hvisit⟩ := hvisits
    cases hvisit
    exact hitem

/-- **When a match-source item is decided by the source alone**: its result does not depend on the
destination IP, every `ip_cidr` condition that is consulted being held against the source, exactly
if no evaluation gets to such a condition below a logical rule. -/
theorem matchesSourceOnly_iff (item : RuleSetItem) (hitem : item.ipCidrMatchSource = true) :
    item.IgnoresDestinationIP ∧ item.EvaluatesAgainstSource ↔ item.IPOutsideLogical := by
  rw [evaluatesAgainstSource_iff hitem, and_iff_right_iff_imp, ← evaluatesAgainstSource_iff hitem]
  exact ignoresDestinationIP_of_evaluatesAgainstSource

/-- One set, with rules that are made from the rule that the address lies in `10.0.0.0/8`. -/
def privateNet (rules : DefaultHeadlessRule → List HeadlessRule) : RuleSetItem where
  setList := [{
    rules := rules {
      destinationIPCIDRItems := [.ipCIDR false [⟨.v4 0x0a000000, .v4 0x0affffff⟩]]
      blind := by simp [AbstractDefaultRule.conditionItems]
      ipCIDRs := by simp }
    metadata := ⟨false, false, true⟩
    sound := by simp }]
  ipCidrMatchSource := true

/-- A rule that never matches. -/
def never : DefaultHeadlessRule where
  items := [.network []]
  blind := by decide
  ipCIDRs := by simp

/-- The rule stands in the set itself, and again in an `and` after a rule that never matches. -/
theorem matchesSourceOnly_iff_privateNet :
    let item := privateNet fun r => [.default r, .logical .and false [.default never, .default r]]
    item.IgnoresDestinationIP ∧ item.EvaluatesAgainstSource := by
  refine (matchesSourceOnly_iff _ rfl).2 ?_
  rintro env m b rule r m' b' ⟨⟨s, hs, hrule⟩, hvisit⟩ hip
  obtain rfl := List.mem_singleton.1 hs
  rcases List.mem_cons.1 hrule with rfl | hrule
  · cases hvisit
    rfl
  · obtain rfl := List.mem_singleton.1 hrule
    cases hvisit with
    | logical ht hvisit =>
      obtain rfl := List.mem_singleton.1 ht
      cases hvisit
      cases hip

/-- **Below a logical rule the destination is matched instead**: two metadata that differ only in
the destination IP get different results from a match-source item. -/
theorem logical_privateNet_reads_destination :
    let item := privateNet fun r => [.logical .or false [.default r]]
    item.ipCidrMatchSource = true ∧
      SameButDestinationIP { destination := { addr := .v4 0x0a000001 } }
        { destination := { addr := .v4 0x08080808 } } ∧
      item.Match .offline { destination := { addr := .v4 0x0a000001 } } ≠
        item.Match .offline { destination := { addr := .v4 0x08080808 } } :=
  ⟨rfl, rfl, by decide⟩

end RuleSetItem

end SingBox
