/-
**Rule-sets and rule-set items** (`route/rule/rule_set.go`, `rule_set_local.go`,
`rule_set_remote.go`, `rule_item_rule_set.go`).

A rule-set is a list of headless rules loaded from options, kept together with metadata computed
from the same options.  A DNS rule decides from the metadata whether a response has to be checked at
all, so a `RuleSet` carries the proof that it may be trusted, and `reloadRules` is where that proof
comes from.  A rule-set item names a list of sets and hands two flags down to them.

* `newHeadlessRule_leaves` — every default rule was constructed from default options;
* `hasHeadlessRule_eq_false` — the recursion looks at every default rule.
-/

import SingBox.HeadlessRule

namespace SingBox

open LogicalTree

/-! ### Metadata -/

/-- `adapter.RuleSetMetadata`. -/
structure RuleSetMetadata where
  (containsProcessRule containsWIFIRule containsIPCIDRRule : Bool)

mutual

/-- One round of `HasHeadlessRule`. -/
def hasRule (cond : DefaultHeadlessRuleOptions → Bool) : HeadlessRuleOptions → Bool
  | .default options => cond options
  | .logical _ _ rules => hasHeadlessRule cond rules

/-- `HasHeadlessRule`: some default rule, at any depth, satisfies the condition. -/
def hasHeadlessRule (cond : DefaultHeadlessRuleOptions → Bool) :
    List HeadlessRuleOptions → Bool
  | [] => false
  | r :: rs => if hasRule cond r then true else hasHeadlessRule cond rs

end

def isProcessHeadlessRule (rule : DefaultHeadlessRuleOptions) : Bool :=
  rule.processName.nonempty || rule.processPath.nonempty || rule.processPathRegex.nonempty ||
    rule.packageName.nonempty

def isWIFIHeadlessRule (rule : DefaultHeadlessRuleOptions) : Bool :=
  rule.wifiSSID.nonempty || rule.wifiBSSID.nonempty

def isIPCIDRHeadlessRule (rule : DefaultHeadlessRuleOptions) : Bool :=
  rule.ipCIDR.nonempty || rule.ipSet.isSome

variable (cond : DefaultHeadlessRuleOptions → Bool) (rules : List HeadlessRuleOptions)

theorem hasHeadlessRule_eq_any : hasHeadlessRule cond rules = rules.any (hasRule cond) := by
  induction rules with
  | nil => rfl
  | cons r rs ih => cases h : hasRule cond r <;> simp [hasHeadlessRule, ih, h]

theorem hasRule_eq_false (r : HeadlessRuleOptions) :
    hasRule cond r = false ↔ r.All fun options => cond options = false := by
  induction r using induction with
  | default options => rw [hasRule, all_default]
  | logical mode invert rules ih =>
    rw [hasRule, hasHeadlessRule_eq_any, all_logical, List.any_eq_false]
    refine forall₂_congr fun t ht => ?_
    rw [Bool.not_eq_true]
    exact ih t ht

theorem hasHeadlessRule_eq_false :
    hasHeadlessRule cond rules = false ↔
      ∀ r ∈ rules, r.All fun options => cond options = false := by
  rw [hasHeadlessRule_eq_any, List.any_eq_false]
  refine forall₂_congr fun r _ => ?_
  rw [Bool.not_eq_true]
  exact hasRule_eq_false cond r

/-! ### What the constructors put into a rule -/

variable {networkManager : Bool} {lib : Libraries} {options : List HeadlessRuleOptions}

theorem newHeadlessRules_mem {before : String} {i : ℕ} {rules : List HeadlessRule}
    (h : newHeadlessRules lib networkManager before i options = .ok rules) {r : HeadlessRule}
    (hr : r ∈ rules) : ∃ o ∈ options, newHeadlessRule lib networkManager o = .ok r := by
  rw [newHeadlessRules_eq_ok] at h
  induction h with
  | nil => simp at hr
  | cons hfirst _ ih =>
    rcases List.mem_cons.1 hr with rfl | hr
    · exact ⟨_, List.mem_cons_self, hfirst⟩
    · obtain ⟨o, ho, hnew⟩ := ih hr
      exact ⟨o, List.mem_cons_of_mem _ ho, hnew⟩

theorem newHeadlessRule_leaves {options : HeadlessRuleOptions} {rule : HeadlessRule}
    (h : newHeadlessRule lib networkManager options = .ok rule) :
    ∀ r ∈ rule.leaves, ∃ o ∈ options.leaves,
      newDefaultHeadlessRule lib networkManager o = .ok r := by
  induction options using induction generalizing rule with
  | default o =>
    obtain ⟨-, r, hr, rfl⟩ := newDefault_eq_ok.1 h
    simpa [LogicalTree.leaves] using hr
  | logical mode invert os ih =>
    obtain ⟨-, m, rs, -, hrs, rfl⟩ := newLogical_eq_ok.1 h
    intro r hr
    rw [LogicalTree.leaves, mem_leavesOf] at hr
    obtain ⟨t, ht, hr⟩ := hr
    obtain ⟨o, ho, hot⟩ := newHeadlessRules_mem hrs ht
    obtain ⟨o', ho', hnew⟩ := ih o ho hot r hr
    exact ⟨o', mem_leavesOf.2 ⟨o, ho, ho'⟩, hnew⟩

theorem newDefaultHeadlessRule_destinationIPCIDRItems {options : DefaultHeadlessRuleOptions}
    {r : DefaultHeadlessRule} (h : newDefaultHeadlessRule lib networkManager options = .ok r)
    (hip : isIPCIDRHeadlessRule options = false) : r.destinationIPCIDRItems = [] := by
  obtain ⟨parsed, hparsed, rfl⟩ := newDefaultHeadlessRule_eq_ok h
  rw [isIPCIDRHeadlessRule, Bool.or_eq_false_iff, Option.isSome_eq_false_iff,
    Option.isNone_iff_eq_none] at hip
  have hset : parsed.ipSet = none := parseItems_ipSet_eq_none hparsed hip.1 hip.2
  simp [assembleHeadlessRule, headlessGroups, optionalItem, hset]

/-! ### Rule-sets -/

/-- A loaded rule-set.  Metadata that denies `ip_cidr` rules is right about it. -/
structure RuleSet where
  rules : List HeadlessRule
  metadata : RuleSetMetadata
  sound : metadata.containsIPCIDRRule = false →
    ∀ rule ∈ rules, rule.All fun r => r.destinationIPCIDRItems = []

/-- The metadata that the loading code computes. -/
def ruleSetMetadata (headlessRules : List HeadlessRuleOptions) : RuleSetMetadata where
  containsProcessRule := hasHeadlessRule isProcessHeadlessRule headlessRules
  containsWIFIRule := hasHeadlessRule isWIFIHeadlessRule headlessRules
  containsIPCIDRRule := hasHeadlessRule isIPCIDRHeadlessRule headlessRules

/-- The metadata computed from options is right about the rules constructed from them. -/
theorem ruleSetMetadata_sound {before : String} {i : ℕ} {rules : List HeadlessRule}
    (h : newHeadlessRules lib networkManager before i options = .ok rules)
    (hip : (ruleSetMetadata options).containsIPCIDRRule = false) :
    ∀ rule ∈ rules, rule.All fun r => r.destinationIPCIDRItems = [] := by
  intro rule hrule r hr
  obtain ⟨o, ho, hnew⟩ := newHeadlessRules_mem h hrule
  obtain ⟨o', ho', hnew'⟩ := newHeadlessRule_leaves hnew r hr
  exact newDefaultHeadlessRule_destinationIPCIDRItems hnew'
    ((hasHeadlessRule_eq_false _ _).1 hip o ho o' ho')

/-- `reloadRules` of local and remote rule-sets: on an error the set is left as it was, which is
what the caller does with the result. -/
def reloadRules (lib : Libraries) (networkManager : Bool)
    (headlessRules : List HeadlessRuleOptions) : Except GoError RuleSet :=
  match h : newHeadlessRules lib networkManager "parse rule_set.rules.[" 0 headlessRules with
  | .error err => .error err
  | .ok rules => .ok ⟨rules, ruleSetMetadata headlessRules, ruleSetMetadata_sound h⟩

/-- `RuleSetItem`, after `Start` has looked up its sets. -/
structure RuleSetItem where
  setList : List RuleSet
  (ipCidrMatchSource ipCidrAcceptEmpty : Bool := false)

/-- `RuleSetItem.ContainsDestinationIPCIDRRule`. -/
def RuleSetItem.containsDestinationIPCIDRRule (r : RuleSetItem) : Bool :=
  if r.ipCidrMatchSource then false
  else r.setList.any fun ruleSet => ruleSet.metadata.containsIPCIDRRule

/-! ### Evaluation -/

variable (env : Environment)

def DefaultHeadlessRule.matchStatesWithBase (r : DefaultHeadlessRule) : StateMatcher :=
  r.toAbstractDefaultRule.matchStatesWithBase env Empty.elim

def HeadlessRule.matchStatesWithBase (rule : HeadlessRule) : StateMatcher :=
  RuleTree.matchStatesWithBase (DefaultHeadlessRule.matchStatesWithBase env) rule

def RuleSet.matchStatesWithBase (s : RuleSet) : StateMatcher :=
  matchRuleList (s.rules.map (HeadlessRule.matchStatesWithBase env))

def RuleSetItem.matchStatesWithBase (r : RuleSetItem) : StateMatcher :=
  matchRuleSets (r.setList.map (RuleSet.matchStatesWithBase env)) r.ipCidrMatchSource
    r.ipCidrAcceptEmpty

/-- `RuleSetItem.Match`. -/
def RuleSetItem.Match (r : RuleSetItem) (metadata : InboundContext) : Bool :=
  !(r.matchStatesWithBase env metadata 0).states.isEmpty

/-- `Match` of a headless rule. -/
def HeadlessRule.Match (rule : HeadlessRule) (metadata : InboundContext) : Bool :=
  RuleTree.Match (DefaultHeadlessRule.matchStatesWithBase env) rule metadata

end SingBox
