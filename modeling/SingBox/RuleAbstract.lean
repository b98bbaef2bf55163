/-
**The rule evaluator** (`route/rule/rule_abstract.go`, and the evaluation half of
`rule_item_rule_set.go`, `rule_set_local.go` and `rule_set_remote.go`).

A rule is evaluated against the metadata and an *inherited base*, the groups already satisfied by
the rule that includes it.  The evaluation returns the set of states the rule can end in — the rule
matches when the set is not empty — and leaves a second set, `DefinitiveMatchStates`, in the
metadata: the states that do not depend on destination IP conditions put off to a later phase.  No
evaluation changes any other field of the metadata and every one writes that field before it
returns, so an evaluation is modelled as a function to the pair of the two sets.

* `RuleTree.Visits` — the default rules that an evaluation consults;
* `AbstractDefaultRule.matchStatesWithBase_congr`, `RuleTree.matchStatesWithBase_congr` — what an
  evaluation depends on.
-/

import SingBox.LogicalTree
import SingBox.RuleItem

namespace SingBox

open List

/-- The states an evaluation returns and the `DefinitiveMatchStates` it leaves behind. -/
structure MatchResult where
  (states definitive : RuleMatchStateSet)

/-- `ruleStateMatcherWithBase`: evaluation against the metadata and an inherited base. -/
abbrev StateMatcher : Type := InboundContext → RuleMatchState → MatchResult

/-! ### Default rules -/

/-- `abstractDefaultRule`.  The constructors append every item to its group and to `allItems` in
the same breath, so `allItems`, of which only the length is read, is not stored again. -/
structure AbstractDefaultRule (σ : Type) where
  (items sourceAddressItems sourcePortItems destinationAddressItems destinationIPCIDRItems
    destinationPortItems : List RuleItem := [])
  ruleSetItem : Option σ := none
  invert : Bool := false

def matchAnyItem (env : Environment) (items : List RuleItem) (metadata : InboundContext) : Bool :=
  items.any fun it => it.Match env metadata

namespace AbstractDefaultRule

variable {σ : Type}

/-- The items other than the destination IP ones. -/
def conditionItems (r : AbstractDefaultRule σ) : List RuleItem :=
  r.items ++ r.sourceAddressItems ++ r.sourcePortItems ++ r.destinationAddressItems ++
    r.destinationPortItems

/-- `len(r.allItems) == 0`. -/
def noItems (r : AbstractDefaultRule σ) : Bool :=
  r.items.isEmpty && r.sourceAddressItems.isEmpty && r.sourcePortItems.isEmpty &&
    r.destinationAddressItems.isEmpty && r.destinationIPCIDRItems.isEmpty &&
    r.destinationPortItems.isEmpty && r.ruleSetItem.isNone

def destinationIPCIDRMatchesSource (r : AbstractDefaultRule σ) (metadata : InboundContext) :
    Bool :=
  metadata.ipCIDRMatchSource && !r.destinationIPCIDRItems.isEmpty

def destinationIPCIDRMatchesDestination (r : AbstractDefaultRule σ) (metadata : InboundContext) :
    Bool :=
  !metadata.ignoreDestinationIPCIDRMatch && !metadata.ipCIDRMatchSource &&
    !r.destinationIPCIDRItems.isEmpty

def requiresSourceAddressMatch (r : AbstractDefaultRule σ) (metadata : InboundContext) : Bool :=
  !r.sourceAddressItems.isEmpty || r.destinationIPCIDRMatchesSource metadata

def requiresDestinationAddressMatch (r : AbstractDefaultRule σ) (metadata : InboundContext) :
    Bool :=
  !r.destinationAddressItems.isEmpty || r.destinationIPCIDRMatchesDestination metadata

/-- Setting the bit of a group when its test passes. -/
def setGroup (g : Group) (test : Bool) (s : RuleMatchState) : RuleMatchState :=
  if test then s ||| g.bit else s

/-- The evaluation base with the groups that an item of the rule itself satisfies. -/
def baseState (env : Environment) (r : AbstractDefaultRule σ) (metadata : InboundContext)
    (evaluationBase : RuleMatchState) : RuleMatchState :=
  let s := evaluationBase
  let s := setGroup .sourceAddress
    (!r.sourceAddressItems.isEmpty && matchAnyItem env r.sourceAddressItems metadata) s
  let s := setGroup .sourceAddress
    (r.destinationIPCIDRMatchesSource metadata && !s.has ruleMatchSourceAddress &&
      matchAnyItem env r.destinationIPCIDRItems metadata) s
  let s := setGroup .sourcePort
    (!r.sourcePortItems.isEmpty && matchAnyItem env r.sourcePortItems metadata) s
  let s := setGroup .destinationAddress
    (!r.destinationAddressItems.isEmpty && matchAnyItem env r.destinationAddressItems metadata) s
  let s := setGroup .destinationAddress
    (r.destinationIPCIDRMatchesDestination metadata && !s.has ruleMatchDestinationAddress &&
      matchAnyItem env r.destinationIPCIDRItems metadata) s
  setGroup .destinationPort
    (!r.destinationPortItems.isEmpty && matchAnyItem env r.destinationPortItems metadata) s

/-- The destination IP items are needed for the group of the destination address: it is not put off,
and neither the base nor another item satisfies it. -/
def needsIP (env : Environment) (r : AbstractDefaultRule σ) (metadata : InboundContext)
    (inheritedBase : RuleMatchState) : Bool :=
  !r.destinationIPCIDRItems.isEmpty && !metadata.ignoreDestinationIPCIDRMatch &&
    !(if r.invert then 0 else inheritedBase).has ruleMatchDestinationAddress &&
    !matchAnyItem env r.destinationAddressItems metadata

/-- The groups whose check is put off to the response phase. -/
def deferredGroups (r : AbstractDefaultRule σ) (metadata : InboundContext) : RuleMatchState :=
  if metadata.ignoreDestinationIPCIDRMatch && !metadata.ipCIDRMatchSource &&
      !r.destinationIPCIDRItems.isEmpty && r.destinationAddressItems.isEmpty then
    ruleMatchDestinationAddress
  else 0

/-- Every group with items is satisfied in the state. -/
def stateFilter (r : AbstractDefaultRule σ) (metadata : InboundContext)
    (state : RuleMatchState) : Bool :=
  if r.requiresSourceAddressMatch metadata && !state.has ruleMatchSourceAddress then false
  else if !r.sourcePortItems.isEmpty && !state.has ruleMatchSourcePort then false
  else if r.requiresDestinationAddressMatch metadata && !state.has ruleMatchDestinationAddress then
    false
  else if !r.destinationPortItems.isEmpty && !state.has ruleMatchDestinationPort then false
  else true

/-- A failed rule ends in no state, an inverted one in the inherited base. -/
def invertedFailure (r : AbstractDefaultRule σ) (base : RuleMatchState) : MatchResult :=
  if r.invert then
    let stateSet := emptyRuleMatchState.withBase base
    ⟨stateSet, stateSet⟩
  else ⟨0, 0⟩

def matchStatesWithBase (env : Environment) (matchSet : σ → StateMatcher)
    (r : AbstractDefaultRule σ) (metadata : InboundContext) (inheritedBase : RuleMatchState) :
    MatchResult :=
  if r.noItems then
    let stateSet := emptyRuleMatchState.withBase inheritedBase
    ⟨stateSet, stateSet⟩
  else
    let evaluationBase := if r.invert then 0 else inheritedBase
    let baseState := r.baseState env metadata evaluationBase
    if !r.items.all fun it => it.Match env metadata then r.invertedFailure inheritedBase
    else
      let nested : MatchResult := match r.ruleSetItem with
        | some item => matchSet item metadata baseState
        | none => ⟨singleRuleMatchState baseState, singleRuleMatchState baseState⟩
      let deferredGroups := r.deferredGroups metadata
      let definitive :=
        if deferredGroups ≠ 0 then
          nested.definitive.filter fun state => deferredGroups &&& ~~~state == 0
        else nested.definitive
      let states := nested.states.filter (r.stateFilter metadata)
      let definitive := definitive.filter (r.stateFilter metadata)
      if states.isEmpty then r.invertedFailure inheritedBase
      else if r.invert then
        -- a match that rests on a deferred check cannot yet refute the inverted rule
        ⟨if definitive.isEmpty then emptyRuleMatchState.withBase inheritedBase else 0, 0⟩
      else ⟨states, definitive⟩

end AbstractDefaultRule

/-! ### Logical rules -/

/-- The loop over alternatives that `or` rules, rule-sets and rule-set items share: every rule is
evaluated on its own copy of the metadata and the results are merged. -/
def mergeAll (nestedMetadata : InboundContext) (base : RuleMatchState)
    (rules : List StateMatcher) : MatchResult :=
  rules.foldl (fun acc rule =>
    let nested := rule nestedMetadata base
    ⟨acc.states.merge nested.states, acc.definitive.merge nested.definitive⟩) ⟨0, 0⟩

/-- `C.LogicalTypeAnd` and `C.LogicalTypeOr`. -/
inductive LogicalType where
  | and
  | or
  deriving DecidableEq

/-- `abstractLogicalRule`: its rules are interface values, known by how they evaluate. -/
structure AbstractLogicalRule where
  rules : List StateMatcher
  mode : LogicalType
  invert : Bool

namespace AbstractLogicalRule

/-- The loop of `and`: a rule without states ends it. -/
def andLoop (metadata : InboundContext) (evaluationBase : RuleMatchState) :
    List StateMatcher → MatchResult → Option MatchResult
  | [], acc => some acc
  | rule :: rules, acc =>
    let nested := rule metadata.resetRuleCache evaluationBase
    if nested.states.isEmpty then none
    else andLoop metadata evaluationBase rules
      ⟨acc.states.combine nested.states, acc.definitive.combine nested.definitive⟩

/-- What the rules give before the inversion, `none` when some check already failed. -/
def evaluate (r : AbstractLogicalRule) (metadata : InboundContext)
    (evaluationBase : RuleMatchState) : Option MatchResult :=
  match r.mode with
  | .and =>
    let stateSet := emptyRuleMatchState.withBase evaluationBase
    andLoop metadata evaluationBase r.rules ⟨stateSet, stateSet⟩
  | .or =>
    let result := mergeAll metadata.resetRuleCache evaluationBase r.rules
    if result.states.isEmpty then none else some result

def matchStatesWithBase (r : AbstractLogicalRule) (metadata : InboundContext)
    (base : RuleMatchState) : MatchResult :=
  let evaluationBase := if r.invert then 0 else base
  match r.evaluate metadata evaluationBase with
  | none =>
    if r.invert then
      let invertedStateSet := emptyRuleMatchState.withBase base
      ⟨invertedStateSet, invertedStateSet⟩
    else ⟨0, 0⟩
  | some result =>
    if r.invert then
      ⟨if result.definitive.isEmpty then emptyRuleMatchState.withBase base else 0, 0⟩
    else result

end AbstractLogicalRule

/-! ### Trees of rules -/

/-- Default rules of some kind `δ` under nested logical rules. -/
abbrev RuleTree (δ : Type) : Type := LogicalTree LogicalType δ

namespace RuleTree

variable {δ : Type}

mutual

/-- Evaluation of a tree whose default rules are evaluated by `leaf`. -/
def matchStatesWithBase (leaf : δ → StateMatcher) : RuleTree δ → StateMatcher
  | .default r => leaf r
  | .logical mode invert rules =>
    AbstractLogicalRule.matchStatesWithBase ⟨matchers leaf rules, mode, invert⟩

/-- The evaluations of the rules of a logical rule. -/
def matchers (leaf : δ → StateMatcher) : List (RuleTree δ) → List StateMatcher
  | [] => []
  | t :: ts => matchStatesWithBase leaf t :: matchers leaf ts

end

theorem matchers_eq_map (leaf : δ → StateMatcher) (l : List (RuleTree δ)) :
    matchers leaf l = l.map (matchStatesWithBase leaf) := by
  induction l with
  | nil => rfl
  | cons t ts ih => rw [matchers, ih, map_cons]

/-- `Match`: some state remains, starting from nothing inherited. -/
def Match (leaf : δ → StateMatcher) (t : RuleTree δ) (metadata : InboundContext) : Bool :=
  !(matchStatesWithBase leaf t metadata 0).states.isEmpty

end RuleTree

/-! ### Rule-sets -/

/-- `LocalRuleSet.matchStatesWithBase` and `RemoteRuleSet.matchStatesWithBase`: the rules of a set
are alternatives, and the rule-set flags of the metadata reach them. -/
def matchRuleList (rules : List StateMatcher) : StateMatcher := fun metadata base =>
  mergeAll metadata.resetRuleMatchCache base rules

/-- The metadata a rule-set item hands to its sets. -/
def InboundContext.withRuleSetFlags (metadata : InboundContext)
    (ipCIDRMatchSource ipCIDRAcceptEmpty : Bool) : InboundContext :=
  { metadata.resetRuleMatchCache with
    ipCIDRMatchSource := ipCIDRMatchSource
    ipCIDRAcceptEmpty := ipCIDRAcceptEmpty }

/-- `RuleSetItem.matchStatesWithBase`: the sets of an item are alternatives too. -/
def matchRuleSets (setList : List StateMatcher) (ipCIDRMatchSource ipCIDRAcceptEmpty : Bool) :
    StateMatcher := fun metadata base =>
  mergeAll (metadata.withRuleSetFlags ipCIDRMatchSource ipCIDRAcceptEmpty) base setList

/-! ### What an evaluation depends on -/

variable {σ : Type} {env : Environment} {m m' : InboundContext}

theorem matchAnyItem_congr {items : List RuleItem}
    (h : ∀ it ∈ items, it.Match env m = it.Match env m') :
    matchAnyItem env items m = matchAnyItem env items m' := by
  rw [matchAnyItem, matchAnyItem, Bool.eq_iff_iff, any_eq_true, any_eq_true]
  exact exists_congr fun it => and_congr_right fun hit => by rw [h it hit]

theorem has_setGroup (g h : Group) (test : Bool) (s : RuleMatchState) :
    (AbstractDefaultRule.setGroup g test s).has h.bit = (s.has h.bit || (test && g = h)) := by
  revert s
  cases g <;> cases h <;> cases test <;> decide

/-- A default rule reads the metadata through its items, the match-source flag, the lookup mode and
its rule-set item; through the destination IP items only if they are asked. -/
theorem AbstractDefaultRule.matchStatesWithBase_congr {matchSet : σ → StateMatcher}
    {r : AbstractDefaultRule σ} {b : RuleMatchState}
    (hsrc : m.ipCIDRMatchSource = m'.ipCIDRMatchSource)
    (hignore : m.ignoreDestinationIPCIDRMatch = m'.ignoreDestinationIPCIDRMatch)
    (hcond : ∀ it ∈ r.conditionItems, it.Match env m = it.Match env m')
    (hip : m.ipCIDRMatchSource = true ∨ r.needsIP env m b = true →
      ∀ it ∈ r.destinationIPCIDRItems, it.Match env m = it.Match env m')
    (hset : ∀ item, r.ruleSetItem = some item → ∀ b, matchSet item m b = matchSet item m' b) :
    r.matchStatesWithBase env matchSet m b = r.matchStatesWithBase env matchSet m' b := by
  have hany : ∀ items, (∀ it ∈ items, it ∈ r.conditionItems) →
      matchAnyItem env items m = matchAnyItem env items m' :=
    fun items hsub => matchAnyItem_congr fun it hit => hcond it (hsub it hit)
  have hitems : (r.items.all fun it => it.Match env m) = r.items.all fun it => it.Match env m' := by
    rw [Bool.eq_iff_iff, all_eq_true, all_eq_true]
    refine forall₂_congr fun it hit => ?_
    rw [hcond it (by simp [conditionItems, hit])]
  have hbase : r.baseState env m (if r.invert then 0 else b) =
      r.baseState env m' (if r.invert then 0 else b) := by
    simp only [baseState, destinationIPCIDRMatchesSource, destinationIPCIDRMatchesDestination,
      ← hsrc, ← hignore]
    rw [← hany r.sourceAddressItems (by simp +contextual [conditionItems]),
      ← hany r.sourcePortItems (by simp +contextual [conditionItems]),
      ← hany r.destinationAddressItems (by simp +contextual [conditionItems]),
      ← hany r.destinationPortItems (by simp +contextual [conditionItems])]
    by_cases hasked : m.ipCIDRMatchSource = true ∨ r.needsIP env m b = true
    · rw [matchAnyItem_congr (hip hasked)]
    · -- the bit of the group is there already, or the group does not count
      rw [not_or, Bool.not_eq_true, Bool.not_eq_true] at hasked
      obtain ⟨hflag, hneeds⟩ := hasked
      have hitems : (!r.destinationAddressItems.isEmpty &&
          matchAnyItem env r.destinationAddressItems m) =
          matchAnyItem env r.destinationAddressItems m := by
        cases r.destinationAddressItems <;> simp [matchAnyItem]
      have hbit : ruleMatchDestinationAddress = Group.destinationAddress.bit := rfl
      simp only [hflag, hitems, hbit, has_setGroup, needsIP] at hneeds ⊢
      congr 2
      revert hneeds
      cases matchAnyItem env r.destinationAddressItems m <;>
        cases r.destinationIPCIDRItems.isEmpty <;> cases m.ignoreDestinationIPCIDRMatch <;>
        simp +contextual
  have hdeferred : r.deferredGroups m = r.deferredGroups m' := by
    simp only [deferredGroups, hsrc, hignore]
  have hfilter : r.stateFilter m = r.stateFilter m' := by
    have hrequiresSource : r.requiresSourceAddressMatch m = r.requiresSourceAddressMatch m' := by
      simp only [requiresSourceAddressMatch, destinationIPCIDRMatchesSource, hsrc]
    have hrequiresDestination :
        r.requiresDestinationAddressMatch m = r.requiresDestinationAddressMatch m' := by
      simp only [requiresDestinationAddressMatch, destinationIPCIDRMatchesDestination, hsrc,
        hignore]
    funext s
    rw [stateFilter, hrequiresSource, hrequiresDestination]
    rfl
  unfold matchStatesWithBase
  simp only [hitems, hbase, hdeferred, hfilter]
  cases hitem : r.ruleSetItem with
  | none => rfl
  | some item => simp only [hset item hitem]

section

variable {ι : Type} {l : List ι} {M M' : ι → StateMatcher}

theorem mergeAll_congr {b : RuleMatchState} (h : ∀ x ∈ l, M x m b = M' x m' b) :
    mergeAll m b (l.map M) = mergeAll m' b (l.map M') := by
  unfold mergeAll
  generalize (⟨0, 0⟩ : MatchResult) = acc
  induction l generalizing acc with
  | nil => rfl
  | cons x l ih =>
    rw [map_cons, map_cons, foldl_cons, foldl_cons, h x mem_cons_self]
    exact ih (fun y hy => h y (mem_cons_of_mem x hy)) _

namespace AbstractLogicalRule

/-- The rules that a logical rule consults: `and` stops at the first one that fails. -/
def consulted (fails : ι → Bool) (mode : LogicalType) : List ι → List ι
  | [] => []
  | x :: l => x :: if mode = .and ∧ fails x then [] else consulted fails mode l

theorem consulted_subset (fails : ι → Bool) (mode : LogicalType) :
    ∀ l, consulted fails mode l ⊆ l
  | [] => Subset.refl _
  | x :: l => by
    rw [consulted]
    split
    · simp
    · exact cons_subset_cons x (consulted_subset fails mode l)

theorem consulted_or (fails : ι → Bool) (l : List ι) : consulted fails .or l = l := by
  induction l with
  | nil => rfl
  | cons x l ih => simp [consulted, ih]

theorem andLoop_congr {b : RuleMatchState}
    (h : ∀ x ∈ consulted (fun x => (M x m.resetRuleCache b).states.isEmpty) .and l,
      M x m.resetRuleCache b = M' x m'.resetRuleCache b) (acc : MatchResult) :
    andLoop m b (l.map M) acc = andLoop m' b (l.map M') acc := by
  induction l generalizing acc with
  | nil => rfl
  | cons x l ih =>
    rw [consulted, forall_mem_cons] at h
    rw [map_cons, map_cons, andLoop, andLoop, ← h.1]
    split
    · rfl
    case isFalse hstates =>
      rw [if_neg fun hfails => hstates hfails.2] at h
      exact ih h.2 _

theorem matchStatesWithBase_congr (mode : LogicalType) (invert : Bool) {b : RuleMatchState}
    (h : ∀ x ∈ consulted (fun x =>
        (M x m.resetRuleCache (if invert then 0 else b)).states.isEmpty) mode l,
      M x m.resetRuleCache (if invert then 0 else b) =
        M' x m'.resetRuleCache (if invert then 0 else b)) :
    matchStatesWithBase ⟨l.map M, mode, invert⟩ m b =
      matchStatesWithBase ⟨l.map M', mode, invert⟩ m' b := by
  have hevaluate : evaluate ⟨l.map M, mode, invert⟩ m (if invert then 0 else b) =
      evaluate ⟨l.map M', mode, invert⟩ m' (if invert then 0 else b) := by
    cases mode with
    | and => exact andLoop_congr h _
    | or =>
      rw [consulted_or] at h
      simp only [evaluate, mergeAll_congr h]
  simp only [matchStatesWithBase, hevaluate]

end AbstractLogicalRule

end

namespace RuleTree

variable {δ : Type} {leaf : δ → StateMatcher}

/-- The evaluation of a tree on `m` and the base `b` consults the default rule `r` on `m'` and
`b'`. -/
inductive Visits (leaf : δ → StateMatcher) : RuleTree δ → InboundContext → RuleMatchState → δ →
    InboundContext → RuleMatchState → Prop
  | default (r : δ) (m : InboundContext) (b : RuleMatchState) : Visits leaf (.default r) m b r m b
  | logical {mode : LogicalType} {invert : Bool} {rules : List (RuleTree δ)} {t : RuleTree δ}
      {m m' : InboundContext} {b b' : RuleMatchState} {r : δ}
      (ht : t ∈ AbstractLogicalRule.consulted (fun t => (matchStatesWithBase leaf t
        m.resetRuleCache (if invert then 0 else b)).states.isEmpty) mode rules)
      (h : Visits leaf t m.resetRuleCache (if invert then 0 else b) r m' b') :
      Visits leaf (.logical mode invert rules) m b r m' b'

/-- **An evaluation depends on nothing but its visits**: a tree evaluates alike on related metadata
if the default rules that it consults do, and the copies made for nested rules are related again. -/
theorem matchStatesWithBase_congr {R : InboundContext → InboundContext → Prop}
    (hreset : ∀ m m', R m m' → R m.resetRuleCache m'.resetRuleCache) {t : RuleTree δ}
    {b : RuleMatchState} (ht : ∀ r m₁ b₁, Visits leaf t m b r m₁ b₁ → ∀ m₁', R m₁ m₁' →
      leaf r m₁ b₁ = leaf r m₁' b₁) (hm : R m m') :
    matchStatesWithBase leaf t m b = matchStatesWithBase leaf t m' b := by
  induction t using LogicalTree.induction generalizing m m' b with
  | default r => exact ht r m b (.default r m b) m' hm
  | logical mode invert rules ih =>
    simp only [matchStatesWithBase, matchers_eq_map]
    refine AbstractLogicalRule.matchStatesWithBase_congr mode invert fun t hmem => ?_
    refine ih t (AbstractLogicalRule.consulted_subset _ _ _ hmem) ?_ (hreset m m' hm)
    exact fun r m₁ b₁ hvisit => ht r m₁ b₁ (.logical hmem hvisit)

end RuleTree

end SingBox
