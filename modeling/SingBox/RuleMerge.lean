/-
**Rule evaluation is branch choice** (`route/rule/rule_abstract.go` against the documented merge
semantics).

The documentation describes a rule by what it means to match: items of one group are alternatives,
the groups and the other items are all required, and a rule-set is merged into the rule that
includes it, so that a group may be satisfied by the rule, by the rule that includes it or by the
branch that is merged into it.  The evaluator carries sets of group states instead of choosing a
branch.  Here rules have their meaning as conditions of `SingBox/Branching.lean`, which the
evaluator computes, for the states it returns (the *possible* reading) and for the
`DefinitiveMatchStates` it leaves behind (the *definite* one).

* `implements_deferring` — **the evaluator computes the meaning of every tree, in both
  readings and in every phase**;
* `match_iff_documented` — **outside the pre-lookup phase, a tree matches exactly when the
  documentation says so**.
-/

import SingBox.Branching
import SingBox.RuleSet

namespace SingBox

open Branching AbstractDefaultRule RuleMatchStateSet RuleMatchState LogicalTree Clause

/-- Conditions on the metadata over the four groups. -/
abbrev RuleMeaning : Type := Meaning InboundContext Group

/-! ### The meaning of rules -/

namespace AbstractDefaultRule

variable {σ : Type}

/-- The items of each group.  The `ip_cidr` items belong to the destination, or to the source when
a rule-set item asks for that. -/
def groupItems (r : AbstractDefaultRule σ) (m : InboundContext) : Group → List RuleItem
  | .sourceAddress =>
    r.sourceAddressItems ++ if m.ipCIDRMatchSource then r.destinationIPCIDRItems else []
  | .sourcePort => r.sourcePortItems
  | .destinationAddress =>
    r.destinationAddressItems ++ if m.ipCIDRMatchSource then [] else r.destinationIPCIDRItems
  | .destinationPort => r.destinationPortItems

/-- The items of each group that the phase looks at: before a lookup the destination IP items are
left out. -/
def visibleItems (r : AbstractDefaultRule σ) (m : InboundContext) : Group → List RuleItem
  | .destinationAddress =>
    if m.ignoreDestinationIPCIDRMatch then r.destinationAddressItems
    else r.groupItems m .destinationAddress
  | g => r.groupItems m g

/-- The groups satisfied by one of the given items. -/
def hitBy (env : Environment) (m : InboundContext) (items : Group → List RuleItem) : Set Group :=
  {g | ∃ it ∈ items g, it.Match env m}

/-- The groups that have items. -/
def occupied (items : Group → List RuleItem) : Set Group := {g | items g ≠ []}

end AbstractDefaultRule

open AbstractDefaultRule in
/-- A default rule as documented, before its inversion: all other items hold and every group with
items has one that matches, in the rule, in what it inherits or in the branch merged into it. -/
def documentedClause (env : Environment) {σ : Type} (set : σ → RuleMeaning)
    (r : AbstractDefaultRule σ) : Clause InboundContext Group where
  guard m := ∀ it ∈ r.items, it.Match env m
  own m := hitBy env m (r.groupItems m)
  required _ m := occupied (r.groupItems m)
  branch := r.ruleSetItem.map set

/-- A default rule as documented.  The documentation does not speak of rules without items: they ask
for nothing, inverted or not. -/
def documented (env : Environment) {σ : Type} (set : σ → RuleMeaning)
    (r : AbstractDefaultRule σ) : RuleMeaning :=
  invertIf (r.invert && !r.noItems) (documentedClause env set r).meaning

open AbstractDefaultRule in
/-- A default rule when destination IP items may be put off: possibly, only the visible items are
required; definitely, all of them are, and the hidden ones have not matched. -/
def deferringClause (env : Environment) {σ : Type} (set : σ → RuleMeaning)
    (r : AbstractDefaultRule σ) : Clause InboundContext Group where
  guard m := ∀ it ∈ r.items, it.Match env m
  own m := hitBy env m (r.visibleItems m)
  required
    | .possible, m => occupied (r.visibleItems m)
    | .definite, m => occupied (r.groupItems m)
  branch := r.ruleSetItem.map set

/-- A default rule when destination IP items may be put off, with its inversion. -/
def deferring (env : Environment) {σ : Type} (set : σ → RuleMeaning)
    (r : AbstractDefaultRule σ) : RuleMeaning :=
  invertIf (r.invert && !r.noItems) (deferringClause env set r).meaning

/-- A logical rule, given the meanings of its rules. -/
def logicalMeaning (mode : LogicalType) (invert : Bool) (rules : List RuleMeaning) : RuleMeaning :=
  invertIf invert <|
    match mode with
    | .and => allOf InboundContext.resetRuleCache rules
    | .or => oneOf InboundContext.resetRuleCache rules

namespace RuleTree

variable {δ : Type}

mutual

/-- The meaning of a tree, given the meanings of its default rules. -/
def meaning (leaf : δ → RuleMeaning) : RuleTree δ → RuleMeaning
  | .default r => leaf r
  | .logical mode invert rules => logicalMeaning mode invert (meanings leaf rules)

/-- The meanings of the rules of a logical rule. -/
def meanings (leaf : δ → RuleMeaning) : List (RuleTree δ) → List RuleMeaning
  | [] => []
  | t :: ts => meaning leaf t :: meanings leaf ts

end

theorem meanings_eq_map (leaf : δ → RuleMeaning) (l : List (RuleTree δ)) :
    meanings leaf l = l.map (meaning leaf) := by
  induction l with
  | nil => rfl
  | cons t ts ih => rw [meanings, ih, List.map_cons]

/-- Induction on trees for properties of their meaning: what holds of the default rules and is
inherited by alternatives, conjunctions and inversion holds of the tree. -/
theorem meaning_induction {leaf : δ → RuleMeaning} {P : RuleMeaning → Prop}
    (hone : ∀ l, (∀ S ∈ l, P S) → P (oneOf InboundContext.resetRuleCache l))
    (hall : ∀ l, (∀ S ∈ l, P S) → P (allOf InboundContext.resetRuleCache l))
    (hinvert : ∀ S, P S → ∀ invert, P (invertIf invert S)) {t : RuleTree δ}
    (ht : t.All fun r => P (leaf r)) : P (meaning leaf t) := by
  induction t using induction with
  | default r => exact (all_default _ r).1 ht
  | logical mode invert rules ih =>
    rw [all_logical] at ht
    have hrules : ∀ S ∈ rules.map (meaning leaf), P S := by
      simp only [List.forall_mem_map]
      exact fun t hmem => ih t hmem (ht t hmem)
    rw [meaning, meanings_eq_map]
    cases mode with
    | and => exact hinvert _ (hall _ hrules) invert
    | or => exact hinvert _ (hone _ hrules) invert

end RuleTree

/-- The meaning of a rule-set: its rules are alternatives. -/
def RuleSet.meaning (leaf : DefaultHeadlessRule → RuleMeaning) (s : RuleSet) : RuleMeaning :=
  oneOf InboundContext.resetRuleMatchCache (s.rules.map (RuleTree.meaning leaf))

/-- The meaning of a rule-set item: its sets are alternatives. -/
def RuleSetItem.meaning (leaf : DefaultHeadlessRule → RuleMeaning) (r : RuleSetItem) :
    RuleMeaning :=
  oneOf (fun m => m.withRuleSetFlags r.ipCidrMatchSource r.ipCidrAcceptEmpty)
    (r.setList.map (RuleSet.meaning leaf))

/-! ### The relation between evaluator and meaning -/

/-- The set of states that a reading is about. -/
def MatchResult.read (r : MatchResult) : Reading → RuleMatchStateSet
  | .possible => r.states
  | .definite => r.definitive

/-- The states of a result are those that the choices of the condition lead to. -/
def Realises (r : MatchResult) (S : RuleMeaning) (m : InboundContext) (b : RuleMatchState) :
    Prop :=
  ∀ ρ s, (r.read ρ).contains s ↔ ∃ h, S.Reaches ρ m b.groups h ∧ s.groups = b.groups ∪ h

/-- The evaluator `M` computes the condition `S` on the metadata that satisfy `P`. -/
structure Implements (P : InboundContext → Prop) (M : StateMatcher) (S : RuleMeaning) : Prop where
  coherent : Coherent S
  realises : ∀ m b, P m → Realises (M m b) S m b

variable {m : InboundContext} {S : RuleMeaning} {b : RuleMatchState} {r : MatchResult}

theorem Realises.isEmpty_iff (h : Realises r S m b) (ρ : Reading) :
    (r.read ρ).isEmpty ↔ ¬∃ c, S.sat ρ c m b.groups := by
  rw [RuleMatchStateSet.isEmpty_iff]
  constructor
  · rintro hempty ⟨c, hc⟩
    obtain ⟨s, hs⟩ := groups_surjective (b.groups ∪ S.hits c m)
    have := (h ρ s).2 ⟨_, ⟨c, hc, rfl⟩, hs⟩
    simp [hempty s] at this
  · intro hnone s
    rw [← Bool.not_eq_true, h ρ s]
    rintro ⟨_, ⟨c, hc, -⟩, -⟩
    exact hnone ⟨c, hc⟩

theorem Realises.states_isEmpty (h : Realises r S m b) :
    r.states.isEmpty ↔ ¬∃ c, S.sat .possible c m b.groups := h.isEmpty_iff .possible

theorem read_zero (ρ : Reading) (s : RuleMatchState) :
    ((⟨0, 0⟩ : MatchResult).read ρ).contains s = false := by
  cases ρ <;> exact contains_zero s

theorem not_sat_of_coherent {b : Set Group}
    (hS : Coherent S) (h : ¬∃ c, S.sat .possible c m b) (ρ : Reading) (c : Choice) :
    ¬S.sat ρ c m b := by
  intro hc
  cases ρ with
  | possible => exact h ⟨c, hc⟩
  | definite => exact h ⟨c, hS c m b hc⟩

theorem realises_zero
    (hS : Coherent S) (h : ¬∃ c, S.sat .possible c m b.groups) : Realises ⟨0, 0⟩ S m b := by
  intro ρ s
  rw [read_zero]
  refine ⟨fun h => absurd h Bool.false_ne_true, ?_⟩
  rintro ⟨_, ⟨c, hc, -⟩, -⟩
  exact absurd hc (not_sat_of_coherent hS h ρ c)

/-! ### Inversion -/

/-- The end of an evaluation, which default and logical rules share: the result of an inverted rule
depends only on whether there are states, definitive or not. -/
def finish (invert : Bool) (base : RuleMatchState) (r : MatchResult) : MatchResult :=
  if r.states.isEmpty then
    if invert then
      ⟨emptyRuleMatchState.withBase base, emptyRuleMatchState.withBase base⟩
    else ⟨0, 0⟩
  else if invert then
    ⟨if r.definitive.isEmpty then emptyRuleMatchState.withBase base else 0, 0⟩
  else r

theorem contains_ite_withBase {p : Prop} [Decidable p] (b s : RuleMatchState) :
    contains (if p then emptyRuleMatchState.withBase b else 0) s ↔ p ∧ s = b := by
  rw [emptyRuleMatchState_withBase]
  by_cases hp : p
  · simp only [hp, if_true, true_and, contains_single, decide_eq_true_eq]
    exact eq_comm
  · simp only [hp, if_false, false_and, iff_false, Bool.not_eq_true]
    exact contains_zero s

theorem reaches_inverted {ρ : Reading} {b h : Set Group} :
    (inverted S).Reaches ρ m b h ↔ (¬∃ c, S.sat ρ.flip c m ∅) ∧ h = ∅ := by
  constructor
  · rintro ⟨c, hc, rfl⟩
    exact ⟨hc, rfl⟩
  · rintro ⟨hnone, rfl⟩
    exact ⟨.here, hnone, rfl⟩

theorem finish_realises (hS : Coherent S) (invert : Bool)
    (h : Realises r S m (if invert then 0 else b)) :
    Realises (finish invert b r) (invertIf invert S) m b := by
  cases invert with
  | false =>
    unfold finish
    split
    case isTrue hempty => exact realises_zero hS (h.states_isEmpty.1 hempty)
    case isFalse => exact h
  | true =>
    have hempty : ∀ ρ, (r.read ρ).isEmpty ↔ ¬∃ c, S.sat ρ c m ∅ := by
      intro ρ
      simpa using h.isEmpty_iff ρ
    -- without possible choices there are no definite ones, so both sets can be read off together
    have hcoherent : r.states.isEmpty → r.definitive.isEmpty := by
      intro hstates
      refine (hempty .definite).2 ?_
      rintro ⟨c, hc⟩
      exact (hempty .possible).1 hstates ⟨c, hS _ _ _ hc⟩
    have hread : ∀ ρ, (finish true b r).read ρ =
        if (r.read ρ.flip).isEmpty then emptyRuleMatchState.withBase b else 0 := by
      intro ρ
      unfold finish
      by_cases hstates : r.states.isEmpty
      · cases ρ <;> simp [MatchResult.read, hstates, hcoherent hstates]
      · cases ρ with
        | possible => rw [if_neg hstates]; rfl
        | definite => simp [MatchResult.read, hstates]
    intro ρ s
    rw [hread, contains_ite_withBase, hempty, invertIf_true]
    simp only [reaches_inverted, and_assoc, exists_and_left, exists_eq_left, Set.union_empty,
      groups_injective.eq_iff]

/-! ### Alternatives and conjunctions -/

theorem mergeAll_read (rules : List StateMatcher) (ρ : Reading) (s : RuleMatchState) :
    ((mergeAll m b rules).read ρ).contains s ↔ ∃ rule ∈ rules, ((rule m b).read ρ).contains s := by
  have hfold : ∀ acc : MatchResult, ((rules.foldl (fun acc rule =>
      (⟨acc.states.merge (rule m b).states, acc.definitive.merge (rule m b).definitive⟩ :
        MatchResult)) acc).read ρ).contains s ↔
      (acc.read ρ).contains s ∨ ∃ rule ∈ rules, ((rule m b).read ρ).contains s := by
    induction rules with
    | nil => simp
    | cons rule rules ih =>
      intro acc
      rw [List.foldl_cons, ih]
      cases ρ <;> simp [MatchResult.read, or_assoc]
  refine (hfold ⟨0, 0⟩).trans (or_iff_right ?_)
  rw [read_zero]
  exact Bool.false_ne_true

section

variable {ι : Type} {P : InboundContext → Prop} {l : List ι} {M : ι → StateMatcher}
  {S : ι → RuleMeaning}

theorem mergeAll_realises (h : ∀ x ∈ l, Implements P (M x) (S x))
    {f : InboundContext → InboundContext} (hm : P (f m))
    (b : RuleMatchState) : Realises (mergeAll (f m) b (l.map M)) (oneOf f (l.map S)) m b := by
  intro ρ s
  rw [mergeAll_read]
  simp only [reaches_oneOf, List.mem_map, exists_exists_and_eq_and]
  constructor
  · rintro ⟨x, hx, hs⟩
    obtain ⟨hits, hreach, hgroups⟩ := ((h x hx).realises (f m) b hm ρ s).1 hs
    exact ⟨hits, ⟨x, hx, hreach⟩, hgroups⟩
  · rintro ⟨hits, ⟨x, hx, hreach⟩, hgroups⟩
    exact ⟨x, hx, ((h x hx).realises (f m) b hm ρ s).2 ⟨hits, hreach, hgroups⟩⟩

/-- The loop of a conjunction joins the accumulated states with a choice for each rule. -/
theorem andLoop_read (h : ∀ x ∈ l, Implements P (M x) (S x)) (hm : P m.resetRuleCache)
    {acc : MatchResult} (hacc : ∀ ρ a, (acc.read ρ).contains a → b.groups ⊆ a.groups)
    (ρ : Reading) (s : RuleMatchState) :
    (((AbstractLogicalRule.andLoop m b (l.map M) acc).getD ⟨0, 0⟩).read ρ).contains s ↔
      ∃ a, (acc.read ρ).contains a ∧
        ∃ h, (allOf InboundContext.resetRuleCache (l.map S)).Reaches ρ m b.groups h ∧
          s.groups = a.groups ∪ h := by
  induction l generalizing acc with
  | nil =>
    simp only [List.map_nil, AbstractLogicalRule.andLoop, Option.getD_some, reaches_allOf_nil,
      exists_eq_left, Set.union_empty, groups_injective.eq_iff, exists_eq_right']
  | cons x l ih =>
    have hx := h x List.mem_cons_self
    have hnested := hx.realises m.resetRuleCache b hm
    simp only [List.map_cons, reaches_allOf_cons]
    rw [AbstractLogicalRule.andLoop]
    split
    case isTrue hempty =>
      rw [Option.getD_none, read_zero]
      refine ⟨fun hs => absurd hs Bool.false_ne_true, ?_⟩
      rintro ⟨a, -, _, ⟨_, ⟨c, hc, -⟩, -⟩, -⟩
      exact absurd hc (not_sat_of_coherent hx.coherent (hnested.states_isEmpty.1 hempty) ρ c)
    case isFalse =>
      set nested := M x m.resetRuleCache b with hdef
      have hread : ∀ ρ a, ((⟨acc.states.combine nested.states,
          acc.definitive.combine nested.definitive⟩ : MatchResult).read ρ).contains a ↔
          ∃ l r, (acc.read ρ).contains l ∧ (nested.read ρ).contains r ∧ l ||| r = a := by
        rintro (_ | _) a <;> exact contains_combine _ _ a
      rw [ih (fun y hy => h y (List.mem_cons_of_mem x hy))]
      · constructor
        · rintro ⟨a, ha, h₂, hreach₂, hs⟩
          obtain ⟨a₀, r, ha₀, hr, rfl⟩ := (hread ρ a).1 ha
          obtain ⟨h₁, hreach₁, hgroups⟩ := (hnested ρ r).1 hr
          refine ⟨a₀, ha₀, _, ⟨h₁, hreach₁, h₂, hreach₂, rfl⟩, ?_⟩
          rw [hs, groups_or, hgroups, ← Set.union_assoc a₀.groups,
            Set.union_eq_self_of_subset_right (hacc ρ a₀ ha₀), Set.union_assoc]
        · rintro ⟨a₀, ha₀, _, ⟨h₁, hreach₁, h₂, hreach₂, rfl⟩, hs⟩
          obtain ⟨r, hr⟩ := groups_surjective (b.groups ∪ h₁)
          refine ⟨a₀ ||| r, (hread ρ _).2 ⟨a₀, r, ha₀, ?_, rfl⟩, h₂, hreach₂, ?_⟩
          · exact (hnested ρ r).2 ⟨h₁, hreach₁, hr⟩
          · rw [hs, groups_or, hr, ← Set.union_assoc a₀.groups b.groups,
              Set.union_eq_self_of_subset_right (hacc ρ a₀ ha₀), Set.union_assoc]
      · intro ρ a ha
        obtain ⟨a₀, r, ha₀, -, rfl⟩ := (hread ρ a).1 ha
        rw [groups_or]
        exact (hacc ρ a₀ ha₀).trans Set.subset_union_left

theorem andLoop_states_ne {rules : List StateMatcher} {acc r : MatchResult}
    (hacc : acc.states.isEmpty = false)
    (h : AbstractLogicalRule.andLoop m b rules acc = some r) : r.states.isEmpty = false := by
  induction rules generalizing acc with
  | nil =>
    simp only [AbstractLogicalRule.andLoop, Option.some.injEq] at h
    exact h ▸ hacc
  | cons rule rules ih =>
    rw [AbstractLogicalRule.andLoop] at h
    split at h
    · simp at h
    · refine ih ?_ h
      rename_i hnested
      rw [Bool.not_eq_true, isEmpty_eq_false_iff] at hnested
      rw [isEmpty_eq_false_iff] at hacc ⊢
      obtain ⟨l, hl⟩ := hacc
      obtain ⟨r, hr⟩ := hnested
      exact ⟨l ||| r, (contains_combine _ _ _).2 ⟨l, r, hl, hr, rfl⟩⟩

theorem evaluate_states_ne {r : AbstractLogicalRule} {result : MatchResult}
    (h : r.evaluate m b = some result) :
    result.states.isEmpty = false := by
  unfold AbstractLogicalRule.evaluate at h
  split at h
  · refine andLoop_states_ne ?_ h
    rw [isEmpty_eq_false_iff]
    refine ⟨b, ?_⟩
    rw [emptyRuleMatchState_withBase]
    simp
  · simp only [Option.ite_none_left_eq_some, Bool.not_eq_true, Option.some.injEq] at h
    exact h.2 ▸ h.1

theorem logical_eq_finish (r : AbstractLogicalRule) :
    r.matchStatesWithBase m b =
      finish r.invert b ((r.evaluate m (if r.invert then 0 else b)).getD ⟨0, 0⟩) := by
  have hne : ∀ result, r.evaluate m (if r.invert then 0 else b) = some result →
      result.states.isEmpty = false := fun result h => evaluate_states_ne h
  unfold AbstractLogicalRule.matchStatesWithBase
  dsimp only
  revert hne
  generalize r.evaluate m (if r.invert then 0 else b) = result
  intro hne
  cases result with
  | none => rfl
  | some result =>
    dsimp only [Option.getD_some]
    rw [finish, hne result rfl]
    rfl

theorem Implements.logical (h : ∀ x ∈ l, Implements P (M x) (S x))
    (hP : ∀ m, P m → P m.resetRuleCache) (mode : LogicalType) (invert : Bool) :
    Implements P (AbstractLogicalRule.matchStatesWithBase ⟨l.map M, mode, invert⟩)
      (logicalMeaning mode invert (l.map S)) := by
  have hcoherent : ∀ S' ∈ l.map S, Coherent S' := by
    simp only [List.forall_mem_map]
    exact fun x hx => (h x hx).coherent
  cases mode with
  | and =>
    refine ⟨(Coherent.allOf hcoherent).invertIf invert, fun m b hm => ?_⟩
    rw [logical_eq_finish]
    refine finish_realises (Coherent.allOf hcoherent) invert fun ρ s => ?_
    have hbase : ∀ (ρ : Reading) (b a : RuleMatchState),
        ((⟨emptyRuleMatchState.withBase b, emptyRuleMatchState.withBase b⟩ :
          MatchResult).read ρ).contains a ↔ a = b := by
      intro ρ b a
      have hset : (⟨emptyRuleMatchState.withBase b, emptyRuleMatchState.withBase b⟩ :
          MatchResult).read ρ = emptyRuleMatchState.withBase b := by cases ρ <;> rfl
      rw [hset, emptyRuleMatchState_withBase]
      simp [eq_comm]
    refine (andLoop_read h (hP m hm) ?_ ρ s).trans ?_
    · intro ρ a ha
      rw [(hbase ρ _ a).1 ha]
    · simp only [hbase, exists_eq_left]
  | or =>
    refine ⟨(Coherent.oneOf hcoherent).invertIf invert, fun m b hm => ?_⟩
    rw [logical_eq_finish]
    refine finish_realises (Coherent.oneOf hcoherent) invert ?_
    generalize (if invert then 0 else b) = b
    have hmerge := mergeAll_realises h (f := InboundContext.resetRuleCache) (hP m hm) b
    simp only [AbstractLogicalRule.evaluate]
    split
    case isTrue hempty =>
      exact realises_zero (Coherent.oneOf hcoherent) (hmerge.states_isEmpty.1 hempty)
    case isFalse => exact hmerge

end

/-! ### Default rules -/

variable {P : InboundContext → Prop}

namespace AbstractDefaultRule

variable {σ : Type}

theorem mem_groups_setGroup (g h : Group) (test : Bool) (s : RuleMatchState) :
    g ∈ (setGroup h test s).groups ↔ (g = h ∧ test) ∨ g ∈ s.groups := by
  cases test with
  | false => simp [setGroup]
  | true => simp [setGroup, groups_bit]

theorem setGroup_unless_has (g : Group) (enabled test : Bool) (s : RuleMatchState) :
    setGroup g (enabled && !s.has g.bit && test) s = setGroup g (enabled && test) s := by
  cases hs : s.has g.bit with
  | false => simp
  | true =>
    have hbit : s ||| g.bit = s := by
      revert s
      cases g <;> decide
    cases enabled <;> cases test <;> simp [setGroup, hbit]

theorem groups_baseState (env : Environment) (r : AbstractDefaultRule σ) :
    (r.baseState env m b).groups = b.groups ∪ hitBy env m (r.visibleItems m) := by
  have hany : ∀ items : List RuleItem, (¬items = [] ∧ matchAnyItem env items m) ↔
      ∃ it ∈ items, it.Match env m := by
    intro items
    cases items <;> simp [matchAnyItem]
  have hsrc : ruleMatchSourceAddress = Group.sourceAddress.bit := rfl
  have hdestination : ruleMatchDestinationAddress = Group.destinationAddress.bit := rfl
  ext g
  simp only [baseState, hsrc, hdestination, setGroup_unless_has]
  simp only [mem_groups_setGroup, Set.mem_union, destinationIPCIDRMatchesSource,
    destinationIPCIDRMatchesDestination, Bool.and_assoc]
  cases g with
  | sourcePort | destinationPort => simp [hitBy, visibleItems, groupItems, hany, or_comm]
  | sourceAddress =>
    cases hflag : m.ipCIDRMatchSource <;>
      simp [hitBy, visibleItems, groupItems, hany, hflag, or_and_right, exists_or, or_comm,
        or_assoc]
  | destinationAddress =>
    cases hflag : m.ipCIDRMatchSource <;> cases hignore : m.ignoreDestinationIPCIDRMatch <;>
      simp [hitBy, visibleItems, groupItems, hany, hflag, hignore, or_and_right, exists_or,
        or_comm, or_assoc]

theorem occupied_subset_iff (items : Group → List RuleItem) (s : RuleMatchState) :
    occupied items ⊆ s.groups ↔
      (items .sourceAddress ≠ [] → s.has ruleMatchSourceAddress) ∧
        (items .sourcePort ≠ [] → s.has ruleMatchSourcePort) ∧
          (items .destinationAddress ≠ [] → s.has ruleMatchDestinationAddress) ∧
            (items .destinationPort ≠ [] → s.has ruleMatchDestinationPort) := by
  constructor
  · intro h
    exact ⟨@h .sourceAddress, @h .sourcePort, @h .destinationAddress, @h .destinationPort⟩
  · rintro ⟨hs, hsp, hd, hdp⟩ g hg
    cases g with
    | sourceAddress => exact hs hg
    | sourcePort => exact hsp hg
    | destinationAddress => exact hd hg
    | destinationPort => exact hdp hg

section

variable (r : AbstractDefaultRule σ) (m : InboundContext) (s : RuleMatchState)

theorem requiresSourceAddressMatch_iff :
    r.requiresSourceAddressMatch m ↔ r.visibleItems m .sourceAddress ≠ [] := by
  cases hflag : m.ipCIDRMatchSource <;>
    simp [requiresSourceAddressMatch, destinationIPCIDRMatchesSource, visibleItems, groupItems,
      hflag, imp_iff_not_or]

theorem requiresDestinationAddressMatch_iff :
    r.requiresDestinationAddressMatch m ↔ r.visibleItems m .destinationAddress ≠ [] := by
  cases hflag : m.ipCIDRMatchSource <;> cases hignore : m.ignoreDestinationIPCIDRMatch <;>
    simp [requiresDestinationAddressMatch, destinationIPCIDRMatchesDestination, visibleItems,
      groupItems, hflag, hignore, imp_iff_not_or]

theorem stateFilter_iff : r.stateFilter m s ↔ occupied (r.visibleItems m) ⊆ s.groups := by
  rw [occupied_subset_iff, ← requiresSourceAddressMatch_iff, ← requiresDestinationAddressMatch_iff]
  simp only [stateFilter, visibleItems, groupItems]
  cases r.requiresSourceAddressMatch m <;> cases r.requiresDestinationAddressMatch m <;>
    cases r.sourcePortItems <;> cases r.destinationPortItems <;> simp

/-- The two filters of the definitive states ask for the groups that have items, seen or not. -/
theorem definitiveFilter_iff :
    (r.deferredGroups m ≠ 0 → (r.deferredGroups m &&& ~~~s == 0)) ∧
        r.stateFilter m s ↔
      occupied (r.groupItems m) ⊆ s.groups := by
  have hdeferred : (r.deferredGroups m ≠ 0 → (r.deferredGroups m &&& ~~~s == 0)) ↔
      (r.visibleItems m .destinationAddress = [] → r.groupItems m .destinationAddress ≠ [] →
        s.has ruleMatchDestinationAddress) := by
    have hne : ruleMatchDestinationAddress ≠ 0 := by decide
    have hbit : (ruleMatchDestinationAddress &&& ~~~s == 0) =
        s.has ruleMatchDestinationAddress := by
      revert s
      decide
    unfold deferredGroups
    split
    case isTrue h =>
      simp only [Bool.and_eq_true, Bool.not_eq_true', List.isEmpty_eq_false_iff,
        List.isEmpty_iff] at h
      rw [hbit]
      simp only [ne_eq, hne, not_false_eq_true, true_imp_iff]
      simp [visibleItems, groupItems, h]
    case isFalse h =>
      refine iff_of_true (fun hzero => absurd rfl hzero) fun hvisible hgroup => absurd ?_ h
      cases hflag : m.ipCIDRMatchSource <;> cases hignore : m.ignoreDestinationIPCIDRMatch <;>
        simp_all [visibleItems, groupItems]
  rw [hdeferred, stateFilter_iff, occupied_subset_iff, occupied_subset_iff]
  have hvisible : r.groupItems m .destinationAddress = [] →
      r.visibleItems m .destinationAddress = [] := by
    intro h
    simp only [groupItems, List.append_eq_nil_iff] at h
    simp [visibleItems, groupItems, h]
  constructor
  · rintro ⟨hdefer, hs, hsp, hd, hdp⟩
    refine ⟨hs, hsp, fun hgroup => ?_, hdp⟩
    by_cases hempty : r.visibleItems m .destinationAddress = []
    · exact hdefer hempty hgroup
    · exact hd hempty
  · rintro ⟨hs, hsp, hd, hdp⟩
    exact ⟨fun _ hgroup => hd hgroup, hs, hsp, fun hne => hd (mt hvisible hne), hdp⟩

end

/-- The result of the rule-set item of a rule, or the base state alone. -/
def nestedResult (matchSet : σ → StateMatcher) (r : AbstractDefaultRule σ) (m : InboundContext)
    (base : RuleMatchState) : MatchResult :=
  match r.ruleSetItem with
  | some item => matchSet item m base
  | none => ⟨singleRuleMatchState base, singleRuleMatchState base⟩

/-- The filters that a default rule applies to a nested result. -/
def filterResult (r : AbstractDefaultRule σ) (m : InboundContext) (nested : MatchResult) :
    MatchResult :=
  ⟨nested.states.filter (r.stateFilter m), (if r.deferredGroups m ≠ 0 then
      nested.definitive.filter fun state => r.deferredGroups m &&& ~~~state == 0
    else nested.definitive).filter (r.stateFilter m)⟩

/-- What a default rule gives before the inversion. -/
def evaluate (env : Environment) (matchSet : σ → StateMatcher) (r : AbstractDefaultRule σ)
    (m : InboundContext) (b : RuleMatchState) : MatchResult :=
  if r.items.all fun it => it.Match env m then
    r.filterResult m (r.nestedResult matchSet m (r.baseState env m b))
  else ⟨0, 0⟩

variable {r : AbstractDefaultRule σ}

theorem matchStatesWithBase_eq_finish (env : Environment) (matchSet : σ → StateMatcher)
    (hr : r.noItems = false) :
    r.matchStatesWithBase env matchSet m b =
      finish r.invert b (r.evaluate env matchSet m (if r.invert then 0 else b)) := by
  unfold matchStatesWithBase evaluate
  simp only [hr]
  cases hitems : r.items.all fun it => it.Match env m with
  | false | true => rfl

variable {k : Clause InboundContext Group} {matchSet : σ → StateMatcher}

theorem filterResult_read (nested : MatchResult) (s : RuleMatchState) :
    ((r.filterResult m nested).states.contains s ↔
        nested.states.contains s ∧ occupied (r.visibleItems m) ⊆ s.groups) ∧
      ((r.filterResult m nested).definitive.contains s ↔
        nested.definitive.contains s ∧ occupied (r.groupItems m) ⊆ s.groups) := by
  rw [← stateFilter_iff, ← definitiveFilter_iff]
  refine ⟨contains_filter _ _ s, (contains_filter _ _ s).trans ?_⟩
  by_cases hdeferred : r.deferredGroups m = 0
  · simp [hdeferred]
  · rw [if_pos hdeferred, contains_filter, and_assoc, forall_prop_of_true hdeferred]

variable {set : σ → RuleMeaning}
  (hset : ∀ item, r.ruleSetItem = some item → Implements P (matchSet item) (set item))
  (hbranch : k.branch = r.ruleSetItem.map set) (hm : P m)

include hset hbranch hm

theorem nestedResult_read (b : RuleMatchState) (ρ : Reading) (s : RuleMatchState) :
    ((r.nestedResult matchSet m b).read ρ).contains s ↔
      ∃ c, k.branchSat ρ c m b.groups ∧ s.groups = b.groups ∪ k.branchHits c m := by
  unfold nestedResult
  cases hitem : r.ruleSetItem with
  | none =>
    rw [hitem] at hbranch
    have hread : (⟨singleRuleMatchState b, singleRuleMatchState b⟩ : MatchResult).read ρ =
        singleRuleMatchState b := by cases ρ <;> rfl
    have hsat : ∀ c, k.branchSat ρ c m b.groups := by simp [branchSat, hbranch]
    have hhits : ∀ c, k.branchHits c m = ∅ := by simp [branchHits, hbranch]
    simp only [hread, contains_single, decide_eq_true_eq, hsat, hhits,
      Set.union_empty, true_and, groups_injective.eq_iff]
    exact ⟨fun h => ⟨.here, h.symm⟩, fun ⟨_, h⟩ => h.symm⟩
  | some item =>
    rw [hitem] at hbranch
    have hsat : ∀ c, k.branchSat ρ c m b.groups ↔ (set item).sat ρ c m b.groups := by
      simp [branchSat, hbranch]
    have hhits : ∀ c, k.branchHits c m = (set item).hits c m := by
      simp [branchHits, hbranch]
    simp only [hsat, hhits]
    rw [(hset item hitem).realises m b hm ρ s]
    constructor
    · rintro ⟨_, ⟨c, hc, rfl⟩, hs⟩
      exact ⟨c, hc, hs⟩
    · rintro ⟨c, hc, hs⟩
      exact ⟨_, ⟨c, hc, rfl⟩, hs⟩

/-- A default rule computes its clause, whatever clause has the guard and the groups of the rule on
the metadata at hand. -/
theorem evaluate_realises {env : Environment}
    (hguard : k.guard m ↔ ∀ it ∈ r.items, it.Match env m)
    (hown : k.own m = hitBy env m (r.visibleItems m))
    (hpossible : k.required .possible m = occupied (r.visibleItems m))
    (hdefinite : k.required .definite m = occupied (r.groupItems m)) (b : RuleMatchState) :
    Realises (r.evaluate env matchSet m b) k.meaning m b := by
  rw [← List.all_eq_true] at hguard
  intro ρ s
  unfold evaluate
  split
  case isFalse h =>
    rw [read_zero]
    refine ⟨fun hs => absurd hs Bool.false_ne_true, ?_⟩
    rintro ⟨_, ⟨c, ⟨hg, -⟩, -⟩, -⟩
    exact absurd (hguard.1 hg) h
  case isTrue h =>
    have hnested := nestedResult_read hset hbranch hm (r.baseState env m b) ρ s
    rw [groups_baseState, ← hown] at hnested
    have hread : ((r.filterResult m
        (r.nestedResult matchSet m (r.baseState env m b))).read ρ).contains s ↔
        ((r.nestedResult matchSet m (r.baseState env m b)).read ρ).contains s ∧
          k.required ρ m ⊆ s.groups := by
      cases ρ with
      | possible => exact hpossible ▸ (filterResult_read _ s).1
      | definite => exact hdefinite ▸ (filterResult_read _ s).2
    rw [hread, hnested]
    constructor
    · rintro ⟨⟨c, hc, hs⟩, hreq⟩
      rw [Set.union_assoc] at hs
      exact ⟨_, ⟨c, ⟨hguard.2 h, hc, hs ▸ hreq⟩, rfl⟩, hs⟩
    · rintro ⟨_, ⟨c, ⟨-, hc, hreq⟩, rfl⟩, hs⟩
      refine ⟨⟨c, hc, ?_⟩, hs ▸ hreq⟩
      rw [hs, Set.union_assoc]
      rfl

end AbstractDefaultRule

/-! ### Trees and rule-sets -/

/-- A property of the metadata that the copies made for nested evaluations keep. -/
structure Stable (P : InboundContext → Prop) : Prop where
  resetRuleCache : ∀ m, P m → P m.resetRuleCache
  resetRuleMatchCache : ∀ m, P m → P m.resetRuleMatchCache
  withRuleSetFlags : ∀ m matchSource acceptEmpty, P m →
    P (m.withRuleSetFlags matchSource acceptEmpty)

theorem stable_true : Stable fun _ => True :=
  ⟨fun _ _ => trivial, fun _ _ => trivial, fun _ _ _ _ => trivial⟩

/-- The metadata are evaluated outside the pre-lookup phase. -/
def NotIgnoring (m : InboundContext) : Prop := m.ignoreDestinationIPCIDRMatch = false

theorem stable_notIgnoring : Stable NotIgnoring := ⟨fun _ h => h, fun _ h => h, fun _ _ _ h => h⟩

/-- Every default rule of every set of the item satisfies `p`. -/
def RuleSetItem.AllRules (p : DefaultHeadlessRule → Prop) (item : RuleSetItem) : Prop :=
  ∀ s ∈ item.setList, ∀ rule ∈ s.rules, rule.All p

theorem Implements.alternatives {ι : Type} {l : List ι}
    {M : ι → StateMatcher} {S : ι → RuleMeaning} (h : ∀ x ∈ l, Implements P (M x) (S x))
    {f : InboundContext → InboundContext} (hf : ∀ m, P m → P (f m)) :
    Implements P (fun m b => mergeAll (f m) b (l.map M)) (oneOf f (l.map S)) := by
  refine ⟨Coherent.oneOf ?_, fun m b hm => mergeAll_realises h (hf m hm) b⟩
  simp only [List.forall_mem_map]
  exact fun x hx => (h x hx).coherent

section

variable {P : InboundContext → Prop} (hP : Stable P)

include hP

theorem Implements.tree {δ : Type} {leaf : δ → StateMatcher} {meaning : δ → RuleMeaning}
    {t : RuleTree δ} (ht : t.All fun r => Implements P (leaf r) (meaning r)) :
    Implements P (RuleTree.matchStatesWithBase leaf t) (RuleTree.meaning meaning t) := by
  induction t using induction with
  | default r => exact (all_default _ r).1 ht
  | logical mode invert rules ih =>
    rw [all_logical] at ht
    rw [RuleTree.matchStatesWithBase, RuleTree.matchers_eq_map, RuleTree.meaning,
      RuleTree.meanings_eq_map]
    exact Implements.logical (fun t hmem => ih t hmem (ht t hmem)) hP.resetRuleCache mode invert

theorem Implements.ruleSetItem {env : Environment} {meaning : DefaultHeadlessRule → RuleMeaning}
    {item : RuleSetItem}
    (h : item.AllRules fun r => Implements P (r.matchStatesWithBase env) (meaning r)) :
    Implements P (item.matchStatesWithBase env) (item.meaning meaning) := by
  refine Implements.alternatives (fun s hs => ?_) fun m hm => hP.withRuleSetFlags m _ _ hm
  refine Implements.alternatives (fun rule hrule => ?_) hP.resetRuleMatchCache
  exact Implements.tree hP (h s hs rule hrule)

end

theorem Implements.match_iff {δ : Type} {leaf : δ → StateMatcher} {t : RuleTree δ}
    (h : Implements P (RuleTree.matchStatesWithBase leaf t) S) (hm : P m) :
    RuleTree.Match leaf t m ↔ S.Holds m := by
  have hempty := (h.realises m 0 hm).states_isEmpty
  rw [BitVec.ofNat_eq_ofNat, groups_zero] at hempty
  rw [RuleTree.Match, Bool.not_eq_true', ← Bool.not_eq_true, BitVec.ofNat_eq_ofNat, hempty, not_not]
  rfl

/-! ### Default rules as documented, and with deferred checks -/

section

variable {σ : Type} {env : Environment} {matchSet : σ → StateMatcher} {set : σ → RuleMeaning}
  {r : AbstractDefaultRule σ}

theorem coherent_branch (hset : ∀ item, r.ruleSetItem = some item → Coherent (set item)) :
    ∀ S, r.ruleSetItem.map set = some S → Coherent S := by
  intro S hS
  obtain ⟨item, hitem, rfl⟩ := Option.map_eq_some_iff.1 hS
  exact hset item hitem

theorem visibleItems_of_notIgnoring (hm : NotIgnoring m) : r.visibleItems m = r.groupItems m := by
  rw [NotIgnoring] at hm
  funext g
  cases g <;> simp [visibleItems, hm]

theorem visibleItems_subset_groupItems (g : Group) : r.visibleItems m g ⊆ r.groupItems m g := by
  cases g with
  | destinationAddress =>
    cases hignore : m.ignoreDestinationIPCIDRMatch <;> simp [visibleItems, groupItems, hignore]
  | _ => exact List.Subset.refl _

theorem occupied_visibleItems_subset (m : InboundContext) :
    occupied (r.visibleItems m) ⊆ occupied (r.groupItems m) := by
  intro g hg hempty
  exact hg (List.eq_nil_of_subset_nil (hempty ▸ visibleItems_subset_groupItems g))

variable {k : Clause InboundContext Group}

theorem realises_of_noItems (hr : r.noItems) (hbranch : k.branch = r.ruleSetItem.map set)
    (hguard : k.guard m) (hown : k.own m = ∅) (hrequired : ∀ ρ, k.required ρ m = ∅) :
    Realises (r.matchStatesWithBase env matchSet m b) k.meaning m b := by
  have hnone : k.branch = none := by
    rw [hbranch, Option.map_eq_none_iff]
    simp_all [noItems]
  have hhits : ∀ c, k.meaning.hits c m = ∅ := by
    simp [Clause.meaning, branchHits, hnone, hown]
  have hsat : ∀ ρ c, k.meaning.sat ρ c m b.groups := fun ρ c =>
    ⟨hguard, by simp [branchSat, hnone], by simp [hrequired]⟩
  intro ρ s
  have hread : (r.matchStatesWithBase env matchSet m b).read ρ = singleRuleMatchState b := by
    rw [matchStatesWithBase, if_pos hr, emptyRuleMatchState_withBase]
    cases ρ <;> rfl
  rw [hread, contains_single, decide_eq_true_eq]
  constructor
  · rintro rfl
    exact ⟨∅, ⟨.here, hsat ρ .here, hhits .here⟩, (Set.union_empty _).symm⟩
  · rintro ⟨_, ⟨c, -, rfl⟩, hs⟩
    rw [hhits c, Set.union_empty] at hs
    exact (groups_injective hs).symm

theorem implements_clause
    (hset : ∀ item, r.ruleSetItem = some item → Implements P (matchSet item) (set item))
    (hbranch : k.branch = r.ruleSetItem.map set) (hcoherent : Coherent k.meaning)
    (hguard : ∀ m, k.guard m ↔ ∀ it ∈ r.items, it.Match env m)
    (hown : ∀ m, P m → k.own m = hitBy env m (r.visibleItems m))
    (hpossible : ∀ m, P m → k.required .possible m = occupied (r.visibleItems m))
    (hdefinite : ∀ m, k.required .definite m = occupied (r.groupItems m)) :
    Implements P (r.matchStatesWithBase env matchSet)
      (invertIf (r.invert && !r.noItems) k.meaning) := by
  refine ⟨hcoherent.invertIf _, fun m b hm => ?_⟩
  cases hr : r.noItems with
  | false =>
    rw [matchStatesWithBase_eq_finish env matchSet hr, Bool.not_false, Bool.and_true]
    exact finish_realises hcoherent r.invert (evaluate_realises hset hbranch
      hm (hguard m) (hown m hm) (hpossible m hm) (hdefinite m) _)
  | true =>
    have hitems : ∀ g, r.groupItems m g = [] := by
      intro g
      cases g <;> simp_all [noItems, groupItems]
    have hvisible : ∀ g, r.visibleItems m g = [] := fun g =>
      List.eq_nil_of_subset_nil (hitems g ▸ visibleItems_subset_groupItems g)
    rw [Bool.not_true, Bool.and_false]
    refine realises_of_noItems hr hbranch ?_ ?_ ?_
    · simp_all [noItems]
    · simp [hown m hm, hitBy, hvisible]
    · rintro (_ | _)
      · simp [hpossible m hm, occupied, hvisible]
      · simp [hdefinite m, occupied, hitems]

theorem implements_documented
    (hset : ∀ item, r.ruleSetItem = some item → Implements NotIgnoring (matchSet item) (set item)) :
    Implements NotIgnoring (r.matchStatesWithBase env matchSet) (documented env set r) :=
  implements_clause hset rfl
    (Coherent.clause (coherent_branch fun item hitem => (hset item hitem).coherent)
      fun _ => subset_rfl)
    (fun _ => Iff.rfl) (fun m hm => by rw [visibleItems_of_notIgnoring hm]; rfl)
    (fun m hm => by rw [visibleItems_of_notIgnoring hm]; rfl) fun _ => rfl

/-- A default rule computes its meaning with deferred checks, in both readings and every phase. -/
theorem implements_deferring
    (hset : ∀ item, r.ruleSetItem = some item →
      Implements (fun _ => True) (matchSet item) (set item)) :
    Implements (fun _ => True) (r.matchStatesWithBase env matchSet) (deferring env set r) :=
  implements_clause hset rfl
    (Coherent.clause (coherent_branch fun item hitem => (hset item hitem).coherent)
      (occupied_visibleItems_subset))
    (fun _ => Iff.rfl) (fun _ _ => rfl) (fun _ _ => rfl) fun _ => rfl

end

/-! ### Route and DNS rules -/

/-- How a default rule is read, given the meanings of rule-sets. -/
abbrev DefaultMeaning : Type 1 :=
  {σ : Type} → (σ → RuleMeaning) → AbstractDefaultRule σ → RuleMeaning

/-- A rule-set item, all of whose default rules are read in one way. -/
def ruleSetMeaning (default : DefaultMeaning) : RuleSetItem → RuleMeaning :=
  RuleSetItem.meaning fun r => default Empty.elim r.toAbstractDefaultRule

section

/- Route and DNS rules have default rules of their own kinds, which embed `abstractDefaultRule`. -/
variable {δ : Type} (embedded : δ → AbstractDefaultRule RuleSetItem)

/-- Evaluation of a tree of route or DNS rules. -/
def ruleMatchStates (env : Environment) (t : RuleTree δ) : StateMatcher :=
  RuleTree.matchStatesWithBase
    (fun r => (embedded r).matchStatesWithBase env (RuleSetItem.matchStatesWithBase env)) t

/-- The meaning of a tree of route or DNS rules, all of whose default rules are read in one way. -/
def ruleMeaning (default : DefaultMeaning) (t : RuleTree δ) : RuleMeaning :=
  RuleTree.meaning (fun r => default (ruleSetMeaning default) (embedded r)) t

theorem Implements.rule (hP : Stable P) {env : Environment} {default : DefaultMeaning}
    (hdefault : ∀ {σ : Type} {matchSet : σ → StateMatcher} {set : σ → RuleMeaning}
      (r : AbstractDefaultRule σ), (∀ item, r.ruleSetItem = some item →
        Implements P (matchSet item) (set item)) →
      Implements P (r.matchStatesWithBase env matchSet) (default set r)) (t : RuleTree δ) :
    Implements P (ruleMatchStates embedded env t) (ruleMeaning embedded default t) := by
  refine Implements.tree hP fun r _ => hdefault (embedded r) fun item _ => ?_
  exact Implements.ruleSetItem hP fun s _ rule _ h _ =>
    hdefault h.toAbstractDefaultRule fun e => e.elim

/-- **The evaluator computes the meaning of every tree, in both readings and in every phase.** -/
theorem implements_ruleMeaning (env : Environment) (t : RuleTree δ) :
    Implements (fun _ => True) (ruleMatchStates embedded env t)
      (ruleMeaning embedded (deferring env) t) :=
  Implements.rule embedded stable_true (fun _ => implements_deferring) t

theorem implements_ruleMeaning_documented (env : Environment) (t : RuleTree δ) :
    Implements NotIgnoring (ruleMatchStates embedded env t)
      (ruleMeaning embedded (documented env) t) :=
  Implements.rule embedded stable_notIgnoring (fun _ => implements_documented) t

end

/-- A tree of rules of which only the conditions matter. -/
abbrev Rule : Type := RuleTree (AbstractDefaultRule RuleSetItem)

/-- `Match` of a tree of rules. -/
def Rule.Match (env : Environment) (t : Rule) (m : InboundContext) : Bool :=
  !(ruleMatchStates id env t m 0).states.isEmpty

/-- A tree of rules as documented. -/
def Rule.documented (env : Environment) (t : Rule) : RuleMeaning :=
  ruleMeaning id (SingBox.documented env) t

/-- **Outside the pre-lookup phase a rule matches exactly as documented**: branches can be chosen,
for every rule-set and every `or` that is reached without crossing an inversion, so that all other
items hold, every group with items is satisfied by the rule, by what includes it or by what is
merged into it, and every inverted rule fails on its own. -/
theorem Rule.match_iff_documented (env : Environment) (t : Rule) (m : InboundContext)
    (hm : m.ignoreDestinationIPCIDRMatch = false) :
    t.Match env m = true ↔ (t.documented env).Holds m :=
  (implements_ruleMeaning_documented id env t).match_iff hm

/-- Port 443 over something other than TCP. -/
def Rule.portNotTCP : Rule := .logical .and false
  [.default { destinationPortItems := [.port false [443]] },
    .default { items := [.network ["tcp"]], invert := true }]

theorem Rule.match_iff_documented_portNotTCP :
    Rule.portNotTCP.Match .offline
        { network := "udp", destination := { port := 443 } } = true ∧
      (Rule.portNotTCP.documented .offline).Holds
        { network := "udp", destination := { port := 443 } } :=
  ⟨by decide, (Rule.match_iff_documented .offline Rule.portNotTCP _ rfl).1 (by decide)⟩

end SingBox
