/-
**What a rule inherits** (`route/rule/rule_abstract.go`, `route/rule/match_state.go`).

A rule that is merged into another one starts from the groups that the outer rule has satisfied
already, its *base*.  A larger base should never be a disadvantage: what the rule reaches from a
base it reaches from every larger one, with the additional groups added.  The evaluator does not
make this plain, but the meanings of `SingBox/RuleMerge.lean` do: a clause requires groups of what
it inherits, what it satisfies and what is merged into it together, and an inverted condition does
not look at what it inherits.

* `Inherited.evaluators` — from the meanings to the evaluators;
* `matchStatesWithBase_keepsBase` — **trees of rules, headless rules and rule-set items all
  keep their base**;
* `matchStatesWithBase_keepsDefinitive` — **their definitive states are among their states**.
-/

import SingBox.RuleMerge

namespace SingBox

open Branching RuleMatchState

/-! ### Meanings -/

/-- A property of meanings that rules inherit from what they are made of. -/
structure Inherited (env : Environment) (Q : RuleMeaning → Prop) : Prop where
  oneOf : ∀ f, (∀ m, NotIgnoring m → NotIgnoring (f m)) → ∀ l, (∀ S ∈ l, Q S) → Q (oneOf f l)
  allOf : ∀ l, (∀ S ∈ l, Q S) → Q (allOf InboundContext.resetRuleCache l)
  invertIf : ∀ S, Q S → ∀ invert, Q (invertIf invert S)
  clause : ∀ {σ : Type} {set : σ → RuleMeaning} {r : AbstractDefaultRule σ},
    (∀ S, (deferringClause env set r).branch = some S → Q S) → Q (deferringClause env set r).meaning

namespace Inherited

variable {env : Environment} {Q : RuleMeaning → Prop} (h : Inherited env Q)

include h

theorem deferring {σ : Type} {set : σ → RuleMeaning} {r : AbstractDefaultRule σ}
    (hset : ∀ item, r.ruleSetItem = some item → Q (set item)) : Q (deferring env set r) := by
  refine h.invertIf _ (h.clause fun S hS => ?_) _
  obtain ⟨item, hitem, rfl⟩ := Option.map_eq_some_iff.1 hS
  exact hset item hitem

theorem tree {δ : Type} {leaf : δ → RuleMeaning} (hleaf : ∀ r, Q (leaf r)) (t : RuleTree δ) :
    Q (RuleTree.meaning leaf t) :=
  RuleTree.meaning_induction (h.oneOf _ stable_notIgnoring.resetRuleCache) h.allOf h.invertIf
    fun r _ => hleaf r

theorem headless (rule : HeadlessRule) :
    Q (RuleTree.meaning (fun r : DefaultHeadlessRule =>
      SingBox.deferring env Empty.elim r.toAbstractDefaultRule) rule) :=
  h.tree (fun _ => h.deferring fun item => item.elim) rule

theorem ruleSetMeaning (item : RuleSetItem) : Q (ruleSetMeaning (SingBox.deferring env) item) := by
  refine h.oneOf _ (fun m => stable_notIgnoring.withRuleSetFlags m _ _) _ fun S hS => ?_
  obtain ⟨set, -, rfl⟩ := List.mem_map.1 hS
  refine h.oneOf _ stable_notIgnoring.resetRuleMatchCache _ fun S hS => ?_
  obtain ⟨rule, -, rfl⟩ := List.mem_map.1 hS
  exact h.headless rule

/-- What follows of an evaluator from an inherited property of its meaning holds of trees of route
and DNS rules, of headless rules and of rule-set items. -/
theorem evaluators {C : StateMatcher → Prop}
    (hC : ∀ {M S}, Implements (fun _ => True) M S → Q S → C M) :
    (∀ (δ : Type) (embedded : δ → AbstractDefaultRule RuleSetItem) (t : RuleTree δ),
        C (ruleMatchStates embedded env t)) ∧
      (∀ rule : HeadlessRule, C (rule.matchStatesWithBase env)) ∧
      ∀ item : RuleSetItem, C (item.matchStatesWithBase env) := by
  refine ⟨fun δ embedded t => ?_, fun rule => ?_, fun item => ?_⟩
  · exact hC (implements_ruleMeaning embedded env t)
      (h.tree (fun r => h.deferring fun item _ => h.ruleSetMeaning item) t)
  · exact hC (Implements.tree stable_true fun _ _ => implements_deferring fun item => item.elim)
      (h.headless rule)
  · exact hC (Implements.ruleSetItem stable_true fun _ _ _ _ _ _ =>
      implements_deferring fun item => item.elim) (h.ruleSetMeaning item)

end Inherited

theorem inherited_upward (env : Environment) : Inherited env Upward :=
  ⟨fun _ _ _ => Upward.oneOf, fun _ => Upward.allOf, fun _ => Upward.invertIf, Upward.clause⟩

theorem inherited_settled (env : Environment) : Inherited env (Settled NotIgnoring) :=
  ⟨fun _ hf _ => Settled.oneOf hf, fun _ => Settled.allOf stable_notIgnoring.resetRuleCache,
    fun _ => Settled.invertIf, fun hbranch => Settled.clause hbranch fun m hm => by
      simp [deferringClause, visibleItems_of_notIgnoring hm]⟩

/-! ### Evaluators -/

/-- The states that an evaluator returns contain its base, and for a larger base it returns the same
states with the additional groups added, so that it still matches if it matched before.  The same is
said of the `DefinitiveMatchStates` that it leaves behind. -/
structure KeepsBase (M : StateMatcher) : Prop where
  base_subset : ∀ m ρ b s, ((M m b).read ρ).contains s → b.groups ⊆ s.groups
  upward : ∀ m ρ b c s, ((M m b).read ρ).contains s →
    ((M m (b ||| c)).read ρ).contains (s ||| c)
  matches_ : ∀ m b c, (M m b).states.isEmpty = false → (M m (b ||| c)).states.isEmpty = false

/-- An evaluator keeps its base if it computes a meaning that makes use of what it inherits. -/
theorem Implements.keepsBase {M : StateMatcher} {S : RuleMeaning}
    (h : Implements (fun _ => True) M S) (hS : Upward S) : KeepsBase M := by
  have hupward : ∀ m ρ b c s, ((M m b).read ρ).contains s →
      ((M m (b ||| c)).read ρ).contains (s ||| c) := by
    intro m ρ b c s hs
    obtain ⟨hits, ⟨choice, hsat, hhits⟩, hgroups⟩ := (h.realises m b trivial ρ s).1 hs
    refine (h.realises m (b ||| c) trivial ρ (s ||| c)).2 ⟨hits, ⟨choice, ?_, hhits⟩, ?_⟩
    · rw [groups_or]
      exact hS ρ choice m _ _ Set.subset_union_left hsat
    · rw [groups_or, groups_or, hgroups, Set.union_right_comm]
  refine ⟨fun m ρ b s hs => ?_, hupward, fun m b c hne => ?_⟩
  · obtain ⟨hits, -, hgroups⟩ := (h.realises m b trivial ρ s).1 hs
    rw [hgroups]
    exact Set.subset_union_left
  · rw [RuleMatchStateSet.isEmpty_eq_false_iff] at hne ⊢
    obtain ⟨s, hs⟩ := hne
    exact ⟨s ||| c, hupward m .possible b c s hs⟩

/-- **Inheriting more never loses a match**: trees of route and DNS rules, headless rules and
rule-set items keep their base and make use of a larger one, on all metadata. -/
theorem matchStatesWithBase_keepsBase (env : Environment) :
    (∀ (δ : Type) (embedded : δ → AbstractDefaultRule RuleSetItem) (t : RuleTree δ),
        KeepsBase (ruleMatchStates embedded env t)) ∧
      (∀ rule : HeadlessRule, KeepsBase (rule.matchStatesWithBase env)) ∧
      ∀ item : RuleSetItem, KeepsBase (item.matchStatesWithBase env) :=
  (inherited_upward env).evaluators Implements.keepsBase

/-- The `DefinitiveMatchStates` that an evaluator leaves behind are states that it returns, and all
of them when destination IP items are looked at. -/
structure KeepsDefinitive (M : StateMatcher) : Prop where
  subset : ∀ m b s, (M m b).definitive.contains s → (M m b).states.contains s
  eq_states : ∀ m b, m.ignoreDestinationIPCIDRMatch = false → (M m b).definitive = (M m b).states

theorem Implements.keepsDefinitive {M : StateMatcher} {S : RuleMeaning}
    (h : Implements (fun _ => True) M S) (hS : Settled NotIgnoring S) : KeepsDefinitive M := by
  have hread : ∀ m b s ρ ρ', (∀ c, S.sat ρ c m b.groups → S.sat ρ' c m b.groups) →
      ((M m b).read ρ).contains s → ((M m b).read ρ').contains s := by
    intro m b s ρ ρ' hsat hs
    obtain ⟨hits, ⟨choice, hchoice, hhits⟩, hgroups⟩ := (h.realises m b trivial ρ s).1 hs
    exact (h.realises m b trivial ρ' s).2 ⟨hits, ⟨choice, hsat choice hchoice, hhits⟩, hgroups⟩
  have hsubset := fun m b s => hread m b s .definite .possible fun c => h.coherent c m _
  exact ⟨hsubset, fun m b hm => MaskSet.ext fun s => Bool.eq_iff_iff.2
    ⟨hsubset m b s, hread m b s .possible .definite fun c => hS c m _ hm⟩⟩

/-- **Definitive states are states**, of trees of route and DNS rules, of headless rules and of
rule-set items, and outside the pre-lookup phase all states are definitive. -/
theorem matchStatesWithBase_keepsDefinitive (env : Environment) :
    (∀ (δ : Type) (embedded : δ → AbstractDefaultRule RuleSetItem) (t : RuleTree δ),
        KeepsDefinitive (ruleMatchStates embedded env t)) ∧
      (∀ rule : HeadlessRule, KeepsDefinitive (rule.matchStatesWithBase env)) ∧
      ∀ item : RuleSetItem, KeepsDefinitive (item.matchStatesWithBase env) :=
  (inherited_settled env).evaluators Implements.keepsDefinitive

end SingBox
