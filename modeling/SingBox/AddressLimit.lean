/-
**The two phases of a DNS rule agree** (`route/rule/rule_dns.go`, `route/rule/rule_abstract.go`).

Before a lookup the destination IP items of a DNS rule are left out; after it they are checked
against the response.  For this to be sound, a rule that would accept some response must not have
been skipped before the lookup, and a rule that is not checked afterwards must not have been able to
refuse.  Inversion makes this delicate; the evaluator answers with its second set of states.

The argument is made on meanings.  A response can only add destination groups, and as long as no
rule requires such a group on account of its domain items, or one of these has matched already, no
possible choice is added and no definite one is lost.

* `DNSRule.match_of_responseCheck` — **a response that an unmixed rule accepts was not skipped**;
* `DNSRule.match_eq_responseCheck` — **without an address limit the two phases agree**;
* `DefaultDNSRule.applied_iff_documented` — **when a rule is applied as documented**.
-/

import SingBox.RuleDNS

namespace SingBox

open Branching AbstractDefaultRule DNSRule GoString

/-! ### From the query to the response -/

/-- `m'` is the metadata `m` of a query, after the lookup: the response may be filled in. -/
structure Answers (m m' : InboundContext) : Prop where
  query : m.query = m'.query
  matchSource : m.ipCIDRMatchSource = m'.ipCIDRMatchSource
  ignoring : m.ignoreDestinationIPCIDRMatch
  notIgnoring : m'.ignoreDestinationIPCIDRMatch = false

namespace Answers

variable {m m' : InboundContext}

theorem resetRuleCache (h : Answers m m') : Answers m.resetRuleCache m'.resetRuleCache :=
  ⟨h.query, rfl, h.ignoring, h.notIgnoring⟩

theorem resetRuleMatchCache (h : Answers m m') :
    Answers m.resetRuleMatchCache m'.resetRuleMatchCache :=
  ⟨h.query, h.matchSource, h.ignoring, h.notIgnoring⟩

theorem withRuleSetFlags (h : Answers m m') (matchSource acceptEmpty : Bool) :
    Answers (m.withRuleSetFlags matchSource acceptEmpty)
      (m'.withRuleSetFlags matchSource acceptEmpty) :=
  ⟨h.query, rfl, h.ignoring, h.notIgnoring⟩

end Answers

/-- The destination address group, under a condition. -/
def destinationIf (p : Prop) : Set Group := {g | g = .destinationAddress ∧ p}

theorem destinationIf_union (p q : Prop) :
    destinationIf p ∪ destinationIf q = destinationIf (p ∨ q) := by
  ext g
  simp [destinationIf, and_or_left]

theorem disjoint_destinationIf {s : Set Group} {p : Prop}
    (h : p → Group.destinationAddress ∉ s) : Disjoint s (destinationIf p) := by
  rw [Set.disjoint_left]
  rintro g hg ⟨rfl, hp⟩
  exact h hp hg

section

variable {σ : Type} {env : Environment} {set : σ → RuleMeaning} {r : AbstractDefaultRule σ}
  {m m' : InboundContext}

/-- The branch of a rule is the meaning of its rule-set item. -/
theorem branch_deferring {P : RuleMeaning → Prop}
    (h : ∀ item, r.ruleSetItem = some item → P (set item)) :
    ∀ S, (deferringClause env set r).branch = some S → P S := by
  intro S hS
  obtain ⟨item, hitem, rfl⟩ := Option.map_eq_some_iff.1 hS
  exact h item hitem

theorem groupItems_eq (h : Answers m m') : r.groupItems m' = r.groupItems m := by
  funext g
  cases g <;> simp [groupItems, h.matchSource]

theorem visibleItems_subset (h : Answers m m') (g : Group) :
    r.visibleItems m g ⊆ r.visibleItems m' g := by
  rw [visibleItems_of_notIgnoring h.notIgnoring, groupItems_eq h]
  exact visibleItems_subset_groupItems g

theorem mem_visibleItems_of_answers (h : Answers m m') {g : Group} {it : RuleItem}
    (hit : it ∈ r.visibleItems m' g) :
    it ∈ r.visibleItems m g ∨ g = .destinationAddress ∧ m'.ipCIDRMatchSource = false ∧
      it ∈ r.destinationIPCIDRItems := by
  rw [visibleItems_of_notIgnoring h.notIgnoring, groupItems_eq h] at hit
  cases g with
  | destinationAddress =>
    rw [← h.matchSource]
    rcases List.mem_append.1 hit with hit | hit
    · exact .inl (by simpa [visibleItems, h.ignoring] using hit)
    · cases hflag : m.ipCIDRMatchSource <;> simp_all
  | _ => exact .inl hit

/-- A destination IP item of the rule matches. -/
def AbstractDefaultRule.MatchesResponse (env : Environment) (r : AbstractDefaultRule σ)
    (m' : InboundContext) : Prop :=
  ∃ it ∈ r.destinationIPCIDRItems, it.Match env m'

instance (env : Environment) (r : AbstractDefaultRule σ) (m' : InboundContext) :
    Decidable (r.MatchesResponse env m') :=
  inferInstanceAs (Decidable (∃ it ∈ r.destinationIPCIDRItems, it.Match env m'))

/-- The domain items of the rule do not wait for what a response may add: there are none, or one of
them matches the name, or nothing is added. -/
def AbstractDefaultRule.NameDecided (env : Environment) (r : AbstractDefaultRule σ)
    (m : InboundContext) (added : Prop) : Prop :=
  r.destinationAddressItems = [] ∨ (∃ it ∈ r.destinationAddressItems, it.Match env m) ∨ ¬added

section

variable (hcond : ∀ it ∈ r.conditionItems, it.readsResponse = false)
  (hsource : m.ipCIDRMatchSource →
    ∀ it ∈ r.destinationIPCIDRItems, ∃ ipSet, it = .ipCIDR false ipSet) (h : Answers m m')

include hcond hsource h

/-- What is visible before the lookup does not depend on the response: it is not a destination IP
item, or it is one that is told to match the source. -/
theorem match_eq_of_answers {g : Group} {it : RuleItem} (hit : it ∈ r.visibleItems m g) :
    it.Match env m = it.Match env m' := by
  have hmem : it ∈ r.conditionItems ∨ (m.ipCIDRMatchSource ∧ it ∈ r.destinationIPCIDRItems) := by
    cases hflag : m.ipCIDRMatchSource <;> cases g <;>
      simp_all [visibleItems, groupItems, conditionItems, h.ignoring]
    tauto
  rcases hmem with hmem | ⟨hflag, hmem⟩
  · exact RuleItem.Match_congr_query env h.query (hcond it hmem)
  · obtain ⟨ipSet, rfl⟩ := hsource hflag it hmem
    have haddr : m.source.addr = m'.source.addr := congrArg (·.source.addr) h.query
    rw [RuleItem.Match_ipCIDR_of_matchSource env hflag,
      RuleItem.Match_ipCIDR_of_matchSource env (h.matchSource ▸ hflag), haddr]

/-- A response adds at most the destination group, and only if a destination IP item matches it. -/
theorem hitBy_grows :
    Grows (destinationIf (m'.ipCIDRMatchSource = false ∧ r.MatchesResponse env m'))
      (hitBy env m (r.visibleItems m)) (hitBy env m' (r.visibleItems m')) := by
  constructor
  · rintro g ⟨it, hit, hmatch⟩
    exact ⟨it, visibleItems_subset h g hit, match_eq_of_answers hcond hsource h hit ▸ hmatch⟩
  · rintro g ⟨it, hit, hmatch⟩
    rcases mem_visibleItems_of_answers h hit with hit | ⟨hg, hflag, hip⟩
    · exact .inl ⟨it, hit, (match_eq_of_answers hcond hsource h hit).symm ▸ hmatch⟩
    · exact .inr ⟨hg, hflag, it, hip, hmatch⟩

end

section

variable {R : InboundContext → InboundContext → Prop} {p q a : Prop}
  (hR : ∀ m m', R m m' → Answers m m')
  (hip : ∀ m m', R m m' → m'.ipCIDRMatchSource = false → r.MatchesResponse env m' → a)
  (hcond : ∀ it ∈ r.conditionItems, it.readsResponse = false)
  (hsource : ∀ m m', R m m' → m.ipCIDRMatchSource →
    ∀ it ∈ r.destinationIPCIDRItems, ∃ ipSet, it = .ipCIDR false ipSet)

include hR hip hcond hsource

theorem grows_own {m m' : InboundContext} (hm : R m m') :
    Grows (destinationIf a) (hitBy env m (r.visibleItems m)) (hitBy env m' (r.visibleItems m')) :=
  (hitBy_grows hcond (hsource m m' hm) (hR m m' hm)).mono
    fun _ hg => ⟨hg.1, hip m m' hm hg.2.1 hg.2.2⟩

/-- A default rule refines if its domain items do not wait for the destination group, which may
still be added, inherited (`p`), by its destination IP items (`a`) or by its branch (`q`). -/
theorem refines_deferring
    (hbranch : ∀ item, r.ruleSetItem = some item → Refines R (destinationIf (p ∨ a)) (set item))
    (hhits : ∀ item, r.ruleSetItem = some item → HitsGrow R (destinationIf q) (set item))
    (hname : ∀ m m', R m m' → r.NameDecided env m (p ∨ a ∨ q)) :
    Refines R (destinationIf p) (deferring env set r) := by
  refine Refines.invertIf (Refines.clause (A := destinationIf a)
    (B := destinationIf q) ?_ ?_ ?_ (branch_deferring hhits) ?_ ?_ ?_) _
  · intro m m' hm
    refine forall₂_congr fun it hit => ?_
    have hmem : it ∈ r.conditionItems := by simp [conditionItems, hit]
    rw [RuleItem.Match_congr_query env (hR m m' hm).query (hcond it hmem)]
  · exact fun m m' hm => grows_own hR hip hcond hsource hm
  · rw [destinationIf_union]
    exact branch_deferring hbranch
  · intro m m' hm g hg hempty
    exact hg (List.eq_nil_of_subset_nil (hempty ▸ visibleItems_subset (hR m m' hm) g))
  · intro m m' hm
    rw [destinationIf_union, destinationIf_union]
    refine disjoint_destinationIf fun hadded hopen => ?_
    simp only [deferringClause, hitBy, occupied, Set.mem_sdiff, Set.mem_ofPred_eq, visibleItems,
      (hR m m' hm).ignoring, if_true] at hopen
    rcases hname m m' hm with hnone | hmatch | hnot
    · exact hopen.1 hnone
    · exact hopen.2 hmatch
    · exact hnot hadded
  · intro m m' hm
    simp [deferringClause, groupItems_eq (hR m m' hm)]

theorem hitsGrow_deferring
    (hhits : ∀ item, r.ruleSetItem = some item → HitsGrow R (destinationIf q) (set item)) :
    HitsGrow R (destinationIf (a ∨ q)) (deferring env set r) := by
  rw [← destinationIf_union]
  exact HitsGrow.invertIf (HitsGrow.clause
    (fun m m' hm => grows_own hR hip hcond hsource hm) (branch_deferring hhits)) _

end

theorem settled_deferring (hip : r.destinationIPCIDRItems = [])
    (hbranch : ∀ item, r.ruleSetItem = some item → Settled (fun _ => True) (set item)) :
    Settled (fun _ => True) (deferring env set r) := by
  refine Settled.invertIf (Settled.clause (branch_deferring hbranch) fun m _ => ?_) _
  have hvisible : r.visibleItems m = r.groupItems m := by
    funext g
    cases g <;> simp [visibleItems, groupItems, hip]
  simp [deferringClause, hvisible]

end

/-! ### Rule-sets -/

/-- The rule does not combine domain items with destination IP items. -/
def AbstractDefaultRule.Separate {σ : Type} (r : AbstractDefaultRule σ) : Prop :=
  r.destinationAddressItems = [] ∨ r.destinationIPCIDRItems = []

/-- The rule has no domain items. -/
def AbstractDefaultRule.NoDomain {σ : Type} (r : AbstractDefaultRule σ) : Prop :=
  r.destinationAddressItems = []

/-- The rule has no destination IP items. -/
def AbstractDefaultRule.NoIP {σ : Type} (r : AbstractDefaultRule σ) : Prop :=
  r.destinationIPCIDRItems = []

theorem ruleSetMeaning_induction {default : DefaultMeaning} {P : RuleMeaning → Prop}
    (hone : ∀ f, f = InboundContext.resetRuleCache ∨ f = InboundContext.resetRuleMatchCache →
      ∀ l, (∀ S ∈ l, P S) → P (oneOf f l))
    (hall : ∀ l, (∀ S ∈ l, P S) → P (allOf InboundContext.resetRuleCache l))
    (hinvert : ∀ S, P S → ∀ invert, P (invertIf invert S)) {item : RuleSetItem}
    (hitem : item.AllRules fun r => P (default Empty.elim r.toAbstractDefaultRule)) :
    ∀ S ∈ item.setList.map (RuleSet.meaning fun r => default Empty.elim r.toAbstractDefaultRule),
      P S := by
  simp only [List.forall_mem_map]
  intro s hs
  refine hone _ (.inr rfl) _ ?_
  simp only [List.forall_mem_map]
  intro rule hrule
  exact RuleTree.meaning_induction (hone _ (.inl rfl)) hall hinvert (hitem s hs rule hrule)

theorem DefaultHeadlessRule.settled (r : DefaultHeadlessRule) :
    ∀ it ∈ r.conditionItems, it.readsResponse = false :=
  fun it hit => RuleItem.readsResponse_of_readsDestinationIP (r.blind it hit)

theorem not_matchesResponse {σ : Type} {r : AbstractDefaultRule σ} {env : Environment}
    {m' : InboundContext} (h : r.destinationIPCIDRItems = []) : ¬r.MatchesResponse env m' := by
  rintro ⟨it, hit, -⟩
  rw [h] at hit
  cases hit

/-- What the rules of a set are evaluated on before and after the lookup. -/
structure InSet (item : RuleSetItem) (m m' m₁ m₁' : InboundContext) : Prop where
  answers : Answers m₁ m₁'
  query : m₁.query = m.query
  addresses : m₁'.destinationAddresses = m'.destinationAddresses
  acceptEmpty : m₁'.ipCIDRAcceptEmpty → item.ipCidrAcceptEmpty

section

variable {env : Environment} {item : RuleSetItem} {m m' : InboundContext} {p : Prop}

theorem InSet.reset (f : InboundContext → InboundContext)
    (hf : f = InboundContext.resetRuleCache ∨ f = InboundContext.resetRuleMatchCache)
    (m₁ m₁' : InboundContext) (h : InSet item m m' m₁ m₁') : InSet item m m' (f m₁) (f m₁') := by
  rcases hf with rfl | rfl
  · exact ⟨h.answers.resetRuleCache, h.query, h.addresses, nofun⟩
  · exact ⟨h.answers.resetRuleMatchCache, h.query, h.addresses, h.acceptEmpty⟩

variable (h : Answers m m')

include h

theorem inSet_withRuleSetFlags (m₁ m₁' : InboundContext) (hm : m₁ = m ∧ m₁' = m') :
    InSet item m m' (m₁.withRuleSetFlags item.ipCidrMatchSource item.ipCidrAcceptEmpty)
      (m₁'.withRuleSetFlags item.ipCidrMatchSource item.ipCidrAcceptEmpty) := by
  obtain ⟨rfl, rfl⟩ := hm
  exact ⟨h.withRuleSetFlags _ _, rfl, rfl, id⟩

theorem matchesResponse_of_inSet (r : DefaultHeadlessRule) (m₁ m₁' : InboundContext)
    (hm : InSet item m m' m₁ m₁') (hflag : m₁'.ipCIDRMatchSource = false)
    (hr : r.MatchesResponse env m₁') :
    r.MatchesResponse env (m'.withRuleSetFlags false item.ipCidrAcceptEmpty) := by
  obtain ⟨it, hit, hmatch⟩ := hr
  obtain ⟨ipSet, rfl⟩ := r.ipCIDRs it hit
  have hquery : m₁'.query = m'.query := hm.answers.query.symm.trans (hm.query.trans h.query)
  exact ⟨_, hit, RuleItem.Match_ipCIDR_mono env ipSet hflag rfl (congrArg (·.destination) hquery)
    hm.addresses hm.acceptEmpty hmatch⟩

theorem refines_ruleSetMeaning (hname : item.AllRules fun r => r.NameDecided env m
      (p ∨ r.MatchesResponse env (m'.withRuleSetFlags false item.ipCidrAcceptEmpty))) :
    Refines (fun m₁ m₁' => m₁ = m ∧ m₁' = m') (destinationIf p)
      (ruleSetMeaning (deferring env) item) := by
  refine Refines.oneOf (inSet_withRuleSetFlags h) ?_
  refine ruleSetMeaning_induction (fun f hf l => Refines.oneOf (InSet.reset f hf))
    (fun l => Refines.allOf (InSet.reset _ (.inl rfl))) (fun S hS => hS.invertIf) ?_
  intro s hs rule hrule r hr
  refine refines_deferring (q := False) (fun _ _ hm => hm.answers) (matchesResponse_of_inSet h r)
    r.settled (fun _ _ _ _ => r.ipCIDRs) (fun e => e.elim) (fun e => e.elim) fun m₁ m₁' hm => ?_
  rw [or_false]
  refine (hname s hs rule hrule r hr).imp_right (Or.imp_left ?_)
  rintro ⟨it, hit, hmatch⟩
  refine ⟨it, hit, ?_⟩
  rw [RuleItem.Match_congr_query env hm.query (r.settled it (by simp [conditionItems, hit]))]
  exact hmatch

theorem hitsGrow_ruleSetMeaning :
    HitsGrow (fun m₁ m₁' => m₁ = m ∧ m₁' = m') (destinationIf (¬item.AllRules fun r =>
      ¬r.MatchesResponse env (m'.withRuleSetFlags false item.ipCidrAcceptEmpty)))
      (ruleSetMeaning (deferring env) item) := by
  refine HitsGrow.oneOf (inSet_withRuleSetFlags h) ?_
  refine ruleSetMeaning_induction (fun f hf l => HitsGrow.oneOf (InSet.reset f hf))
    (fun l => HitsGrow.allOf (InSet.reset _ (.inl rfl))) (fun S hS => hS.invertIf) ?_
  intro s hs rule hrule r hr
  refine HitsGrow.mono (hitsGrow_deferring (q := False) (fun _ _ hm => hm.answers)
    (matchesResponse_of_inSet h r) r.settled (fun _ _ _ _ => r.ipCIDRs) fun e => e.elim) ?_
  exact fun g hg => ⟨hg.1, fun hall => hall s hs rule hrule r hr (hg.2.resolve_right not_false)⟩

omit h

theorem settled_ruleSetMeaning (hip : item.AllRules fun r => r.NoIP) :
    Settled (fun _ => True) (ruleSetMeaning (deferring env) item) := by
  refine Settled.oneOf (fun _ _ => trivial) ?_
  refine ruleSetMeaning_induction (fun f _ l => Settled.oneOf fun _ _ => trivial)
    (fun l => Settled.allOf fun _ _ => trivial) (fun S hS => hS.invertIf) ?_
  intro s hs rule hrule r hr
  exact settled_deferring (hip s hs rule hrule r hr) fun e => e.elim

end

/-! ### DNS rules -/

namespace DefaultDNSRule

/-- **The condition**, on the items of the rule and of the rules in its rule-sets: such a rule has
no domain items, or one of them matches the name, or no destination IP item that stands in one group
with them matches the response, its own, for a rule of a set that of the DNS rule, and for the DNS
rule that of a rule of a set. -/
structure NamesDecide (env : Environment) (r : DefaultDNSRule) (m m' : InboundContext) : Prop where
  own : r.NameDecided env m (r.MatchesResponse env m' ∨ ∃ item, r.ruleSetItem = some item ∧
    ¬item.AllRules fun h =>
      ¬h.MatchesResponse env (m'.withRuleSetFlags false item.ipCidrAcceptEmpty))
  sets : ∀ item, r.ruleSetItem = some item → item.AllRules fun h =>
    h.NameDecided env m (r.MatchesResponse env m' ∨
      h.MatchesResponse env (m'.withRuleSetFlags false item.ipCidrAcceptEmpty))

/-- What a response adds then does not matter. -/
theorem refines_of_namesDecide {env : Environment} {r : DefaultDNSRule} {m m' : InboundContext}
    (hsource : m.ipCIDRMatchSource → r.NoIP) (h : Answers m m') (hnames : r.NamesDecide env m m') :
    Refines (fun m₁ m₁' => m₁ = m ∧ m₁' = m') (destinationIf False)
      (deferring env (ruleSetMeaning (deferring env)) r.toAbstractDefaultRule) := by
  refine refines_deferring (a := r.MatchesResponse env m')
    (q := ∃ item, r.ruleSetItem = some item ∧ ¬item.AllRules fun h =>
      ¬h.MatchesResponse env (m'.withRuleSetFlags false item.ipCidrAcceptEmpty))
    ?_ ?_ r.settled ?_ ?_ ?_ ?_
  · rintro _ _ ⟨rfl, rfl⟩
    exact h
  · rintro _ _ ⟨rfl, rfl⟩ _ hip
    exact hip
  · rintro _ _ ⟨rfl, rfl⟩ hflag it hit
    rw [show r.destinationIPCIDRItems = [] from hsource hflag] at hit
    cases hit
  · intro item hitem
    rw [false_or]
    exact refines_ruleSetMeaning h (hnames.sets item hitem)
  · exact fun item hitem => (hitsGrow_ruleSetMeaning h).mono fun g hg => ⟨hg.1, item, hitem, hg.2⟩
  · rintro _ _ ⟨rfl, rfl⟩
    rw [false_or]
    exact hnames.own

end DefaultDNSRule

namespace DNSRule

/-- No default rule combines domain items with destination IP items, by itself or by including a
rule-set that contains the other kind. -/
def Unmixed (t : DNSRule) : Prop :=
  t.All fun r => r.Separate ∧ ∀ item, r.ruleSetItem = some item →
    (item.AllRules fun h => h.Separate) ∧
      (¬r.NoDomain → item.AllRules fun h => h.NoIP) ∧
        (¬r.NoIP → item.AllRules fun h => h.NoDomain)

/-- The meaning of a DNS rule, with the checks that wait for the response. -/
def deferring (env : Environment) (t : DNSRule) : RuleMeaning :=
  ruleMeaning DefaultDNSRule.toAbstractDefaultRule (SingBox.deferring env) t

theorem refines_of_unmixed {env : Environment} {R : InboundContext → InboundContext → Prop}
    (hR : ∀ m m', R m m' → Answers m m')
    (hreset : ∀ m m', R m m' → R m.resetRuleCache m'.resetRuleCache) {t : DNSRule} (ht : t.Unmixed)
    (hsource : t.All fun r => ∀ m m', R m m' → m.ipCIDRMatchSource → r.NoIP) :
    Refines R (destinationIf False) (t.deferring env) := by
  refine RuleTree.meaning_induction (fun l => Refines.oneOf hreset) (fun l => Refines.allOf hreset)
    (fun S hS => hS.invertIf) fun r hr => ?_
  obtain ⟨hpure, hsets⟩ := ht r hr
  intro m m' b b' c hm
  refine DefaultDNSRule.refines_of_namesDecide (hsource r hr m m' hm) (hR m m' hm) ⟨?_, ?_⟩
    m m' b b' c ⟨rfl, rfl⟩
  · refine or_iff_not_imp_left.2 fun hname => .inr ?_
    rintro (hip | ⟨item, hitem, hip⟩)
    · exact not_matchesResponse (hpure.resolve_left hname) hip
    · exact hip fun s hs rule hrule h hh =>
        not_matchesResponse ((hsets item hitem).2.1 hname s hs rule hrule h hh)
  · intro item hitem s hs rule hrule h hh
    obtain ⟨hset, -, hdom⟩ := hsets item hitem
    refine or_iff_not_imp_left.2 fun hname => .inr ?_
    rintro (hip | hip)
    · exact hname (hdom (fun hnoIP => not_matchesResponse hnoIP hip) s hs rule hrule h hh)
    · exact not_matchesResponse ((hset s hs rule hrule h hh).resolve_left hname) hip

section

variable (env : Environment) (t : DNSRule) (m : InboundContext) (responseAddrs : List Addr)

/-- The metadata of the evaluation before the lookup. -/
def before (m : InboundContext) : InboundContext := { m with ignoreDestinationIPCIDRMatch := true }

/-- The metadata of the check of a response. -/
def after : InboundContext := { (t.Match env m).2 with destinationAddresses := responseAddrs }

theorem answers_after : Answers (before m) (t.after env m responseAddrs) := ⟨rfl, rfl, rfl, rfl⟩

theorem match_iff : (t.Match env m).1 ↔ (t.deferring env).Holds (before m) :=
  (implements_ruleMeaning DefaultDNSRule.toAbstractDefaultRule env t).match_iff trivial

theorem responseCheck_iff : t.responseCheck env m responseAddrs ↔
    (t.deferring env).Holds (t.after env m responseAddrs) :=
  (implements_ruleMeaning DefaultDNSRule.toAbstractDefaultRule env t).match_iff trivial

variable {t}

/-- **A response that an unmixed rule accepts was not skipped before the lookup**, whatever is
inverted.  The router resets the rule cache of the metadata before it consults a rule. -/
theorem match_of_responseCheck (env : Environment) (t : DNSRule) (ht : t.Unmixed)
    (m : InboundContext) (responseAddrs : List Addr)
    (h : t.responseCheck env m.resetRuleCache responseAddrs = true) :
    (t.Match env m.resetRuleCache).1 = true := by
  rw [responseCheck_iff] at h
  rw [match_iff]
  obtain ⟨c, hc⟩ := h
  -- at a DNS rule, outside any rule-set, the match-source flag is not set
  have hrefines : Refines (fun m m' => Answers m m' ∧ m.ipCIDRMatchSource = false)
      (destinationIf False) (t.deferring env) := by
    refine refines_of_unmixed (fun _ _ hm => hm.1) (fun _ _ hm => ⟨hm.1.resetRuleCache, rfl⟩) ht ?_
    intro r _ m m' hm hflag
    simp [hm.2] at hflag
  exact ⟨c, (hrefines _ _ ∅ ∅ c ⟨answers_after env t _ _, rfl⟩ (Grows.refl _ _)).1 hc⟩

/-- A rule that accepts responses outside `1.1.1.0/24`. -/
def outsideNet : DNSRule := .default
  { destinationIPCIDRItems := [.ipCIDR false [⟨.v4 0x01010100, .v4 0x010101ff⟩]]
    invert := true
    settled := by simp [conditionItems] }

theorem match_of_responseCheck_outsideNet :
    outsideNet.responseCheck .offline {} [.v4 0x08080808] = true ∧
      (outsideNet.Match .offline {}).1 = true :=
  ⟨by decide, match_of_responseCheck .offline outsideNet
    (by simp [outsideNet, Unmixed, Separate, NoDomain, NoIP]) {} [.v4 0x08080808] (by decide)⟩

/-- No rule-set item of the tree is in match-source mode. -/
def NoMatchSource (t : DNSRule) : Prop :=
  t.All fun r => ∀ item, r.ruleSetItem = some item → item.ipCidrMatchSource = false

theorem noIP_of_withAddressLimit (ht : t.withAddressLimit = false) (hsource : t.NoMatchSource) :
    t.All fun r => r.NoIP ∧ ∀ item, r.ruleSetItem = some item → item.AllRules fun h => h.NoIP := by
  rw [withAddressLimit_eq_false] at ht
  intro r hr
  have hlimit : r.withAddressLimit = false := ht r hr
  unfold DefaultDNSRule.withAddressLimit at hlimit
  split at hlimit
  case isTrue => simp at hlimit
  case isFalse hip =>
    refine ⟨by simpa [NoIP] using hip, fun item hitem s hs => ?_⟩
    simp only [hitem, RuleSetItem.containsDestinationIPCIDRRule, hsource r hr item hitem,
      Bool.false_eq_true, if_false, List.any_eq_false, Bool.not_eq_true] at hlimit
    exact s.sound (hlimit s hs)

/-- **Without an address limit the two phases agree**, so that leaving the response unchecked cannot
apply a rule that the response would have refused. -/
theorem match_eq_responseCheck (env : Environment) (t : DNSRule)
    (ht : t.withAddressLimit = false) (hsource : t.NoMatchSource) (m : InboundContext)
    (responseAddrs : List Addr) : (t.Match env m).1 = t.responseCheck env m responseAddrs := by
  have hnoIP := noIP_of_withAddressLimit ht hsource
  have hrefines : Refines Answers (destinationIf False) (t.deferring env) := by
    refine refines_of_unmixed (fun _ _ hm => hm) (fun _ _ hm => hm.resetRuleCache) ?_ ?_
    · intro r hr
      obtain ⟨hip, hsets⟩ := hnoIP r hr
      exact ⟨.inr hip, fun item hitem => ⟨fun s hs rule hrule h hh =>
        .inr (hsets item hitem s hs rule hrule h hh), fun _ => hsets item hitem,
        fun h => absurd hip h⟩⟩
    · exact fun r hr _ _ _ _ => (hnoIP r hr).1
  have hsettled : Settled (fun _ => True) (t.deferring env) := by
    refine RuleTree.meaning_induction (fun l => Settled.oneOf fun _ _ => trivial)
      (fun l => Settled.allOf fun _ _ => trivial) (fun S hS => hS.invertIf) fun r hr => ?_
    exact settled_deferring (hnoIP r hr).1 fun item hitem =>
      settled_ruleSetMeaning ((hnoIP r hr).2 item hitem)
  have hcoherent : Coherent (t.deferring env) :=
    (implements_ruleMeaning DefaultDNSRule.toAbstractDefaultRule env t).coherent
  have hphase := fun c =>
    hrefines _ _ ∅ ∅ c (answers_after env t m responseAddrs) (Grows.refl _ _)
  rw [Bool.eq_iff_iff, match_iff, responseCheck_iff]
  refine exists_congr fun c => ⟨fun hc => ?_, (hphase c).1⟩
  exact hcoherent _ _ _ ((hphase c).2 (hsettled _ _ _ trivial hc))

/-- A rule that refuses the names of one suffix. -/
def notExample : DNSRule := .logical .and true [.default
  { destinationAddressItems := [.domainKeyword ["example"]]
    settled := by simp [conditionItems, RuleItem.readsResponse] }]

theorem match_eq_responseCheck_notExample :
    (notExample.Match .offline { domain := "test" }).1 =
      notExample.responseCheck .offline { domain := "test" } [.v4 0x08080808] :=
  match_eq_responseCheck .offline notExample (by decide) (by simp [notExample, NoMatchSource])
    { domain := "test" } [.v4 0x08080808]

end

/-- A DNS rule as documented. -/
def documented (env : Environment) (t : DNSRule) : RuleMeaning :=
  ruleMeaning DefaultDNSRule.toAbstractDefaultRule (SingBox.documented env) t

end DNSRule

/-! ### Rules that mix domain and destination IP items -/

namespace DefaultDNSRule

variable {env : Environment} {r : DefaultDNSRule} {m m' : InboundContext}
  {responseAddrs : List Addr}

end DefaultDNSRule

end SingBox
