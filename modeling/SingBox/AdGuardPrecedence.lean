/-
**What a converted AdGuard filter blocks** (`common/convertor/adguard/convertor.go`, evaluated by
`route/rule/rule_abstract.go`).

The rules of a filter have an order of precedence: important exceptions come before important rules,
which come before exceptions, which come before plain rules.  The rule that `ToOptions` nests out of
them keeps the order, with one exception: where the text has no plain rule, its innermost default
rule has no items, and a default rule without items matches everything.

* `holds_destinationOnly` — default rules that have destination items only;
* `decides_rule`, `Decides.before_and`, `Decides.before_or` — one step of
  the nesting;
* `match_iff_blocked_iff` — where the converted rule keeps the order.
-/

import SingBox.AdGuard
import SingBox.RuleMerge

namespace SingBox

open Branching AdGuardGroup GoString
open List hiding isEmpty

/-! ### The order of precedence -/

/-- The rule matches the name: its pattern does, or its expression. -/
def AdGuardRuleLine.matchesName (lib : Libraries) (it : AdGuardRuleLine) (name : GoString) : Bool :=
  if it.isRegexp then
    match lib.compileRegexp it.text with
    | some expression => expression name
    | none => false
  else (lib.newAdGuardMatcher [it.text]).Match name

/-- Some rule of one of the four kinds matches the name. -/
def someMatches (lib : Libraries) (ruleLines : List AdGuardRuleLine) (isImportant isExclude : Bool)
    (name : GoString) : Bool :=
  ruleLines.any fun it =>
    it.isImportant == isImportant && it.isExclude == isExclude && it.matchesName lib name

/-- The name is blocked: no important exception matches it, and an important rule does, or no
exception and some rule. -/
def Blocked (lib : Libraries) (ruleLines : List AdGuardRuleLine) (name : GoString) : Prop :=
  someMatches lib ruleLines true true name = false ∧
    (someMatches lib ruleLines true false name ∨
      someMatches lib ruleLines false true name = false ∧
        someMatches lib ruleLines false false name)

instance (lib : Libraries) (ruleLines : List AdGuardRuleLine) (name : GoString) :
    Decidable (Blocked lib ruleLines name) :=
  inferInstanceAs (Decidable (_ ∧ _))

/-- Some rule is plain: neither important nor an exception. -/
def HasPlainRule (ruleLines : List AdGuardRuleLine) : Prop :=
  ∃ it ∈ ruleLines, it.isImportant = false ∧ it.isExclude = false

instance (ruleLines : List AdGuardRuleLine) : Decidable (HasPlainRule ruleLines) :=
  inferInstanceAs (Decidable (∃ it ∈ ruleLines, _ ∧ _))

variable {ruleLines : List AdGuardRuleLine} {lib : Libraries}

theorem someMatches_of_not_hasPlainRule (h : ¬HasPlainRule ruleLines) (name : GoString) :
    someMatches lib ruleLines false false name = false := by
  rw [someMatches, any_eq_false]
  intro it hit hmatches
  simp only [Bool.and_eq_true, beq_iff_eq] at hmatches
  exact h ⟨it, hit, hmatches.1⟩

/-! ### Groups -/

/-- Some pattern or expression of the group matches the name. -/
def AdGuardGroup.matchesName (lib : Libraries) (g : AdGuardGroup) (name : GoString) : Bool :=
  g.domain.any (fun text => (lib.newAdGuardMatcher [text]).Match name) ||
    g.domainRegex.any fun text =>
      match lib.compileRegexp text with
      | some expression => expression name
      | none => false

/-- The matcher for the patterns of a group matches what one of them matches. -/
def AdGuardGroup.Independent (lib : Libraries) (g : AdGuardGroup) : Prop :=
  ∀ name, (lib.newAdGuardMatcher g.domain).Match name =
    g.domain.any fun text => (lib.newAdGuardMatcher [text]).Match name

theorem matchesName_adGuardGroup (isImportant isExclude : Bool) (name : GoString) :
    (adGuardGroup ruleLines isImportant isExclude).matchesName lib name =
      someMatches lib ruleLines isImportant isExclude name := by
  rw [Bool.eq_iff_iff]
  simp only [matchesName, someMatches, adGuardGroup, Bool.or_eq_true, any_map,
    any_filter, any_eq_true, ← exists_or, ← and_or_left, Function.comp_apply]
  refine exists_congr fun it => and_congr_right fun _ => ?_
  rw [AdGuardRuleLine.matchesName]
  cases it.isRegexp <;> simp

theorem isEmpty_adGuardGroup (ruleLines : List AdGuardRuleLine) (isImportant isExclude : Bool) :
    (adGuardGroup ruleLines isImportant isExclude).isEmpty = false ↔
      ∃ it ∈ ruleLines, it.isImportant = isImportant ∧ it.isExclude = isExclude := by
  have hempty : (adGuardGroup ruleLines isImportant isExclude).isEmpty ↔
      ∀ it ∈ ruleLines, ¬(it.isImportant = isImportant ∧ it.isExclude = isExclude) := by
    simp only [isEmpty, adGuardGroup, Bool.and_eq_true, List.isEmpty_iff,
      map_eq_nil_iff, filter_eq_nil_iff, ← forall_and]
    refine forall_congr' fun it => forall_congr' fun _ => ?_
    cases it.isRegexp <;> simp
  rw [← Bool.not_eq_true, hempty]
  push Not
  rfl

theorem AdGuardGroup.matchesName_of_isEmpty {g : AdGuardGroup}
    (h : g.isEmpty) (name : GoString) : g.matchesName lib name = false := by
  rw [isEmpty, Bool.and_eq_true, List.isEmpty_iff, List.isEmpty_iff] at h
  simp [matchesName, h]

/-! ### Evaluation -/

/-- The meaning of a headless rule, in which nothing is put off that does not read the response. -/
def headlessMeaning (env : Environment) (rule : HeadlessRule) : RuleMeaning :=
  RuleTree.meaning (fun r => deferring env Empty.elim r.toAbstractDefaultRule) rule

theorem headless_match_iff (env : Environment) (rule : HeadlessRule) (m : InboundContext) :
    HeadlessRule.Match env rule m ↔ (headlessMeaning env rule).Holds m := by
  have himplements : Implements (fun _ => True) (RuleTree.matchStatesWithBase
      (DefaultHeadlessRule.matchStatesWithBase env) rule) (headlessMeaning env rule) :=
    Implements.tree stable_true fun r _ => implements_deferring fun e => e.elim
  exact himplements.match_iff trivial

section

variable {σ : Type} (items : List RuleItem) (invert : Bool) (m : InboundContext)

/-- A default rule with destination items only. -/
def destinationOnly (σ : Type) (items : List RuleItem) (invert : Bool) : AbstractDefaultRule σ :=
  { destinationAddressItems := items, invert := invert }

theorem groupItems_destinationOnly (g : Group) :
    (destinationOnly σ items invert).groupItems m g =
      if g = .destinationAddress then items else [] := by
  cases g <;> simp [destinationOnly, AbstractDefaultRule.groupItems]

theorem visibleItems_destinationOnly :
    (destinationOnly σ items invert).visibleItems m =
      (destinationOnly σ items invert).groupItems m := by
  funext g
  cases g <;> simp [destinationOnly, AbstractDefaultRule.visibleItems,
    AbstractDefaultRule.groupItems]

/-- **A default rule with destination items only** matches if it has none; else if one of them
matches, or none when it is inverted. -/
theorem holds_destinationOnly (env : Environment) (set : σ → RuleMeaning) :
    (deferring env set (destinationOnly σ items invert)).Holds m ↔
      items = [] ∨ ((∃ it ∈ items, it.Match env m) ↔ invert = false) := by
  -- in both readings the only group that can be required is that of the destination
  have hsat : ∀ ρ c,
      (deferringClause env set (destinationOnly σ items invert)).meaning.sat ρ c m ∅ ↔
      (items ≠ [] → ∃ it ∈ items, it.Match env m) := by
    intro ρ c
    have hown : (deferringClause env set (destinationOnly σ items invert)).own m =
        {g | g = .destinationAddress ∧ ∃ it ∈ items, it.Match env m} := by
      ext g
      simp only [deferringClause, visibleItems_destinationOnly, AbstractDefaultRule.hitBy,
        groupItems_destinationOnly, Set.mem_ofPred_eq]
      by_cases hg : g = .destinationAddress <;> simp [hg]
    have hrequired : (deferringClause env set (destinationOnly σ items invert)).required ρ m =
        {g | g = .destinationAddress ∧ items ≠ []} := by
      ext g
      have hoccupied : (deferringClause env set (destinationOnly σ items invert)).required ρ m =
          AbstractDefaultRule.occupied ((destinationOnly σ items invert).groupItems m) := by
        cases ρ <;> simp only [deferringClause, visibleItems_destinationOnly]
      simp only [hoccupied, AbstractDefaultRule.occupied, groupItems_destinationOnly,
        Set.mem_ofPred_eq]
      by_cases hg : g = .destinationAddress <;> simp [hg]
    simp only [Clause.meaning, hown, hrequired]
    simp [deferringClause, destinationOnly, Clause.branchSat, Clause.branchHits, Set.subset_def]
  have hexists : ∀ ρ, (∃ c, (deferringClause env set
      (destinationOnly σ items invert)).meaning.sat ρ c m ∅) ↔
      (items ≠ [] → ∃ it ∈ items, it.Match env m) := by
    intro ρ
    constructor
    · rintro ⟨c, h⟩
      exact (hsat ρ c).1 h
    · intro h
      exact ⟨.here, (hsat ρ .here).2 h⟩
  have hnoItems : (destinationOnly σ items invert).noItems = items.isEmpty := by
    simp [destinationOnly, AbstractDefaultRule.noItems]
  have hinvert : (destinationOnly σ items invert).invert = invert := rfl
  rw [deferring, hnoItems, hinvert]
  cases hempty : items.isEmpty with
  | true =>
    have hnil : items = [] := List.isEmpty_iff.1 hempty
    rw [Bool.not_true, Bool.and_false, invertIf_false, Meaning.Holds, hexists]
    simp [hnil]
  | false =>
    have hcons : items ≠ [] := by simpa using hempty
    rw [Bool.not_false, Bool.and_true]
    cases invert with
    | false =>
      rw [invertIf_false, Meaning.Holds, hexists]
      simp [hcons]
    | true =>
      rw [invertIf_true, holds_inverted, hexists]
      simp [hcons]

end

/-! ### The rules of groups -/

theorem any_compiled {regexps : List GoString} {matchers : List (GoString → Bool)}
    (h : List.Forall₂ (fun regex matcher => lib.compileRegexp regex = some matcher)
      regexps matchers)
    (name : GoString) :
    (matchers.any fun r => r name) = regexps.any fun text =>
      match lib.compileRegexp text with
      | some expression => expression name
      | none => false := by
  induction h with
  | nil => rfl
  | cons hregex _ ih => rw [any_cons, any_cons, ih, hregex]

/-- The items of the rule of a group. -/
def AdGuardGroup.items (lib : Libraries) (g : AdGuardGroup)
    (regexps : Option (List (GoString → Bool))) : List RuleItem :=
  optionalItem regexps .domainRegex ++
    itemIf (!g.domain.isEmpty) (.adGuardDomain (lib.newAdGuardMatcher g.domain).Match)

/-- The items of a group are destination items. -/
theorem newHeadlessRule_group {networkManager : Bool} {g : AdGuardGroup} {invert : Bool}
    {rule : HeadlessRule} (h : newHeadlessRule lib networkManager (g.rule invert) = .ok rule) :
    ∃ r regexps, rule = .default r ∧
      parseIfNonempty (some g.domainRegex) "domain_regex" (compileExpressions lib 0) = .ok regexps ∧
      r.toAbstractDefaultRule = destinationOnly Empty (g.items lib regexps) invert := by
  obtain ⟨-, r, hr, rfl⟩ := newDefault_eq_ok.1 h
  obtain ⟨parsed, hparsed, rfl⟩ := newDefaultHeadlessRule_eq_ok hr
  obtain ⟨hdom, hregex, ⟨source, hsrc, hsrc'⟩, ⟨ipSet, hipSet, hipSet'⟩, hsourceRange,
    hrange, hpathRegex⟩ := parseItems_eq_ok.1 hparsed
  refine ⟨_, parsed.domainRegex, rfl, hregex, ?_⟩
  -- none of the other options is set
  simp only [parseDomain, parseIfNonempty, nonempty_none, Bool.or_false, Bool.false_eq_true,
    if_false, Option.map_none, Except.ok.injEq] at hdom hsrc hipSet hsourceRange
  simp only [parseIfNonempty, nonempty_none, Bool.false_eq_true, if_false, Except.ok.injEq]
    at hrange hpathRegex
  subst hsrc hipSet
  simp [assembleHeadlessRule, headlessGroups, destinationOnly, items, plainItems,
    networkItems, listItem, itemIf, nonempty_none, nonempty_some, elems_some, adGuardItems,
    ← hdom, hsrc', hipSet', ← hsourceRange, ← hrange, ← hpathRegex, optionalItem]

section

variable {g : AdGuardGroup} {regexps : Option (List (GoString → Bool))}
  (hregexps : parseIfNonempty (some g.domainRegex) "domain_regex"
    (compileExpressions lib 0) = .ok regexps)

include hregexps

theorem regexps_cases :
    g.domainRegex = [] ∧ regexps = none ∨
      g.domainRegex ≠ [] ∧ ∃ matchers, regexps = some matchers ∧
        List.Forall₂ (fun regex matcher => lib.compileRegexp regex = some matcher)
          g.domainRegex matchers := by
  rw [parseIfNonempty, nonempty_some, elems_some] at hregexps
  cases hempty : g.domainRegex.isEmpty with
  | true =>
    simp only [hempty, Bool.not_true, Bool.false_eq_true, if_false, Except.ok.injEq] at hregexps
    exact .inl ⟨List.isEmpty_iff.1 hempty, hregexps.symm⟩
  | false =>
    simp only [hempty, Bool.not_false, if_true] at hregexps
    cases hcompiled : compileExpressions lib 0 g.domainRegex with
    | error err => simp [hcompiled] at hregexps
    | ok matchers =>
      simp only [hcompiled, Except.ok.injEq] at hregexps
      exact .inr ⟨by simpa using hempty, matchers, hregexps.symm,
        compileExpressions_eq_ok.1 hcompiled⟩

theorem items_eq_nil : g.items lib regexps = [] ↔ g.isEmpty := by
  rcases regexps_cases hregexps with ⟨hnil, rfl⟩ | ⟨hcons, matchers, rfl, -⟩
  · cases hdom : g.domain.isEmpty <;> simp [items, isEmpty, optionalItem, itemIf, hnil, hdom]
  · simp [items, isEmpty, optionalItem, hcons]

theorem exists_items_match (env : Environment) {m : InboundContext} (hhost : m.domainHost ≠ [])
    (hindependent : g.Independent lib) :
    (∃ it ∈ g.items lib regexps, it.Match env m) ↔
      g.matchesName lib (env.toLower m.domainHost) := by
  have hdom : (∃ it ∈ itemIf (!g.domain.isEmpty)
      (.adGuardDomain (lib.newAdGuardMatcher g.domain).Match), it.Match env m) ↔
      (g.domain.any fun text =>
        (lib.newAdGuardMatcher [text]).Match (env.toLower m.domainHost)) := by
    cases hempty : g.domain.isEmpty with
    | true => simp [itemIf, List.isEmpty_iff.1 hempty]
    | false =>
      simp only [itemIf, Bool.not_false, if_true, mem_singleton, exists_eq_left,
        RuleItem.Match, RuleItem.matchDomainHost, hhost, if_false, hindependent _]
  have hregex : (∃ it ∈ optionalItem regexps .domainRegex, it.Match env m) ↔
      (g.domainRegex.any fun text =>
        match lib.compileRegexp text with
        | some expression => expression (env.toLower m.domainHost)
        | none => false) := by
    rcases regexps_cases hregexps with ⟨hnil, rfl⟩ | ⟨-, matchers, rfl, hmatchers⟩
    · simp [optionalItem, hnil]
    · simp only [optionalItem, Option.map_some, Option.toList_some, mem_singleton,
        exists_eq_left, RuleItem.Match, RuleItem.matchDomainHost, hhost, if_false,
        any_compiled hmatchers]
  rw [items, matchesName, Bool.or_eq_true, ← hdom, ← hregex, or_comm]
  simp only [mem_append, or_and_right, exists_or]

end

/-! ### The nesting -/

/-- Whatever rule the options give, it matches a connection to the name exactly if `P`. -/
def Decides (lib : Libraries) (env : Environment) (name : GoString) (options : HeadlessRuleOptions)
    (P : Prop) : Prop :=
  ∀ networkManager rule, newHeadlessRule lib networkManager options = .ok rule →
    ∀ m : InboundContext, m.domainHost ≠ [] → env.toLower m.domainHost = name →
      ((headlessMeaning env rule).Holds m ↔ P)

section

variable {env : Environment} {name : GoString} {options options' : HeadlessRuleOptions}
  {P P' : Prop}

/-- **The rule of a group** matches the names that the group matches, or those that it does not;
that of an empty group matches every name. -/
theorem decides_rule {g : AdGuardGroup} (hg : g.Independent lib) (invert : Bool) :
    Decides lib env name (g.rule invert)
      (g.isEmpty ∨ (g.matchesName lib name ↔ invert = false)) := by
  intro networkManager rule h m hhost hname
  obtain ⟨r, regexps, rfl, hregexps, hr⟩ := newHeadlessRule_group h
  rw [headlessMeaning, RuleTree.meaning, hr, holds_destinationOnly, items_eq_nil hregexps,
    exists_items_match hregexps env hhost hg, hname]

theorem newHeadlessRule_pair {networkManager : Bool} {mode : LogicalType} {rule : HeadlessRule}
    (h : newHeadlessRule lib networkManager (.logical (.known mode) false [options, options']) =
      .ok rule) :
    ∃ r r', newHeadlessRule lib networkManager options = .ok r ∧
      newHeadlessRule lib networkManager options' = .ok r' ∧
        rule = .logical mode false [r, r'] := by
  obtain ⟨-, _, rules, hmode, hrules, rfl⟩ := newLogical_eq_ok.1 h
  obtain rfl := LogicalModeOption.known.inj hmode
  cases newHeadlessRules_eq_ok.1 hrules with
  | cons hr hrest =>
    cases hrest with
    | cons hr' hnil =>
      cases hnil
      exact ⟨_, _, hr, hr', rfl⟩

variable (h : Decides lib env name options P)

include h

theorem Decides.and (h' : Decides lib env name options' P') :
    Decides lib env name (.logical (.known .and) false [options, options']) (P ∧ P') := by
  intro networkManager rule hrule m hhost hname
  obtain ⟨r, r', hr, hr', rfl⟩ := newHeadlessRule_pair hrule
  rw [headlessMeaning, RuleTree.meaning, logicalMeaning, invertIf_false, holds_allOf]
  simp only [RuleTree.meanings, forall_mem_cons, not_mem_nil, false_imp_iff, implies_true, and_true]
  exact and_congr (h _ _ hr m.resetRuleCache hhost hname) (h' _ _ hr' m.resetRuleCache hhost hname)

theorem Decides.or (h' : Decides lib env name options' P') :
    Decides lib env name (.logical (.known .or) false [options, options']) (P ∨ P') := by
  intro networkManager rule hrule m hhost hname
  obtain ⟨r, r', hr, hr', rfl⟩ := newHeadlessRule_pair hrule
  rw [headlessMeaning, RuleTree.meaning, logicalMeaning, invertIf_false, holds_oneOf]
  simp only [RuleTree.meanings, exists_mem_cons_iff, not_mem_nil, false_and, exists_false, or_false]
  exact or_congr (h _ _ hr m.resetRuleCache hhost hname) (h' _ _ hr' m.resetRuleCache hhost hname)

theorem Decides.of_iff (hP : P ↔ P') : Decides lib env name options P' :=
  fun networkManager rule hrule m hhost hname =>
    (h networkManager rule hrule m hhost hname).trans hP

variable {g : AdGuardGroup} (hg : g.Independent lib)

include hg

/-- Exceptions before a rule: none of them may match. -/
theorem Decides.before_and :
    Decides lib env name (g.before .and true options) (g.matchesName lib name = false ∧ P) := by
  rw [before]
  cases hempty : g.isEmpty with
  | true => exact h.of_iff (by simp [matchesName_of_isEmpty hempty])
  | false => exact ((decides_rule hg true).and h).of_iff (by simp [hempty])

/-- Important rules before a rule: one of them suffices. -/
theorem Decides.before_or :
    Decides lib env name (g.before .or false options) (g.matchesName lib name ∨ P) := by
  rw [before]
  cases hempty : g.isEmpty with
  | true => exact h.of_iff (by simp [matchesName_of_isEmpty hempty])
  | false => exact ((decides_rule hg false).or h).of_iff (by simp [hempty])

end

/-- The matchers for the four groups of a text match what their patterns match. -/
def GroupsIndependent (lib : Libraries) (ruleLines : List AdGuardRuleLine) : Prop :=
  ∀ isImportant isExclude, (adGuardGroup ruleLines isImportant isExclude).Independent lib

/-- **The nested rule**: the order of precedence, where the absence of plain rules counts as a plain
rule that matches every name. -/
theorem decides_adGuardRule
    (h : GroupsIndependent lib ruleLines) (env : Environment) (name : GoString) :
    Decides lib env name (adGuardRule ruleLines)
      (someMatches lib ruleLines true true name = false ∧
        (someMatches lib ruleLines true false name ∨
          someMatches lib ruleLines false true name = false ∧
            (¬HasPlainRule ruleLines ∨ someMatches lib ruleLines false false name))) := by
  have hplain : Decides lib env name _ _ := decides_rule (h false false) false
  have hnested := ((hplain.before_and (h false true)).before_or (h true false)).before_and
    (h true true)
  refine hnested.of_iff ?_
  have hempty : (adGuardGroup ruleLines false false).isEmpty ↔ ¬HasPlainRule ruleLines := by
    rw [HasPlainRule, ← isEmpty_adGuardGroup, Bool.not_eq_false]
  rw [hempty]
  simp only [matchesName_adGuardGroup, iff_true]

theorem toOptions_nested {text : GoString} (hlines : adGuardRuleLines text = .ok ruleLines)
    (hraw : ruleLines.all AdGuardRuleLine.isRawDomain = false) :
    toOptions text = .ok [adGuardRule ruleLines] := by
  cases ruleLines with
  | nil => simp at hraw
  | cons it rest =>
    rw [toOptions, hlines]
    simp only [hraw, isEmpty_cons, Bool.false_eq_true, if_false]

/-- **Where the converted rule keeps the order of precedence.**  Let a text be converted to a rule,
its lines not all plain names.  The rule matches exactly the names that are blocked where the text
has a plain rule, or where an exception or an important rule matches the name; it matches every
other name, though nothing blocks it. -/
theorem match_iff_blocked_iff {lib : Libraries} {text : GoString} {ruleLines : List AdGuardRuleLine}
    {options : HeadlessRuleOptions} {networkManager : Bool} {rule : HeadlessRule}
    (hlines : adGuardRuleLines text = .ok ruleLines)
    (hraw : ruleLines.all AdGuardRuleLine.isRawDomain = false)
    (htext : toOptions text = .ok [options]) (hindependent : GroupsIndependent lib ruleLines)
    (hrule : newHeadlessRule lib networkManager options = .ok rule) (env : Environment)
    (m : InboundContext) (hhost : m.domainHost ≠ []) :
    (HeadlessRule.Match env rule m = true ↔ Blocked lib ruleLines (env.toLower m.domainHost)) ↔
      HasPlainRule ruleLines ∨
        someMatches lib ruleLines true true (env.toLower m.domainHost) = true ∨
        someMatches lib ruleLines true false (env.toLower m.domainHost) = true ∨
        someMatches lib ruleLines false true (env.toLower m.domainHost) = true := by
  rw [toOptions_nested hlines hraw] at htext
  obtain rfl : adGuardRule ruleLines = options := singleton_injective (Except.ok.inj htext)
  rw [headless_match_iff, Blocked,
    decides_adGuardRule hindependent env _ networkManager rule hrule m hhost rfl]
  by_cases hplain : HasPlainRule ruleLines
  · simp [hplain]
  · rw [someMatches_of_not_hasPlainRule hplain]
    cases someMatches lib ruleLines true true (env.toLower m.domainHost) <;>
      cases someMatches lib ruleLines true false (env.toLower m.domainHost) <;>
      cases someMatches lib ruleLines false true (env.toLower m.domainHost) <;>
      simp [hplain]

theorem groupsIndependent_textLibraries (ruleLines : List AdGuardRuleLine) :
    GroupsIndependent textLibraries ruleLines := by
  intro isImportant isExclude name
  simp [textLibraries]

/-- A filter with a rule and an exception from it. -/
def subdomainFilter : GoString := "||example.org^\n@@||safe.example.org^"

def subdomainLines : List AdGuardRuleLine :=
  [{ ruleLine := "example.org", isSuffix := true, hasEnd := true },
    { ruleLine := "safe.example.org", isExclude := true, isSuffix := true,
      hasEnd := true }]

theorem subdomainFilter_match_iff_blocked :
    ∃ rule, adGuardRuleLines subdomainFilter = .ok subdomainLines ∧
      toOptions subdomainFilter = .ok [adGuardRule subdomainLines] ∧
      newHeadlessRule textLibraries false (adGuardRule subdomainLines) = .ok rule ∧
      (HeadlessRule.Match .offline rule { domain := "a.safe.example.org" } =
          true ↔
        Blocked textLibraries subdomainLines "a.safe.example.org") := by
  have hlines : adGuardRuleLines subdomainFilter = .ok subdomainLines := by decide
  have htext := toOptions_nested hlines (by decide)
  refine ⟨_, hlines, htext, rfl, ?_⟩
  exact (match_iff_blocked_iff hlines (by decide) htext (groupsIndependent_textLibraries _) rfl
    .offline { domain := "a.safe.example.org" } (by decide)).2 (.inl (by decide))

/-- A filter with an exception only. -/
def exceptionFilter : GoString := "@@||safe.org^"

def exceptionLines : List AdGuardRuleLine :=
  [{ ruleLine := "safe.org", isExclude := true, isSuffix := true,
      hasEnd := true }]

/-- The filter blocks nothing, but its rule matches a name that the exception is not about. -/
theorem exceptionFilter_blocks :
    ∃ rule, adGuardRuleLines exceptionFilter = .ok exceptionLines ∧
      toOptions exceptionFilter = .ok [adGuardRule exceptionLines] ∧
      newHeadlessRule textLibraries false (adGuardRule exceptionLines) = .ok rule ∧
      HeadlessRule.Match .offline rule { domain := "other.org" } = true ∧
      ¬Blocked textLibraries exceptionLines "other.org" := by
  have hlines : adGuardRuleLines exceptionFilter = .ok exceptionLines := by decide
  exact ⟨_, hlines, toOptions_nested hlines (by decide), rfl, rfl, by decide⟩

end SingBox
