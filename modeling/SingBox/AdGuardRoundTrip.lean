/-
**From an AdGuard filter to options and back** (`common/convertor/adguard/convertor.go`).

`FromOptions` writes the nested rule of a filter as a text again, telling the kinds of rules apart
by the nesting alone.  The text has the same meaning, with three exceptions: the exceptions come
back as important ones if the filter has no important exception, important expressions are not read,
and plain names, if nothing else is left, come back as a list of names that must match exactly.

* `recoverGroups_adGuardRule` — what the nested rule is taken for;
* `fromOptions_adGuardRule` — the text that is written;
* `exists_adGuardRule` — when the nested rule can be constructed;
* `recompiles_iff` — when the text that is written has the same meaning.
-/

import SingBox.AdGuardPrecedence
import SingBox.AdGuardRendering
import Mathlib.Algebra.Order.BigOperators.Group.List

namespace SingBox

open GoString AdGuardRuleLine HeadlessRule List AdGuardGroups Environment

/-! ### The groups that are recovered -/

/-- The four groups of rules. -/
def AdGuardGroups.of (ruleLines : List AdGuardRuleLine) : AdGuardGroups where
  important := adGuardGroup ruleLines true false
  importantExclude := adGuardGroup ruleLines true true
  plain := adGuardGroup ruleLines false false
  exclude := adGuardGroup ruleLines false true

/-- Some rule is an important exception. -/
def HasImportantException (ruleLines : List AdGuardRuleLine) : Prop :=
  ∃ it ∈ ruleLines, it.isImportant ∧ it.isExclude

instance (ruleLines : List AdGuardRuleLine) : Decidable (HasImportantException ruleLines) :=
  inferInstanceAs (Decidable (∃ it ∈ ruleLines, _ ∧ _))

/-- The rules as `FromOptions` takes them: without important exceptions, the exceptions are taken
for important ones. -/
def promoted (ruleLines : List AdGuardRuleLine) : List AdGuardRuleLine :=
  if HasImportantException ruleLines then ruleLines
  else ruleLines.map fun it => { it with isImportant := it.isImportant || it.isExclude }

theorem AdGuardGroup.eq_of_isEmpty {g : AdGuardGroup} (h : g.isEmpty) : g = ⟨[], []⟩ := by
  obtain ⟨domain, domainRegex⟩ := g
  rw [isEmpty, Bool.and_eq_true, List.isEmpty_iff, List.isEmpty_iff] at h
  obtain ⟨rfl, rfl⟩ := h
  rfl

section

variable (groups : AdGuardGroups) (g : AdGuardGroup) (rest : HeadlessRuleOptions)

theorem recoverGroups_rule : recoverGroups groups (g.rule false) =
    if g.isEmpty then .error errInvalidAdGuard else .ok { groups with plain := g } := rfl

variable {groups}

theorem recoverGroups_before_or (hgroups : groups.important = ⟨[], []⟩) :
    recoverGroups groups (g.before .or false rest) =
      recoverGroups { groups with important := g } rest := by
  cases hempty : g.isEmpty with
  | true =>
    rw [AdGuardGroup.before, hempty, if_pos rfl, AdGuardGroup.eq_of_isEmpty hempty, ← hgroups]
  | false =>
    simp [AdGuardGroup.before, hempty, AdGuardGroup.rule, recoverGroups, AdGuardGroup.ofOptions,
      elems_some]

theorem recoverGroups_before_and (hgroups : groups.exclude = ⟨[], []⟩) :
    recoverGroups groups (g.before .and true rest) =
      if groups.importantExclude.isEmpty then
        recoverGroups { groups with importantExclude := g } rest
      else recoverGroups { groups with exclude := g } rest := by
  cases hempty : g.isEmpty with
  | true =>
    rw [AdGuardGroup.before, hempty, if_pos rfl, AdGuardGroup.eq_of_isEmpty hempty]
    split
    · rename_i himp
      rw [← AdGuardGroup.eq_of_isEmpty himp]
    · rw [← hgroups]
  | false =>
    simp [AdGuardGroup.before, hempty, AdGuardGroup.rule, recoverGroups, AdGuardGroup.ofOptions,
      elems_some]

end

variable {ruleLines : List AdGuardRuleLine}

theorem adGuardGroup_promoted
    (h : ¬HasImportantException ruleLines) (isImportant isExclude : Bool) :
    adGuardGroup (promoted ruleLines) isImportant isExclude =
      if isExclude then
        if isImportant then adGuardGroup ruleLines false true else ⟨[], []⟩
      else adGuardGroup ruleLines isImportant false := by
  have hno : ∀ it ∈ ruleLines, it.isExclude → it.isImportant = false := by
    intro it hit hexclude
    rw [← Bool.not_eq_true]
    exact fun himp => h ⟨it, hit, himp, hexclude⟩
  have hfilter : ∀ p q : AdGuardRuleLine → Bool,
      (∀ it ∈ ruleLines, p { it with isImportant := it.isImportant || it.isExclude } = q it) →
      ((promoted ruleLines).filter p).map text = (ruleLines.filter q).map text := by
    intro p q hpq
    rw [promoted, if_neg h, filter_map, List.map_map, ← filter_congr hpq]
    rfl
  have hnone : ∀ p : AdGuardRuleLine → Bool,
      (∀ it ∈ ruleLines, p { it with isImportant := it.isImportant || it.isExclude } = false) →
      ((promoted ruleLines).filter p).map text = [] := by
    intro p hp
    rw [hfilter p (fun _ => false) hp, filter_false, map_nil]
  cases isExclude with
  | false =>
    rw [if_neg Bool.false_ne_true, adGuardGroup, adGuardGroup, AdGuardGroup.mk.injEq]
    constructor <;>
    · refine hfilter _ _ fun it hit => ?_
      cases hexclude : it.isExclude <;> simp
  | true =>
    rw [if_pos rfl]
    cases isImportant with
    | true =>
      rw [if_pos rfl, adGuardGroup, adGuardGroup, AdGuardGroup.mk.injEq]
      constructor <;>
      · refine hfilter _ _ fun it hit => ?_
        cases hexclude : it.isExclude with
        | false => simp
        | true => simp [hno it hit hexclude]
    | false =>
      rw [if_neg Bool.false_ne_true, adGuardGroup, AdGuardGroup.mk.injEq]
      constructor <;>
      · refine hnone _ fun it hit => ?_
        cases hexclude : it.isExclude <;> simp

/-- **What `FromOptions` takes the rule for.** -/
theorem recoverGroups_adGuardRule :
    recoverGroups {} (adGuardRule ruleLines) =
      if (adGuardGroup ruleLines false false).isEmpty then .error errInvalidAdGuard
      else .ok (of (promoted ruleLines)) := by
  have hne := isEmpty_adGuardGroup ruleLines true true
  have hgroups : of (promoted ruleLines) =
      if (adGuardGroup ruleLines true true).isEmpty then
        { important := adGuardGroup ruleLines true false
          importantExclude := adGuardGroup ruleLines false true
          plain := adGuardGroup ruleLines false false }
      else of ruleLines := by
    by_cases hhas : HasImportantException ruleLines
    · rw [promoted, if_pos hhas, hne.2 hhas, if_neg Bool.false_ne_true]
    · have hempty : (adGuardGroup ruleLines true true).isEmpty := by
        rw [← Bool.not_eq_false, hne]
        exact hhas
      simp only [of, adGuardGroup_promoted hhas, hempty, if_true, Bool.false_eq_true, if_false]
  rw [hgroups, adGuardRule, recoverGroups_before_and _ _ rfl, if_pos (by decide),
    recoverGroups_before_or _ _ rfl, recoverGroups_before_and _ _ rfl, recoverGroups_rule,
    recoverGroups_rule]
  split
  · rfl
  · split <;> rfl

/-- The rules of one kind, patterns first. -/
def rulesOfKind (ruleLines : List AdGuardRuleLine) (isImportant isExclude : Bool) :
    List AdGuardRuleLine :=
  (ruleLines.filter fun it =>
    it.isImportant == isImportant && !it.isRegexp && it.isExclude == isExclude) ++
  ruleLines.filter fun it =>
    it.isImportant == isImportant && it.isRegexp && it.isExclude == isExclude

/-- The rules in the order in which they are written. -/
def writtenRules (ruleLines : List AdGuardRuleLine) : List AdGuardRuleLine :=
  rulesOfKind ruleLines true false ++ rulesOfKind ruleLines true true ++
    rulesOfKind ruleLines false false ++ rulesOfKind ruleLines false true

variable {it : AdGuardRuleLine} {isImportant isExclude : Bool}

theorem mem_rulesOfKind :
    it ∈ rulesOfKind ruleLines isImportant isExclude ↔
      it ∈ ruleLines ∧ it.isImportant = isImportant ∧ it.isExclude = isExclude := by
  rw [rulesOfKind, mem_append, mem_filter, mem_filter, ← and_or_left]
  refine and_congr_right fun _ => ?_
  cases it.isRegexp <;> simp

theorem mem_writtenRules : it ∈ writtenRules ruleLines ↔ it ∈ ruleLines := by
  simp only [writtenRules, mem_append, mem_rulesOfKind, ← and_or_left]
  refine and_iff_left ?_
  cases it.isImportant <;> cases it.isExclude <;> simp

theorem lines_adGuardGroup :
    (adGuardGroup ruleLines isImportant isExclude).lines (if isExclude then "@@" else [])
        (if isImportant then "$important" else []) =
      (rulesOfKind ruleLines isImportant isExclude).map rendered := by
  rw [AdGuardGroup.lines, rulesOfKind, map_append, adGuardGroup, List.map_map, List.map_map]
  congr 1 <;>
  · refine map_congr_left fun it hit => ?_
    have hkind := (List.mem_filter.1 hit).2
    simp only [Bool.and_eq_true, beq_iff_eq, Bool.not_eq_true'] at hkind
    simp only [Function.comp_apply, rendered, hkind, Bool.false_eq_true, if_false,
      if_true, append_assoc]

/-- **The text that is written** is made of the lines of the rules, as `FromOptions` takes them. -/
theorem fromOptions_adGuardRule {text : GoString}
    (h : fromOptions [adGuardRule ruleLines] = .ok text) :
    HasPlainRule ruleLines ∧
      text = ((writtenRules (promoted ruleLines)).map rendered).flatMap
        fun line => line ++ ofString "\n" := by
  have hplain := isEmpty_adGuardGroup ruleLines false false
  rw [fromOptions, recoverGroups_adGuardRule] at h
  cases hempty : (adGuardGroup ruleLines false false).isEmpty with
  | true => simp [hempty] at h
  | false =>
    simp only [hempty, Bool.false_eq_true, if_false, Except.ok.injEq] at h
    refine ⟨hplain.1 hempty, ?_⟩
    rw [← h, AdGuardGroups.lines, writtenRules]
    simp only [map_append, ← lines_adGuardGroup, of, if_true, Bool.false_eq_true, if_false]

/-! ### Construction of the rules -/

section

variable {lib : Libraries} {networkManager : Bool}

theorem newHeadlessRule_of_parseItems {options : DefaultHeadlessRuleOptions} {parsed : ParsedItems}
    (hvalid : options.isValid) (h : parseItems lib options = .ok parsed) :
    newHeadlessRule lib networkManager (.default options) =
      .ok (.default (assembleHeadlessRule lib networkManager options parsed)) := by
  refine newDefault_eq_ok.2 ⟨hvalid, _, ?_, rfl⟩
  rw [newDefaultHeadlessRule, h]

theorem exists_compileExpressions {i : ℕ} {regexps : List GoString} :
    (∃ matchers, compileExpressions lib i regexps = .ok matchers) ↔
      ∀ text ∈ regexps, (lib.compileRegexp text).isSome := by
  simp only [compileExpressions_eq_ok]
  induction regexps with
  | nil => simp
  | cons text regexps ih =>
    rw [forall_mem_cons, ← ih, Option.isSome_iff_exists]
    constructor
    · rintro ⟨_, h⟩
      cases h with
      | cons htext hrest => exact ⟨⟨_, htext⟩, _, hrest⟩
    · rintro ⟨⟨matcher, htext⟩, matchers, hrest⟩
      exact ⟨matcher :: matchers, .cons htext hrest⟩

theorem exists_parseIfNonempty {regexps : List GoString} (option : GoString) :
    (∃ matchers, parseIfNonempty (some regexps) option (compileExpressions lib 0) = .ok matchers) ↔
      ∀ text ∈ regexps, (lib.compileRegexp text).isSome := by
  rw [← exists_compileExpressions (i := 0), parseIfNonempty, nonempty_some, elems_some]
  cases regexps with
  | nil => simp [compileExpressions]
  | cons text regexps => cases compileExpressions lib 0 (text :: regexps) <;> simp

theorem exists_newHeadlessRule_group {g : AdGuardGroup} {invert : Bool} :
    (∃ rule, newHeadlessRule lib networkManager (g.rule invert) = .ok rule) ↔
      ∀ text ∈ g.domainRegex, (lib.compileRegexp text).isSome := by
  rw [← exists_parseIfNonempty "domain_regex"]
  constructor
  · rintro ⟨rule, hrule⟩
    obtain ⟨_, regexps, -, hregexps, -⟩ := newHeadlessRule_group hrule
    exact ⟨regexps, hregexps⟩
  · rintro ⟨regexps, hregexps⟩
    have hparsed : parseItems lib
        { adGuardDomain := some g.domain, domainRegex := some g.domainRegex, invert := invert } =
        .ok ⟨none, regexps, none, none, none, none, none⟩ :=
      parseItems_eq_ok.2 ⟨rfl, hregexps, ⟨none, rfl, rfl⟩, ⟨none, rfl, rfl⟩, rfl, rfl, rfl⟩
    exact ⟨_, newHeadlessRule_of_parseItems rfl hparsed⟩

theorem exists_newHeadlessRule_before {g : AdGuardGroup} {mode : LogicalType} {invert : Bool}
    {options : HeadlessRuleOptions} :
    (∃ rule, newHeadlessRule lib networkManager (g.before mode invert options) = .ok rule) ↔
      (∀ text ∈ g.domainRegex, (lib.compileRegexp text).isSome) ∧
        ∃ rule, newHeadlessRule lib networkManager options = .ok rule := by
  rw [AdGuardGroup.before]
  cases hempty : g.isEmpty with
  | true => simp [AdGuardGroup.eq_of_isEmpty hempty]
  | false =>
    rw [if_neg Bool.false_ne_true, ← exists_newHeadlessRule_group]
    constructor
    · rintro ⟨rule, hrule⟩
      obtain ⟨r, r', hr, hr', -⟩ := newHeadlessRule_pair hrule
      exact ⟨⟨r, hr⟩, r', hr'⟩
    · rintro ⟨⟨r, hr⟩, r', hr'⟩
      refine ⟨_, newLogical_eq_ok.2 ⟨?_, mode, [r, r'], rfl, ?_, rfl⟩⟩
      · rw [HeadlessRuleOptions.isValid, isEmpty_cons, Bool.not_false, Bool.true_and,
          HeadlessRuleOptions.allValid_eq_true]
        simp [isValid_of_newHeadlessRule hr, isValid_of_newHeadlessRule hr']
      · exact newHeadlessRules_eq_ok.2 (.cons hr (.cons hr' .nil))

/-- **The nested rule can be constructed** if every expression can be compiled. -/
theorem exists_adGuardRule :
    (∃ rule, newHeadlessRule lib networkManager (adGuardRule ruleLines) = .ok rule) ↔
      ∀ it ∈ ruleLines, it.isRegexp → (lib.compileRegexp it.text).isSome := by
  have hgroup : ∀ isImportant isExclude,
      (∀ text ∈ (adGuardGroup ruleLines isImportant isExclude).domainRegex,
        (lib.compileRegexp text).isSome) ↔
      ∀ it ∈ ruleLines, it.isImportant = isImportant → it.isExclude = isExclude →
        it.isRegexp → (lib.compileRegexp it.text).isSome := by
    intro isImportant isExclude
    simp only [adGuardGroup, forall_mem_map, mem_filter, Bool.and_eq_true, beq_iff_eq]
    exact forall_congr' fun it => by tauto
  rw [adGuardRule, exists_newHeadlessRule_before, exists_newHeadlessRule_before,
    exists_newHeadlessRule_before, exists_newHeadlessRule_group, hgroup, hgroup, hgroup, hgroup]
  constructor
  · rintro ⟨htt, htf, hft, hff⟩ it hit
    cases himp : it.isImportant <;> cases hexclude : it.isExclude
    · exact hff it hit himp hexclude
    · exact hft it hit himp hexclude
    · exact htf it hit himp hexclude
    · exact htt it hit himp hexclude
  · intro h
    exact ⟨fun it hit _ _ => h it hit, fun it hit _ _ => h it hit, fun it hit _ _ => h it hit,
      fun it hit _ _ => h it hit⟩

/-- **A rule of names** matches what the matcher for the names matches. -/
theorem newHeadlessRule_names (networkManager : Bool) (env : Environment)
    {names : List GoString} (hnames : names ≠ []) (hempty : [] ∉ names) :
    ∃ rule, newHeadlessRule lib networkManager (.default { domain := some names }) = .ok rule ∧
      ∀ m : InboundContext, m.domainHost ≠ [] → (Match env rule m ↔
        (lib.newMatcher names [] false).Match (env.toLower m.domainHost)) := by
  have hdom : parseDomain lib { domain := some names } =
      .ok (some (lib.newMatcher names [] false).Match) := by
    simp [parseDomain, nonempty_some, nonempty_none, hnames, newDomainItem, hempty,
      Listable.elems, Except.map]
  have hparsed : parseItems lib { domain := some names } =
      .ok ⟨some (lib.newMatcher names [] false).Match, none, none, none, none, none, none⟩ :=
    parseItems_eq_ok.2 ⟨hdom, rfl, ⟨none, rfl, rfl⟩, ⟨none, rfl, rfl⟩, rfl, rfl, rfl⟩
  refine ⟨_, newHeadlessRule_of_parseItems rfl hparsed, fun m hhost => ?_⟩
  have hrule : (assembleHeadlessRule lib networkManager { domain := some names }
      ⟨some (lib.newMatcher names [] false).Match, none, none, none, none, none, none⟩
      ).toAbstractDefaultRule =
      destinationOnly Empty [.domain (lib.newMatcher names [] false).Match] false := by
    simp [assembleHeadlessRule, headlessGroups, destinationOnly, plainItems, networkItems, listItem,
      itemIf, nonempty_none, adGuardItems, optionalItem]
  rw [headless_match_iff, headlessMeaning, RuleTree.meaning, hrule, holds_destinationOnly]
  simp [RuleItem.Match, RuleItem.matchDomainHost, hhost]

end

/-! ### The meaning of the text that is written -/

def isUpperByte (c : UInt8) : Bool := 65 ≤ c && c ≤ 90

/-- What is assumed of the matchers and of `strings.ToLower`, for the rules at hand: a matcher for
several patterns matches what one of them matches; a matcher for names matches these names; a plain
name as a pattern matches names that end in it, and no name in lower case if it has a capital; and
lowering leaves no capitals and changes nothing else in a name. -/
structure MatchersAgree (lib : Libraries) (env : Environment) (ruleLines : List AdGuardRuleLine) :
    Prop where
  independent : ∀ texts : List GoString, (∀ text ∈ texts, ∃ it ∈ ruleLines, it.text = text) →
    ∀ name, (lib.newAdGuardMatcher texts).Match name =
      texts.any fun text => (lib.newAdGuardMatcher [text]).Match name
  names : ∀ names : List GoString, (∀ name ∈ names, isDomainName name) →
    ∀ name, (lib.newMatcher names [] false).Match name = names.contains name
  unanchored : ∀ it ∈ ruleLines, isDomainName it.text → ∀ n,
    (lib.newAdGuardMatcher [it.text]).Match (List.replicate n 120 ++ it.text)
  capitals : ∀ it ∈ ruleLines, isDomainName it.text → it.text.any isUpperByte →
    ∀ name : GoString, name.any isUpperByte = false →
      (lib.newAdGuardMatcher [it.text]).Match name = false
  lowered : ∀ name, (env.toLower name).any isUpperByte = false
  toLower : ∀ name : GoString, (∀ c ∈ name, isNameByte c) →
    name.any isUpperByte = false → env.toLower name = name

/-- The text is converted to a rule that matches the same names. -/
def SameMatches (lib : Libraries) (env : Environment) (networkManager : Bool) (text : GoString)
    (rule : HeadlessRule) : Prop :=
  ∃ options rule', toOptions text = .ok [options] ∧
    newHeadlessRule lib networkManager options = .ok rule' ∧
    ∀ m : InboundContext, m.domainHost ≠ [] → (Match env rule' m ↔ Match env rule m)

/-- The text has the same meaning as the rule of the filter: it is converted to a rule that matches
the same names, and its important exceptions are important exceptions of the filter. -/
structure Recompiles (lib : Libraries) (env : Environment) (networkManager : Bool)
    (ruleLines : List AdGuardRuleLine) (rule : HeadlessRule) (text : GoString) : Prop where
  sameMatches : SameMatches lib env networkManager text rule
  exceptions : ∀ line ∈ text.split 10, (ofString "@@").isPrefixOf line →
    (ofString "$important").isSuffixOf line →
      ∃ it ∈ ruleLines, it.isExclude ∧ it.isImportant ∧ it.rendered = line

/-- The rules whose lines are read again. -/
def keptRules (ruleLines : List AdGuardRuleLine) : List AdGuardRuleLine :=
  ruleLines.filter fun it => !it.lost

/-- An important expression matches the name. -/
def lostMatches (lib : Libraries) (ruleLines : List AdGuardRuleLine) (name : GoString) : Bool :=
  ruleLines.any fun it => it.lost && it.matchesName lib name

theorem mem_keptRules : it ∈ keptRules ruleLines ↔ it ∈ ruleLines ∧ it.lost = false := by
  rw [keptRules, mem_filter, Bool.not_eq_true']

section

variable (lib : Libraries) (ruleLines : List AdGuardRuleLine) (name : GoString)

theorem someMatches_keptRules (h : isImportant = false ∨ isExclude) :
    someMatches lib (keptRules ruleLines) isImportant isExclude name =
      someMatches lib ruleLines isImportant isExclude name := by
  rw [Bool.eq_iff_iff]
  simp only [someMatches, any_eq_true, mem_keptRules, Bool.and_eq_true, beq_iff_eq]
  refine exists_congr fun it => and_congr_left ?_
  rintro ⟨⟨himp, hexclude⟩, -⟩
  refine and_iff_left ?_
  rcases h with h | h <;> simp [lost, himp, hexclude, h]

theorem someMatches_important :
    someMatches lib ruleLines true false name =
      (someMatches lib (keptRules ruleLines) true false name ||
        lostMatches lib ruleLines name) := by
  rw [Bool.eq_iff_iff]
  simp only [someMatches, lostMatches, Bool.or_eq_true, any_eq_true,
    mem_keptRules, Bool.and_eq_true, beq_iff_eq, ← exists_or]
  refine exists_congr fun it => ?_
  cases hlost : it.lost with
  | false => simp
  | true =>
    simp only [lost, Bool.and_eq_true, Bool.not_eq_true'] at hlost
    simp [hlost.1.1, hlost.2]

variable {lib ruleLines}

theorem someMatches_reread {ruleLines' : List AdGuardRuleLine}
    (h : List.Forall₂ Reread ruleLines ruleLines') (isImportant isExclude : Bool) :
    someMatches lib ruleLines' isImportant isExclude name =
      someMatches lib ruleLines isImportant isExclude name := by
  induction h with
  | nil => rfl
  | cons hit _ ih =>
    simp only [someMatches, any_cons, matchesName, hit.text, hit.isRegexp,
      hit.isExclude, hit.isImportant] at ih ⊢
    rw [ih]

theorem someMatches_keptRules_writtenRules :
    someMatches lib (keptRules (writtenRules ruleLines)) isImportant isExclude name =
      someMatches lib (keptRules ruleLines) isImportant isExclude name := by
  rw [Bool.eq_iff_iff]
  simp only [someMatches, any_eq_true, mem_keptRules, mem_writtenRules]

end

theorem exists_left_of_forall₂ {α β : Type} {R : α → β → Prop} {l : List α} {l' : List β}
    (h : List.Forall₂ R l l') : ∀ b ∈ l', ∃ a ∈ l, R a b := by
  induction h with
  | nil => simp
  | cons hab _ ih =>
    rw [forall_mem_cons]
    refine ⟨⟨_, mem_cons_self, hab⟩, fun b hb => ?_⟩
    obtain ⟨a, ha, hR⟩ := ih b hb
    exact ⟨a, mem_cons_of_mem _ ha, hR⟩

section

variable {ruleLines' : List AdGuardRuleLine} (h : List.Forall₂ Reread ruleLines ruleLines')

include h

theorem all_isRawDomain_reread :
    ruleLines'.all isRawDomain = ruleLines.all fun it => isDomainName it.rendered := by
  induction h with
  | nil => rfl
  | cons hit _ ih => rw [all_cons, all_cons, ih, hit.isRawDomain]

theorem map_ruleLine_reread (hraw : ruleLines'.all isRawDomain) :
    ruleLines'.map ruleLine = ruleLines.map text := by
  induction h with
  | nil => rfl
  | cons hit _ ih =>
    rw [all_cons, Bool.and_eq_true] at hraw
    rw [map_cons, map_cons, ih hraw.2, hit.ruleLine hraw.1]

end

theorem plain_of_rendered (h : isDomainName it.rendered) :
    it.isImportant = false ∧ it.isExclude = false ∧ it.isRegexp = false ∧ isDomainName it.text := by
  -- each mark has a byte that is in no name
  have hno : ∀ (mark : Bool) (c : UInt8), isNameByte c = false → (mark → c ∈ it.rendered) →
      mark = false := by
    intro mark c hc hmem
    rw [← Bool.not_eq_true]
    intro hmark
    rw [isNameByte_of_domain h c (hmem hmark)] at hc
    cases hc
  have himp := hno it.isImportant 36 (by decide) fun h => by simp [rendered, h, ofString]
  have hexclude := hno it.isExclude 64 (by decide) fun h => by simp [rendered, h, ofString]
  have hre := hno it.isRegexp 47 (by decide) fun h => by simp [rendered, h, ofString]
  refine ⟨himp, hexclude, hre, ?_⟩
  simpa [rendered, himp, hexclude, hre] using h

/-- The exceptions keep their kind: some are important, or there are none. -/
def ExceptionsKept (ruleLines : List AdGuardRuleLine) : Prop :=
  HasImportantException ruleLines ∨ ∀ it ∈ ruleLines, it.isExclude = false

theorem promoted_eq_self (h : ExceptionsKept ruleLines) : promoted ruleLines = ruleLines := by
  rw [promoted]
  split
  · rfl
  · rename_i hhas
    have hno := h.resolve_left hhas
    refine (map_congr_left fun it hit => ?_).trans (map_id ruleLines)
    simp only [hno it hit, Bool.or_false]
    rw [← hno it hit]
    rfl

section

variable {lib : Libraries} {env : Environment} {networkManager : Bool}
  {ruleLines : List AdGuardRuleLine} {rule : HeadlessRule}
  (hreadable : ∀ it ∈ ruleLines, it.Readable) (hplain : HasPlainRule ruleLines)
  (hagree : MatchersAgree lib env ruleLines)
  (hrule : newHeadlessRule lib networkManager (adGuardRule ruleLines) = .ok rule)

/-- The text that is written for rules. -/
def writtenText (ruleLines : List AdGuardRuleLine) : GoString :=
  ((writtenRules ruleLines).map rendered).flatMap fun line => line ++ "\n"

include hreadable in
theorem adGuardRuleLines_writtenText :
    ∃ ruleLines', adGuardRuleLines (writtenText ruleLines) = .ok ruleLines' ∧
      List.Forall₂ Reread (keptRules (writtenRules ruleLines)) ruleLines' :=
  adGuardRuleLines_written fun it hit => hreadable it (mem_writtenRules.1 hit)

theorem MatchersAgree.groupsIndependent (hagree : MatchersAgree lib env ruleLines)
    {ruleLines' : List AdGuardRuleLine}
    (h : ∀ it' ∈ ruleLines', ∃ it ∈ ruleLines, it.text = it'.text) :
    GroupsIndependent lib ruleLines' := by
  intro isImportant isExclude
  refine hagree.independent _ fun text htext => ?_
  obtain ⟨it', hit', rfl⟩ := List.mem_map.1 htext
  exact h it' (List.mem_filter.1 hit').1

include hplain hrule in
theorem match_adGuardRule (env : Environment) (hindependent : GroupsIndependent lib ruleLines)
    (m : InboundContext) (hhost : m.domainHost ≠ []) :
    Match env rule m ↔
      someMatches lib ruleLines true true (env.toLower m.domainHost) = false ∧
        (someMatches lib ruleLines true false (env.toLower m.domainHost) ∨
          someMatches lib ruleLines false true (env.toLower m.domainHost) = false ∧
            someMatches lib ruleLines false false (env.toLower m.domainHost)) := by
  rw [headless_match_iff, decides_adGuardRule hindependent env _ networkManager rule hrule m hhost
    rfl]
  simp [hplain]

include hreadable hplain hagree hrule

/-- **What the text matches** if something other than plain names is read: what the filter matches
without its important expressions. -/
theorem match_writtenText
    (hnested : ∃ it ∈ ruleLines, it.lost = false ∧ isDomainName it.rendered = false) :
    ∃ options rule', toOptions (writtenText ruleLines) = .ok [options] ∧
      newHeadlessRule lib networkManager options = .ok rule' ∧
      ∀ m : InboundContext, m.domainHost ≠ [] → (Match env rule' m ↔
        someMatches lib ruleLines true true (env.toLower m.domainHost) = false ∧
          (someMatches lib (keptRules ruleLines) true false (env.toLower m.domainHost) ∨
            someMatches lib ruleLines false true (env.toLower m.domainHost) = false ∧
              someMatches lib ruleLines false false (env.toLower m.domainHost))) := by
  obtain ⟨ruleLines', hlines', hreread⟩ := adGuardRuleLines_writtenText hreadable
  have hleft : ∀ it' ∈ ruleLines', ∃ it ∈ ruleLines, it.Reread it' := by
    intro it' hit'
    obtain ⟨it, hit, h⟩ := exists_left_of_forall₂ hreread it' hit'
    exact ⟨it, mem_writtenRules.1 (mem_keptRules.1 hit).1, h⟩
  have hright : ∀ it ∈ ruleLines, it.lost = false → ∃ it' ∈ ruleLines', it.Reread it' :=
    fun it hit hlost => exists_left_of_forall₂ hreread.flip it
      (mem_keptRules.2 ⟨mem_writtenRules.2 hit, hlost⟩)
  -- the rules that are read are nested as well
  have hraw : ruleLines'.all isRawDomain = false := by
    obtain ⟨it, hit, hlost, hname⟩ := hnested
    obtain ⟨it', hit', h⟩ := hright it hit hlost
    exact List.all_eq_false.2 ⟨it', hit', by simp [h.isRawDomain, hname]⟩
  have hplain' : HasPlainRule ruleLines' := by
    obtain ⟨it, hit, himp, hexclude⟩ := hplain
    obtain ⟨it', hit', h⟩ := hright it hit (by simp [lost, himp])
    exact ⟨it', hit', h.isImportant.trans himp, h.isExclude.trans hexclude⟩
  obtain ⟨rule', hrule'⟩ : ∃ rule', newHeadlessRule lib networkManager (adGuardRule ruleLines') =
      .ok rule' := by
    rw [exists_adGuardRule]
    intro it' hit' hre
    obtain ⟨it, hit, h⟩ := hleft it' hit'
    rw [h.text]
    exact exists_adGuardRule.1 ⟨rule, hrule⟩ it hit (h.isRegexp ▸ hre)
  refine ⟨_, rule', toOptions_nested hlines' hraw, hrule', fun m hhost => ?_⟩
  have hindependent : GroupsIndependent lib ruleLines' := by
    refine hagree.groupsIndependent fun it' hit' => ?_
    obtain ⟨it, hit, h⟩ := hleft it' hit'
    exact ⟨it, hit, h.text.symm⟩
  rw [match_adGuardRule hplain' hrule' env hindependent m hhost]
  simp only [someMatches_reread _ hreread, someMatches_keptRules_writtenRules]
  rw [someMatches_keptRules lib ruleLines _ (.inr rfl), someMatches_keptRules lib ruleLines _
    (.inr rfl), someMatches_keptRules lib ruleLines _ (.inl rfl)]

omit hrule in
/-- **What the text matches** if only plain names are read: these names. -/
theorem match_writtenText_names (networkManager : Bool)
    (hnames : ∀ it ∈ ruleLines, it.lost = false → isDomainName it.rendered) :
    ∃ options rule', toOptions (writtenText ruleLines) = .ok [options] ∧
      newHeadlessRule lib networkManager options = .ok rule' ∧
      ∀ m : InboundContext, m.domainHost ≠ [] → (Match env rule' m ↔
        ∃ it ∈ ruleLines, it.lost = false ∧ it.text = env.toLower m.domainHost) := by
  obtain ⟨ruleLines', hlines', hreread⟩ := adGuardRuleLines_writtenText hreadable
  have hmem : ∀ it, it ∈ keptRules (writtenRules ruleLines) ↔ it ∈ ruleLines ∧ it.lost = false :=
    fun it => by rw [mem_keptRules, mem_writtenRules]
  have hraw : ruleLines'.all isRawDomain := by
    rw [all_isRawDomain_reread hreread, all_eq_true]
    exact fun it hit => hnames it ((hmem it).1 hit).1 ((hmem it).1 hit).2
  have hne : (keptRules (writtenRules ruleLines)).map text ≠ [] := by
    obtain ⟨it, hit, himp, -⟩ := hplain
    refine ne_nil_of_mem (mem_map_of_mem ((hmem it).2 ⟨hit, ?_⟩))
    simp [AdGuardRuleLine.lost, himp]
  have htexts : ∀ text ∈ (keptRules (writtenRules ruleLines)).map AdGuardRuleLine.text,
      isDomainName text := by
    intro text htext
    obtain ⟨it, hit, rfl⟩ := List.mem_map.1 htext
    obtain ⟨hit, hlost⟩ := (hmem it).1 hit
    exact (plain_of_rendered (hnames it hit hlost)).2.2.2
  obtain ⟨rule', hrule', hmatch⟩ := newHeadlessRule_names networkManager env hne
    fun hempty => absurd (htexts [] hempty) (by decide)
  refine ⟨_, rule', ?_, hrule', fun m hhost => ?_⟩
  · have hempty : ruleLines'.isEmpty = false := by
      rw [List.isEmpty_eq_false_iff]
      rintro rfl
      rw [← map_ruleLine_reread hreread hraw] at hne
      exact hne rfl
    rw [toOptions, hlines']
    simp only [hempty, hraw, Bool.false_eq_true, if_false, if_true,
      map_ruleLine_reread hreread hraw]
  · rw [hmatch m hhost, hagree.names _ htexts, contains_iff_mem, mem_map]
    simp only [hmem, and_assoc]

omit hreadable hplain hagree hrule

theorem split_writtenText (h : ∀ it ∈ ruleLines, 10 ∉ it.text) :
    (writtenText ruleLines).split 10 = (writtenRules ruleLines).map rendered ++ [[]] := by
  refine split_lines fun line hline => ?_
  obtain ⟨it, hit, rfl⟩ := List.mem_map.1 hline
  exact not_mem_rendered (h it (mem_writtenRules.1 hit))

theorem AdGuardRuleLine.Readable.important_exclude (h : it.Readable)
    (hfront : (ofString "@@").isPrefixOf it.rendered)
    (hback : (ofString "$important").isSuffixOf it.rendered) :
    it.isExclude ∧ it.isImportant := by
  obtain ⟨rest, hrest⟩ := List.isPrefixOf_iff_prefix.1 hfront
  obtain ⟨init, hinit⟩ := List.isSuffixOf_iff_suffix.1 hback
  have hhead : it.rendered.head? = some 64 := by
    rw [← hrest]
    rfl
  have hlast : it.rendered.getLast? = some 116 := by
    rw [← hinit]
    simp [ofString]
  cases hre : it.isRegexp with
  | true =>
    constructor
    · by_contra hexclude
      simp [rendered, hre, hexclude, ofString] at hhead
    · by_contra himp
      simp [rendered, hre, himp, ofString, getLast?_cons] at hlast
  | false =>
    obtain ⟨hne, hpat⟩ := h.pattern hre
    have hmem := fun c => mem_marked (c := c) hpat it.isExclude it.isSuffix it.hasStart it.hasEnd
    rw [← it.text_eq_marked] at hmem
    have htext : it.text ≠ [] := by simp [it.text_eq_marked, marked, hne]
    constructor
    · by_contra hexclude
      have hat : 64 ∈ it.text := by
        rw [rendered, hre, if_neg hexclude, if_neg Bool.false_ne_true,
          nil_append, head?_append_of_ne_nil _ htext] at hhead
        exact mem_of_mem_head? hhead
      rcases hmem 64 (mem_append_right _ hat) with h | h | h | h
      · exact absurd h (by decide)
      · exact hexclude h.2
      · exact absurd h (by decide)
      · exact absurd h (by decide)
    · by_contra himp
      have hmod : 36 ∈ it.rendered := by
        rw [← hinit]
        exact mem_append_right _ (by decide)
      rw [rendered, hre, if_neg himp, if_neg Bool.false_ne_true, append_nil] at hmod
      rcases hmem 36 hmod with h | h | h | h
      · exact absurd h (by decide)
      · exact absurd h.1 (by decide)
      · exact absurd h (by decide)
      · exact absurd h (by decide)

/-- Important exceptions of the text are important exceptions of the filter, unless exceptions were
promoted. -/
theorem exceptions_writtenText_iff (hreadable : ∀ it ∈ ruleLines, it.Readable) :
    (∀ line ∈ (writtenText (promoted ruleLines)).split 10,
      (ofString "@@").isPrefixOf line → (ofString "$important").isSuffixOf line →
        ∃ it ∈ ruleLines, it.isExclude ∧ it.isImportant ∧ it.rendered = line) ↔
      ExceptionsKept ruleLines := by
  constructor
  · intro h
    by_contra hkept
    rw [ExceptionsKept, not_or] at hkept
    obtain ⟨hhas, hexceptions⟩ := hkept
    push Not at hexceptions
    obtain ⟨it, hit, hexclude⟩ := hexceptions
    rw [ne_eq, Bool.not_eq_false] at hexclude
    -- the exception is written as an important one
    have hpromoted : promoted ruleLines = ruleLines.map fun it =>
        { it with isImportant := it.isImportant || it.isExclude } := if_neg hhas
    have htexts : ∀ it ∈ promoted ruleLines, 10 ∉ it.text := by
      rw [hpromoted, forall_mem_map]
      exact fun it hit => (hreadable it hit).not_mem_text
    rw [split_writtenText htexts, hpromoted] at h
    obtain ⟨it', hit', hexclude', himp', -⟩ := h
      ({ it with isImportant := it.isImportant || it.isExclude } : AdGuardRuleLine).rendered
      (mem_append_left _ (mem_map_of_mem (mem_writtenRules.2 (mem_map_of_mem hit))))
      (by simp [rendered, hexclude, isPrefixOf_iff_prefix])
      (by simp [rendered, hexclude, isSuffixOf_iff_suffix, -append_assoc])
    exact hhas ⟨it', hit', himp', hexclude'⟩
  · intro hkept line hline hfront hback
    rw [promoted_eq_self hkept, split_writtenText fun it hit => (hreadable it hit).not_mem_text,
      mem_append] at hline
    rcases hline with hline | hline
    · obtain ⟨it, hit, rfl⟩ := List.mem_map.1 hline
      have hit := mem_writtenRules.1 hit
      obtain ⟨hexclude, himp⟩ := (hreadable it hit).important_exclude hfront hback
      exact ⟨it, hit, hexclude, himp, rfl⟩
    · obtain rfl := List.mem_singleton.1 hline
      cases hfront

/-- The important expressions do not count: what they match is matched by an important exception, by
an important pattern, or by a plain rule and no exception. -/
def LostHarmless (lib : Libraries) (env : Environment) (ruleLines : List AdGuardRuleLine) : Prop :=
  ∀ host : GoString, host ≠ [] → lostMatches lib ruleLines (env.toLower host) →
    someMatches lib ruleLines true true (env.toLower host) ∨
      someMatches lib (keptRules ruleLines) true false (env.toLower host) ∨
      someMatches lib ruleLines false true (env.toLower host) = false ∧
        someMatches lib ruleLines false false (env.toLower host)

/-- Something other than plain names is written and read, or the plain names have capitals, so that
they do not match at all. -/
def NamesHarmless (ruleLines : List AdGuardRuleLine) : Prop :=
  (∃ it ∈ ruleLines, it.lost = false ∧ isDomainName it.rendered = false) ∨
    ∀ it ∈ ruleLines, it.lost = false → it.text.any isUpperByte

theorem sameMatches_iff {text : GoString} {options : HeadlessRuleOptions} {rule' : HeadlessRule}
    (htext : toOptions text = .ok [options])
    (hrule' : newHeadlessRule lib networkManager options = .ok rule') :
    SameMatches lib env networkManager text rule ↔ ∀ m : InboundContext, m.domainHost ≠ [] →
      (Match env rule' m ↔ Match env rule m) := by
  constructor
  · rintro ⟨options', rule'', htext', hrule'', hsame⟩
    rw [htext] at htext'
    obtain rfl : options = options' := singleton_injective (Except.ok.inj htext')
    obtain rfl : rule' = rule'' := Except.ok.inj (hrule'.symm.trans hrule'')
    exact hsame
  · exact fun hsame => ⟨options, rule', htext, hrule', hsame⟩

section

variable (hnames : ∀ it ∈ ruleLines, it.lost = false → isDomainName it.rendered)

include hnames

/-- Where only plain names are written, no other rules match but important expressions. -/
theorem someMatches_eq_false {kept : List AdGuardRuleLine}
    (hkept : ∀ it ∈ kept, it ∈ ruleLines ∧ it.lost = false)
    (h : isImportant ∨ isExclude) (name : GoString) :
    someMatches lib kept isImportant isExclude name = false := by
  rw [someMatches, any_eq_false]
  intro it hit hmatches
  simp only [Bool.and_eq_true, beq_iff_eq] at hmatches
  have hplain := plain_of_rendered (hnames it (hkept it hit).1 (hkept it hit).2)
  rcases h with rfl | rfl
  · exact absurd (hplain.1.symm.trans hmatches.1.1) (by decide)
  · exact absurd (hplain.2.1.symm.trans hmatches.1.2) (by decide)

theorem someMatches_plain {name : GoString} :
    someMatches lib ruleLines false false name ↔
      ∃ it ∈ ruleLines, it.lost = false ∧ (lib.newAdGuardMatcher [it.text]).Match name := by
  rw [← someMatches_keptRules lib ruleLines name (.inl rfl)]
  simp only [someMatches, any_eq_true, mem_keptRules, Bool.and_eq_true, beq_iff_eq, and_assoc]
  refine exists_congr fun it => and_congr_right fun hit => and_congr_right fun hlost => ?_
  obtain ⟨himp, hexclude, hre, -⟩ := plain_of_rendered (hnames it hit hlost)
  simp [matchesName, himp, hexclude, hre]

end

theorem domainHost_of_domain {host : GoString} (h : host ≠ []) :
    InboundContext.domainHost { domain := host } = host := if_pos h

theorem not_mem_texts :
    ∀ it' ∈ ruleLines, it'.text ≠
      List.replicate ((ruleLines.map fun it => it.text.length).sum + 1) 120 ++ it.text := by
  intro it' hit' heq
  have hle : it'.text.length ≤ (ruleLines.map fun it => it.text.length).sum :=
    le_sum_of_mem (mem_map_of_mem hit')
  rw [heq, length_append, length_replicate] at hle
  omega

include hreadable hplain hagree hrule

/-- If something other than plain names is read, the text matches the same names where the important
expressions do not count. -/
theorem matches_iff_of_nested
    (hnested : ∃ it ∈ ruleLines, it.lost = false ∧ isDomainName it.rendered = false) :
    SameMatches lib env networkManager (writtenText ruleLines) rule ↔
      LostHarmless lib env ruleLines := by
  obtain ⟨options, rule', htext, hrule', hmatch⟩ :=
    match_writtenText hreadable hplain hagree hrule hnested
  have horiginal := match_adGuardRule hplain hrule env
    (hagree.groupsIndependent fun it hit => ⟨it, hit, rfl⟩)
  rw [sameMatches_iff htext hrule']
  constructor
  · intro hsame host hne hlost
    have hhost := domainHost_of_domain hne
    have hsame := hsame { domain := host } (by rwa [hhost])
    rw [hmatch _ (by rwa [hhost]), horiginal _ (by rwa [hhost]),
      someMatches_important lib ruleLines, hhost, hlost] at hsame
    cases hexception : someMatches lib ruleLines true true (env.toLower host) with
    | true => exact .inl rfl
    | false =>
      refine .inr (hsame.2 ⟨hexception, .inl ?_⟩).2
      rw [Bool.or_true]
  · intro hharmless m hm
    rw [hmatch m hm, horiginal m hm, someMatches_important lib ruleLines]
    refine and_congr_right fun hexception => ?_
    cases hlost : lostMatches lib ruleLines (env.toLower m.domainHost) with
    | false => rw [Bool.or_false]
    | true =>
      have hother := (hharmless _ hm hlost).resolve_left (by simp [hexception])
      simp [hother]

/-- If only plain names are read, the text matches the same names where neither these names nor the
important expressions match anything. -/
theorem matches_iff_of_names
    (hnames : ∀ it ∈ ruleLines, it.lost = false → isDomainName it.rendered) :
    SameMatches lib env networkManager (writtenText ruleLines) rule ↔
      (∀ it ∈ ruleLines, it.lost = false → it.text.any isUpperByte) ∧
        LostHarmless lib env ruleLines := by
  obtain ⟨options, rule', htext, hrule', hmatch⟩ :=
    match_writtenText_names hreadable hplain hagree networkManager hnames
  have hkept := fun it (hit : it ∈ keptRules ruleLines) => mem_keptRules.1 hit
  have hother : ∀ name, someMatches lib ruleLines true true name = false ∧
      someMatches lib ruleLines false true name = false ∧
      someMatches lib (keptRules ruleLines) true false name = false := by
    intro name
    rw [← someMatches_keptRules lib ruleLines _ (.inr rfl), ← someMatches_keptRules lib ruleLines _
      (.inr rfl)]
    exact ⟨someMatches_eq_false hnames hkept (.inl rfl) name,
      someMatches_eq_false hnames hkept (.inr rfl) name,
      someMatches_eq_false hnames hkept (.inl rfl) name⟩
  -- the filter matches what its expressions, or its names as patterns, match
  have horiginal : ∀ m : InboundContext, m.domainHost ≠ [] →
      (Match env rule m ↔
        lostMatches lib ruleLines (env.toLower m.domainHost) ∨
          ∃ it ∈ ruleLines, it.lost = false ∧
            (lib.newAdGuardMatcher [it.text]).Match (env.toLower m.domainHost)) := by
    intro m hm
    rw [match_adGuardRule hplain hrule env (hagree.groupsIndependent fun it hit => ⟨it, hit, rfl⟩) m
      hm, someMatches_important lib ruleLines, (hother _).1, (hother _).2.1, (hother _).2.2,
      someMatches_plain hnames]
    simp
  rw [sameMatches_iff htext hrule']
  -- a text with a capital is no lowered name
  have hlowered : ∀ (it : AdGuardRuleLine) (host : GoString), it.text.any isUpperByte →
      it.text ≠ env.toLower host := by
    intro it host hcapital heq
    rw [heq, hagree.lowered] at hcapital
    cases hcapital
  constructor
  · intro hsame
    have hcapitals : ∀ it ∈ ruleLines, it.lost = false → it.text.any isUpperByte := by
      intro it hit hlost
      by_contra hcapital
      rw [Bool.not_eq_true] at hcapital
      have hname := (plain_of_rendered (hnames it hit hlost)).2.2.2
      -- the text with a long front is matched by the pattern, but is not among the names
      generalize hhost : List.replicate ((ruleLines.map fun it => it.text.length).sum + 1) 120 ++
        it.text = host
      have hne : host ≠ [] := by simp [← hhost]
      have hbytes : ∀ c ∈ host, isNameByte c := by
        intro c hc
        rw [← hhost, mem_append, mem_replicate] at hc
        rcases hc with ⟨-, rfl⟩ | hc
        · decide
        · exact isNameByte_of_domain hname c hc
      have hlower : env.toLower host = host := by
        refine hagree.toLower host hbytes ?_
        rw [← hhost, any_append, hcapital, Bool.or_false, any_replicate]
        simp [isUpperByte]
      have hsame := hsame { domain := host } (by rwa [domainHost_of_domain hne])
      rw [hmatch _ (by rwa [domainHost_of_domain hne]), horiginal _
        (by rwa [domainHost_of_domain hne]), domainHost_of_domain hne, hlower] at hsame
      obtain ⟨it', hit', -, heq⟩ := hsame.2 (.inr ⟨it, hit, hlost, by
        rw [← hhost]
        exact hagree.unanchored it hit hname _⟩)
      exact not_mem_texts it' hit' (heq.trans hhost.symm)
    refine ⟨hcapitals, fun host hne hlost => ?_⟩
    have hhost := domainHost_of_domain hne
    have hsame := hsame { domain := host } (by rwa [hhost])
    rw [hmatch _ (by rwa [hhost]), horiginal _ (by rwa [hhost]), hhost] at hsame
    obtain ⟨it, hit, hit', heq⟩ := hsame.2 (.inl hlost)
    exact absurd heq (hlowered it host (hcapitals it hit hit'))
  · rintro ⟨hcapitals, hharmless⟩ m hm
    rw [hmatch m hm, horiginal m hm]
    have hpatterns : ∀ it ∈ ruleLines, it.lost = false →
        (lib.newAdGuardMatcher [it.text]).Match (env.toLower m.domainHost) = false :=
      fun it hit hlost => hagree.capitals it hit
        (plain_of_rendered (hnames it hit hlost)).2.2.2 (hcapitals it hit hlost) _
        (hagree.lowered _)
    constructor
    · rintro ⟨it, hit, hlost, heq⟩
      exact absurd heq (hlowered it _ (hcapitals it hit hlost))
    · rintro (hlost | ⟨it, hit, hlost, hpat⟩)
      · rcases hharmless _ hm hlost with h | h | ⟨-, h⟩
        · exact absurd h (by simp [(hother _).1])
        · exact absurd h (by simp [(hother _).2.2])
        · obtain ⟨it, hit, hit', hpat⟩ := (someMatches_plain hnames).1 h
          exact absurd hpat (by simp [hpatterns it hit hit'])
      · exact absurd hpat (by simp [hpatterns it hit hlost])

theorem matches_writtenText_iff :
    SameMatches lib env networkManager (writtenText ruleLines) rule ↔
      NamesHarmless ruleLines ∧ LostHarmless lib env ruleLines := by
  by_cases hnested : ∃ it ∈ ruleLines, it.lost = false ∧ isDomainName it.rendered = false
  · rw [matches_iff_of_nested hreadable hplain hagree hrule hnested,
      and_iff_right (show NamesHarmless ruleLines from .inl hnested)]
  · have hnames : ∀ it ∈ ruleLines, it.lost = false → isDomainName it.rendered := by
      intro it hit hlost
      by_contra hname
      exact hnested ⟨it, hit, hlost, by simpa using hname⟩
    rw [matches_iff_of_names hreadable hplain hagree hrule hnames, NamesHarmless,
      or_iff_right hnested]

end

/-- **When the text that is written has the same meaning.**  Let the rules of a filter, not all of
them plain names, be converted, and the result be written again.  The text has the same meaning
exactly if the exceptions keep their kind, important expressions make no difference, and the names
that are written are not all there is. -/
theorem recompiles_iff {lib : Libraries} {env : Environment} {networkManager : Bool}
    {text text' : GoString} {ruleLines : List AdGuardRuleLine} {options : HeadlessRuleOptions}
    {rule : HeadlessRule} (hlines : adGuardRuleLines text = .ok ruleLines)
    (hraw : ruleLines.all isRawDomain = false)
    (htext : toOptions text = .ok [options]) (hwritten : fromOptions [options] = .ok text')
    (hrule : newHeadlessRule lib networkManager options = .ok rule)
    (hagree : MatchersAgree lib env ruleLines) :
    Recompiles lib env networkManager ruleLines rule text' ↔
      ExceptionsKept ruleLines ∧ NamesHarmless ruleLines ∧ LostHarmless lib env ruleLines := by
  have hreadable := readable_of_adGuardRuleLines hlines
  rw [toOptions_nested hlines hraw] at htext
  obtain rfl : adGuardRule ruleLines = options := singleton_injective (Except.ok.inj htext)
  obtain ⟨hplain, rfl⟩ := fromOptions_adGuardRule hwritten
  have hexceptions := exceptions_writtenText_iff hreadable
  constructor
  · rintro ⟨hmatches, hkept⟩
    have hkept := hexceptions.1 hkept
    rw [← writtenText, promoted_eq_self hkept] at hmatches
    exact ⟨hkept, (matches_writtenText_iff hreadable hplain hagree hrule).1 hmatches⟩
  · rintro ⟨hkept, hharmless⟩
    refine ⟨?_, hexceptions.2 hkept⟩
    rw [← writtenText, promoted_eq_self hkept]
    exact (matches_writtenText_iff hreadable hplain hagree hrule).2 hharmless

/-! ### Two filters -/

/-- A system whose names are ASCII. -/
def Environment.ascii : Environment :=
  { offline with
    toLower := fun name => name.map fun c => if isUpperByte c then c + 32 else c }

theorem not_isUpperByte_lowered (c : UInt8) :
    ¬isUpperByte (if isUpperByte c then c + 32 else c) := by
  split
  · rename_i hupper
    simp only [isUpperByte, Bool.and_eq_true, decide_eq_true_eq, UInt8.le_iff_toNat_le,
      UInt8.toNat_add, UInt8.reduceToNat] at hupper ⊢
    omega
  · assumption

theorem matchesRuleLine_name {text : GoString} (h : isDomainName text) (name : GoString) :
    matchesRuleLine name text = contains name text := by
  have hno : ∀ c, isNameByte c = false → c ∉ text := by
    intro c hc hmem
    rw [isNameByte_of_domain h c hmem] at hc
    cases hc
  obtain ⟨c, rest, rfl⟩ := exists_cons_of_ne_nil (length_of_isDomainName h).1
  have hbar : ((124 : UInt8) == c) = false := by
    rw [beq_eq_false_iff_ne]
    rintro rfl
    exact hno 124 (by decide) mem_cons_self
  have hsuffix : (ofString "||").isPrefixOf (c :: rest) = false := by
    simp [ofString, List.isPrefixOf, hbar]
  have hstart : (ofString "|").isPrefixOf (c :: rest) = false := by
    simp [ofString, List.isPrefixOf, hbar]
  have hend : (ofString "^").isSuffixOf (c :: rest) = false := by
    rw [← Bool.not_eq_true, isSuffixOf_iff_suffix]
    exact fun hcaret => hno 94 (by decide) (hcaret.subset (by decide))
  simp [matchesRuleLine, hsuffix, hstart, hend, GoString.contains]

theorem matchersAgree_textLibraries (ruleLines : List AdGuardRuleLine) :
    MatchersAgree textLibraries ascii ruleLines where
  independent := by
    intro texts _ name
    simp [textLibraries]
  names := by
    intro names _ name
    simp [textLibraries]
  unanchored := by
    intro it _ hname n
    simp only [textLibraries, any_cons, any_nil, Bool.or_false,
      matchesRuleLine_name hname, GoString.contains, any_eq_true, mem_tails]
    exact ⟨it.text, suffix_append _ _, List.isPrefixOf_iff_prefix.2 (prefix_refl _)⟩
  capitals := by
    intro it _ hname hcapital name hlower
    rw [← Bool.not_eq_true]
    intro hmatch
    simp only [textLibraries, any_cons, any_nil, Bool.or_false,
      matchesRuleLine_name hname, GoString.contains, any_eq_true, mem_tails] at hmatch
    obtain ⟨rest, hrest, hfront⟩ := hmatch
    obtain ⟨c, hc, hupper⟩ := List.any_eq_true.1 hcapital
    have hmem : c ∈ name := hrest.subset ((List.isPrefixOf_iff_prefix.1 hfront).subset hc)
    exact List.any_eq_false.1 hlower c hmem hupper
  lowered := by
    intro name
    rw [any_eq_false]
    intro c hc
    obtain ⟨c, -, rfl⟩ := List.mem_map.1 hc
    exact not_isUpperByte_lowered c
  toLower := by
    intro name _ hlower
    refine (map_congr_left fun c hc => ?_).trans (map_id name)
    exact if_neg (List.any_eq_false.1 hlower c hc)

/-- A filter with rules of all kinds but important ones. -/
def fourKinds : GoString :=
  "||example.org^\n@@||safe.example.org^\n@@|www.safe.net^$important\nads.net"

def fourKindsLines : List AdGuardRuleLine :=
  [{ ruleLine := "example.org", isSuffix := true, hasEnd := true },
    { ruleLine := "safe.example.org", isExclude := true, isSuffix := true,
      hasEnd := true },
    { ruleLine := "www.safe.net", isExclude := true, hasStart := true, hasEnd := true,
      isImportant := true },
    { ruleLine := "ads.net", isRawDomain := true }]

def fourKindsWritten : GoString :=
  "@@|www.safe.net^$important\n||example.org^\nads.net\n@@||safe.example.org^\n"

theorem fourKinds_recompiles :
    ∃ rule, adGuardRuleLines fourKinds = .ok fourKindsLines ∧
      fromOptions [adGuardRule fourKindsLines] = .ok fourKindsWritten ∧
      newHeadlessRule textLibraries false (adGuardRule fourKindsLines) = .ok rule ∧
      Recompiles textLibraries Environment.ascii false fourKindsLines rule fourKindsWritten := by
  have hlines : adGuardRuleLines fourKinds = .ok fourKindsLines := by decide +kernel
  have htext := toOptions_nested hlines (by decide)
  have hwritten : fromOptions [adGuardRule fourKindsLines] = .ok fourKindsWritten := by
    decide +kernel
  refine ⟨_, hlines, hwritten, rfl, ?_⟩
  refine (recompiles_iff hlines (by decide) htext hwritten rfl
    (matchersAgree_textLibraries fourKindsLines)).2 ⟨.inl (by decide), .inl ?_, ?_⟩
  · exact ⟨_, mem_cons_self, by decide, by decide⟩
  · intro host _ hlost
    exact absurd hlost (by simp [lostMatches, fourKindsLines, lost])

/-- A filter that blocks a name with an important rule, and has an exception for the same name. -/
def overruled : GoString := "||ads.org^$important\n||shop.org^\n@@||ads.org^"

def overruledLines : List AdGuardRuleLine :=
  [{ ruleLine := "ads.org", isSuffix := true, hasEnd := true, isImportant := true },
    { ruleLine := "shop.org", isSuffix := true, hasEnd := true },
    { ruleLine := "ads.org", isExclude := true, isSuffix := true, hasEnd := true }]

def overruledWritten : GoString :=
  "||ads.org^$important\n@@||ads.org^$important\n||shop.org^\n"

def overruledRead : List AdGuardRuleLine :=
  [{ ruleLine := "ads.org", isSuffix := true, hasEnd := true, isImportant := true },
    { ruleLine := "ads.org", isExclude := true, isSuffix := true, hasEnd := true,
      isImportant := true },
    { ruleLine := "shop.org", isSuffix := true, hasEnd := true }]

/-- The exception is written as an important one, and the name is not blocked any more. -/
theorem overruled_not_recompiles :
    ∃ rule rule', adGuardRuleLines overruled = .ok overruledLines ∧
      toOptions overruled = .ok [adGuardRule overruledLines] ∧
      fromOptions [adGuardRule overruledLines] = .ok overruledWritten ∧
      newHeadlessRule textLibraries false (adGuardRule overruledLines) = .ok rule ∧
      toOptions overruledWritten = .ok [adGuardRule overruledRead] ∧
      newHeadlessRule textLibraries false (adGuardRule overruledRead) = .ok rule' ∧
      Match Environment.ascii rule { domain := "ads.org" } = true ∧
      Match ascii rule' { domain := "ads.org" } = false ∧
      ¬Recompiles textLibraries ascii false overruledLines rule overruledWritten := by
  have hlines : adGuardRuleLines overruled = .ok overruledLines := by decide +kernel
  have hread : adGuardRuleLines overruledWritten = .ok overruledRead := by decide +kernel
  have htext := toOptions_nested hread (by decide)
  refine ⟨_, _, hlines, toOptions_nested hlines (by decide), by decide +kernel, rfl, htext, rfl,
    rfl, rfl, ?_⟩
  rintro ⟨⟨options, rule', htext', hrule', hsame⟩, -⟩
  rw [htext] at htext'
  obtain rfl := singleton_injective (Except.ok.inj htext')
  obtain rfl := Except.ok.inj hrule'
  exact absurd ((hsame { domain := "ads.org" } (by decide)).2 rfl) (by decide)

end SingBox
