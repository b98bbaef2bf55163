/-
**Conversion of AdGuard filters** (`common/convertor/adguard/convertor.go`).

An AdGuard DNS filter is a text of rule lines: names to block, exceptions from them, and the same
again marked as important.  `ToOptions` reads the lines it supports and makes one headless rule of
them, in which the four kinds are nested so that each overrides the next.  The messages about lines
that are left out are not modelled.
-/

import SingBox.HeadlessRule

namespace SingBox

open GoString

/-! ### Names -/

/-- The loop of `net.isDomainName`: the byte before, whether a letter or a hyphen was seen, and the
length of the current label. -/
def isDomainNameFrom : UInt8 → Bool → ℕ → GoString → Bool
  | last, nonNumeric, partlen, [] => last != 45 && decide (partlen ≤ 63) && nonNumeric
  | last, nonNumeric, partlen, c :: s =>
    if 97 ≤ c ∧ c ≤ 122 ∨ 65 ≤ c ∧ c ≤ 90 ∨ c = 95 then isDomainNameFrom c true (partlen + 1) s
    else if 48 ≤ c ∧ c ≤ 57 then isDomainNameFrom c nonNumeric (partlen + 1) s
    else if c = 45 then
      -- a hyphen does not start a label
      if last = 46 then false else isDomainNameFrom c true (partlen + 1) s
    else if c = 46 then
      -- a label is not empty and does not end in a hyphen
      if last = 46 ∨ last = 45 then false
      else if 63 < partlen ∨ partlen = 0 then false
      else isDomainNameFrom c nonNumeric 0 s
    else false

/-- `net.isDomainName`, to which `M.IsDomainName` is linked. -/
def isDomainName (s : GoString) : Bool :=
  if s = [46] then true
  else if s.length = 0 ∨ 254 < s.length ∨ s.length = 254 ∧ s.getLast? ≠ some 46 then false
  else isDomainNameFrom 46 false 0 s

/-- `M.ParseAddr`: an address, which may stand in brackets, or none. -/
def parseBracketedAddr (address : GoString) : Addr :=
  let address :=
    if 2 < address.length ∧ address.head? = some 91 ∧ address.getLast? = some 93 then
      (address.drop 1).dropLast
    else address
  (Addr.parseAddr address).getD .zero

/-! ### Rule lines -/

/-- `agdguardRuleLine`. -/
structure AdGuardRuleLine where
  ruleLine : GoString
  (isRawDomain isExclude isSuffix hasStart hasEnd isRegexp isImportant : Bool := false)
  deriving DecidableEq

/-- What becomes of a line: it is left out, it is kept, or the parser panics on it. -/
inductive LineOutcome where
  | skipped
  | kept (line : AdGuardRuleLine)
  | panicked

/-- `parseAdGuardHostLine`: an unspecified address and a name.  Other addresses make the line void,
which is the empty name; `none` is an error. -/
def parseAdGuardHostLine (ruleLine : GoString) : Option GoString :=
  match ruleLine.cut 32 with
  | none => none
  | some (before, domain) =>
    match Addr.parseAddr before with
    | none => none
    | some address =>
      if !address.isUnspecified then some []
      else if isDomainName domain then some domain
      else none

/-- One modifier: whether it marks the rule as important, or `none` if it is not supported. -/
def parseParam (param : GoString) : Option Bool :=
  match param.split 61 with
  | [name] => if name = "important" then some true else none
  | [name, value] =>
    if name = "important" then some true
    else if name = "dnsrewrite" ∧ (parseBracketedAddr value).isUnspecified then
      some false
    else none
  | _ => none

/-- The loop over modifiers. -/
def parseParams : List GoString → Option Bool
  | [] => some false
  | param :: params =>
    match parseParam param with
    | none => none
    | some isImportant => (parseParams params).map (isImportant || ·)

/-- `ignoreIPCIDRRegexp`: the expression starts with a number below 256. -/
def ignoreIPCIDRRegexp (ruleLine : GoString) : Bool :=
  let ruleLine :=
    if (ofString "(http?:\\/\\/)").isPrefixOf ruleLine then ruleLine.drop 12
    else if (ofString "(https?:\\/\\/)").isPrefixOf ruleLine then ruleLine.drop 13
    else if (ofString "^").isPrefixOf ruleLine then ruleLine.drop 1
    else ruleLine
  (parseUint 8 (substringBefore ruleLine "\\.")).isSome ||
    (parseUint 8 (substringBefore ruleLine ".")).isSome

/-- The characters that only lines of other kinds have: paths, queries, cosmetic filters and negated
modifiers. -/
def unsupportedCharacters : List UInt8 := [47, 63, 38, 91, 93, 40, 41, 33, 35, 126]

/-- A pattern is a name once wildcards are replaced and a leading dot or hyphen is covered. -/
def isDomainPattern (ruleLine : GoString) : Bool :=
  let domainCheck := if ruleLine.head? = some 46 ∨ ruleLine.head? = some 45 then 114 :: ruleLine
    else ruleLine
  isDomainName (domainCheck.map fun c => if c = 42 then 120 else c)

/-- The part of the loop after the modifiers. -/
def parsePattern (ruleLine : GoString) (isImportant : Bool) : LineOutcome :=
  let isExclude := (ofString "@@").isPrefixOf ruleLine
  let ruleLine := if isExclude then ruleLine.drop 2 else ruleLine
  let ruleLine := trimSuffix ruleLine "|"
  let isSuffix := (ofString "||").isPrefixOf ruleLine
  let hasStart := !isSuffix && (ofString "|").isPrefixOf ruleLine
  let ruleLine := if isSuffix then ruleLine.drop 2
    else if hasStart then ruleLine.drop 1
    else ruleLine
  let hasEnd := (ofString "^").isSuffixOf ruleLine
  let ruleLine := if hasEnd then ruleLine.dropLast else ruleLine
  let line : AdGuardRuleLine :=
    { ruleLine := ruleLine, isExclude := isExclude, isSuffix := isSuffix, hasStart := hasStart,
      hasEnd := hasEnd, isImportant := isImportant }
  if (ofString "/").isPrefixOf ruleLine && (ofString "/").isSuffixOf ruleLine then
    -- the slice between the two slashes, which may be the same one
    if ruleLine.length < 2 then .panicked
    else
      let expression := (ruleLine.drop 1).dropLast
      if ignoreIPCIDRRegexp expression then .skipped
      else .kept { line with ruleLine := expression, isRegexp := true }
  else
    let hasScheme := contains ruleLine "://"
    let ruleLine := if hasScheme then substringAfter ruleLine "://" else ruleLine
    if ruleLine.any unsupportedCharacters.contains then .skipped
    else if ruleLine = [] then .skipped
    else if isDomainPattern ruleLine then
      .kept { line with ruleLine := ruleLine, isSuffix := isSuffix || hasScheme }
    else .skipped

/-- One round of the loop of `ToOptions`. -/
def parseRuleLine (ruleLine : GoString) : LineOutcome :=
  if ruleLine = [] then .skipped
  else if ruleLine.head? = some 33 ∨ ruleLine.head? = some 35 then .skipped
  else if isDomainName ruleLine then .kept { ruleLine := ruleLine, isRawDomain := true }
  else
    match parseAdGuardHostLine ruleLine with
    | some hostLine =>
      if hostLine = [] then .skipped
      else .kept { ruleLine := hostLine, isRawDomain := true, hasStart := true, hasEnd := true }
    | none =>
      let ruleLine := trimSuffix ruleLine "|"
      if ruleLine.head? ≠ some 47 ∧ contains ruleLine "$" then
        match parseParams ((substringAfter ruleLine "$").split 44) with
        | none => .skipped
        | some isImportant => parsePattern (substringBefore ruleLine "$") isImportant
      else parsePattern ruleLine false

/-! ### The text -/

/-- `bufio.MaxScanTokenSize`. -/
def maxScanTokenSize : ℕ := 64 * 1024

/-- The lines a `bufio.Scanner` returns: carriage returns at their ends are dropped, and the scanner
stops, without an error that is looked at, where a line does not fit into its buffer. -/
def scanLines (text : GoString) : List GoString :=
  ((text.split 10).takeWhile fun line => line.length < maxScanTokenSize).map fun line =>
    trimSuffix line [13]

/-- Why nothing was converted. -/
inductive ConvertFailure where
  | error (err : GoError)
  | panicked
  deriving DecidableEq

/-- The loop over the lines of the text. -/
def parseRuleLines : List GoString → Except ConvertFailure (List AdGuardRuleLine)
  | [] => .ok []
  | line :: lines =>
    match parseRuleLine line with
    | .panicked => .error .panicked
    | .skipped => parseRuleLines lines
    | .kept ruleLine => (parseRuleLines lines).map (ruleLine :: ·)

/-- The rule lines of a text. -/
def adGuardRuleLines (text : GoString) : Except ConvertFailure (List AdGuardRuleLine) :=
  parseRuleLines (scanLines text)

/-! ### The rule -/

/-- `mapDomain`. -/
def AdGuardRuleLine.text (it : AdGuardRuleLine) : GoString :=
  let ruleLine := if it.isSuffix then "||" ++ it.ruleLine
    else if it.hasStart then "|" ++ it.ruleLine
    else it.ruleLine
  if it.hasEnd then ruleLine ++ "^" else ruleLine

/-- The patterns and the expressions of one kind of rules. -/
structure AdGuardGroup where
  (domain domainRegex : List GoString)

/-- The lines of one kind, as `common.Map (common.Filter (ruleLines, …), mapDomain)`. -/
def adGuardGroup (ruleLines : List AdGuardRuleLine) (isImportant isExclude : Bool) :
    AdGuardGroup where
  domain := (ruleLines.filter fun it =>
    it.isImportant == isImportant && !it.isRegexp && it.isExclude == isExclude).map
    AdGuardRuleLine.text
  domainRegex := (ruleLines.filter fun it =>
    it.isImportant == isImportant && it.isRegexp && it.isExclude == isExclude).map
    AdGuardRuleLine.text

namespace AdGuardGroup

/-- Neither patterns nor expressions. -/
def isEmpty (g : AdGuardGroup) : Bool := g.domain.isEmpty && g.domainRegex.isEmpty

/-- The default rule of a group.  `common.Map` returns slices that are not nil. -/
def rule (g : AdGuardGroup) (invert : Bool) : HeadlessRuleOptions :=
  .default { adGuardDomain := some g.domain, domainRegex := some g.domainRegex, invert := invert }

/-- The rule of a group that is not empty, put before the rule for the others. -/
def before (g : AdGuardGroup) (mode : LogicalType) (invert : Bool)
    (currentRule : HeadlessRuleOptions) : HeadlessRuleOptions :=
  if g.isEmpty then currentRule
  else .logical (.known mode) false [g.rule invert, currentRule]

end AdGuardGroup

/-- The nested rule that `ToOptions` makes of lines that are not all plain names. -/
def adGuardRule (ruleLines : List AdGuardRuleLine) : HeadlessRuleOptions :=
  let currentRule := (adGuardGroup ruleLines false false).rule false
  let currentRule := (adGuardGroup ruleLines false true).before .and true currentRule
  let currentRule := (adGuardGroup ruleLines true false).before .or false currentRule
  (adGuardGroup ruleLines true true).before .and true currentRule

/-- `ToOptions`. -/
def toOptions (text : GoString) : Except ConvertFailure (List HeadlessRuleOptions) :=
  match adGuardRuleLines text with
  | .error err => .error err
  | .ok ruleLines =>
    if ruleLines.isEmpty then
      .error (.error (.new "AdGuard rule-set is empty or all rules are unsupported"))
    else if ruleLines.all AdGuardRuleLine.isRawDomain then
      .ok [.default { domain := some (ruleLines.map AdGuardRuleLine.ruleLine) }]
    else .ok [adGuardRule ruleLines]

/-! ### Back to text -/

/-- `ErrInvalid`. -/
def errInvalidAdGuard : GoError := .new "invalid binary AdGuard rule-set"

/-- The four groups that `FromOptions` collects. -/
structure AdGuardGroups where
  (important importantExclude plain exclude : AdGuardGroup := ⟨[], []⟩)

/-- The patterns and expressions of a default rule. -/
def AdGuardGroup.ofOptions (options : DefaultHeadlessRuleOptions) : AdGuardGroup :=
  ⟨options.adGuardDomain.elems, options.domainRegex.elems⟩

/-- The loop of `FromOptions`, down the nesting.  The first inverted rule is taken for the important
exceptions, and a later one for the exceptions. -/
def recoverGroups (groups : AdGuardGroups) : HeadlessRuleOptions → Except GoError AdGuardGroups
  | .logical mode _ [.default first, rest] =>
    let group := AdGuardGroup.ofOptions first
    if mode = .known .and && first.invert then
      if group.isEmpty then .error errInvalidAdGuard
      else if groups.importantExclude.isEmpty then
        recoverGroups { groups with importantExclude := group } rest
      else recoverGroups { groups with exclude := group } rest
    else if mode = .known .or && !first.invert then
      if group.isEmpty then .error errInvalidAdGuard
      else recoverGroups { groups with important := group } rest
    else .error errInvalidAdGuard
  | .logical _ _ _ => .error errInvalidAdGuard
  | .default options =>
    let group := AdGuardGroup.ofOptions options
    if group.isEmpty then .error errInvalidAdGuard else .ok { groups with plain := group }

/-- The lines that are written for a group: expressions stand between slashes. -/
def AdGuardGroup.lines (g : AdGuardGroup) (before after : GoString) : List GoString :=
  g.domain.map (fun ruleLine => before ++ ruleLine ++ after) ++
    g.domainRegex.map fun ruleLine => before ++ "/" ++ ruleLine ++ "/" ++ after

/-- The lines that are written, in their order. -/
def AdGuardGroups.lines (groups : AdGuardGroups) : List GoString :=
  groups.important.lines [] "$important" ++
    groups.importantExclude.lines "@@" "$important" ++
    groups.plain.lines [] [] ++ groups.exclude.lines "@@" []

/-- `FromOptions`. -/
def fromOptions : List HeadlessRuleOptions → Except GoError GoString
  | [rule] =>
    match recoverGroups {} rule with
    | .error err => .error err
    | .ok groups => .ok (groups.lines.flatMap fun line => line ++ "\n")
  | _ => .error errInvalidAdGuard

end SingBox
