/-
**Where the AdGuard parser panics** (`common/convertor/adguard/convertor.go`).

A line of a filter is peeled by slice expressions: the mark of an exception, the anchors on both
sides, and the slashes around a regular expression.  Every slice but one is taken after a test of
the prefix or suffix that it removes.  The exception is the slice between the slashes: the tests ask
for a slash at both ends, and one slash is at both ends.

The parser is written once more here, with checked slices.  A check fails on the lines that consist
of a lone slash once marks, anchors and accepted modifiers are taken off.

* `checkedPattern_eq` — the two parsers agree;
* `parsePattern_eq_panicked`, `parseRuleLine_eq_panicked` — the patterns and lines
  on which the parser panics;
* `toOptions_returns_iff` — **a text is converted without a panic exactly if none of its
  lines has a lone slash**.
-/

import SingBox.AdGuardRendering

namespace SingBox

open GoString List Option

/-! ### Checked slices -/

/-- The line without a text that it starts with; `none` is a panic. -/
def peelPrefix (head ruleLine : GoString) : Option GoString :=
  if head.isPrefixOf ruleLine then slice ruleLine head.length ruleLine.length else some ruleLine

/-- The line without the first of several texts that it starts with. -/
def peelFirst : List GoString → GoString → Option GoString
  | [], ruleLine => some ruleLine
  | head :: heads, ruleLine =>
    if head.isPrefixOf ruleLine then slice ruleLine head.length ruleLine.length
    else peelFirst heads ruleLine

/-- The line without a byte that it ends in. -/
def peelSuffix (mark : UInt8) (ruleLine : GoString) : Option GoString :=
  if [mark].isSuffixOf ruleLine then slice ruleLine 0 (ruleLine.length - 1) else some ruleLine

theorem peelPrefix_eq (head ruleLine : GoString) :
    peelPrefix head ruleLine =
      some (if head.isPrefixOf ruleLine then ruleLine.drop head.length else ruleLine) := by
  rw [peelPrefix]
  split_ifs with h
  · exact slice_of_isPrefixOf h
  · rfl

theorem peelFirst_cons_eq (head : GoString) (heads : List GoString) (ruleLine : GoString) :
    peelFirst (head :: heads) ruleLine =
      if head.isPrefixOf ruleLine then some (ruleLine.drop head.length)
      else peelFirst heads ruleLine := by
  rw [peelFirst]
  split_ifs with h
  · exact slice_of_isPrefixOf h
  · rfl

theorem peelSuffix_eq (mark : UInt8) (ruleLine : GoString) :
    peelSuffix mark ruleLine =
      some (if [mark].isSuffixOf ruleLine then ruleLine.dropLast else ruleLine) := by
  rw [peelSuffix]
  split_ifs with h
  · exact slice_of_isSuffixOf h
  · rfl

/-! ### The parser with checked slices -/

/-- `ignoreIPCIDRRegexp`; `none` is a panic. -/
def checkedIPCIDRRegexp (ruleLine : GoString) : Option Bool := do
  let ruleLine ← peelFirst ["(http?:\\/\\/)", "(https?:\\/\\/)", "^"]
    ruleLine
  return (parseUint 8 (substringBefore ruleLine "\\.")).isSome ||
    (parseUint 8 (substringBefore ruleLine ".")).isSome

/-- The loop over the parts of an address. -/
def parseRuleParts : List GoString → Except GoError (List ℕ)
  | [] => .ok []
  | part :: parts =>
    match parseUint 8 part with
    | none => .error (.library "strconv.ParseUint" part)
    | some rulePart => (parseRuleParts parts).map (rulePart :: ·)

/-- The conversion of a slice to an array of four bytes, which panics if there are fewer. -/
def arrayOfFour : List ℕ → Option Addr
  | a :: b :: c :: d :: _ => some (.v4 (.ofNat 32 (((a * 256 + b) * 256 + c) * 256 + d)))
  | _ => none

/-- `parseADGuardIPCIDRLine`: an address, or the start of one with a dot behind it.  `none` is a
panic. -/
def parseADGuardIPCIDRLine (ruleLine : GoString) : Option (Except GoError Prefix) := do
  let isPrefix := (ofString ".").isSuffixOf ruleLine
  let ruleLine ← peelSuffix 46 ruleLine
  let ruleStringParts := ruleLine.split 46
  if 4 < ruleStringParts.length ∨ ruleStringParts.length < 4 ∧ isPrefix = false then
    return .error (.new "invalid argument")
  match parseRuleParts ruleStringParts with
  | .error err => return .error err
  | .ok ruleParts =>
    let bitLen := ruleParts.length * 8
    let address ← arrayOfFour (ruleParts ++ List.replicate (4 - ruleParts.length) 0)
    return .ok ⟨address, bitLen⟩

/-- The marks and anchors of a line are taken off; `none` is a panic. -/
def checkedMarks (ruleLine : GoString) (isImportant : Bool) : Option AdGuardRuleLine := do
  let isExclude := (ofString "@@").isPrefixOf ruleLine
  let ruleLine ← peelPrefix "@@" ruleLine
  let ruleLine := trimSuffix ruleLine "|"
  let isSuffix := (ofString "||").isPrefixOf ruleLine
  let hasStart := !isSuffix && (ofString "|").isPrefixOf ruleLine
  let ruleLine ← peelFirst ["||", "|"] ruleLine
  let hasEnd := (ofString "^").isSuffixOf ruleLine
  let ruleLine ← peelSuffix 94 ruleLine
  return { ruleLine := ruleLine, isExclude := isExclude, isSuffix := isSuffix, hasStart := hasStart,
           hasEnd := hasEnd, isImportant := isImportant }

/-- What is between the marks is read as an expression or as a pattern; `none` is a panic. -/
def checkedOutcome (line : AdGuardRuleLine) : Option LineOutcome :=
  if (ofString "/").isPrefixOf line.ruleLine && (ofString "/").isSuffixOf line.ruleLine then do
    let expression ← slice line.ruleLine 1 (line.ruleLine.length - 1)
    let ignored ← checkedIPCIDRRegexp expression
    return if ignored then .skipped
      else .kept { line with ruleLine := expression, isRegexp := true }
  else
    let hasScheme := contains line.ruleLine "://"
    let ruleLine :=
      if hasScheme then substringAfter line.ruleLine "://" else line.ruleLine
    if ruleLine.any unsupportedCharacters.contains then some .skipped
    else if ruleLine = [] then some .skipped
    else if isDomainPattern ruleLine then
      some (.kept { line with ruleLine := ruleLine, isSuffix := line.isSuffix || hasScheme })
    else do
      -- the result only decides which message is logged
      let _ ← parseADGuardIPCIDRLine ruleLine
      return .skipped

/-- The part of the loop of `ToOptions` after the modifiers; `none` is a panic. -/
def checkedPattern (ruleLine : GoString) (isImportant : Bool) : Option LineOutcome := do
  let line ← checkedMarks ruleLine isImportant
  checkedOutcome line

/-! ### No other slice panics -/

variable (ruleLine : GoString)

theorem checkedIPCIDRRegexp_eq :
    checkedIPCIDRRegexp ruleLine = some (ignoreIPCIDRRegexp ruleLine) := by
  have hpeel : peelFirst [ofString "(http?:\\/\\/)", ofString "(https?:\\/\\/)", ofString "^"]
      ruleLine =
      some (if (ofString "(http?:\\/\\/)").isPrefixOf ruleLine then ruleLine.drop 12
        else if (ofString "(https?:\\/\\/)").isPrefixOf ruleLine then ruleLine.drop 13
        else if (ofString "^").isPrefixOf ruleLine then ruleLine.drop 1
        else ruleLine) := by
    rw [peelFirst_cons_eq, peelFirst_cons_eq, peelFirst_cons_eq, peelFirst]
    split_ifs <;> rfl
  rw [checkedIPCIDRRegexp, hpeel]
  rfl

theorem isSome_arrayOfFour {ruleParts : List ℕ} (h : 4 ≤ ruleParts.length) :
    (arrayOfFour ruleParts).isSome := by
  match ruleParts, h with
  | _ :: _ :: _ :: _ :: _, _ => rfl

/-- **The function for the message returns**: the parts are filled up to four bytes. -/
theorem isSome_parseADGuardIPCIDRLine : (parseADGuardIPCIDRLine ruleLine).isSome := by
  rw [parseADGuardIPCIDRLine]
  simp only [peelSuffix_eq, bind_eq_bind, bind_some]
  generalize (if [46].isSuffixOf ruleLine then ruleLine.dropLast else ruleLine) = rest
  split
  · rfl
  · cases hparts : parseRuleParts (split 46 rest) with
    | error err => rfl
    | ok ruleParts =>
      have hfour : 4 ≤ (ruleParts ++ List.replicate (4 - ruleParts.length) 0).length := by
        rw [length_append, length_replicate]
        omega
      obtain ⟨address, haddr⟩ := Option.isSome_iff_exists.1 (isSome_arrayOfFour hfour)
      simp [haddr]

/-- The line without its marks and anchors. -/
def unmarked (ruleLine : GoString) (isImportant : Bool) : AdGuardRuleLine :=
  let isExclude := (ofString "@@").isPrefixOf ruleLine
  let ruleLine := if isExclude then ruleLine.drop 2 else ruleLine
  let ruleLine := trimSuffix ruleLine "|"
  let isSuffix := (ofString "||").isPrefixOf ruleLine
  let hasStart := !isSuffix && (ofString "|").isPrefixOf ruleLine
  let ruleLine := if isSuffix then ruleLine.drop 2
    else if hasStart then ruleLine.drop 1
    else ruleLine
  let hasEnd := (ofString "^").isSuffixOf ruleLine
  let ruleLine := if hasEnd then ruleLine.dropLast else ruleLine
  { ruleLine := ruleLine, isExclude := isExclude, isSuffix := isSuffix, hasStart := hasStart,
    hasEnd := hasEnd, isImportant := isImportant }

/-- Taking off the marks never panics. -/
theorem checkedMarks_eq (isImportant : Bool) :
    checkedMarks ruleLine isImportant = some (unmarked ruleLine isImportant) := by
  have hstart : ∀ l : GoString, peelFirst ["||", "|"] l =
      some (if (ofString "||").isPrefixOf l then l.drop 2
        else if !(ofString "||").isPrefixOf l && (ofString "|").isPrefixOf l then l.drop 1
        else l) := by
    intro l
    rw [peelFirst_cons_eq, peelFirst_cons_eq, peelFirst]
    cases (ofString "||").isPrefixOf l <;> cases (ofString "|").isPrefixOf l <;> rfl
  simp only [checkedMarks, peelPrefix_eq, hstart, peelSuffix_eq, bind_eq_bind, bind_some]
  rfl

/-- What becomes of the line between the marks. -/
def unmarkedOutcome (line : AdGuardRuleLine) : LineOutcome :=
  if (ofString "/").isPrefixOf line.ruleLine && (ofString "/").isSuffixOf line.ruleLine then
    if line.ruleLine.length < 2 then .panicked
    else
      let expression := (line.ruleLine.drop 1).dropLast
      if ignoreIPCIDRRegexp expression then .skipped
      else .kept { line with ruleLine := expression, isRegexp := true }
  else
    let hasScheme := contains line.ruleLine "://"
    let ruleLine :=
      if hasScheme then substringAfter line.ruleLine "://" else line.ruleLine
    if ruleLine.any unsupportedCharacters.contains then .skipped
    else if ruleLine = [] then .skipped
    else if isDomainPattern ruleLine then
      .kept { line with ruleLine := ruleLine, isSuffix := line.isSuffix || hasScheme }
    else .skipped

theorem checkedOutcome_eq (line : AdGuardRuleLine) :
    (checkedOutcome line).getD .panicked = unmarkedOutcome line := by
  rw [checkedOutcome, unmarkedOutcome]
  split
  · by_cases hshort : line.ruleLine.length < 2
    · have hslice : slice line.ruleLine 1 (line.ruleLine.length - 1) = none :=
        slice_eq_none_iff.2 (by omega)
      rw [if_pos hshort, hslice]
      rfl
    · rw [if_neg hshort, slice_inner (by omega)]
      simp [checkedIPCIDRRegexp_eq]
  · dsimp only
    generalize (if contains line.ruleLine "://" then
      substringAfter line.ruleLine "://" else line.ruleLine) = ruleLine
    obtain ⟨address, haddr⟩ := Option.isSome_iff_exists.1 (isSome_parseADGuardIPCIDRLine ruleLine)
    rw [haddr]
    split_ifs <;> rfl

/-- **The parser is the one with checked slices**, a failed check being a panic. -/
theorem checkedPattern_eq (isImportant : Bool) :
    (checkedPattern ruleLine isImportant).getD .panicked = parsePattern ruleLine isImportant := by
  rw [checkedPattern, checkedMarks_eq]
  exact checkedOutcome_eq _

/-! ### Lone slashes -/

/-- A lone slash between marks and anchors. -/
def loneSlashPatterns : List GoString :=
  [ofString "@@", []].flatMap fun exclude =>
    [ofString "||", ofString "|", []].flatMap fun start =>
      [ofString "/^|", ofString "/^", ofString "/|", ofString "/"].map fun rest =>
        exclude ++ start ++ rest

theorem eq_of_trimSuffix {s t : GoString} {c : UInt8} (h : trimSuffix s [c] = t) :
    s = t ∨ s = t ++ [c] := by
  rw [trimSuffix] at h
  split at h
  · rename_i hsuffix
    obtain ⟨front, rfl⟩ := List.isSuffixOf_iff_suffix.1 hsuffix
    simp only [length_append, length_singleton, Nat.add_sub_cancel, take_left] at h
    exact .inr (by rw [h])
  · exact .inl h

theorem eq_append_drop {s head : GoString} (h : head.isPrefixOf s) :
    s = head ++ s.drop head.length := by
  obtain ⟨rest, rfl⟩ := List.isPrefixOf_iff_prefix.1 h
  rw [drop_left]

variable {ruleLine : GoString}

/-- **Only a lone slash is left by a lone slash**: the line is put together again from the marks
that were taken off. -/
theorem mem_loneSlashPatterns {isImportant : Bool}
    (h : (unmarked ruleLine isImportant).ruleLine = "/") :
    ruleLine ∈ loneSlashPatterns := by
  simp only [unmarked] at h
  generalize hl₁ : (if (ofString "@@").isPrefixOf ruleLine then ruleLine.drop 2 else ruleLine) = l₁
    at h
  generalize hl₂ : trimSuffix l₁ "|" = l₂ at h
  generalize hl₃ : (if (ofString "||").isPrefixOf l₂ then l₂.drop 2
    else if !(ofString "||").isPrefixOf l₂ && (ofString "|").isPrefixOf l₂ then l₂.drop 1
    else l₂) = l₃ at h
  have hexclude : ruleLine = l₁ ∨ ruleLine = "@@" ++ l₁ := by
    split_ifs at hl₁ with hmark
    · exact .inr (hl₁ ▸ eq_append_drop hmark)
    · exact .inl hl₁
  have hbar : l₁ = l₂ ∨ l₁ = l₂ ++ "|" := eq_of_trimSuffix hl₂
  have hstart : l₂ = l₃ ∨ l₂ = "||" ++ l₃ ∨ l₂ = "|" ++ l₃ := by
    split_ifs at hl₃ with hdouble hsingle
    · exact .inr (.inl (hl₃ ▸ eq_append_drop hdouble))
    · rw [Bool.and_eq_true] at hsingle
      exact .inr (.inr (hl₃ ▸ eq_append_drop hsingle.2))
    · exact .inl hl₃
  have hend : l₃ = ofString "/" ∨ l₃ = ofString "/^" := by
    split_ifs at h with hmark
    · obtain ⟨front, rfl⟩ := List.isSuffixOf_iff_suffix.1 hmark
      have hfront : front = ofString "/" := by simpa [ofString] using h
      exact .inr (by rw [hfront]; rfl)
    · exact .inl h
  rcases hend with rfl | rfl <;> rcases hstart with rfl | rfl | rfl <;>
    rcases hbar with rfl | rfl <;> rcases hexclude with rfl | rfl <;> decide

theorem unmarked_loneSlash (h : ruleLine ∈ loneSlashPatterns)
    (isImportant : Bool) : (unmarked ruleLine isImportant).ruleLine = "/" := by
  have hall : ∀ p ∈ loneSlashPatterns, ∀ b, (unmarked p b).ruleLine = ofString "/" := by decide
  exact hall ruleLine h isImportant

theorem unmarkedOutcome_eq_panicked {line : AdGuardRuleLine} :
    unmarkedOutcome line = .panicked ↔ line.ruleLine = ofString "/" := by
  constructor
  · intro h
    rw [unmarkedOutcome] at h
    dsimp only at h
    split_ifs at h with hslashes hshort
    · rw [Bool.and_eq_true] at hslashes
      have hcons := eq_append_drop hslashes.1
      have hlen := congrArg List.length hcons
      have hrest : line.ruleLine.drop (ofString "/").length = [] := by
        rw [← length_eq_zero_iff]
        simp only [length_append] at hlen
        have hone : (ofString "/").length = 1 := rfl
        omega
      rw [hcons, hrest, append_nil]
  · intro h
    rw [unmarkedOutcome, h]
    rfl

/-- **The parser of patterns panics on lone slashes only.** -/
theorem parsePattern_eq_panicked {isImportant : Bool} :
    parsePattern ruleLine isImportant = .panicked ↔ ruleLine ∈ loneSlashPatterns := by
  have hstages : parsePattern ruleLine isImportant =
      unmarkedOutcome (unmarked ruleLine isImportant) := rfl
  rw [hstages, unmarkedOutcome_eq_panicked]
  exact ⟨mem_loneSlashPatterns, fun h => unmarked_loneSlash h isImportant⟩

/-- A line that has nothing but a slash besides marks and anchors and, unless the slash comes first,
modifiers that are all accepted. -/
def LoneSlash (line : GoString) : Prop :=
  trimSuffix line "|" ∈ loneSlashPatterns ∨
    ∃ pattern params, trimSuffix line "|" = pattern ++ 36 :: params ∧
      pattern ∈ loneSlashPatterns ∧ pattern.head? ≠ some 47 ∧
      (parseParams (split 44 params)).isSome

theorem loneSlashPatterns_spec {pattern : GoString} (h : pattern ∈ loneSlashPatterns) :
    (∃ c rest, pattern = c :: rest ∧ c ∈ ofString "@|/") ∧ 47 ∈ pattern ∧ 36 ∉ pattern := by
  have hall : ∀ p ∈ loneSlashPatterns, p.headD 0 ∈ ofString "@|/" ∧ 47 ∈ p ∧ 36 ∉ p := by decide
  obtain ⟨hhead, hslash, hdollar⟩ := hall pattern h
  refine ⟨?_, hslash, hdollar⟩
  cases pattern with
  | nil => simp at hslash
  | cons c rest => exact ⟨c, rest, rfl, hhead⟩

/-- A line with a lone slash comes to the patterns. -/
theorem LoneSlash.skips_nothing {line : GoString} (h : LoneSlash line) :
    line ≠ [] ∧ ¬(line.head? = some 33 ∨ line.head? = some 35) ∧ isDomainName line = false ∧
      parseAdGuardHostLine line = none := by
  -- the line starts with a byte of a mark, an anchor or the slash itself
  have hstart : ∃ pattern ∈ loneSlashPatterns, ∃ rest, line = pattern ++ rest := by
    have htrim := eq_of_trimSuffix (c := 124) (s := line) rfl
    rcases h with h | ⟨pattern, params, heq, hpat, -, -⟩
    · rcases htrim with heq | heq
      · exact ⟨_, h, [], by rw [append_nil]; exact heq⟩
      · exact ⟨_, h, _, heq⟩
    · rcases htrim with hline | hline
      · exact ⟨pattern, hpat, 36 :: params, hline.trans heq⟩
      · refine ⟨pattern, hpat, 36 :: params ++ [124], ?_⟩
        rw [← append_assoc, ← heq]
        exact hline
  obtain ⟨pattern, hpat, rest, rfl⟩ := hstart
  obtain ⟨⟨c, front, rfl, hc⟩, hslash, -⟩ := loneSlashPatterns_spec hpat
  have hname : isDomainName (c :: front ++ rest) = false :=
    isDomainName_eq_false (mem_append_left rest hslash) (by decide)
  have hbytes : (ofString "@|/").all (fun x => decide ((Addr.hexDigit x = none ∧
      x ≠ 32 ∧ x ≠ 46 ∧ x ≠ 58 ∧ x ≠ 37) ∧ x ≠ 33 ∧ x ≠ 35)) := by decide
  obtain ⟨hbyte, hexclamation, hhash⟩ := of_decide_eq_true (List.all_eq_true.1 hbytes c hc)
  have hhost : parseAdGuardHostLine (c :: (front ++ rest)) = none :=
    hostLine_cons_eq_none hbyte
  refine ⟨by simp, ?_, hname, hhost⟩
  simp [hexclamation, hhash]

/-- **The parser of lines panics on lines with a lone slash only.** -/
theorem parseRuleLine_eq_panicked {line : GoString} :
    parseRuleLine line = .panicked ↔ LoneSlash line := by
  constructor
  · intro h
    rw [parseRuleLine] at h
    split_ifs at h with hempty hcomment hname
    cases hhost : parseAdGuardHostLine line with
    | some hostLine =>
      simp only [hhost] at h
      split_ifs at h
    | none =>
      simp only [hhost] at h
      split_ifs at h with hmod
      · have hmem : 36 ∈ trimSuffix line "|" := contains_singleton.1 hmod.2
        obtain ⟨pattern, params, hsplit, hdollar⟩ := eq_append_cons_of_mem hmem
        rw [hsplit] at h hmod
        have hafter : substringAfter (pattern ++ 36 :: params) "$" = params :=
          substringAfter_singleton hdollar
        have hbefore : substringBefore (pattern ++ 36 :: params) "$" = pattern :=
          substringBefore_singleton hdollar
        rw [hafter, hbefore] at h
        cases hparams : parseParams (split 44 params) with
        | none => simp [hparams] at h
        | some isImportant =>
          simp only [hparams, parsePattern_eq_panicked] at h
          obtain ⟨⟨c, rest, rfl, -⟩, -⟩ := loneSlashPatterns_spec h
          exact .inr ⟨_, params, hsplit, h, hmod.1, by rw [hparams]; rfl⟩
      · exact .inl (parsePattern_eq_panicked.1 h)
  · intro h
    obtain ⟨hempty, hcomment, hname, hhost⟩ := h.skips_nothing
    rw [parseRuleLine, if_neg hempty, if_neg hcomment, hname, hhost]
    simp only [Bool.false_eq_true, if_false]
    rcases h with h | ⟨pattern, params, heq, hpat, hhead, hparams⟩
    · have hdollar := (loneSlashPatterns_spec h).2.2
      rw [if_neg fun hmod => hdollar (contains_singleton.1 hmod.2)]
      exact parsePattern_eq_panicked.2 h
    · obtain ⟨⟨c, rest, rfl, -⟩, -, hdollar⟩ := loneSlashPatterns_spec hpat
      have hafter : substringAfter (c :: rest ++ 36 :: params) "$" = params :=
        substringAfter_singleton hdollar
      have hbefore : substringBefore (c :: rest ++ 36 :: params) "$" = c :: rest :=
        substringBefore_singleton hdollar
      have hcontains : contains (c :: rest ++ 36 :: params) "$" = true :=
        contains_singleton.2 (mem_append_right _ mem_cons_self)
      obtain ⟨isImportant, himp⟩ := Option.isSome_iff_exists.1 hparams
      rw [heq, if_pos ⟨hhead, hcontains⟩, hafter, hbefore, himp]
      exact parsePattern_eq_panicked.2 hpat

/-! ### Texts -/

theorem parseRuleLines_eq_panicked {lines : List GoString} :
    parseRuleLines lines = .error .panicked ↔ ∃ line ∈ lines, LoneSlash line := by
  induction lines with
  | nil => simp [parseRuleLines]
  | cons line lines ih =>
    rw [exists_mem_cons_iff, ← ih, ← parseRuleLine_eq_panicked, parseRuleLines]
    cases parseRuleLine line with
    | panicked => simp
    | skipped => simp
    | kept ruleLine => cases parseRuleLines lines <;> simp [Except.map]

theorem parseRuleLines_error {lines : List GoString} {failure : ConvertFailure}
    (h : parseRuleLines lines = .error failure) : failure = .panicked := by
  induction lines generalizing failure with
  | nil => cases h
  | cons line lines ih =>
    rw [parseRuleLines] at h
    cases hline : parseRuleLine line with
    | panicked =>
      simp only [hline, Except.error.injEq] at h
      exact h.symm
    | skipped =>
      simp only [hline] at h
      exact ih h
    | kept ruleLine =>
      simp only [hline] at h
      cases hlines : parseRuleLines lines with
      | error failure' =>
        simp only [hlines, Except.map, Except.error.injEq] at h
        exact h ▸ ih hlines
      | ok ruleLines => simp [hlines, Except.map] at h

/-- **A text is converted, to rules or to an error, exactly if none of its lines has a lone
slash**; otherwise the conversion panics. -/
theorem toOptions_returns_iff (text : GoString) :
    ((∃ rules, toOptions text = .ok rules) ∨ ∃ err, toOptions text = .error (.error err)) ↔
      ∀ line ∈ scanLines text, ¬LoneSlash line := by
  have hlines := @parseRuleLines_eq_panicked (scanLines text)
  rw [toOptions, adGuardRuleLines]
  cases hparsed : parseRuleLines (scanLines text) with
  | error failure =>
    obtain rfl := parseRuleLines_error hparsed
    obtain ⟨line, hline, hslash⟩ := hlines.1 hparsed
    simp only [reduceCtorEq, Except.error.injEq, exists_false, or_false, false_iff, not_forall]
    exact ⟨line, hline, not_not.2 hslash⟩
  | ok ruleLines =>
    have hnone : ∀ line ∈ scanLines text, ¬LoneSlash line := by
      intro line hline hslash
      have hpanicked := hlines.2 ⟨line, hline, hslash⟩
      rw [hparsed] at hpanicked
      cases hpanicked
    refine iff_of_true ?_ hnone
    dsimp only
    split_ifs
    · exact .inr ⟨_, rfl⟩
    · exact .inl ⟨_, rfl⟩
    · exact .inl ⟨_, rfl⟩

/-- The filter `||/^` is a lone slash between anchors: the slice between its two slashes, which are
one, starts behind its end. -/
theorem anchoredSlash_panics :
    toOptions "||/^" = .error .panicked ∧
      ¬((∃ rules, toOptions "||/^" = .ok rules) ∨
        ∃ err, toOptions "||/^" = .error (.error err)) := by
  have hpanics : toOptions "||/^" = .error .panicked := rfl
  refine ⟨hpanics, ?_⟩
  rintro (⟨rules, h⟩ | ⟨err, h⟩)
  · rw [hpanics] at h
    cases h
  · rw [hpanics] at h
    cases h

end SingBox
