/-
**The lines of an AdGuard filter, written and read again**
(`common/convertor/adguard/convertor.go`).

`FromOptions` writes a line for every pattern and every expression of a rule, and `ToOptions` reads
lines.  A rule whose line was read once is written to a line that is read as the same rule, except
for important expressions: their line starts with a slash, so its modifier is taken for a part of
the expression, and the line is left out.

* `parseRuleLine_rendered` — **what is read for the line of a rule**;
* `readable_of_adGuardRuleLines` — the rules of a text are readable;
* `adGuardRuleLines_written` — what is read of the text that is written for rules.
-/

import SingBox.AdGuard
import Mathlib.Data.List.TakeWhile

namespace SingBox

open GoString AdGuardRuleLine List

/-! ### The bytes of names and patterns -/

/-- The bytes of names: letters, digits, `_`, `-` and `.`. -/
def isNameByte (c : UInt8) : Bool :=
  97 ≤ c && c ≤ 122 || 65 ≤ c && c ≤ 90 || c == 95 || 48 ≤ c && c ≤ 57 || c == 45 || c == 46

/-- The bytes of patterns: those of names, and the wildcard. -/
def isPatternByte (c : UInt8) : Bool := isNameByte c || c == 42

variable {s : GoString}

theorem isNameByte_of_isDomainNameFrom {last : UInt8} {nonNumeric : Bool} {partlen : ℕ}
    (h : isDomainNameFrom last nonNumeric partlen s) :
    ∀ c ∈ s, isNameByte c := by
  induction s generalizing last nonNumeric partlen with
  | nil => simp
  | cons c s ih =>
    rw [isDomainNameFrom] at h
    have hc : isNameByte c ∧ ∃ last nonNumeric partlen,
        isDomainNameFrom last nonNumeric partlen s := by
      split at h
      case isTrue hletter =>
        refine ⟨?_, _, _, _, h⟩
        rcases hletter with hletter | hletter | hletter <;> simp [isNameByte, hletter]
      case isFalse =>
        split at h
        case isTrue hdigit => exact ⟨by simp [isNameByte, hdigit], _, _, _, h⟩
        case isFalse =>
          split at h
          case isTrue hhyphen =>
            refine ⟨by simp [isNameByte, hhyphen], ?_⟩
            split at h
            · cases h
            · exact ⟨_, _, _, h⟩
          case isFalse =>
            split at h
            case isTrue hdot =>
              refine ⟨by simp [isNameByte, hdot], ?_⟩
              split at h
              · cases h
              · split at h
                · cases h
                · exact ⟨_, _, _, h⟩
            case isFalse => cases h
    obtain ⟨hbyte, _, _, _, hrest⟩ := hc
    exact List.forall_mem_cons.2 ⟨hbyte, ih hrest⟩

theorem isNameByte_of_domain (h : isDomainName s) : ∀ c ∈ s, isNameByte c := by
  rw [isDomainName] at h
  split at h
  case isTrue hdot => simp [hdot, isNameByte]
  case isFalse =>
    split at h
    · cases h
    · exact isNameByte_of_isDomainNameFrom h

theorem length_of_isDomainName (h : isDomainName s) : s ≠ [] ∧ s.length ≤ 254 := by
  rw [isDomainName] at h
  split at h
  case isTrue hdot => simp [hdot]
  case isFalse =>
    split at h
    case isTrue => cases h
    case isFalse hlen =>
      rw [not_or, not_or] at hlen
      exact ⟨fun hnil => hlen.1 (by simp [hnil]), Nat.not_lt.1 hlen.2.1⟩

theorem bytes_of_isDomainPattern (h : isDomainPattern s) :
    (∀ c ∈ s, isPatternByte c) ∧ s.length ≤ 254 := by
  have hsub : ∃ front : GoString, isDomainName ((front ++ s).map fun c =>
      if c = 42 then 120 else c) := by
    rw [isDomainPattern] at h
    split at h
    · exact ⟨[114], h⟩
    · exact ⟨[], h⟩
  obtain ⟨front, hname⟩ := hsub
  constructor
  · intro c hc
    have hbyte := isNameByte_of_domain hname (if c = 42 then 120 else c)
      (List.mem_map.2 ⟨c, mem_append_right _ hc, rfl⟩)
    by_cases hstar : c = 42
    · simp [isPatternByte, hstar]
    · rw [if_neg hstar] at hbyte
      simp [isPatternByte, hbyte]
  · have hlen := (length_of_isDomainName hname).2
    simp only [length_map, length_append] at hlen
    omega

theorem isDomainPattern_of_isDomainName (h : isDomainName s) : isDomainPattern s := by
  have hbytes := isNameByte_of_domain h
  have hmap : (s.map fun c => if c = 42 then 120 else c) = s := by
    refine (map_congr_left fun c hc => ?_).trans (map_id s)
    have hstar : c ≠ 42 := by
      rintro rfl
      exact absurd (hbytes 42 hc) (by decide)
    rw [if_neg hstar, id]
  by_cases hdot : s = [46]
  · rw [hdot]
    decide
  · have hhead : ¬(s.head? = some 46 ∨ s.head? = some 45) := by
      rw [isDomainName, if_neg hdot] at h
      split at h
      · cases h
      · cases s with
        | nil => simp
        | cons c s =>
          rintro (hc | hc) <;>
            · obtain rfl := Option.some.inj hc
              simp [isDomainNameFrom] at h
    rw [isDomainPattern, if_neg hhead, hmap, h]

/-! ### Patterns -/

/-- The marks of a pattern, as `mapDomain` writes them. -/
def AdGuardRuleLine.marked (isSuffix hasStart hasEnd : Bool) (pattern : GoString) : GoString :=
  (if isSuffix then ofString "||" else if hasStart then ofString "|" else []) ++ pattern ++
    if hasEnd then ofString "^" else []

theorem AdGuardRuleLine.text_eq_marked (it : AdGuardRuleLine) :
    it.text = marked it.isSuffix it.hasStart it.hasEnd it.ruleLine := by
  rw [text, marked]
  split <;> split <;> (try split) <;> simp

variable {c : UInt8}

section

variable {pattern : GoString} (hnonempty : pattern ≠ []) (hpattern : isDomainPattern pattern)

include hpattern

theorem not_mem_pattern (hc : isPatternByte c = false) : c ∉ pattern := by
  intro hmem
  rw [(bytes_of_isDomainPattern hpattern).1 c hmem] at hc
  cases hc

theorem supported_pattern : pattern.any unsupportedCharacters.contains = false := by
  rw [any_eq_false]
  intro c hc hunsupported
  rw [contains_iff_mem] at hunsupported
  refine not_mem_pattern hpattern ?_ hc
  revert hunsupported
  simp only [unsupportedCharacters, mem_cons, not_mem_nil, or_false]
  rintro (rfl | rfl | rfl | rfl | rfl | rfl | rfl | rfl | rfl | rfl) <;> decide

include hnonempty

theorem isSuffixOf_pattern (hc : isPatternByte c = false) (front : GoString) :
    [c].isSuffixOf (front ++ pattern) = false := by
  obtain ⟨init, x, rfl⟩ := eq_nil_or_concat pattern |>.resolve_left hnonempty
  rw [concat_eq_append] at hpattern ⊢
  rw [← append_assoc, isSuffixOf_append_singleton, beq_eq_false_iff_ne]
  rintro rfl
  exact not_mem_pattern hpattern hc (by simp)

theorem trimSuffix_marked (isSuffix hasStart hasEnd : Bool) (front : GoString) :
    trimSuffix (front ++ marked isSuffix hasStart hasEnd pattern) "|" =
      front ++ marked isSuffix hasStart hasEnd pattern := by
  rw [marked, ← append_assoc, ← append_assoc, trimSuffix, if_neg]
  rw [Bool.not_eq_true]
  cases hasEnd with
  | false =>
    rw [if_neg Bool.false_ne_true, append_nil]
    exact isSuffixOf_pattern (c := 124) hnonempty hpattern (by decide) _
  | true => exact isSuffixOf_append_singleton _ 94 124

/-- **A marked pattern is read** as the pattern with its marks. -/
theorem parsePattern_marked (isExclude isSuffix hasStart hasEnd isImportant : Bool) :
    parsePattern ((if isExclude then ofString "@@" else []) ++
        marked isSuffix hasStart hasEnd pattern) isImportant =
      .kept { ruleLine := pattern, isExclude := isExclude, isSuffix := isSuffix,
              hasStart := !isSuffix && hasStart, hasEnd := hasEnd,
              isImportant := isImportant } := by
  obtain ⟨c, rest, hcons⟩ := exists_cons_of_ne_nil hnonempty
  have hhead : ∀ x, isPatternByte x = false → c ≠ x := by
    rintro x hx rfl
    exact not_mem_pattern hpattern hx (hcons ▸ mem_cons_self)
  have hat := hhead 64 (by decide)
  have hbar := hhead 124 (by decide)
  have hslash := hhead 47 (by decide)
  generalize hmarked : marked isSuffix hasStart hasEnd pattern = line
  -- the marks are taken off one after the other
  have hexclude : (ofString "@@").isPrefixOf ((if isExclude then ofString "@@" else []) ++ line) =
      isExclude := by
    subst hmarked hcons
    cases isExclude <;> cases isSuffix <;> cases hasStart <;>
      simp [marked, ofString, List.isPrefixOf, Ne.symm hat]
  have hdropExclude : (if isExclude then
      ((if isExclude then ofString "@@" else []) ++ line).drop 2
      else (if isExclude then ofString "@@" else []) ++ line) = line := by
    cases isExclude <;> simp [ofString]
  have htrim : trimSuffix line (ofString "|") = line :=
    hmarked ▸ trimSuffix_marked hnonempty hpattern isSuffix hasStart hasEnd []
  have hsuffix : (ofString "||").isPrefixOf line = isSuffix := by
    subst hmarked hcons
    cases isSuffix <;> cases hasStart <;> simp [marked, ofString, List.isPrefixOf, Ne.symm hbar]
  have hstart : (!isSuffix && (ofString "|").isPrefixOf line) = (!isSuffix && hasStart) := by
    subst hmarked hcons
    cases isSuffix <;> cases hasStart <;> simp [marked, ofString, List.isPrefixOf, Ne.symm hbar]
  have hdropStart : (if isSuffix then line.drop 2
      else if (!isSuffix && hasStart) then line.drop 1 else line) =
      pattern ++ if hasEnd then ofString "^" else [] := by
    subst hmarked
    cases isSuffix <;> cases hasStart <;> simp [marked, ofString]
  have hend : (ofString "^").isSuffixOf (pattern ++ if hasEnd then ofString "^" else []) =
      hasEnd := by
    cases hasEnd with
    | false =>
      rw [if_neg (by simp), append_nil]
      exact isSuffixOf_pattern (c := 94) hnonempty hpattern (by decide) []
    | true => exact isSuffixOf_append_singleton _ 94 94
  have hdropEnd : (if hasEnd then (pattern ++ if hasEnd then ofString "^" else []).dropLast
      else pattern ++ if hasEnd then ofString "^" else []) = pattern := by
    cases hasEnd <;> simp [ofString]
  have hexpression : (ofString "/").isPrefixOf pattern = false := by
    simp [hcons, ofString, List.isPrefixOf, Ne.symm hslash]
  have hscheme : contains pattern (ofString "://") = false :=
    contains_eq_false_of_not_mem _ (not_mem_pattern hpattern (by decide))
  simp only [parsePattern, hexclude, hdropExclude, htrim, hsuffix, hstart, hdropStart, hend,
    hdropEnd, hexpression, hscheme, Bool.false_and, Bool.false_eq_true, if_false, hnonempty,
    supported_pattern hpattern, hpattern, if_true, Bool.or_false]

end

/-! ### Expressions -/

/-- A line that begins with a slash, and does not end like a pattern, has no marks. -/
theorem unmarked_of_slash {line rest front : GoString} {x : UInt8} (hcons : line = 47 :: rest)
    (hconcat : line = front ++ [x]) (hbar : x ≠ 124) (hcaret : x ≠ 94) :
    trimSuffix line (ofString "|") = line ∧ (ofString "||").isPrefixOf line = false ∧
      (ofString "|").isPrefixOf line = false ∧ (ofString "^").isSuffixOf line = false := by
  refine ⟨?_, ?_, ?_, ?_⟩
  · rw [hconcat]
    exact trimSuffix_append_singleton (c := 124) hbar
  · simp [hcons, ofString, List.isPrefixOf]
  · simp [hcons, ofString, List.isPrefixOf]
  · rw [hconcat]
    exact (isSuffixOf_append_singleton _ x 94).trans (beq_false_of_ne hcaret)

/-- **An expression between slashes is read** as the expression. -/
theorem parsePattern_expression {expression : GoString}
    (hignore : ignoreIPCIDRRegexp expression = false) (isExclude isImportant : Bool) :
    parsePattern ((if isExclude then ofString "@@" else []) ++
        (ofString "/" ++ expression ++ ofString "/")) isImportant =
      .kept { ruleLine := expression, isExclude := isExclude, isRegexp := true,
              isImportant := isImportant } := by
  generalize hline : ofString "/" ++ expression ++ ofString "/" = line
  have hcons : line = 47 :: (expression ++ [47]) := by rw [← hline]; rfl
  have hconcat : line = (47 :: expression) ++ [47] := hcons
  have hexclude : (ofString "@@").isPrefixOf ((if isExclude then ofString "@@" else []) ++ line) =
      isExclude := by
    cases isExclude <;> simp [hcons, ofString, List.isPrefixOf]
  have hdropExclude : (if isExclude then
      ((if isExclude then ofString "@@" else []) ++ line).drop 2
      else (if isExclude then ofString "@@" else []) ++ line) = line := by
    cases isExclude <;> simp [ofString]
  obtain ⟨htrim, hsuffix, hstart, hend⟩ := unmarked_of_slash hcons hconcat (by decide) (by decide)
  have hopen : (ofString "/").isPrefixOf line := by
    simp [hcons, ofString, List.isPrefixOf]
  have hclose : (ofString "/").isSuffixOf line := by
    rw [hconcat]
    exact isSuffixOf_append_singleton _ 47 47
  have hlen : ¬line.length < 2 := by simp [hcons]
  have hdrop : (line.drop 1).dropLast = expression := by simp [hcons]
  simp only [parsePattern, hexclude, hdropExclude, htrim, hsuffix, hstart, hend, hopen, hclose,
    Bool.false_eq_true, if_false, Bool.and_self, if_true, hlen, hdrop, hignore, Bool.and_false]

/-- **An important expression is not read**: its modifier is taken for a part of it. -/
theorem parsePattern_lost (expression : GoString) :
    parsePattern ("/" ++ expression ++ "/" ++ "$important") false = .skipped := by
  generalize hline : "/" ++ expression ++ "/" ++ "$important" = line
  have hcons : line = 47 :: (expression ++ ofString "/$important") := by
    rw [← hline]
    simp [ofString]
  have hconcat : line = (47 :: (expression ++ ofString "/$importan")) ++ [116] := by
    rw [hcons]
    simp [ofString]
  have hexclude : (ofString "@@").isPrefixOf line = false := by
    simp [hcons, ofString, List.isPrefixOf]
  obtain ⟨htrim, hsuffix, hstart, hend⟩ := unmarked_of_slash hcons hconcat (by decide) (by decide)
  have hclose : (ofString "/").isSuffixOf line = false := by
    rw [hconcat]
    exact isSuffixOf_append_singleton _ 116 47
  -- whatever a scheme would take off, the modifier is left, and is not part of any name
  have hmod : ∀ hasScheme : Bool, hasScheme = contains line "://" →
      36 ∈ if hasScheme then substringAfter line (ofString "://") else line := by
    intro hasScheme _
    have hmem : 36 ∈ line := by
      rw [hcons]
      simp [ofString]
    cases hasScheme with
    | false => exact hmem
    | true =>
      rw [if_pos rfl, substringAfter]
      split
      case h_2 => exact hmem
      case h_1 before after hcut =>
        have hafter : 47 :: after <:+ line :=
          ⟨before ++ [58, 47], by rw [cutAt_eq_some hcut]; simp [ofString]⟩
        have hmod : "$important" <:+ line := ⟨_, hline⟩
        rcases suffix_or_suffix_of_suffix hmod hafter with h | h
        · rcases List.suffix_cons_iff.1 h with h | h
          · cases h
          · exact h.subset (by decide)
        · exact absurd (h.subset mem_cons_self) (by decide)
  simp only [parsePattern, hexclude, htrim, hsuffix, hstart, hend, hclose, Bool.false_eq_true,
    if_false, Bool.and_false]
  have hrest := hmod _ rfl
  generalize (if contains line "://" = true then
    substringAfter line (ofString "://") else line) = rest at hrest ⊢
  have hpattern : isDomainPattern rest ≠ true :=
    fun h => not_mem_pattern h (by decide) hrest
  rw [if_neg hpattern]
  split
  · rfl
  · split <;> rfl

/-! ### Lines -/

/-- The line that is written for a rule. -/
def AdGuardRuleLine.rendered (it : AdGuardRuleLine) : GoString :=
  (if it.isExclude then ofString "@@" else []) ++
    (if it.isRegexp then "/" ++ it.text ++ "/" else it.text) ++
    if it.isImportant then ofString "$important" else []

/-- The rule is an important expression that is no exception: its line is not read. -/
def AdGuardRuleLine.lost (it : AdGuardRuleLine) : Bool :=
  it.isImportant && it.isRegexp && !it.isExclude

/-- What is known of a rule whose line was read: a pattern is one, and an expression has no line
break, is not left out, and has no modifier where one would be looked for. -/
structure AdGuardRuleLine.Readable (it : AdGuardRuleLine) : Prop where
  pattern : it.isRegexp = false → it.ruleLine ≠ [] ∧ isDomainPattern it.ruleLine
  expression : it.isRegexp → ignoreIPCIDRRegexp it.text = false ∧ 10 ∉ it.text ∧
    it.rendered.length < maxScanTokenSize
  modifier : it.isRegexp → it.isExclude ∨ it.isImportant → 36 ∉ it.text

/-- What is read for a rule is the same rule, up to the spelling of its marks. -/
structure AdGuardRuleLine.Reread (it it' : AdGuardRuleLine) : Prop where
  text : it'.text = it.text
  isRegexp : it'.isRegexp = it.isRegexp
  isExclude : it'.isExclude = it.isExclude
  isImportant : it'.isImportant = it.isImportant
  isRawDomain : it'.isRawDomain = isDomainName it.rendered
  ruleLine : it'.isRawDomain → it'.ruleLine = it.text

theorem hostLine_cons_eq_none
    (h : Addr.hexDigit c = none ∧ c ≠ 32 ∧ c ≠ 46 ∧ c ≠ 58 ∧ c ≠ 37) :
    parseAdGuardHostLine (c :: s) = none := by
  obtain ⟨hdigit, hspace, hdot, hcolon, hzone⟩ := h
  rw [parseAdGuardHostLine, cut, if_neg hspace]
  cases cut 32 s with
  | none => rfl
  | some parts => simp [Addr.parseAddr_cons_eq_none hdigit hdot hcolon hzone]

variable {line : GoString}

theorem parseAdGuardHostLine_eq_none (h : 32 ∉ line) : parseAdGuardHostLine line = none := by
  rw [parseAdGuardHostLine, cut_eq_none h]

theorem isDomainName_eq_false (hmem : c ∈ line)
    (hc : isNameByte c = false) : isDomainName line = false := by
  rw [← Bool.not_eq_true]
  intro hname
  rw [isNameByte_of_domain hname c hmem] at hc
  cases hc

section

variable {line : GoString} (hnonempty : line ≠ [])
  (hcomment : line.head? ≠ some 33 ∧ line.head? ≠ some 35)

include hnonempty hcomment

theorem parseRuleLine_of_no_modifier (hname : isDomainName line = false)
    (hhost : parseAdGuardHostLine line = none) (hbar : trimSuffix line "|" = line)
    (hmod : line.head? = some 47 ∨ 36 ∉ line) :
    parseRuleLine line = parsePattern line false := by
  have hskip : ¬(line.head? ≠ some 47 ∧ contains line "$" = true) := by
    rintro ⟨hhead, hcontains⟩
    rcases hmod with h | h
    · exact hhead h
    · exact h (contains_singleton.1 hcontains)
  simp only [parseRuleLine, hnonempty, hcomment.1, hcomment.2, or_self, hname, hhost, hbar,
    if_neg hskip, if_false, Bool.false_eq_true]

theorem parseRuleLine_important (hslash : line.head? ≠ some 47) (hmod : 36 ∉ line)
    (hhost : parseAdGuardHostLine (line ++ "$important") = none) :
    parseRuleLine (line ++ ofString "$important") = parsePattern line true := by
  have hhead : (line ++ "$important").head? = line.head? := by
    obtain ⟨c, rest, rfl⟩ := exists_cons_of_ne_nil hnonempty
    rfl
  have hbar : trimSuffix (line ++ "$important") "|" = line ++ "$important" := by
    have hconcat : line ++ ofString "$important" = (line ++ ofString "$importan") ++ [116] := by
      simp [ofString]
    rw [hconcat]
    exact trimSuffix_append_singleton (c := 124) (by decide)
  have hname : isDomainName (line ++ "$important") = false :=
    isDomainName_eq_false (c := 36) (by simp [ofString]) (by decide)
  have hcontains : contains (line ++ "$important") "$" = true :=
    contains_singleton (c := 36).2 (by simp [ofString])
  have hafter : substringAfter (line ++ "$important") "$" =
      "important" := substringAfter_singleton hmod
  have hbefore : substringBefore (line ++ "$important") "$" = line :=
    substringBefore_singleton hmod
  have hparams : parseParams ((ofString "important").split 44) = some true := by decide
  simp only [parseRuleLine, append_eq_nil_iff, hnonempty, false_and, hhead, hcomment.1,
    hcomment.2, or_self, hname, hhost, hbar, hcontains, hafter, hbefore, hparams, hslash,
    if_false, Bool.false_eq_true, ne_eq, not_false_eq_true, and_self, if_true]

end

section

variable {it : AdGuardRuleLine}

theorem mem_marked {pattern : GoString} (hpattern : isDomainPattern pattern)
    (isExclude isSuffix hasStart hasEnd : Bool)
    (h : c ∈ (if isExclude then ofString "@@" else []) ++ marked isSuffix hasStart hasEnd pattern) :
    isPatternByte c ∨ c = 64 ∧ isExclude ∨ c = 124 ∨ c = 94 := by
  simp only [marked, mem_append] at h
  rcases h with h | (h | h) | h
  · cases isExclude with
    | false => simp at h
    | true => simp_all [ofString]
  · cases isSuffix <;> cases hasStart <;> simp_all [ofString]
  · exact .inl ((bytes_of_isDomainPattern hpattern).1 c h)
  · cases hasEnd <;> simp_all [ofString]

/-- **The line of a pattern is read** as the pattern. -/
theorem parseRuleLine_rendered_pattern (h : it.Readable) (hre : it.isRegexp = false) :
    ∃ it', parseRuleLine it.rendered = .kept it' ∧ it.Reread it' := by
  obtain ⟨hnonempty, hpattern⟩ := h.pattern hre
  have hread := parsePattern_marked hnonempty hpattern it.isExclude it.isSuffix it.hasStart
    it.hasEnd it.isImportant
  have hbar := trimSuffix_marked hnonempty hpattern it.isSuffix it.hasStart it.hasEnd
    (if it.isExclude then ofString "@@" else [])
  have hmem := fun c => mem_marked (c := c) hpattern it.isExclude it.isSuffix it.hasStart it.hasEnd
  have hne : (if it.isExclude then ofString "@@" else []) ++
      marked it.isSuffix it.hasStart it.hasEnd it.ruleLine ≠ [] := by
    simp [marked, hnonempty]
  have hrendered : it.rendered = (if it.isExclude then ofString "@@" else []) ++
      marked it.isSuffix it.hasStart it.hasEnd it.ruleLine ++
      if it.isImportant then ofString "$important" else [] := by
    rw [rendered, hre, if_neg Bool.false_ne_true, it.text_eq_marked]
  generalize hline : (if it.isExclude then ofString "@@" else []) ++
    marked it.isSuffix it.hasStart it.hasEnd it.ruleLine = line
    at hread hbar hmem hne hrendered
  have hno : ∀ c, isPatternByte c = false ∧ c ≠ 64 ∧ c ≠ 124 ∧ c ≠ 94 → c ∉ line := by
    rintro c ⟨hc, hat, hpipe, hcaret⟩ hline
    rcases hmem c hline with h | h | h | h
    · rw [h] at hc
      cases hc
    · exact hat h.1
    · exact hpipe h
    · exact hcaret h
  have hhead : ∀ c, c ∉ line → line.head? ≠ some c := fun c hc h => hc (mem_of_mem_head? h)
  have hcomment : line.head? ≠ some 33 ∧ line.head? ≠ some 35 :=
    ⟨hhead 33 (hno 33 (by decide)), hhead 35 (hno 35 (by decide))⟩
  have hmod := hno 36 (by decide)
  have hspace := hno 32 (by decide)
  have hsame : isDomainName it.rendered = false → it.Reread
      { ruleLine := it.ruleLine, isExclude := it.isExclude, isSuffix := it.isSuffix,
        hasStart := !it.isSuffix && it.hasStart, hasEnd := it.hasEnd,
        isImportant := it.isImportant } := by
    intro hname
    refine ⟨?_, hre.symm, rfl, rfl, hname.symm, Bool.noConfusion⟩
    simp only [text]
    cases it.isSuffix <;> simp
  cases himp : it.isImportant with
  | true =>
    rw [himp] at hread hsame
    rw [himp, if_pos rfl] at hrendered
    refine ⟨_, ?_, hsame ?_⟩
    · rw [hrendered, parseRuleLine_important hne hcomment
        (hhead 47 (hno 47 (by decide))) hmod (parseAdGuardHostLine_eq_none ?_), hread]
      rw [mem_append]
      exact not_or.2 ⟨hspace, by decide⟩
    · rw [hrendered]
      exact isDomainName_eq_false (c := 36) (by simp [ofString]) (by decide)
  | false =>
    rw [himp] at hread hsame
    rw [himp, if_neg Bool.false_ne_true, append_nil] at hrendered
    cases hname : isDomainName line with
    | true =>
      -- a plain name, which has no marks
      have hexclude : it.isExclude = false := by
        rw [← Bool.not_eq_true]
        intro hexclude
        have hat : 64 ∈ line := by simp [← hline, hexclude, ofString]
        exact absurd (isNameByte_of_domain hname 64 hat) (by decide)
      have hplain : line = it.text := by
        rw [← hline, hexclude, it.text_eq_marked]
        rfl
      refine ⟨{ ruleLine := line, isRawDomain := true }, ?_, hplain, hre.symm,
        hexclude.symm, himp.symm, ?_, fun _ => hplain⟩
      · simp only [hrendered, parseRuleLine, hne, hcomment.1, hcomment.2, or_self, hname,
          if_false, if_true]
      · rw [hrendered, hname]
    | false =>
      refine ⟨_, ?_, hsame ?_⟩
      · rw [hrendered, parseRuleLine_of_no_modifier hne hcomment hname
          (parseAdGuardHostLine_eq_none hspace) hbar (.inr hmod), hread]
      · rw [hrendered, hname]

/-- **The line of an expression is read** as the expression. -/
theorem parseRuleLine_rendered_expression (h : it.Readable) (hre : it.isRegexp)
    (hlost : it.lost = false) :
    ∃ it', parseRuleLine it.rendered = .kept it' ∧ it.Reread it' := by
  obtain ⟨hignore, -, -⟩ := h.expression hre
  have hread := parsePattern_expression hignore it.isExclude it.isImportant
  have hreread : it.Reread
      { ruleLine := it.text, isExclude := it.isExclude, isRegexp := true,
        isImportant := it.isImportant } := by
    refine ⟨rfl, hre.symm, rfl, rfl, ?_, Bool.noConfusion⟩
    refine (isDomainName_eq_false (c := 47) ?_ (by decide)).symm
    simp [rendered, hre, ofString]
  refine ⟨_, ?_, hreread⟩
  rw [rendered, hre, if_pos rfl, ← hread]
  have hconcat : ∀ front : GoString, front ++ (ofString "/" ++ it.text ++ ofString "/") =
      (front ++ ofString "/" ++ it.text) ++ [47] := by
    simp [ofString]
  have hbar : ∀ front : GoString, trimSuffix (front ++ ("/" ++ it.text ++ "/"))
      "|" = front ++ ("/" ++ it.text ++ "/") := by
    intro front
    rw [hconcat]
    exact trimSuffix_append_singleton (c := 124) (by decide)
  have hname : ∀ front : GoString, isDomainName (front ++ ("/" ++ it.text ++ "/")) = false :=
    fun front => isDomainName_eq_false (c := 47) (by simp [ofString]) (by decide)
  cases hexclude : it.isExclude with
  | true =>
    have htext : 36 ∉ it.text := h.modifier hre (.inl hexclude)
    have hmod : 36 ∉ "@@" ++ ("/" ++ it.text ++ "/") := by
      simp [ofString, htext]
    have hcomment : ("@@" ++ ("/" ++ it.text ++ "/")).head? ≠ some 33 ∧
        ("@@" ++ ("/" ++ it.text ++ "/")).head? ≠ some 35 := by
      simp [ofString]
    cases himp : it.isImportant with
    | true =>
      exact parseRuleLine_important (by simp [ofString]) hcomment (by simp [ofString]) hmod
        (hostLine_cons_eq_none (c := 64) (by decide))
    | false =>
      rw [if_neg Bool.false_ne_true, append_nil]
      exact parseRuleLine_of_no_modifier (by simp [ofString]) hcomment (hname _)
        (hostLine_cons_eq_none (c := 64) (by decide)) (hbar _) (.inr hmod)
  | false =>
    have himp : it.isImportant = false := by simpa [lost, hre, hexclude] using hlost
    rw [himp, if_neg Bool.false_ne_true, if_neg Bool.false_ne_true, append_nil]
    exact parseRuleLine_of_no_modifier (by simp [ofString]) (by simp [ofString]) (hname _)
      (hostLine_cons_eq_none (c := 47) (by decide)) (hbar _) (.inl (by simp [ofString]))

theorem parseRuleLine_rendered_lost (hlost : it.lost) : parseRuleLine it.rendered = .skipped := by
  simp only [lost, Bool.and_eq_true, Bool.not_eq_true'] at hlost
  obtain ⟨⟨himp, hre⟩, hexclude⟩ := hlost
  rw [rendered, himp, hre, hexclude, if_pos rfl, if_pos rfl,
    if_neg Bool.false_ne_true, nil_append, ← parsePattern_lost it.text]
  have hconcat : ofString "/" ++ it.text ++ ofString "/" ++ ofString "$important" =
      (ofString "/" ++ it.text ++ ofString "/$importan") ++ [116] := by
    simp [ofString]
  have hbar : trimSuffix ("/" ++ it.text ++ "/" ++ "$important")
      "|" = "/" ++ it.text ++ "/" ++ "$important" := by
    rw [hconcat]
    exact trimSuffix_append_singleton (c := 124) (by decide)
  exact parseRuleLine_of_no_modifier (by simp [ofString]) (by simp [ofString])
    (isDomainName_eq_false (c := 47) (by simp [ofString]) (by decide))
    (hostLine_cons_eq_none (c := 47) (by decide)) hbar (.inl (by simp [ofString]))

/-- **What is read for the line of a rule**: nothing for an important expression, and else the same
rule. -/
theorem parseRuleLine_rendered (h : it.Readable) :
    it.lost ∧ parseRuleLine it.rendered = .skipped ∨
      it.lost = false ∧ ∃ it', parseRuleLine it.rendered = .kept it' ∧ it.Reread it' := by
  cases hlost : it.lost with
  | true => exact .inl ⟨rfl, parseRuleLine_rendered_lost hlost⟩
  | false =>
    refine .inr ⟨rfl, ?_⟩
    cases hre : it.isRegexp with
    | true => exact parseRuleLine_rendered_expression h hre hlost
    | false => exact parseRuleLine_rendered_pattern h hre

end

/-! ### Lines that were read -/

theorem ignoreIPCIDRRegexp_bar (s : GoString) : ignoreIPCIDRRegexp (124 :: s) = false := by
  have hbefore : ∀ sep : GoString, sep.head? ≠ some 124 → sep ≠ [] →
      parseUint 8 (substringBefore (124 :: s) sep) = none := by
    intro sep hhead hsep
    obtain ⟨c, rest, rfl⟩ := exists_cons_of_ne_nil hsep
    have hc : (c == 124) = false := by simpa using hhead
    rw [substringBefore, cutAt, List.isPrefixOf, hc, Bool.false_and, if_neg Bool.false_ne_true]
    cases cutAt (c :: rest) s with
    | none | some parts => simp [parseUint, parseDigits, digit]
  have hhttp : (ofString "(http?:\\/\\/)").isPrefixOf (124 :: s) = false := by
    simp [ofString, List.isPrefixOf]
  have hhttps : (ofString "(https?:\\/\\/)").isPrefixOf (124 :: s) = false := by
    simp [ofString, List.isPrefixOf]
  have hcaret : (ofString "^").isPrefixOf (124 :: s) = false := by
    simp [ofString, List.isPrefixOf]
  simp only [ignoreIPCIDRRegexp, hhttp, hhttps, hcaret, Bool.false_eq_true, if_false,
    hbefore _ (by decide : (ofString "\\.").head? ≠ some 124) (by decide),
    hbefore _ (by decide : (ofString ".").head? ≠ some 124) (by decide)]
  rfl

theorem parseUint_substringBefore_append {s sep : GoString} (hsep : sep ≠ [])
    (hlast : sep.getLast? ≠ some 94)
    (h : (parseUint 8 (substringBefore (s ++ [94]) sep)).isSome) :
    (parseUint 8 (substringBefore s sep)).isSome := by
  rw [substringBefore, cutAt_append_singleton hsep hlast] at h
  rw [substringBefore]
  cases hcut : cutAt sep s with
  | some parts => simpa [hcut] using h
  | none =>
    simp only [hcut, Option.map_none] at h
    have hdigit := digit_of_parseUint h 94 (by simp)
    cases hdigit

theorem ignoreIPCIDRRegexp_append (h : ignoreIPCIDRRegexp s = false) :
    ignoreIPCIDRRegexp (s ++ [94]) = false := by
  cases s with
  | nil => decide
  | cons c s =>
    have hcaret : (ofString "^").isPrefixOf (c :: s ++ [94]) =
        (ofString "^").isPrefixOf (c :: s) := by
      simp [ofString, List.isPrefixOf]
    have hhttp := isPrefixOf_append_singleton (s := c :: s)
      (by decide : (ofString "(http?:\\/\\/)").getLast? ≠ some 94)
    have hhttps := isPrefixOf_append_singleton (s := c :: s)
      (by decide : (ofString "(https?:\\/\\/)").getLast? ≠ some 94)
    -- the front that is taken off is the same
    have hstrip : (if (ofString "(http?:\\/\\/)").isPrefixOf (c :: s) then
          (c :: s ++ [94]).drop 12
        else if (ofString "(https?:\\/\\/)").isPrefixOf (c :: s) then (c :: s ++ [94]).drop 13
        else if (ofString "^").isPrefixOf (c :: s) then (c :: s ++ [94]).drop 1
        else c :: s ++ [94]) =
        (if (ofString "(http?:\\/\\/)").isPrefixOf (c :: s) then (c :: s).drop 12
        else if (ofString "(https?:\\/\\/)").isPrefixOf (c :: s) then (c :: s).drop 13
        else if (ofString "^").isPrefixOf (c :: s) then (c :: s).drop 1
        else c :: s) ++ [94] := by
      split
      · rename_i hfront
        exact drop_append_of_le_length (List.isPrefixOf_iff_prefix.1 hfront).length_le
      · split
        · rename_i hfront
          exact drop_append_of_le_length (List.isPrefixOf_iff_prefix.1 hfront).length_le
        · split <;> rfl
    simp only [ignoreIPCIDRRegexp, Bool.or_eq_false_iff] at h ⊢
    simp only [hhttp, hhttps, hcaret, hstrip, ← Bool.not_eq_true] at h ⊢
    exact ⟨fun h' => h.1 (parseUint_substringBefore_append (by decide) (by decide) h'),
      fun h' => h.2 (parseUint_substringBefore_append (by decide) (by decide) h')⟩

variable {it : AdGuardRuleLine}

theorem ignoreIPCIDRRegexp_text
    (h : ignoreIPCIDRRegexp it.ruleLine = false) : ignoreIPCIDRRegexp it.text = false := by
  have hmarked : ignoreIPCIDRRegexp
      (if it.isSuffix then "||" ++ it.ruleLine
        else if it.hasStart then "|" ++ it.ruleLine else it.ruleLine) = false := by
    split
    · exact ignoreIPCIDRRegexp_bar _
    · split
      · exact ignoreIPCIDRRegexp_bar _
      · exact h
  rw [text]
  split
  · exact ignoreIPCIDRRegexp_append hmarked
  · exact hmarked

theorem length_of_parseParam {param : GoString} (h : parseParam param = some true) :
    9 ≤ param.length := by
  have hname : ofString "important" ∈ param.split 61 := by
    rw [parseParam] at h
    split at h
    case h_1 name hsplit =>
      split at h
      · rename_i hname
        simp [hsplit, hname]
      · cases h
    case h_2 name value hsplit =>
      split at h
      · rename_i hname
        simp [hsplit, hname]
      · split at h <;> cases h
    case h_3 => cases h
  exact length_le_of_mem_split hname

/-- No modifier is shorter than the one that is written. -/
theorem length_of_parseParams {params : List GoString} (h : parseParams params = some true) :
    ∃ param ∈ params, 9 ≤ param.length := by
  induction params with
  | nil => cases h
  | cons param params ih =>
    rw [parseParams] at h
    cases hparam : parseParam param with
    | none => simp [hparam] at h
    | some isImportant =>
      simp only [hparam] at h
      obtain ⟨rest, hrest, hor⟩ := Option.map_eq_some_iff.1 h
      cases isImportant with
      | true => exact ⟨param, mem_cons_self, length_of_parseParam hparam⟩
      | false =>
        rw [Bool.false_or] at hor
        obtain ⟨other, hmem, hlen⟩ := ih (hor ▸ hrest)
        exact ⟨other, mem_cons_of_mem _ hmem, hlen⟩

theorem length_drop_front (front : GoString) {b : Bool}
    (hb : b → front.isPrefixOf s) :
    (if b then front.length else 0) + (if b then s.drop front.length else s).length = s.length := by
  cases b with
  | false => simp
  | true =>
    have hlen := (List.isPrefixOf_iff_prefix.1 (hb rfl)).length_le
    simp only [if_true, length_drop]
    omega

theorem trimSuffix_sublist (s suffix : GoString) : (trimSuffix s suffix).Sublist s := by
  rw [trimSuffix]
  split
  · exact take_sublist _ _
  · exact List.Sublist.refl _

theorem ite_drop_sublist (b : Bool) (n : ℕ) : (if b then s.drop n else s).Sublist s := by
  split
  · exact drop_sublist _ _
  · exact List.Sublist.refl _

theorem AdGuardRuleLine.length_text (it : AdGuardRuleLine) :
    it.text.length = (if it.isSuffix then 2 else if it.hasStart then 1 else 0) +
      it.ruleLine.length + if it.hasEnd then 1 else 0 := by
  rw [it.text_eq_marked, marked]
  cases it.isSuffix <;> cases it.hasStart <;> cases it.hasEnd <;> simp [ofString] <;> omega

/-- A pattern line without its marks, and how long these are. -/
theorem parsePattern_eq_kept {isImportant : Bool} (h : parsePattern line isImportant = .kept it) :
    it.isImportant = isImportant ∧ (it.isExclude → (ofString "@@").isPrefixOf line) ∧
      (it.isRegexp = false → it.ruleLine ≠ [] ∧ isDomainPattern it.ruleLine) ∧
      (it.isRegexp → ignoreIPCIDRRegexp it.ruleLine = false ∧ it.ruleLine.Sublist line ∧
        (if it.isExclude then 2 else 0) + (it.text.length + 2) ≤ line.length) := by
  unfold parsePattern at h
  extract_lets isExclude line₁ line₂ isSuffix hasStart line₃ hasEnd line₄ kept expression hasScheme
    pattern at h
  have hline₁ : (if isExclude then 2 else 0) + line₁.length = line.length :=
    length_drop_front "@@" (b := isExclude) id
  have hline₂ : line₂.length ≤ line₁.length := (trimSuffix_sublist _ _).length_le
  have hline₃ : (if isSuffix then 2 else if hasStart then 1 else 0) + line₃.length =
      line₂.length := by
    have hsuffix := length_drop_front (s := line₂) "||" (b := isSuffix) id
    have hstart := length_drop_front (s := line₂) "|" (b := hasStart) fun h =>
      (Bool.and_eq_true_iff.1 h).2
    by_cases his : isSuffix
    · rw [if_pos his, if_pos his] at hsuffix
      simp only [line₃, if_pos his]
      exact hsuffix
    · simp only [line₃, if_neg his]
      exact hstart
  have hline₄ : (if hasEnd then 1 else 0) + line₄.length = line₃.length := by
    simp only [line₄]
    by_cases hend : hasEnd
    · have hlen : 1 ≤ line₃.length := (List.isSuffixOf_iff_suffix.1 hend).length_le
      simp only [if_pos hend, length_dropLast]
      omega
    · simp only [if_neg hend, Nat.zero_add]
  have hsublist : line₄.Sublist line := by
    have hline₄ : line₄.Sublist line₃ := by
      simp only [line₄]
      split
      · exact dropLast_sublist _
      · exact List.Sublist.refl _
    have hline₃ : line₃.Sublist line₂ := by
      simp only [line₃]
      split
      · exact drop_sublist _ _
      · exact ite_drop_sublist _ _
    exact hline₄.trans (hline₃.trans ((trimSuffix_sublist _ _).trans (ite_drop_sublist _ _)))
  split at h
  · split at h
    · cases h
    · rename_i hlen
      split at h
      · cases h
      · rename_i hignore
        obtain rfl := LineOutcome.kept.inj h
        have hexpression : expression.length + 2 = line₄.length := by
          simp only [expression, length_dropLast, length_drop]
          omega
        refine ⟨rfl, id, Bool.noConfusion, fun _ => ⟨by simpa using hignore, ?_, ?_⟩⟩
        · exact ((dropLast_sublist _).trans (drop_sublist _ _)).trans hsublist
        · rw [length_text]
          simp only [kept]
          omega
  · split at h
    · cases h
    · split at h
      · cases h
      · split at h
        · rename_i hnonempty hpattern
          obtain rfl := LineOutcome.kept.inj h
          exact ⟨rfl, id, fun _ => ⟨hnonempty, hpattern⟩, Bool.noConfusion⟩
        · cases h

theorem AdGuardRuleLine.mem_text (h : c ∈ it.text) : c ∈ it.ruleLine ∨ c = 124 ∨ c = 94 := by
  rw [it.text_eq_marked, marked, mem_append, mem_append] at h
  rcases h with (h | h) | h
  · cases hsuffix : it.isSuffix <;> cases hstart : it.hasStart <;> simp_all [ofString]
  · exact .inl h
  · cases hend : it.hasEnd <;> simp_all [ofString]

theorem isDomainName_of_parseAdGuardHostLine {line hostLine : GoString}
    (h : parseAdGuardHostLine line = some hostLine) (hnonempty : hostLine ≠ []) :
    isDomainName hostLine := by
  rw [parseAdGuardHostLine] at h
  split at h
  case h_1 => cases h
  case h_2 =>
    split at h
    case h_1 => cases h
    case h_2 =>
      split at h
      case isTrue => exact absurd (Option.some.inj h).symm hnonempty
      case isFalse =>
        split at h
        case isTrue hname => exact Option.some.inj h ▸ hname
        case isFalse => cases h

theorem readable_of_parsePattern {isImportant : Bool}
    (h : parsePattern line isImportant = .kept it) (hbreak : 10 ∉ line)
    (hlen : line.length + (if isImportant then 10 else 0) < maxScanTokenSize)
    (hmod : it.isExclude ∨ isImportant → 36 ∉ line) : it.Readable := by
  obtain ⟨rfl, -, hpattern, hexpression⟩ := parsePattern_eq_kept h
  have hmem : ∀ c, c ≠ 124 → c ≠ 94 → c ∉ line → it.isRegexp → c ∉ it.text := by
    intro c hbar hcaret hline hre htext
    rcases mem_text htext with h | h | h
    · exact hline ((hexpression hre).2.1.subset h)
    · exact hbar h
    · exact hcaret h
  refine ⟨hpattern, fun hre => ⟨?_, ?_, ?_⟩, fun hre hor => ?_⟩
  · exact ignoreIPCIDRRegexp_text (hexpression hre).1
  · exact hmem 10 (by decide) (by decide) hbreak hre
  · have hmarks := (hexpression hre).2.2
    have hrendered : it.rendered.length =
        (if it.isExclude then 2 else 0) + (it.text.length + 2) +
          if it.isImportant then 10 else 0 := by
      rw [rendered, hre]
      cases it.isExclude <;> cases it.isImportant <;> simp [ofString] <;> omega
    omega
  · exact hmem 36 (by decide) (by decide) (hmod hor) hre

/-- **Every line that is kept is readable.** -/
theorem readable_of_kept (hbreak : 10 ∉ line) (hlen : line.length < maxScanTokenSize)
    (h : parseRuleLine line = .kept it) : it.Readable := by
  have hraw : ∀ {it : AdGuardRuleLine}, it.isRegexp = false → isDomainName it.ruleLine →
      it.Readable := by
    intro it hre hname
    refine ⟨fun _ => ⟨(length_of_isDomainName hname).1, isDomainPattern_of_isDomainName hname⟩,
      fun h => ?_, fun h => ?_⟩ <;>
    · rw [hre] at h
      cases h
  rw [parseRuleLine] at h
  split at h
  · cases h
  split at h
  · cases h
  split at h
  case isTrue hname =>
    obtain rfl := LineOutcome.kept.inj h
    exact hraw rfl hname
  case isFalse =>
    split at h
    case h_1 hostLine hhost =>
      split at h
      · cases h
      · rename_i hnonempty
        obtain rfl := LineOutcome.kept.inj h
        exact hraw rfl (isDomainName_of_parseAdGuardHostLine hhost hnonempty)
    case h_2 =>
      have hsublist := trimSuffix_sublist line "|"
      have hbreak' : 10 ∉ trimSuffix line "|" := fun h => hbreak (hsublist.subset h)
      have hlen' := hsublist.length_le
      generalize trimSuffix line "|" = line' at h hbreak' hlen'
      dsimp only at h
      split at h
      case isTrue hcontains =>
        obtain ⟨before, after, rfl, hbefore⟩ :=
          eq_append_cons_of_mem (contains_singleton (c := 36).1 hcontains.2)
        have hcut : substringAfter (before ++ 36 :: after) "$" = after :=
          substringAfter_singleton hbefore
        have hcut' : substringBefore (before ++ 36 :: after) (ofString "$") = before :=
          substringBefore_singleton hbefore
        rw [hcut, hcut'] at h
        cases hparams : parseParams (split 44 after) with
        | none => simp [hparams] at h
        | some isImportant =>
          simp only [hparams] at h
          refine readable_of_parsePattern h (fun hmem => hbreak' (mem_append_left _ hmem))
            ?_ fun _ => hbefore
          rw [length_append, length_cons] at hlen'
          cases isImportant with
          | false => simp only [Bool.false_eq_true, if_false]; omega
          | true =>
            obtain ⟨param, hparam, hmin⟩ := length_of_parseParams hparams
            have hmax := length_le_of_mem_split hparam
            simp only [if_true]
            omega
      case isFalse hnone =>
        refine readable_of_parsePattern h hbreak' (by simpa using hlen'.trans_lt hlen) ?_
        rintro (hexclude | himp)
        · intro hmem
          refine hnone ⟨?_, contains_singleton (c := 36).2 hmem⟩
          obtain ⟨rest, rfl⟩ := List.isPrefixOf_iff_prefix.1 ((parsePattern_eq_kept h).2.1 hexclude)
          simp [ofString]
        · cases himp

/-! ### The text that is written -/

variable {ruleLines : List AdGuardRuleLine}

theorem mem_of_parseRuleLines {lines : List GoString} (h : parseRuleLines lines = .ok ruleLines) :
    ∀ it ∈ ruleLines, ∃ line ∈ lines, parseRuleLine line = .kept it := by
  induction lines generalizing ruleLines with
  | nil =>
    obtain rfl : [] = ruleLines := Except.ok.inj h
    simp
  | cons line lines ih =>
    rw [parseRuleLines] at h
    split at h
    case h_1 => cases h
    case h_2 =>
      intro it hit
      obtain ⟨line', hline', hkept⟩ := ih h it hit
      exact ⟨line', mem_cons_of_mem _ hline', hkept⟩
    case h_3 ruleLine hkept =>
      cases hrest : parseRuleLines lines with
      | error err => simp [hrest, Except.map] at h
      | ok rest =>
        obtain rfl : ruleLine :: rest = ruleLines := by simpa [hrest, Except.map] using h
        intro it hit
        rcases List.mem_cons.1 hit with rfl | hit
        · exact ⟨line, mem_cons_self, hkept⟩
        · obtain ⟨line', hline', hkept'⟩ := ih hrest it hit
          exact ⟨line', mem_cons_of_mem _ hline', hkept'⟩

theorem readable_of_adGuardRuleLines {text : GoString}
    (h : adGuardRuleLines text = .ok ruleLines) : ∀ it ∈ ruleLines, it.Readable := by
  intro it hit
  obtain ⟨line, hline, hkept⟩ := mem_of_parseRuleLines h it hit
  obtain ⟨scanned, hscanned, rfl⟩ := List.mem_map.1 hline
  have hsplit := takeWhile_subset _ hscanned
  have hsublist := trimSuffix_sublist scanned [13]
  refine readable_of_kept (fun hmem => not_mem_of_mem_split hsplit (hsublist.subset hmem)) ?_ hkept
  have hlen := mem_takeWhile_imp hscanned
  exact hsublist.length_le.trans_lt (of_decide_eq_true hlen)

/-- A line that is written is scanned as it is: it has no line break, it fits into the buffer of the
scanner, and it does not end in a carriage return. -/
structure Scannable (line : GoString) : Prop where
  not_mem : 10 ∉ line
  length : line.length < maxScanTokenSize
  trim : trimSuffix line [13] = line

theorem scanLines_written {lines : List GoString} (h : ∀ line ∈ lines, Scannable line) :
    scanLines (lines.flatMap fun line => line ++ "\n") = lines ++ [[]] := by
  have hsplit : split 10 (lines.flatMap fun line => line ++ "\n") = lines ++ [[]] :=
    split_lines fun line hline => (h line hline).not_mem
  have hall : ∀ line ∈ lines ++ [[]], Scannable line := by
    intro line hline
    rcases List.mem_append.1 hline with hline | hline
    · exact h line hline
    · obtain rfl := List.mem_singleton.1 hline
      exact ⟨by simp, by decide, by decide⟩
  rw [scanLines, hsplit, List.takeWhile_eq_self_iff.2 fun line hline =>
    decide_eq_true (hall line hline).length]
  exact (map_congr_left fun line hline => (hall line hline).trim).trans (map_id' _)

theorem parseRuleLines_append_nil (lines : List GoString) :
    parseRuleLines (lines ++ [[]]) = parseRuleLines lines := by
  induction lines with
  | nil => rfl
  | cons line lines ih => rw [cons_append, parseRuleLines, parseRuleLines, ih]

theorem AdGuardRuleLine.Readable.not_mem_text (h : it.Readable) : 10 ∉ it.text := by
  cases hre : it.isRegexp with
  | true => exact (h.expression hre).2.1
  | false =>
    intro hmem
    rcases mem_text hmem with hmem | hmem | hmem
    · exact not_mem_pattern (h.pattern hre).2 (by decide) hmem
    · exact absurd hmem (by decide)
    · exact absurd hmem (by decide)

theorem not_mem_rendered (h : 10 ∉ it.text) : 10 ∉ it.rendered := by
  rw [rendered]
  cases it.isExclude <;> cases it.isRegexp <;> cases it.isImportant <;> simp [ofString, h]

theorem scannable_rendered (h : it.Readable) : Scannable it.rendered := by
  refine ⟨not_mem_rendered h.not_mem_text, ?_, ?_⟩
  · cases hre : it.isRegexp with
    | true => exact (h.expression hre).2.2
    | false =>
      have hpattern := (bytes_of_isDomainPattern (h.pattern hre).2).2
      have htext := it.length_text
      have hmarks : it.text.length ≤ 257 := by
        split at htext <;> split at htext <;> (try split at htext) <;> omega
      have hrendered : it.rendered.length ≤ it.text.length + 12 := by
        rw [rendered, hre]
        cases it.isExclude <;> cases it.isImportant <;> simp [ofString]
      rw [maxScanTokenSize]
      omega
  · have hlast : it.rendered.getLast? ≠ some 13 := by
      rw [rendered]
      cases himp : it.isImportant with
      | true => simp [ofString]
      | false =>
        cases hre : it.isRegexp with
        | true => simp [ofString, getLast?_cons]
        | false =>
          intro hlast
          rw [if_neg Bool.false_ne_true, if_neg Bool.false_ne_true, append_nil,
            it.text_eq_marked] at hlast
          rcases mem_marked (h.pattern hre).2 _ _ _ _ (mem_of_getLast? hlast) with
            h | h | h | h
          · exact absurd h (by decide)
          · exact absurd h.1 (by decide)
          · exact absurd h (by decide)
          · exact absurd h (by decide)
    exact trimSuffix_eq_self hlast

theorem parseRuleLines_rendered (h : ∀ it ∈ ruleLines, it.Readable) :
    ∃ ruleLines', parseRuleLines (ruleLines.map rendered) = .ok ruleLines' ∧
      List.Forall₂ Reread (ruleLines.filter fun it => !it.lost) ruleLines' := by
  induction ruleLines with
  | nil => exact ⟨[], rfl, .nil⟩
  | cons it ruleLines ih =>
    rw [forall_mem_cons] at h
    obtain ⟨ruleLines', hrest, hreread⟩ := ih h.2
    rcases parseRuleLine_rendered h.1 with ⟨hlost, hskipped⟩ | ⟨hlost, it', hkept, hit⟩
    · refine ⟨ruleLines', ?_, ?_⟩
      · simp only [map_cons, parseRuleLines, hskipped, hrest]
      · rw [filter_cons_of_neg (by simp [hlost])]
        exact hreread
    · refine ⟨it' :: ruleLines', ?_, ?_⟩
      · simp only [map_cons, parseRuleLines, hkept, hrest]
        rfl
      · rw [filter_cons_of_pos (by simp [hlost])]
        exact .cons hit hreread

/-- **What is read of the text that is written for rules.** -/
theorem adGuardRuleLines_written (h : ∀ it ∈ ruleLines, it.Readable) :
    ∃ ruleLines', adGuardRuleLines
        ((ruleLines.map rendered).flatMap fun line => line ++ "\n") = .ok ruleLines' ∧
      List.Forall₂ Reread (ruleLines.filter fun it => !it.lost) ruleLines' := by
  have hscannable : ∀ line ∈ ruleLines.map rendered, Scannable line := by
    intro line hline
    obtain ⟨it, hit, rfl⟩ := List.mem_map.1 hline
    exact scannable_rendered (h it hit)
  rw [adGuardRuleLines, scanLines_written hscannable, parseRuleLines_append_nil]
  exact parseRuleLines_rendered h

end SingBox
