/-
**Version numbers** (`common/badversion/version.go`).

A version is three numbers, a pre-release identifier with a number of its own, and a commit.
`Parse` reads one from any text, without errors: what is missing or no number counts as zero.
`GreaterThan` compares the three numbers in turn, puts a release before its pre-releases, compares
the numbers of pre-releases with one identifier, and compares different identifiers by *rank* only:
`rc` before `beta` before `alpha`, and every other identifier before these.

The comparison is a strict order.  It is not a ranking, though: two pre-releases of one version with
different identifiers of the same rank are not comparable, whatever their numbers are.

* `Version.greaterThan_iff` — the comparison, once for all laws;
* `Version.parse_parsed_iff`, `Version.greaterThan_parsed` — what is lost when a version that was
  read is printed;
* `Version.parse_printed_iff` — what both printers print is read back, unless it is `rc`;
* `Version.orderLaws_iff` — **the laws hold exactly for the pairs that are not of the same rank**.
-/

import SingBox.GoString
import Mathlib.Data.Prod.Lex

namespace SingBox

open GoString List

/-- `badversion.Version`. -/
structure Version where
  (major minor patch : ℤ := 0)
  (commit preReleaseIdentifier : GoString := [])
  preReleaseVersion : ℤ := 0
  deriving DecidableEq

namespace Version

/-! ### Comparing -/

/-- `parsePreReleaseIdentifier`: the rank of an identifier. -/
def parsePreReleaseIdentifier (identifier : GoString) : ℕ :=
  if (ofString "rc").isPrefixOf identifier then 1
  else if (ofString "beta").isPrefixOf identifier then 2
  else if (ofString "alpha").isPrefixOf identifier then 3
  else 0

/-- The part of `GreaterThan` after the numbers. -/
def greaterPreRelease (v anotherVersion : Version) : Bool :=
  if v.preReleaseIdentifier = [] ∧ anotherVersion.preReleaseIdentifier ≠ [] then true
  else if v.preReleaseIdentifier ≠ [] ∧ anotherVersion.preReleaseIdentifier = [] then false
  else if v.preReleaseIdentifier ≠ [] ∧ anotherVersion.preReleaseIdentifier ≠ [] then
    let preReleaseIdentifier := parsePreReleaseIdentifier v.preReleaseIdentifier
    let anotherPreReleaseIdentifier := parsePreReleaseIdentifier anotherVersion.preReleaseIdentifier
    if v.preReleaseIdentifier = anotherVersion.preReleaseIdentifier ∧
        anotherVersion.preReleaseVersion < v.preReleaseVersion then true
    else if v.preReleaseIdentifier = anotherVersion.preReleaseIdentifier ∧
        v.preReleaseVersion < anotherVersion.preReleaseVersion then false
    else if preReleaseIdentifier < anotherPreReleaseIdentifier then true
    else false
  else false

/-- `Version.GreaterThan`. -/
def greaterThan (v anotherVersion : Version) : Bool :=
  if anotherVersion.major < v.major then true
  else if v.major < anotherVersion.major then false
  else if anotherVersion.minor < v.minor then true
  else if v.minor < anotherVersion.minor then false
  else if anotherVersion.patch < v.patch then true
  else if v.patch < anotherVersion.patch then false
  else v.greaterPreRelease anotherVersion

/-- `Version.GreaterThanOrEqual`. -/
def greaterThanOrEqual (v anotherVersion : Version) : Bool :=
  v == anotherVersion || v.greaterThan anotherVersion

/-- `Version.LessThanOrEqual`. -/
def lessThanOrEqual (v anotherVersion : Version) : Bool :=
  v == anotherVersion || anotherVersion.greaterThan v

/-- `Version.LessThan`. -/
def lessThan (v anotherVersion : Version) : Bool := !v.greaterThanOrEqual anotherVersion

/-! ### Reading and printing -/

/-- The number at a position of a split text, zero if there is none. -/
def elementAt (elements : List GoString) (i : ℕ) : ℤ := (elements[i]?.map atoi).getD 0

/-- What `Parse` makes of the text between the first two hyphens. -/
def parseIdentifier (identifier : GoString) : Version :=
  if identifier.contains "." then
    let identifierParts := identifier.split 46
    { preReleaseIdentifier := identifierParts.getD 0 []
      preReleaseVersion := elementAt identifierParts 1 }
  else if (ofString "alpha").isPrefixOf identifier then
    { preReleaseIdentifier := "alpha"
      preReleaseVersion := atoi (identifier.drop 5) }
  else if (ofString "beta").isPrefixOf identifier then
    { preReleaseIdentifier := "beta"
      preReleaseVersion := atoi (identifier.drop 4) }
  else { commit := identifier }

/-- The numbers in front of the first hyphen. -/
def setNumbers (version : Version) (versionName : GoString) : Version :=
  let versionElements := versionName.split 46
  { version with
    major := elementAt versionElements 0
    minor := elementAt versionElements 1
    patch := elementAt versionElements 2 }

/-- `Parse`.  A text that contains a hyphen has at least two parts. -/
def parse (versionName : GoString) : Version :=
  let versionName := versionName.trimPrefix "v"
  if versionName.contains "-" then
    let parts := versionName.split 45
    (parseIdentifier (parts.getD 1 [])).setNumbers (parts.getD 0 [])
  else setNumbers {} versionName

/-- `Version.VersionString`. -/
def versionString (v : Version) : GoString :=
  ofInt v.major ++ 46 :: (ofInt v.minor ++ 46 :: ofInt v.patch)

/-- `Version.String`. -/
def string (v : Version) : GoString :=
  if v.preReleaseIdentifier ≠ [] then
    v.versionString ++ 45 :: (v.preReleaseIdentifier ++ 46 :: ofInt v.preReleaseVersion)
  else v.versionString

/-! ### The comparison in one piece -/

/-- The three numbers, in the order in which they are compared. -/
def number (v : Version) : ℤ ×ₗ ℤ ×ₗ ℤ := toLex (v.major, toLex (v.minor, v.patch))

variable (v w : Version)

theorem number_lt_iff :
    v.number < w.number ↔ v.major < w.major ∨ v.major = w.major ∧
      (v.minor < w.minor ∨ v.minor = w.minor ∧ v.patch < w.patch) := by
  simp only [number, Prod.Lex.lt_iff, ofLex_toLex]

theorem number_eq_iff :
    v.number = w.number ↔ v.major = w.major ∧ v.minor = w.minor ∧ v.patch = w.patch := by
  simp only [number, toLex_inj, Prod.mk.injEq]

/-- What decides between versions with the same numbers. -/
def Precedes (v w : Version) : Prop :=
  v.preReleaseIdentifier = [] ∧ w.preReleaseIdentifier ≠ [] ∨
    (v.preReleaseIdentifier ≠ [] ∧ w.preReleaseIdentifier ≠ []) ∧
      (v.preReleaseIdentifier = w.preReleaseIdentifier ∧ w.preReleaseVersion < v.preReleaseVersion ∨
        parsePreReleaseIdentifier v.preReleaseIdentifier <
          parsePreReleaseIdentifier w.preReleaseIdentifier)

theorem greaterPreRelease_iff : v.greaterPreRelease w ↔ v.Precedes w := by
  unfold greaterPreRelease Precedes
  by_cases hv : v.preReleaseIdentifier = []
  · simp [hv]
  · by_cases hw : w.preReleaseIdentifier = []
    · simp [hv, hw]
    · by_cases hid : v.preReleaseIdentifier = w.preReleaseIdentifier
      · -- one identifier has one rank, so only the numbers count
        simp [hid, hw]
      · simp [hv, hw, hid]

/-- **The numbers are compared first, then the pre-releases.** -/
theorem greaterThan_iff :
    v.greaterThan w ↔ w.number < v.number ∨ w.number = v.number ∧ v.Precedes w := by
  rw [number_lt_iff, number_eq_iff, ← greaterPreRelease_iff, greaterThan]
  cases v.greaterPreRelease w with
  | true | false => split_ifs <;> simp <;> omega

/-! ### The laws that hold -/

theorem not_precedes_self (v : Version) : ¬v.Precedes v := by
  simp [Precedes]

theorem Precedes.trans {u v w : Version} (huv : u.Precedes v) (hvw : v.Precedes w) :
    u.Precedes w := by
  rcases huv with ⟨hu, hv⟩ | ⟨⟨hu, hv⟩, huv⟩
  · rcases hvw with ⟨hv', -⟩ | ⟨⟨-, hw⟩, -⟩
    · exact absurd hv' hv
    · exact .inl ⟨hu, hw⟩
  · rcases hvw with ⟨hv', -⟩ | ⟨⟨-, hw⟩, hvw⟩
    · exact absurd hv' hv
    · refine .inr ⟨⟨hu, hw⟩, ?_⟩
      rcases huv with ⟨hid, hlt⟩ | hrank <;> rcases hvw with ⟨hid', hlt'⟩ | hrank'
      · exact .inl ⟨hid.trans hid', hlt'.trans hlt⟩
      · exact .inr (hid ▸ hrank')
      · exact .inr (hid' ▸ hrank)
      · exact .inr (hrank.trans hrank')

theorem greaterThan_irrefl (v : Version) : v.greaterThan v = false := by
  rw [← Bool.not_eq_true, greaterThan_iff]
  rintro (hlt | ⟨-, hpre⟩)
  · exact lt_irrefl _ hlt
  · exact not_precedes_self v hpre

theorem greaterThan_trans {u v w : Version} (huv : u.greaterThan v)
    (hvw : v.greaterThan w) : u.greaterThan w := by
  rw [greaterThan_iff] at *
  rcases huv with hlt | ⟨heq, hpre⟩ <;> rcases hvw with hlt' | ⟨heq', hpre'⟩
  · exact .inl (hlt'.trans hlt)
  · exact .inl (heq' ▸ hlt)
  · exact .inl (heq ▸ hlt')
  · exact .inr ⟨heq'.trans heq, hpre.trans hpre'⟩

theorem greaterThan_asymm : ¬(v.greaterThan w ∧ w.greaterThan v) := by
  rintro ⟨hvw, hwv⟩
  have hself := greaterThan_trans hvw hwv
  rw [greaterThan_irrefl] at hself
  cases hself

/-! ### Versions that are not greater than each other -/

/-- Pre-releases of one version with different identifiers of the same rank. -/
def SameRank (v w : Version) : Prop :=
  v.number = w.number ∧ v.preReleaseIdentifier ≠ [] ∧ w.preReleaseIdentifier ≠ [] ∧
    v.preReleaseIdentifier ≠ w.preReleaseIdentifier ∧
    parsePreReleaseIdentifier v.preReleaseIdentifier =
      parsePreReleaseIdentifier w.preReleaseIdentifier

instance (v w : Version) : Decidable (SameRank v w) := inferInstanceAs (Decidable (_ ∧ _))

/-- The versions have all that is compared in common. -/
def Agrees (v w : Version) : Prop :=
  v.number = w.number ∧ v.preReleaseIdentifier = w.preReleaseIdentifier ∧
    (v.preReleaseIdentifier ≠ [] → v.preReleaseVersion = w.preReleaseVersion)

/-- Versions that are not greater than each other have all that is compared in common, or are of the
same rank. -/
theorem agrees_or_sameRank {v w : Version} (hvw : v.greaterThan w = false)
    (hwv : w.greaterThan v = false) : v.Agrees w ∨ v.SameRank w := by
  rw [← Bool.not_eq_true, greaterThan_iff] at hvw hwv
  push Not at hvw hwv
  have hnumber : v.number = w.number := le_antisymm hvw.1 hwv.1
  have hvw : ¬v.Precedes w := hvw.2 hnumber.symm
  have hwv : ¬w.Precedes v := hwv.2 hnumber
  rw [Precedes] at hvw hwv
  push Not at hvw hwv
  by_cases hv : v.preReleaseIdentifier = []
  · have hw : w.preReleaseIdentifier = [] := hvw.1 hv
    exact .inl ⟨hnumber, hv.trans hw.symm, fun hne => absurd hv hne⟩
  · have hw : w.preReleaseIdentifier ≠ [] := fun hw => hv (hwv.1 hw)
    obtain ⟨hlt, hrank⟩ := hvw.2 ⟨hv, hw⟩
    obtain ⟨hlt', hrank'⟩ := hwv.2 ⟨hw, hv⟩
    by_cases hid : v.preReleaseIdentifier = w.preReleaseIdentifier
    · exact .inl ⟨hnumber, hid, fun _ => le_antisymm (hlt hid) (hlt' hid.symm)⟩
    · exact .inr ⟨hnumber, hv, hw, hid, le_antisymm hrank' hrank⟩

theorem Agrees.precedes_congr {v w : Version} (h : v.Agrees w) (u : Version) :
    (v.Precedes u ↔ w.Precedes u) ∧ (u.Precedes v ↔ u.Precedes w) := by
  obtain ⟨-, hid, hversion⟩ := h
  by_cases hv : v.preReleaseIdentifier = []
  · simp [Precedes, ← hid, hv]
  · simp [Precedes, ← hid, hversion hv]

/-- Versions that have all that is compared in common compare alike with every other version. -/
theorem Agrees.greaterThan_congr {v w : Version} (h : v.Agrees w) (u : Version) :
    v.greaterThan u = w.greaterThan u ∧ u.greaterThan v = u.greaterThan w := by
  constructor
  · rw [Bool.eq_iff_iff, greaterThan_iff, greaterThan_iff, h.1, (h.precedes_congr u).1]
  · rw [Bool.eq_iff_iff, greaterThan_iff, greaterThan_iff, h.1, (h.precedes_congr u).2]

/-! ### The versions that are read -/

/-- What holds of every version that `Parse` returns. -/
structure Readable (v : Version) : Prop where
  major : 0 ≤ v.major ∧ v.major < 2 ^ 63
  minor : 0 ≤ v.minor ∧ v.minor < 2 ^ 63
  patch : 0 ≤ v.patch ∧ v.patch < 2 ^ 63
  preReleaseVersion : 0 ≤ v.preReleaseVersion ∧ v.preReleaseVersion < 2 ^ 63
  no_hyphen : 45 ∉ v.preReleaseIdentifier
  no_dot : 46 ∉ v.preReleaseIdentifier

variable {s : GoString}

theorem elementAt_bounds (hs : 45 ∉ s) (c : UInt8) (i : ℕ) :
    0 ≤ elementAt (s.split c) i ∧ elementAt (s.split c) i < 2 ^ 63 := by
  rw [elementAt]
  cases hi : (s.split c)[i]? with
  | none => simp
  | some w =>
    refine atoi_bounds fun hw => hs ?_
    exact mem_of_mem_split (mem_of_getElem? hi) hw

theorem readable_setNumbers {version : Version} (hs : 45 ∉ s)
    (hversion : 0 ≤ version.preReleaseVersion ∧ version.preReleaseVersion < 2 ^ 63)
    (hhyphen : 45 ∉ version.preReleaseIdentifier) (hdot : 46 ∉ version.preReleaseIdentifier) :
    Readable (version.setNumbers s) where
  major := elementAt_bounds hs 46 0
  minor := elementAt_bounds hs 46 1
  patch := elementAt_bounds hs 46 2
  preReleaseVersion := hversion
  no_hyphen := hhyphen
  no_dot := hdot

/-- A part of a split text does not hold the separator, nor anything that the text does not hold. -/
theorem not_mem_part {c x : UInt8} (hx : x = c ∨ x ∉ s) (i : ℕ) : x ∉ (s.split c).getD i [] := by
  rw [getD_eq_getElem?_getD]
  cases hi : (s.split c)[i]? with
  | none => simp
  | some w =>
    have hw := mem_of_getElem? hi
    rcases hx with rfl | hx
    · exact not_mem_of_mem_split hw
    · exact fun hmem => hx (mem_of_mem_split hw hmem)

theorem parseIdentifier_spec {identifier : GoString} (h : 45 ∉ identifier) :
    (0 ≤ (parseIdentifier identifier).preReleaseVersion ∧
        (parseIdentifier identifier).preReleaseVersion < 2 ^ 63) ∧
      45 ∉ (parseIdentifier identifier).preReleaseIdentifier ∧
      46 ∉ (parseIdentifier identifier).preReleaseIdentifier := by
  unfold parseIdentifier
  split_ifs
  · exact ⟨elementAt_bounds h 46 1, not_mem_part (.inr h) 0, not_mem_part (.inl rfl) 0⟩
  · have hname : 45 ∉ ofString "alpha" ∧ 46 ∉ ofString "alpha" := by decide
    exact ⟨atoi_bounds fun hmem => h (mem_of_mem_drop hmem), hname⟩
  · have hname : 45 ∉ ofString "beta" ∧ 46 ∉ ofString "beta" := by decide
    exact ⟨atoi_bounds fun hmem => h (mem_of_mem_drop hmem), hname⟩
  · simp

/-- **Every version that is read is readable.** -/
theorem readable_parse (s : GoString) : Readable (parse s) := by
  unfold parse
  generalize s.trimPrefix "v" = s
  dsimp only
  split
  · obtain ⟨hversion, hhyphen, hdot⟩ :=
      parseIdentifier_spec (not_mem_part (s := s) (c := 45) (.inl rfl) 1)
    exact readable_setNumbers (not_mem_part (.inl rfl) 0) hversion hhyphen hdot
  · rename_i hnone
    refine readable_setNumbers (fun hmem => hnone ?_) (by simp) (by simp) (by simp)
    exact contains_singleton.2 hmem

/-! ### Printed versions are read back -/

theorem not_mem_ofInt {x : UInt8} (hx : digit x = none) {i : ℤ} (hi : 0 ≤ i) : x ∉ ofInt i := by
  rw [ofInt, if_neg (by omega)]
  exact not_mem_ofNat hx _

variable {v : Version}

/-- The text of the three numbers, of which the last may be left out when it is zero. -/
structure PrintsNumbers (v : Version) (text : GoString) : Prop where
  trimPrefix : ∀ rest, (text ++ rest).trimPrefix "v" = text ++ rest
  no_hyphen : 45 ∉ text
  setNumbers : ∀ w : Version,
    w.setNumbers text = { w with major := v.major, minor := v.minor, patch := v.patch }

theorem trimPrefix_ofInt {i : ℤ} (hi : 0 ≤ i) (rest : GoString) :
    (ofInt i ++ rest).trimPrefix "v" = ofInt i ++ rest := by
  have hletter : digit 118 = none := by decide
  have hfirst : (ofString "v").isPrefixOf (ofInt i ++ rest) = false := by
    rw [ofInt, if_neg (by omega)]
    cases hdigits : ofNat i.natAbs with
    | nil => exact absurd hdigits (ofNat_ne_nil _)
    | cons x digits =>
      have hne : x ≠ 118 := by
        rintro rfl
        exact not_mem_ofNat hletter i.natAbs (hdigits ▸ mem_cons_self)
      simpa [ofString, List.isPrefixOf] using fun heq => hne heq.symm
  rw [trimPrefix, hfirst]
  rfl

/-- The second printer leaves out a patch number that is zero. -/
theorem printsNumbers (h : Readable v) {t : GoString}
    (htail : t = 46 :: ofInt v.patch ∨ t = [] ∧ v.patch = 0) :
    PrintsNumbers v (ofInt v.major ++ 46 :: (ofInt v.minor ++ t)) := by
  have hdot : digit 46 = none := by decide
  have hhyphen : digit 45 = none := by decide
  refine ⟨fun rest => ?_, ?_, fun w => ?_⟩
  · rw [append_assoc]
    exact trimPrefix_ofInt h.major.1 _
  · have htail' : 45 ∉ t := by
      rcases htail with rfl | ⟨rfl, -⟩
      · simpa using not_mem_ofInt hhyphen h.patch.1
      · simp
    simp [not_mem_ofInt hhyphen h.major.1, not_mem_ofInt hhyphen h.minor.1, htail']
  · rw [setNumbers, split_append_cons (not_mem_ofInt hdot h.major.1)]
    rcases htail with rfl | ⟨rfl, hpatch⟩
    · rw [split_append_cons (not_mem_ofInt hdot h.minor.1),
        split_of_not_mem (not_mem_ofInt hdot h.patch.1)]
      simp [elementAt, atoi_ofInt h.major, atoi_ofInt h.minor, atoi_ofInt h.patch]
    · rw [append_nil, split_of_not_mem (not_mem_ofInt hdot h.minor.1)]
      simp [elementAt, atoi_ofInt h.major, atoi_ofInt h.minor, hpatch]

theorem parse_numbers {text : GoString} (h : PrintsNumbers v text) :
    parse text = { major := v.major, minor := v.minor, patch := v.patch } := by
  have htrim := h.trimPrefix []
  rw [append_nil] at htrim
  have hnone : text.contains "-" ≠ true := fun hmem =>
    h.no_hyphen (contains_singleton.1 hmem)
  rw [parse, htrim, if_neg hnone, h.setNumbers]

theorem parse_numbers_hyphen {text identifier : GoString} (h : PrintsNumbers v text)
    (hid : 45 ∉ identifier) :
    parse (text ++ 45 :: identifier) = { parseIdentifier identifier with
      major := v.major, minor := v.minor, patch := v.patch } := by
  have hcontains : (text ++ 45 :: identifier).contains "-" = true :=
    contains_singleton.2 (mem_append_right _ mem_cons_self)
  rw [parse, h.trimPrefix]
  simp only [hcontains, if_true]
  rw [split_append_cons h.no_hyphen, split_of_not_mem hid, getD_cons_succ, getD_cons_zero,
    getD_cons_zero, h.setNumbers]

theorem parseIdentifier_printed (h : Readable v) :
    parseIdentifier (v.preReleaseIdentifier ++ 46 :: ofInt v.preReleaseVersion) =
      { preReleaseIdentifier := v.preReleaseIdentifier
        preReleaseVersion := v.preReleaseVersion } := by
  have hdot : digit 46 = none := by decide
  have hcontains : (v.preReleaseIdentifier ++ 46 :: ofInt v.preReleaseVersion).contains
      "." = true :=
    contains_singleton.2 (mem_append_right _ mem_cons_self)
  rw [parseIdentifier, if_pos hcontains, split_append_cons h.no_dot,
    split_of_not_mem (not_mem_ofInt hdot h.preReleaseVersion.1)]
  simp [elementAt, atoi_ofInt h.preReleaseVersion]

/-- **A readable pre-release without commit is read back from its text.** -/
theorem parse_string (h : Readable v) (hid : v.preReleaseIdentifier ≠ [])
    (hcommit : v.commit = []) : parse v.string = v := by
  have hidentifier : 45 ∉ v.preReleaseIdentifier ++ 46 :: ofInt v.preReleaseVersion := by
    have hnumber := not_mem_ofInt (by decide : digit 45 = none) h.preReleaseVersion.1
    simp [h.no_hyphen, hnumber]
  rw [string, if_pos hid, versionString, parse_numbers_hyphen (printsNumbers h (.inl rfl))
    hidentifier, parseIdentifier_printed h]
  cases v
  simp_all

/-- A version that is printed loses its commit, and a number without an identifier. -/
theorem parse_parsed (s : GoString) :
    parse (parse s).string =
      { parse s with
        commit := []
        preReleaseVersion :=
          if (parse s).preReleaseIdentifier = [] then 0 else (parse s).preReleaseVersion } := by
  have h := readable_parse s
  generalize parse s = v at h
  by_cases hid : v.preReleaseIdentifier = []
  · rw [string, if_neg (not_not.2 hid), versionString, parse_numbers (printsNumbers h (.inl rfl)),
      if_pos hid]
    simp [hid]
  · rw [if_neg hid]
    exact parse_string (v := { v with commit := [] }) { h with } hid rfl

/-- **A version that was read is read back** if and only if it has no commit, and no number without
an identifier. -/
theorem parse_parsed_iff (s : GoString) :
    parse (parse s).string = parse s ↔ (parse s).commit = [] ∧
      ((parse s).preReleaseIdentifier = [] → (parse s).preReleaseVersion = 0) := by
  rw [parse_parsed]
  cases parse s
  simp [eq_comm]

/-- **What is lost is not compared.** -/
theorem greaterThan_parsed (s : GoString) (w : Version) :
    (parse (parse s).string).greaterThan w = (parse s).greaterThan w ∧
      w.greaterThan (parse (parse s).string) = w.greaterThan (parse s) := by
  rw [parse_parsed]
  unfold greaterThan greaterPreRelease
  by_cases hid : (parse s).preReleaseIdentifier = []
  · simp [hid]
  · simp [hid]

/-! ### The two printers -/

/-- `Version.BadString`. -/
def badString (v : Version) : GoString :=
  let version := ofInt v.major ++ 46 :: ofInt v.minor
  let version := if 0 < v.patch then version ++ 46 :: ofInt v.patch else version
  if v.preReleaseIdentifier ≠ [] then
    let version := version ++ 45 :: v.preReleaseIdentifier
    if 0 < v.preReleaseVersion then version ++ ofInt v.preReleaseVersion else version
  else version

/-- A version with non-negative numbers and without commit, with no pre-release or one that is
named `alpha`, `beta` or `rc`. -/
structure Named (v : Version) : Prop extends Readable v where
  commit : v.commit = []
  named : v.preReleaseIdentifier = [] ∧ v.preReleaseVersion = 0 ∨
    v.preReleaseIdentifier ∈ (["alpha", "beta", "rc"] : List GoString)

/-- The number of a pre-release as the second printer appends it. -/
def badNumber (v : Version) : GoString :=
  if 0 < v.preReleaseVersion then ofInt v.preReleaseVersion else []

theorem badString_eq (h : Readable v) : ∃ text, PrintsNumbers v text ∧
    v.badString = if v.preReleaseIdentifier = [] then text
      else text ++ 45 :: (v.preReleaseIdentifier ++ v.badNumber) := by
  refine ⟨_, printsNumbers h (t := if 0 < v.patch then 46 :: ofInt v.patch else []) ?_, ?_⟩
  · have := h.patch.1
    split
    · exact .inl rfl
    · exact .inr ⟨rfl, by omega⟩
  · unfold badString badNumber
    split_ifs <;> simp_all

theorem badNumber_spec (h : Readable v) :
    45 ∉ v.badNumber ∧ 46 ∉ v.badNumber ∧ atoi v.badNumber = v.preReleaseVersion := by
  have hversion := h.preReleaseVersion
  unfold badNumber
  split
  · exact ⟨not_mem_ofInt (by decide) hversion.1, not_mem_ofInt (by decide) hversion.1,
      atoi_ofInt hversion⟩
  · exact ⟨by simp, by simp, by rw [show v.preReleaseVersion = 0 by omega]; rfl⟩

/-- **Both texts are read back, unless the pre-release is named `rc`**: the parser does not know
this name without a dot behind it. -/
theorem parse_printed_iff (h : Named v) :
    parse v.string = v ∧ parse v.badString = v ↔ v.preReleaseIdentifier ≠ "rc" := by
  obtain ⟨text, hprints, hbad⟩ := badString_eq h.toReadable
  obtain ⟨hhyphen, hdot, hnumber⟩ := badNumber_spec h.toReadable
  have hcommit := h.commit
  rcases h.named with ⟨hnone, hversion⟩ | hname
  · have hplain : { major := v.major, minor := v.minor, patch := v.patch } = v := by
      cases v
      simp_all
    have hstring : parse v.string = v := by
      rw [string, if_neg (not_not.2 hnone), versionString,
        parse_numbers (printsNumbers h.toReadable (.inl rfl)), hplain]
    rw [hbad, if_pos hnone, parse_numbers hprints, hplain, hnone]
    exact ⟨fun _ => by decide, fun _ => ⟨hstring, rfl⟩⟩
  · have hid : v.preReleaseIdentifier ≠ [] := by
      intro hnone
      rw [hnone] at hname
      exact absurd hname (by decide)
    have hcontains : (v.preReleaseIdentifier ++ v.badNumber).contains "." ≠ true :=
      fun hmem => (mem_append.1 (contains_singleton.1 hmem)).elim h.no_dot hdot
    rw [hbad, if_neg hid, parse_numbers_hyphen hprints (by simp [h.no_hyphen, hhyphen]),
      parseIdentifier, if_neg hcontains]
    simp only [parse_string h.toReadable hid hcommit, true_and]
    simp only [mem_cons, not_mem_nil, or_false] at hname
    rcases hname with hname | hname | hname
    · have hdrop : ("alpha" ++ v.badNumber).drop 5 = v.badNumber := rfl
      rw [hname, if_pos (List.isPrefixOf_iff_prefix.2 (prefix_append _ _)), hdrop, hnumber]
      refine iff_of_true ?_ (by decide)
      cases v
      simp_all
    · have hdrop : ("beta" ++ v.badNumber).drop 4 = v.badNumber := rfl
      rw [hname, if_neg (by simp [ofString, isPrefixOf]),
        if_pos (List.isPrefixOf_iff_prefix.2 (prefix_append _ _)), hdrop, hnumber]
      refine iff_of_true ?_ (by decide)
      cases v
      simp_all
    · rw [hname, if_neg (by simp [ofString, isPrefixOf]), if_neg (by simp [ofString, isPrefixOf])]
      cases v
      simp_all

theorem beta_parsed :
    let v : Version := { major := 1, preReleaseIdentifier := "beta", preReleaseVersion := 4 }
    parse v.string = v ∧ parse v.badString = v :=
  (parse_printed_iff ⟨by constructor <;> decide, rfl, by decide⟩).2 (by decide)

/-- A release candidate. -/
def candidate : Version := { major := 1, preReleaseIdentifier := "rc", preReleaseVersion := 3 }

/-- In its short form it is read as a commit. -/
theorem candidate_parsed_as_commit : Named candidate ∧ parse candidate.badString =
    { major := 1, commit := "rc3" } ∧ parse candidate.badString ≠ candidate :=
  ⟨⟨by constructor <;> decide, rfl, by decide⟩, by decide, by decide⟩

/-! ### The laws, and where they fail -/

/-- What is expected of the comparison of two versions: it is a strict order, and versions that are
not greater than each other compare alike with every version that can be read. -/
structure OrderLaws (v w : Version) : Prop where
  irrefl : v.greaterThan v = false ∧ w.greaterThan w = false
  asymm : ¬(v.greaterThan w ∧ w.greaterThan v)
  trans : ∀ u ∈ Set.range parse, v.greaterThan w → w.greaterThan u →
    v.greaterThan u
  congr : v.greaterThan w = false → w.greaterThan v = false → ∀ u ∈ Set.range parse,
    v.greaterThan u = w.greaterThan u ∧ u.greaterThan v = u.greaterThan w

theorem SameRank.not_greaterThan {v w : Version} (h : v.SameRank w) :
    v.greaterThan w = false ∧ w.greaterThan v = false := by
  obtain ⟨hnumber, hv, hw, hid, hrank⟩ := h
  constructor
  · rw [← Bool.not_eq_true, greaterThan_iff]
    simp [Precedes, hnumber, hv, hid, hrank]
  · rw [← Bool.not_eq_true, greaterThan_iff]
    simp [Precedes, hnumber, hw, Ne.symm hid, hrank]

/-- A pre-release with the identifier of `v` and another number. -/
def renumbered (v : Version) : Version :=
  { v with commit := [], preReleaseVersion := if v.preReleaseVersion = 0 then 1 else 0 }

theorem readable_renumbered (h : Readable v) : Readable v.renumbered where
  major := h.major
  minor := h.minor
  patch := h.patch
  preReleaseVersion := by
    rw [renumbered]
    split <;> simp
  no_hyphen := h.no_hyphen
  no_dot := h.no_dot

theorem greaterThan_renumbered (h : Readable v) (hid : v.preReleaseIdentifier ≠ []) :
    v.greaterThan v.renumbered ∨ v.renumbered.greaterThan v := by
  have hversion := h.preReleaseVersion.1
  rw [greaterThan_iff, greaterThan_iff]
  by_cases hzero : v.preReleaseVersion = 0
  · refine .inr (.inr ⟨rfl, .inr ⟨⟨hid, hid⟩, .inl ⟨rfl, ?_⟩⟩⟩)
    simp [renumbered, hzero]
  · refine .inl (.inr ⟨rfl, .inr ⟨⟨hid, hid⟩, .inl ⟨rfl, ?_⟩⟩⟩)
    simp only [renumbered, if_neg hzero]
    omega

/-- **The laws hold for two versions that were read, unless they are pre-releases of one version
with different identifiers of the same rank.** -/
theorem orderLaws_iff (s t : GoString) :
    OrderLaws (parse s) (parse t) ↔ ¬SameRank (parse s) (parse t) := by
  constructor
  · intro hlaws hrank
    -- the same pre-release with another number is comparable with the first, not with the second
    have hreadable := readable_parse s
    have hother : (parse s).renumbered.SameRank (parse t) := hrank
    have hread : (parse s).renumbered ∈ Set.range parse :=
      ⟨_, parse_string (readable_renumbered hreadable) hrank.2.1 rfl⟩
    obtain ⟨hleft, hright⟩ := hlaws.congr hrank.not_greaterThan.1 hrank.not_greaterThan.2 _ hread
    rw [hother.not_greaterThan.2] at hleft
    rw [hother.not_greaterThan.1] at hright
    rcases greaterThan_renumbered hreadable hrank.2.1 with h | h
    · rw [hleft] at h
      cases h
    · rw [hright] at h
      cases h
  · intro hrank
    refine ⟨⟨greaterThan_irrefl _, greaterThan_irrefl _⟩, greaterThan_asymm _ _,
      fun u _ => greaterThan_trans, fun hst hts u _ => ?_⟩
    exact ((agrees_or_sameRank hst hts).resolve_right hrank).greaterThan_congr u

/-- Pre-releases `foo.1` and `bar.1` are not greater than each other, but `foo.2` is greater than
only one of them; and each of the two is less than the other. -/
theorem foo_bar_not_orderLaws :
    ¬OrderLaws (parse "1.0.0-foo.1") (parse "1.0.0-bar.1") ∧
      (parse "1.0.0-foo.2").greaterThan (parse "1.0.0-foo.1") = true ∧
      (parse "1.0.0-foo.2").greaterThan (parse "1.0.0-bar.1") = false ∧
      (parse (ofString "1.0.0-foo.1")).lessThan (parse (ofString "1.0.0-bar.1")) = true ∧
      (parse (ofString "1.0.0-bar.1")).lessThan (parse (ofString "1.0.0-foo.1")) = true := by
  refine ⟨fun h => ?_, by decide, by decide, by decide, by decide⟩
  have hcongr := h.congr (by decide) (by decide) (parse (ofString "1.0.0-foo.2")) ⟨_, rfl⟩
  exact absurd hcongr.2 (by decide)

end Version

end SingBox
