/-
**Getting the texts out of a matcher** (`replace/sing/common/domain`, `Matcher.Dump` and
`AdGuardMatcher.Dump`).

The names of a matcher are kept backwards, with a label in place of the parts of a rule that are not
letters.  `Dump` turns every name round and takes the labels off.  It looks at the first byte of a
name, and at the first or last byte of what is behind a label, without asking whether there is one,
and it turns a name round in a buffer in which the replacement of a broken rune may have no room.

* `reverseDomain_eq_none_iff` — which names cannot be turned round;
* `SuccinctSet.dump_eq_none_iff`, `SuccinctSet.dumpAdGuard_eq_none_iff` — **when they panic**;
* `SuccinctSet.length_dump_le`, `SuccinctSet.length_dumpAdGuard_le` — a text for a name at most.
-/

import SingBox.SuccinctSet

namespace SingBox

open List Option

/-! ### Runes -/

/-- The table of `unicode/utf8` for the first byte of a rune: how many bytes the rune has, and the
bounds for its second byte. -/
def firstByte (b : UInt8) : Option (ℕ × UInt8 × UInt8) :=
  if b < 0x80 then some (1, 0x80, 0xBF)
  else if b < 0xC2 then none
  else if b < 0xE0 then some (2, 0x80, 0xBF)
  else if b = 0xE0 then some (3, 0xA0, 0xBF)
  else if b = 0xED then some (3, 0x80, 0x9F)
  else if b < 0xF0 then some (3, 0x80, 0xBF)
  else if b = 0xF0 then some (4, 0x90, 0xBF)
  else if b < 0xF4 then some (4, 0x80, 0xBF)
  else if b = 0xF4 then some (4, 0x80, 0x8F)
  else none

/-- `DecodeRuneInString`: the number of bytes of the rune at the front, or `none` for a byte that is
not the beginning of a rune and is replaced by the rune `U+FFFD`. -/
def runeSize : GoString → Option ℕ
  | [] => none
  | b :: rest =>
    match firstByte b with
    | none => none
    | some (size, lo, hi) =>
      if size ≤ rest.length + 1 ∧ (rest.take (size - 1)).head?.all (fun c => lo ≤ c ∧ c ≤ hi) ∧
          (rest.take (size - 1)).tail.all (fun c => 0x80 ≤ c ∧ c ≤ 0xBF) then some size
      else none

/-- The encoding of `U+FFFD`. -/
def replacementRune : GoString := [0xEF, 0xBF, 0xBD]

/-- The loop of `reverseDomain`.  The second list is the part of the buffer that is filled; a rune
is written in front of it.  The replacement of a single byte has three bytes and overwrites two of
those that follow, if there are as many. -/
def reverseLoop : ℕ → GoString → GoString → Option GoString
  | 0, _, buffer => some buffer
  | _ + 1, [], buffer => some buffer
  | fuel + 1, b :: rest, buffer =>
    match runeSize (b :: rest) with
    | some n => reverseLoop fuel ((b :: rest).drop n) ((b :: rest).take n ++ buffer)
    | none =>
      if buffer.length < 2 then none
      else reverseLoop fuel rest (replacementRune ++ buffer.drop 2)

/-- `reverseDomain`; a round takes at least one byte. -/
def reverseDomain (domain : GoString) : Option GoString := reverseLoop domain.length domain []

theorem forall_mem_ite {α : Type} {p : Prop} [Decidable p] {t u : Option α} {P : α → Prop}
    (ht : ∀ a ∈ t, P a) (hu : ∀ a ∈ u, P a) : ∀ a ∈ (if p then t else u), P a := by
  split
  · exact ht
  · exact hu

theorem firstByte_size {b lo hi : UInt8} {size : ℕ} (h : firstByte b = some (size, lo, hi)) :
    1 ≤ size ∧ (size = 1 ↔ b < 0x80) := by
  by_cases hascii : b < 0x80
  · rw [firstByte, if_pos hascii] at h
    cases h
    exact ⟨le_rfl, fun _ => hascii, fun _ => rfl⟩
  · rw [firstByte, if_neg hascii] at h
    have hnone : ∀ e ∈ (none : Option (ℕ × UInt8 × UInt8)), 2 ≤ e.1 := by
      intro e he
      cases he
    have hsome : ∀ (n : ℕ) (lo hi : UInt8), 2 ≤ n → ∀ e ∈ some (n, lo, hi), 2 ≤ e.1 := by
      intro n lo hi hn e he
      cases he
      exact hn
    -- the lines of the table below the ASCII characters, in their order
    have hnot : 2 ≤ size := by
      refine forall_mem_ite hnone (forall_mem_ite (hsome 2 _ _ le_rfl) ?_) (size, lo, hi) h
      refine forall_mem_ite (hsome 3 _ _ (by decide)) (forall_mem_ite (hsome 3 _ _ (by decide)) ?_)
      refine forall_mem_ite (hsome 3 _ _ (by decide)) (forall_mem_ite (hsome 4 _ _ (by decide)) ?_)
      refine forall_mem_ite (hsome 4 _ _ (by decide)) (forall_mem_ite (hsome 4 _ _ (by decide)) ?_)
      exact hnone
    exact ⟨by omega, fun hone => by omega, fun hlt => absurd hlt hascii⟩

theorem runeSize_spec {b : UInt8} {rest : GoString} {n : ℕ} (h : runeSize (b :: rest) = some n) :
    1 ≤ n ∧ n ≤ rest.length + 1 ∧ (n = 1 ↔ b < 0x80) := by
  rw [runeSize] at h
  split at h
  case h_1 => cases h
  case h_2 size lo hi hfirst =>
      split at h
      case isFalse => cases h
      case isTrue hbytes =>
          obtain rfl : size = n := some.inj h
          obtain ⟨hpos, hone⟩ := firstByte_size hfirst
          exact ⟨hpos, hbytes.1, hone⟩

theorem runeSize_ascii {b : UInt8} (hb : b < 0x80) (rest : GoString) :
    runeSize (b :: rest) = some 1 := by
  have hfirst : firstByte b = some (1, 0x80, 0xBF) := if_pos hb
  rw [runeSize, hfirst]
  simp

theorem length_reverseLoop {fuel : ℕ} {domain buffer result : GoString}
    (hfuel : domain.length ≤ fuel) (h : reverseLoop fuel domain buffer = some result) :
    result.length = domain.length + buffer.length := by
  induction fuel generalizing domain buffer with
  | zero =>
    obtain rfl : domain = [] := List.length_eq_zero_iff.1 (by omega)
    rw [← some.inj h]
    simp
  | succ fuel ih =>
    cases domain with
    | nil =>
      rw [← some.inj h]
      simp
    | cons b rest =>
      rw [length_cons] at hfuel
      rw [reverseLoop] at h
      split at h
      case h_1 n hsize =>
          obtain ⟨hpos, hle, -⟩ := runeSize_spec hsize
          have hlen := ih (by rw [length_drop, length_cons]; omega) h
          rw [length_drop, length_append, length_take, length_cons, Nat.min_eq_left hle] at hlen
          rw [hlen, length_cons]
          omega
      case h_2 =>
          split at h
          case isTrue => cases h
          case isFalse hroom =>
              have hlen := ih (by omega) h
              rw [length_append, length_drop] at hlen
              rw [hlen, length_cons, show replacementRune.length = 3 from rfl]
              omega

theorem exists_reverseLoop {fuel : ℕ} {domain buffer : GoString} (hbuffer : 2 ≤ buffer.length) :
    ∃ result, reverseLoop fuel domain buffer = some result := by
  induction fuel generalizing domain buffer with
  | zero => exact ⟨buffer, rfl⟩
  | succ fuel ih =>
    cases domain with
    | nil => exact ⟨buffer, rfl⟩
    | cons b rest =>
      rw [reverseLoop]
      split
      case h_1 => exact ih (by rw [length_append]; omega)
      case h_2 =>
          rw [if_neg (by omega)]
          exact ih (by rw [length_append, show replacementRune.length = 3 from rfl]; omega)

/-- The name begins with a rune, and if this is a single byte, there is a rune behind it or
nothing. -/
def Reversible : GoString → Prop
  | [] => True
  | b :: rest =>
    runeSize (b :: rest) ≠ none ∧ (b < 0x80 → rest = [] ∨ runeSize rest ≠ none)

instance decidableReversible (name : GoString) : Decidable (Reversible name) :=
  match name with
  | [] => isTrue trivial
  | b :: rest =>
    inferInstanceAs
      (Decidable (runeSize (b :: rest) ≠ none ∧ (b < 0x80 → rest = [] ∨ runeSize rest ≠ none)))

/-- **Which names cannot be turned round**: those with a broken rune among the first two bytes. -/
theorem reverseDomain_eq_none_iff (name : GoString) :
    reverseDomain name = none ↔ ¬Reversible name := by
  cases name with
  | nil => exact ⟨fun h => (by cases h), fun h => absurd trivial h⟩
  | cons b rest =>
    rw [reverseDomain, length_cons, reverseLoop]
    cases hsize : runeSize (b :: rest) with
    | none =>
      rw [if_pos (by simp)]
      exact ⟨fun _ hrev => hrev.1 hsize, fun _ => rfl⟩
    | some n =>
      obtain ⟨hpos, hle, hone⟩ := runeSize_spec hsize
      dsimp only
      rw [append_nil]
      by_cases hn : n = 1
      · -- a single byte is in the buffer when the second rune is looked at
        subst hn
        rw [drop_one, tail_cons, take_succ_cons, take_zero]
        cases rest with
        | nil => exact ⟨fun h => (by cases h), fun h => absurd ⟨by simp [hsize], by simp⟩ h⟩
        | cons c rest =>
          rw [length_cons, reverseLoop]
          cases hnext : runeSize (c :: rest) with
          | none =>
            rw [if_pos (by simp)]
            refine ⟨fun _ hrev => ?_, fun _ => rfl⟩
            rcases hrev.2 (hone.1 rfl) with hnil | hrune
            · cases hnil
            · exact hrune hnext
          | some m =>
            obtain ⟨hmpos, hmle, -⟩ := runeSize_spec hnext
            obtain ⟨result, hres⟩ := exists_reverseLoop
              (show 2 ≤ ((c :: rest).take m ++ [b]).length by
                rw [length_append, length_take, length_cons, length_singleton]
                omega)
            dsimp only
            rw [hres]
            refine ⟨fun h => (by cases h), fun hrev => absurd ⟨by simp [hsize], ?_⟩ hrev⟩
            exact fun _ => .inr (by simp [hnext])
      · obtain ⟨result, hres⟩ := exists_reverseLoop
          (show 2 ≤ ((b :: rest).take n).length by
            rw [length_take, length_cons]
            omega)
        rw [hres]
        refine ⟨fun h => (by cases h), fun hrev => absurd ⟨by simp [hsize], ?_⟩ hrev⟩
        exact fun hascii => absurd (hone.2 hascii) hn

theorem reverseDomain_eq_singleton {name : GoString} {b : UInt8} (hb : b < 0x80) :
    reverseDomain name = some [b] ↔ name = [b] := by
  constructor
  · intro h
    have hlen := length_reverseLoop le_rfl h
    rw [length_nil, Nat.add_zero, length_singleton] at hlen
    obtain ⟨c, rfl⟩ := List.length_eq_one_iff.1 hlen.symm
    rw [reverseDomain, length_singleton, reverseLoop] at h
    split at h
    case h_1 n hsize =>
        obtain ⟨hpos, hle, -⟩ := runeSize_spec hsize
        rw [length_nil] at hle
        obtain rfl : n = 1 := by omega
        exact some.inj h
    case h_2 => cases h
  · rintro rfl
    rw [reverseDomain, length_singleton, reverseLoop, runeSize_ascii hb]
    rfl

theorem reverseDomain_eq_nil_iff {name : GoString} : reverseDomain name = some [] ↔ name = [] := by
  constructor
  · intro h
    have hlen := length_reverseLoop le_rfl h
    rw [length_nil, Nat.add_zero] at hlen
    exact List.length_eq_zero_iff.1 hlen.symm
  · rintro rfl
    rfl

/-! ### The labels -/

def prefixLabel : UInt8 := 13

def rootLabel : UInt8 := 10

def suffixLabel : UInt8 := 8

/-- `sort.Strings`. -/
def sortStrings (l : List GoString) : List GoString := l.mergeSort fun a b => decide (a ≤ b)

@[simp] theorem length_sortStrings (l : List GoString) : (sortStrings l).length = l.length :=
  length_mergeSort l

/-- The maps and the list of `Matcher.Dump`; a map whose values are all true is the list of its
keys. -/
structure DumpLists where
  (domainMap prefixMap prefixList : List GoString := [])

/-- One round of the first loop of `Matcher.Dump`. -/
def dumpKey (lists : DumpLists) (key : GoString) : Option DumpLists :=
  match reverseDomain key with
  | none => none
  | some [] => none
  | some (b :: rest) =>
    if b = prefixLabel then some { lists with prefixMap := lists.prefixMap.insert rest }
    else if b = rootLabel then some { lists with prefixList := lists.prefixList ++ [rest] }
    else some { lists with domainMap := lists.domainMap.insert (b :: rest) }

/-- One round of the second loop. -/
def dumpRawPrefix (lists : DumpLists) : GoString → Option DumpLists
  | [] => none
  | b :: rootDomain =>
    if b = 46 ∧ rootDomain ∈ lists.domainMap then
      some { lists with
        domainMap := lists.domainMap.erase rootDomain
        prefixList := lists.prefixList ++ [rootDomain] }
    else some { lists with prefixList := lists.prefixList ++ [b :: rootDomain] }

/-- One round of `AdGuardMatcher.Dump`. -/
def dumpLine (key : GoString) : Option GoString :=
  match reverseDomain key with
  | none => none
  | some [] => none
  | some (b :: rest) =>
    let isSuffix := b = rootLabel
    let hasStart := b ≠ rootLabel ∧ b ≠ prefixLabel
    let key := if hasStart then b :: rest else rest
    match key.getLast? with
    | none => none
    | some last =>
      let hasEnd := last ≠ suffixLabel
      let key := if hasEnd then key else key.dropLast
      let key := if isSuffix then "||" ++ key
        else if hasStart then "|" ++ key else key
      some (if hasEnd then key ++ "^" else key)

namespace SuccinctSet

variable (set : SuccinctSet)

/-- `Matcher.Dump`: the domains and the suffixes.  The order in which the second loop comes to the
keys of its map does not matter, as the lists are sorted. -/
def dump : Option (List GoString × List GoString) := do
  let keys ← set.keys
  let lists ← keys.foldlM dumpKey {}
  let lists ← lists.prefixMap.foldlM dumpRawPrefix lists
  return (sortStrings lists.domainMap, sortStrings lists.prefixList)

/-- `AdGuardMatcher.Dump`. -/
def dumpAdGuard : Option (List GoString) := do
  let keys ← set.keys
  keys.mapM dumpLine

end SuccinctSet

/-! ### Rounds that fail -/

section

variable {σ α β : Type} {f : σ → α → Option σ}

theorem foldlM_eq_none_iff {P : α → Prop} (h : ∀ s x, f s x = none ↔ P x) (s : σ) (xs : List α) :
    xs.foldlM f s = none ↔ ∃ x ∈ xs, P x := by
  induction xs generalizing s with
  | nil => simp
  | cons x xs ih =>
    rw [foldlM_cons]
    cases hx : f s x with
    | none => exact ⟨fun _ => ⟨x, mem_cons_self, (h s x).1 hx⟩, fun _ => rfl⟩
    | some s' =>
      have hnot : ¬P x := fun hP => by
        rw [(h s x).2 hP] at hx
        cases hx
      rw [bind_eq_bind, bind_some, ih s']
      simp [hnot]

theorem mapM_eq_none_iff {f : α → Option β} (xs : List α) :
    xs.mapM f = none ↔ ∃ x ∈ xs, f x = none := by
  induction xs with
  | nil => simp
  | cons x xs ih =>
    rw [mapM_cons]
    cases hx : f x with
    | none => exact ⟨fun _ => ⟨x, mem_cons_self, hx⟩, fun _ => rfl⟩
    | some b =>
      cases hxs : xs.mapM f with
      | none =>
        obtain ⟨y, hy, hnone⟩ := ih.1 hxs
        exact ⟨fun _ => ⟨y, mem_cons_of_mem _ hy, hnone⟩, fun _ => rfl⟩
      | some bs =>
        refine ⟨fun h => (by cases h), ?_⟩
        rintro ⟨y, hy, hnone⟩
        rcases List.mem_cons.1 hy with rfl | hy
        · rw [hx] at hnone
          cases hnone
        · rw [ih.2 ⟨y, hy, hnone⟩] at hxs
          cases hxs

theorem length_mapM {f : α → Option β} {xs : List α} {ys : List β} (h : xs.mapM f = some ys) :
    ys.length = xs.length := by
  induction xs generalizing ys with
  | nil =>
    rw [mapM_nil] at h
    rw [← some.inj h]
    rfl
  | cons x xs ih =>
    rw [mapM_cons] at h
    simp only [bind_eq_bind, bind_eq_some_iff, Option.pure_def] at h
    obtain ⟨b, -, bs, hbs, hys⟩ := h
    rw [← some.inj hys, length_cons, length_cons, ih hbs]

theorem foldlM_invariant {I : List α → σ → Prop}
    (hstep : ∀ done s x s', I done s → f s x = some s' → I (done ++ [x]) s') (done : List α)
    {s s' : σ} {xs : List α} (h0 : I done s) (h : xs.foldlM f s = some s') : I (done ++ xs) s' := by
  induction xs generalizing done s with
  | nil =>
    rw [foldlM_nil] at h
    rw [append_nil, ← some.inj h]
    exact h0
  | cons x xs ih =>
    rw [foldlM_cons] at h
    obtain ⟨s₁, hx, hxs⟩ := Option.bind_eq_some_iff.1 h
    have hrest := ih (done ++ [x]) (hstep done s x s₁ h0 hx) hxs
    rwa [append_assoc, singleton_append] at hrest

end

/-! ### Where the texts cannot be got out -/

theorem dumpKey_eq_none_iff (lists : DumpLists) (key : GoString) :
    dumpKey lists key = none ↔ key = [] ∨ ¬Reversible key := by
  rw [← reverseDomain_eq_none_iff, dumpKey]
  split
  case h_1 h => exact ⟨fun _ => .inr h, fun _ => rfl⟩
  case h_2 h => exact ⟨fun _ => .inl (reverseDomain_eq_nil_iff.1 h), fun _ => rfl⟩
  case h_3 b rest h =>
      have hkey : key ≠ [] := fun hnil => by
        rw [hnil] at h
        cases h
      have hsome : reverseDomain key ≠ none := by
        rw [h]
        simp
      constructor
      · intro hnone
        split_ifs at hnone
      · rintro (hnil | hnone)
        · exact absurd hnil hkey
        · exact absurd hnone hsome

theorem dumpRawPrefix_eq_none_iff (lists : DumpLists) (rawPrefix : GoString) :
    dumpRawPrefix lists rawPrefix = none ↔ rawPrefix = [] := by
  cases rawPrefix with
  | nil => exact ⟨fun _ => rfl, fun _ => rfl⟩
  | cons b rootDomain =>
    rw [dumpRawPrefix]
    split_ifs <;> simp

/-- What the first loop has put into its maps and its list. -/
structure Dumping (done : List GoString) (lists : DumpLists) : Prop where
  nil_mem_iff : [] ∈ lists.prefixMap ↔ [prefixLabel] ∈ done
  length_le : lists.domainMap.length + lists.prefixMap.length + lists.prefixList.length ≤
    done.length

theorem length_insert_le (a : GoString) (l : List GoString) :
    (l.insert a).length ≤ l.length + 1 := by
  rw [List.insert]
  split <;> simp

theorem dumping_step (done : List GoString) (lists : DumpLists) (key : GoString)
    (lists' : DumpLists) (h : Dumping done lists) (hstep : dumpKey lists key = some lists') :
    Dumping (done ++ [key]) lists' := by
  have hlen := h.length_le
  have hlabel : prefixLabel < 0x80 := by decide
  have hdone : [prefixLabel] ∈ done ++ [key] ↔ [prefixLabel] ∈ done ∨ key = [prefixLabel] := by
    rw [mem_append, mem_singleton, eq_comm (a := key)]
  rw [dumpKey] at hstep
  split at hstep
  case h_1 => cases hstep
  case h_2 => cases hstep
  case h_3 b rest hrev =>
      -- the empty text comes from the name that is only the label
      have hother : b ≠ prefixLabel → key ≠ [prefixLabel] := by
        rintro hb rfl
        rw [(reverseDomain_eq_singleton hlabel).2 rfl] at hrev
        cases hrev
        exact hb rfl
      split at hstep
      case isTrue hb =>
          subst hb
          have hinsert := length_insert_le rest lists.prefixMap
          obtain rfl := some.inj hstep
          refine ⟨?_, ?_⟩
          · rw [mem_insert_iff, hdone, h.nil_mem_iff, or_comm]
            refine or_congr_right ⟨?_, ?_⟩
            · rintro rfl
              exact (reverseDomain_eq_singleton hlabel).1 hrev
            · rintro rfl
              rw [(reverseDomain_eq_singleton hlabel).2 rfl] at hrev
              cases hrev
              rfl
          · rw [length_append, length_singleton]
            dsimp only
            omega
      case isFalse hb =>
          have hsame : [] ∈ lists.prefixMap ↔ [prefixLabel] ∈ done ++ [key] := by
            rw [hdone, h.nil_mem_iff]
            simp [hother hb]
          split at hstep
          · obtain rfl := some.inj hstep
            refine ⟨hsame, ?_⟩
            rw [length_append, length_singleton]
            dsimp only
            rw [length_append, length_singleton]
            omega
          · have hinsert := length_insert_le (b :: rest) lists.domainMap
            obtain rfl := some.inj hstep
            refine ⟨hsame, ?_⟩
            rw [length_append, length_singleton]
            dsimp only
            omega

theorem dumpRawPrefix_length_le {lists lists' : DumpLists} {rawPrefix : GoString}
    (h : dumpRawPrefix lists rawPrefix = some lists') :
    lists'.domainMap.length + lists'.prefixList.length ≤
      lists.domainMap.length + lists.prefixList.length + 1 := by
  cases rawPrefix with
  | nil => cases h
  | cons b rootDomain =>
    rw [dumpRawPrefix] at h
    split at h
    · have herase := length_erase_le (a := rootDomain) (l := lists.domainMap)
      obtain rfl := some.inj h
      dsimp only
      rw [length_append, length_singleton]
      omega
    · obtain rfl := some.inj h
      dsimp only
      rw [length_append, length_singleton]
      omega

theorem getLast_eq_none_iff {key : GoString} (f : UInt8 → GoString) :
    (match key.getLast? with
      | none => none
      | some last => some (f last)) = none ↔ key = [] := by
  cases hlast : key.getLast? with
  | none => exact ⟨fun _ => List.getLast?_eq_none_iff.1 hlast, fun _ => rfl⟩
  | some last =>
    refine ⟨fun h => (by cases h), ?_⟩
    rintro rfl
    cases hlast

theorem dumpLine_eq_none_iff (key : GoString) :
    dumpLine key = none ↔ key = [] ∨ key = [prefixLabel] ∨ key = [rootLabel] ∨ ¬Reversible key := by
  have hprefix : prefixLabel < 0x80 := by decide
  have hroot : rootLabel < 0x80 := by decide
  rw [← reverseDomain_eq_none_iff, ← reverseDomain_eq_singleton hprefix,
    ← reverseDomain_eq_singleton hroot, ← reverseDomain_eq_nil_iff, dumpLine]
  split
  case h_1 h => simp [h]
  case h_2 h => simp [h]
  case h_3 b rest h =>
      rw [h]
      refine (getLast_eq_none_iff _).trans ?_
      simp only [some.injEq, List.cons.injEq, reduceCtorEq, false_or, or_false]
      by_cases hstart : b ≠ rootLabel ∧ b ≠ prefixLabel
      · rw [if_pos hstart]
        simp [hstart.1, hstart.2]
      · rw [if_neg hstart]
        have hlabel : b = prefixLabel ∨ b = rootLabel := by
          by_contra hnone
          push Not at hnone
          exact hstart ⟨hnone.2, hnone.1⟩
        rw [← or_and_right, and_iff_right hlabel]

namespace SuccinctSet

variable (set : SuccinctSet)

/-- **The names that `Matcher.Dump` can take**: the walk stays within its positions, and a name that
ends is not empty, is not only the label of a prefix, and can be turned round. -/
def Dumps : Prop :=
  set.Indexed ∧ ∀ n name, set.Named n name → set.isLeaf n →
    name ≠ [] ∧ name ≠ [prefixLabel] ∧ Reversible name

/-- **The names that `AdGuardMatcher.Dump` can take**, which are not only the label of a suffix
either. -/
def DumpsAdGuard : Prop :=
  set.Indexed ∧ ∀ n name, set.Named n name → set.isLeaf n →
    name ≠ [] ∧ name ≠ [prefixLabel] ∧ name ≠ [rootLabel] ∧ Reversible name

variable {set}

theorem forall_named_iff {names : List GoString} (hkeys : set.keys = some names)
    {P : GoString → Prop} :
    (∀ n name, set.Named n name → set.isLeaf n → P name) ↔ ∀ name ∈ names, P name := by
  constructor
  · intro h name hname
    obtain ⟨n, hnamed, hleaf⟩ := (mem_keys_iff hkeys).1 hname
    exact h n name hnamed hleaf
  · intro h n name hnamed hleaf
    exact h name ((mem_keys_iff hkeys).2 ⟨n, hnamed, hleaf⟩)

theorem indexed_of_keys {names : List GoString} (hkeys : set.keys = some names) : set.Indexed := by
  by_contra hnot
  rw [(keys_eq_none_iff set).2 hnot] at hkeys
  cases hkeys

variable (set)

/-- **When `Matcher.Dump` panics.** -/
theorem dump_eq_none_iff : set.dump = none ↔ ¬set.Dumps := by
  cases hkeys : set.keys with
  | none =>
    have hnot := (keys_eq_none_iff set).1 hkeys
    rw [dump, hkeys]
    exact ⟨fun _ h => hnot h.1, fun _ => rfl⟩
  | some names =>
    rw [Dumps, forall_named_iff hkeys, and_iff_right (indexed_of_keys hkeys), dump, hkeys]
    simp only [bind_eq_bind, bind_some]
    cases hfirst : names.foldlM dumpKey {} with
    | none =>
      obtain ⟨name, hname, hbad⟩ := (foldlM_eq_none_iff dumpKey_eq_none_iff _ _).1 hfirst
      refine ⟨fun _ hall => ?_, fun _ => rfl⟩
      obtain ⟨hnil, -, hrev⟩ := hall name hname
      rcases hbad with hbad | hbad
      · exact hnil hbad
      · exact hbad hrev
    | some lists =>
      have hgood : ∀ name ∈ names, ¬(name = [] ∨ ¬Reversible name) := by
        intro name hname hbad
        rw [(foldlM_eq_none_iff dumpKey_eq_none_iff _ _).2 ⟨name, hname, hbad⟩] at hfirst
        cases hfirst
      have hdumping : Dumping names lists :=
        foldlM_invariant (I := Dumping) dumping_step [] ⟨by simp, by simp⟩ hfirst
      have hsecond : lists.prefixMap.foldlM dumpRawPrefix lists = none ↔ [prefixLabel] ∈ names := by
        rw [foldlM_eq_none_iff dumpRawPrefix_eq_none_iff, ← hdumping.nil_mem_iff]
        simp
      rw [bind_some]
      have hnone : ((lists.prefixMap.foldlM dumpRawPrefix lists).bind fun lists =>
          pure (sortStrings lists.domainMap, sortStrings lists.prefixList)) = none ↔
          [prefixLabel] ∈ names := by
        rw [← hsecond]
        cases lists.prefixMap.foldlM dumpRawPrefix lists <;> simp
      rw [hnone]
      constructor
      · intro hmem hall
        exact (hall _ hmem).2.1 rfl
      · intro hnot
        by_contra hmem
        refine hnot fun name hname => ?_
        have hname' := hgood name hname
        rw [not_or, not_not] at hname'
        exact ⟨hname'.1, fun heq => hmem (heq ▸ hname), hname'.2⟩

/-- **When `AdGuardMatcher.Dump` panics.** -/
theorem dumpAdGuard_eq_none_iff : set.dumpAdGuard = none ↔ ¬set.DumpsAdGuard := by
  cases hkeys : set.keys with
  | none =>
    have hnot := (keys_eq_none_iff set).1 hkeys
    rw [dumpAdGuard, hkeys]
    exact ⟨fun _ h => hnot h.1, fun _ => rfl⟩
  | some names =>
    rw [DumpsAdGuard, forall_named_iff hkeys, and_iff_right (indexed_of_keys hkeys), dumpAdGuard,
      hkeys, bind_eq_bind, bind_some, mapM_eq_none_iff]
    push Not
    refine exists_congr fun name => and_congr_right fun _ => ?_
    rw [dumpLine_eq_none_iff]
    tauto

variable {set}

theorem length_dump_le {texts : List GoString × List GoString} (h : set.dump = some texts) :
    texts.1.length + texts.2.length ≤ set.labels.length + 1 := by
  rw [dump] at h
  simp only [bind_eq_bind, bind_eq_some_iff, Option.pure_def] at h
  obtain ⟨names, hkeys, lists, hfirst, lists', hsecond, htexts⟩ := h
  have hdumping : Dumping names lists :=
    foldlM_invariant (I := Dumping) dumping_step [] ⟨by simp, by simp⟩ hfirst
  have hadded := foldlM_invariant
    (I := fun done lists' => lists'.domainMap.length + lists'.prefixList.length ≤
      lists.domainMap.length + lists.prefixList.length + done.length)
    (fun done s x s' hs hx => by
      have := dumpRawPrefix_length_le hx
      rw [length_append, length_singleton]
      omega)
    [] (by simp) hsecond
  have := length_keys_le hkeys
  have := hdumping.length_le
  rw [← some.inj htexts]
  dsimp only
  rw [length_sortStrings, length_sortStrings]
  rw [nil_append] at hadded
  omega

theorem length_dumpAdGuard_le {texts : List GoString} (h : set.dumpAdGuard = some texts) :
    texts.length ≤ set.labels.length + 1 := by
  rw [dumpAdGuard] at h
  simp only [bind_eq_bind, bind_eq_some_iff] at h
  obtain ⟨names, hkeys, htexts⟩ := h
  rw [length_mapM htexts]
  exact length_keys_le hkeys

end SuccinctSet

end SingBox
