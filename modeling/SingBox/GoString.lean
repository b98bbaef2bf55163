/-
**Go's strings and errors.**

A Go string is a finite sequence of bytes, with no promise that it is valid UTF-8.  The functions of
the standard packages `strings` and `strconv` stand here under their Go names, together with errors
as trees of messages and causes.

* `GoString.contains`, `GoString.cut`, `GoString.split` — searching and splitting;
* `GoString.slice` — slice expressions, which may panic;
* `GoString.parseUint`, `GoString.atoi`, `GoString.ofNat`, `GoString.ofInt` — decimal numbers;
* `GoError`, `GoError.text` — errors and the text they print;
* `GoString.atoi_ofInt` — numbers are read back.
-/

import SingBox.ByteReader
import Mathlib.Data.List.Infix

/-- A Go string: a finite sequence of bytes. -/
abbrev GoString : Type := List UInt8

namespace GoString

open List

/-- The bytes of an ASCII literal. -/
def ofString (s : String) : GoString := s.toList.map fun c => UInt8.ofNat c.toNat

instance : Coe String GoString := ⟨ofString⟩

/-- `strings.Contains`: `sub` occurs somewhere in `s`. -/
def contains (s sub : GoString) : Bool := s.tails.any fun t => sub.isPrefixOf t

/-- What stands before and after the first byte `c`. -/
def cut (c : UInt8) : GoString → Option (GoString × GoString)
  | [] => none
  | x :: s => if x = c then some ([], s) else (cut c s).map fun p => (x :: p.1, p.2)

/-- `strings.Split` at single bytes `c`. -/
def split (c : UInt8) : GoString → List GoString
  | [] => [[]]
  | x :: s =>
    if x = c then [] :: split c s
    else
      match split c s with
      | [] => [[x]]
      | w :: ws => (x :: w) :: ws

/-- `strings.Cut`: what stands before and after the first `sep`. -/
def cutAt (sep : GoString) : GoString → Option (GoString × GoString)
  | [] => if sep.isEmpty then some ([], []) else none
  | c :: s =>
    if sep.isPrefixOf (c :: s) then some ([], (c :: s).drop sep.length)
    else (cutAt sep s).map fun p => (c :: p.1, p.2)

/-- `common.SubstringAfter`: all of the string if `sep` does not occur. -/
def substringAfter (s sep : GoString) : GoString :=
  match cutAt sep s with
  | some (_, after) => after
  | none => s

/-- `common.SubstringBefore`. -/
def substringBefore (s sep : GoString) : GoString :=
  match cutAt sep s with
  | some (before, _) => before
  | none => s

/-- `strings.TrimSuffix`. -/
def trimSuffix (s suffix : GoString) : GoString :=
  if suffix.isSuffixOf s then s.take (s.length - suffix.length) else s

/-- `strings.TrimPrefix`. -/
def trimPrefix (s head : GoString) : GoString :=
  if head.isPrefixOf s then s.drop head.length else s

/-- A slice expression `s[i:j]`; `none` where Go panics. -/
def slice (s : GoString) (i j : ℤ) : Option GoString :=
  if 0 ≤ i ∧ i ≤ j ∧ j ≤ s.length then some ((s.take j.toNat).drop i.toNat) else none

/-- The value of a decimal digit. -/
def digit (c : UInt8) : Option ℕ :=
  if 48 ≤ c ∧ c ≤ 57 then some (c.toNat - 48) else none

/-- The digits of `s`, most significant first, appended to the number `acc`. -/
def parseDigits : ℕ → GoString → Option ℕ
  | acc, [] => some acc
  | acc, c :: s =>
    match digit c with
    | none => none
    | some d => parseDigits (acc * 10 + d) s

/-- `strconv.ParseUint (s, 10, bitSize)`. -/
def parseUint (bitSize : ℕ) (s : GoString) : Option ℕ :=
  if s = [] then none
  else
    match parseDigits 0 s with
    | none => none
    | some n => if n < 2 ^ bitSize then some n else none

/-- The decimal digits of a number, as `F.ToString` prints it. -/
def ofNat (n : ℕ) : GoString := (Nat.toDigits 10 n).map fun c => UInt8.ofNat c.toNat

/-- An integer, as `F.ToString` prints it. -/
def ofInt (i : ℤ) : GoString := if i < 0 then 45 :: ofNat i.natAbs else ofNat i.natAbs

/-- The loop of `strconv.ParseUint (s, 10, 64)`: the largest number stands for an overflow, which
ends the loop before the rest of the text is looked at; `none` is a byte that is not a digit. -/
def parseDigits64 : ℕ → GoString → Option ℕ
  | acc, [] => some acc
  | acc, c :: s =>
    match digit c with
    | none => none
    | some d =>
      if acc * 10 + d < 2 ^ 64 then parseDigits64 (acc * 10 + d) s else some (2 ^ 64 - 1)

/-- The number that `strconv.ParseUint (s, 10, 64)` returns, zero with a syntax error. -/
def magnitude (s : GoString) : ℕ := if s = [] then 0 else (parseDigits64 0 s).getD 0

/-- The number that `strconv.Atoi` returns next to an error or without one, for 64-bit integers. -/
def atoi : GoString → ℤ
  | 43 :: s => min (magnitude s) (2 ^ 63 - 1)
  | 45 :: s => -min (magnitude s) (2 ^ 63)
  | s => min (magnitude s) (2 ^ 63 - 1)

/-! ### Searching for a byte -/

section

variable {c : UInt8} {s s' : GoString}

theorem contains_singleton : contains s [c] ↔ c ∈ s := by
  simp only [contains, any_eq_true, mem_tails]
  constructor
  · rintro ⟨t, hsuffix, hhead⟩
    cases t with
    | nil => simp at hhead
    | cons x t =>
      obtain rfl : c = x := by simpa using hhead
      exact hsuffix.subset mem_cons_self
  · intro hmem
    obtain ⟨before, after, rfl⟩ := append_of_mem hmem
    exact ⟨c :: after, suffix_append _ _, by simp⟩

theorem contains_eq_false_of_not_mem (sub : GoString) (h : c ∉ s) :
    contains s (c :: sub) = false := by
  simp only [contains, any_eq_false, mem_tails]
  intro t hsuffix hhead
  cases t with
  | nil => simp at hhead
  | cons x t =>
    obtain ⟨rfl, -⟩ : c = x ∧ _ := by simpa using hhead
    exact h (hsuffix.subset mem_cons_self)

theorem cut_eq_none (h : c ∉ s) : cut c s = none := by
  induction s with
  | nil => rfl
  | cons x s ih =>
    rw [mem_cons, not_or] at h
    simp [cut, Ne.symm h.1, ih h.2]

theorem split_append_cons (h : c ∉ s) : split c (s ++ c :: s') = s :: split c s' := by
  induction s with
  | nil => simp [split]
  | cons x s ih =>
    rw [mem_cons, not_or] at h
    simp [split, Ne.symm h.1, ih h.2]

theorem split_lines {lines : List GoString} (h : ∀ line ∈ lines, c ∉ line) :
    split c (lines.flatMap fun line => line ++ [c]) = lines ++ [[]] := by
  induction lines with
  | nil => rfl
  | cons line lines ih =>
    rw [forall_mem_cons] at h
    rw [flatMap_cons, append_assoc, singleton_append, split_append_cons h.1, ih h.2]
    rfl

theorem cutAt_singleton (h : c ∉ s) : cutAt [c] (s ++ c :: s') = some (s, s') := by
  induction s with
  | nil => simp [cutAt]
  | cons x s ih =>
    rw [mem_cons, not_or] at h
    simp [cutAt, h.1, ih h.2]

theorem substringAfter_singleton (h : c ∉ s) : substringAfter (s ++ c :: s') [c] = s' := by
  rw [substringAfter, cutAt_singleton h]

theorem substringBefore_singleton (h : c ∉ s) : substringBefore (s ++ c :: s') [c] = s := by
  rw [substringBefore, cutAt_singleton h]

theorem trimSuffix_eq_self (h : s.getLast? ≠ some c) : trimSuffix s [c] = s := by
  have hsuffix : [c].isSuffixOf s = false := by
    rw [← Bool.not_eq_true, isSuffixOf_iff_suffix]
    rintro ⟨t, rfl⟩
    exact h (by simp)
  rw [trimSuffix, hsuffix, if_neg Bool.false_ne_true]

variable {x : UInt8}

theorem trimSuffix_append_singleton (h : x ≠ c) : trimSuffix (s ++ [x]) [c] = s ++ [x] :=
  trimSuffix_eq_self (by simpa using h)

theorem isSuffixOf_append_singleton (s : GoString) (x c : UInt8) :
    [c].isSuffixOf (s ++ [x]) = (x == c) := by
  rw [Bool.eq_iff_iff, isSuffixOf_iff_suffix, beq_iff_eq]
  constructor
  · rintro ⟨t, ht⟩
    have hlast := congrArg List.getLast? ht
    simpa using hlast.symm
  · rintro rfl
    exact ⟨s, rfl⟩

theorem cutAt_eq_some {sep s before after : GoString} (h : cutAt sep s = some (before, after)) :
    s = before ++ sep ++ after := by
  induction s generalizing before with
  | nil =>
    obtain ⟨hempty, h⟩ := Option.ite_none_right_eq_some.1 h
    obtain ⟨rfl, rfl⟩ := Prod.mk.inj (Option.some.inj h)
    rw [List.isEmpty_iff.1 hempty]
    rfl
  | cons c s ih =>
    rw [cutAt] at h
    split at h
    · rename_i hhead
      obtain ⟨t, ht⟩ := List.isPrefixOf_iff_prefix.1 hhead
      obtain ⟨rfl, rfl⟩ := Prod.mk.inj (Option.some.inj h)
      rw [← ht]
      simp
    · obtain ⟨⟨before', after'⟩, hcut, heq⟩ := Option.map_eq_some_iff.1 h
      obtain ⟨rfl, rfl⟩ := Prod.mk.inj heq
      rw [ih hcut]
      rfl

theorem isPrefixOf_append_singleton {sub : GoString} (h : sub.getLast? ≠ some x) :
    sub.isPrefixOf (s ++ [x]) = sub.isPrefixOf s := by
  induction s generalizing sub with
  | nil =>
    match sub with
    | [] => rfl
    | [y] =>
      have hy : (y == x) = false := by simpa using h
      simp [List.isPrefixOf, hy]
    | y :: z :: rest => simp [List.isPrefixOf]
  | cons y s ih =>
    cases sub with
    | nil => rfl
    | cons z rest =>
      have hrest : rest.getLast? ≠ some x := by
        cases rest with
        | nil => simp
        | cons w rest => simpa using h
      rw [cons_append, List.isPrefixOf, List.isPrefixOf, ih hrest]

theorem cutAt_append_singleton {sep : GoString} (hsep : sep ≠ []) (h : sep.getLast? ≠ some x) :
    cutAt sep (s ++ [x]) = (cutAt sep s).map fun p => (p.1, p.2 ++ [x]) := by
  induction s with
  | nil =>
    have hhead := isPrefixOf_append_singleton (s := []) h
    have hnil : sep.isPrefixOf [] = false := by
      obtain ⟨y, rest, rfl⟩ := exists_cons_of_ne_nil hsep
      rfl
    rw [hnil, nil_append] at hhead
    simp [cutAt, hhead, hsep]
  | cons y s ih =>
    rw [cons_append, cutAt, cutAt, ← cons_append, isPrefixOf_append_singleton h, ih]
    split
    · rename_i hhead
      have hlen := (List.isPrefixOf_iff_prefix.1 hhead).length_le
      rw [drop_append_of_le_length hlen]
      rfl
    · cases cutAt sep s <;> rfl

variable {w : GoString}

theorem length_le_of_mem_split (h : w ∈ split c s) : w.length ≤ s.length := by
  induction s generalizing w with
  | nil => simp_all [split]
  | cons x s ih =>
    rw [split] at h
    split at h
    · rcases List.mem_cons.1 h with rfl | h
      · exact Nat.zero_le _
      · exact (ih h).trans (Nat.le_succ _)
    · cases hsplit : split c s with
      | nil => simp_all
      | cons v ws =>
        rw [hsplit] at h ih
        rcases List.mem_cons.1 h with rfl | h
        · exact Nat.succ_le_succ (ih mem_cons_self)
        · exact (ih (mem_cons_of_mem _ h)).trans (Nat.le_succ _)

theorem not_mem_of_mem_split (h : w ∈ split c s) : c ∉ w := by
  induction s generalizing w with
  | nil => simp_all [split]
  | cons x s ih =>
    rw [split] at h
    split at h
    · rcases List.mem_cons.1 h with rfl | h
      · exact not_mem_nil
      · exact ih h
    · rename_i hne
      cases hsplit : split c s with
      | nil => simp_all [eq_comm]
      | cons v ws =>
        rw [hsplit] at h ih
        rcases List.mem_cons.1 h with rfl | h
        · rw [mem_cons, not_or]
          exact ⟨Ne.symm hne, ih mem_cons_self⟩
        · exact ih (mem_cons_of_mem _ h)

theorem digit_of_parseDigits {acc : ℕ} (h : (parseDigits acc s).isSome) :
    ∀ x ∈ s, (digit x).isSome := by
  induction s generalizing acc with
  | nil => simp
  | cons y s ih =>
    rw [parseDigits] at h
    cases hy : digit y with
    | none => simp [hy] at h
    | some d =>
      simp only [hy] at h
      exact List.forall_mem_cons.2 ⟨by rw [hy]; rfl, ih h⟩

theorem mem_of_mem_split (h : w ∈ split c s) (hx : x ∈ w) : x ∈ s := by
  induction s generalizing w with
  | nil =>
    rw [split, mem_singleton] at h
    exact h ▸ hx
  | cons y s ih =>
    rw [split] at h
    split at h
    · rcases List.mem_cons.1 h with rfl | h
      · simp at hx
      · exact mem_cons_of_mem y (ih h hx)
    · cases hsplit : split c s with
      | nil =>
        rw [hsplit, mem_singleton] at h
        rw [h, mem_singleton] at hx
        exact hx ▸ mem_cons_self
      | cons v ws =>
        rw [hsplit] at h ih
        rcases List.mem_cons.1 h with rfl | h
        · rcases List.mem_cons.1 hx with rfl | hx
          · exact mem_cons_self
          · exact mem_cons_of_mem y (ih mem_cons_self hx)
        · exact mem_cons_of_mem y (ih (mem_cons_of_mem v h) hx)

theorem split_of_not_mem (h : c ∉ s) : split c s = [s] := by
  induction s with
  | nil => rfl
  | cons y s ih =>
    rw [mem_cons, not_or] at h
    rw [split, if_neg (Ne.symm h.1), ih h.2]

theorem digit_of_parseUint {bitSize : ℕ} (h : (parseUint bitSize s).isSome) :
    ∀ x ∈ s, (digit x).isSome := by
  rw [parseUint] at h
  split at h
  · cases h
  · cases hs : parseDigits 0 s with
    | none => simp [hs] at h
    | some n => exact digit_of_parseDigits (by rw [hs]; rfl)

end

/-! ### Slices -/

theorem slice_eq_none_iff {s : GoString} {i j : ℤ} :
    slice s i j = none ↔ ¬(0 ≤ i ∧ i ≤ j ∧ j ≤ s.length) := by
  rw [slice]
  split_ifs with h
  · simp [h]
  · simp only [true_iff]
    exact h

theorem slice_of_isPrefixOf {s head : GoString} (h : head.isPrefixOf s) :
    slice s head.length s.length = some (s.drop head.length) := by
  have hle := (List.isPrefixOf_iff_prefix.1 h).length_le
  rw [slice, if_pos (by omega)]
  simp

theorem slice_of_isSuffixOf {s : GoString} {c : UInt8} (h : [c].isSuffixOf s) :
    slice s 0 (s.length - 1) = some s.dropLast := by
  have hle := (List.isSuffixOf_iff_suffix.1 h).length_le
  rw [length_singleton] at hle
  have hlen : ((s.length : ℤ) - 1).toNat = s.length - 1 := by omega
  rw [slice, if_pos (by omega), hlen, dropLast_eq_take]
  rfl

theorem slice_inner {s : GoString} (h : 2 ≤ s.length) :
    slice s 1 (s.length - 1) = some (s.drop 1).dropLast := by
  have hlen : ((s.length : ℤ) - 1).toNat = s.length - 1 := by omega
  rw [slice, if_pos (by omega), hlen, ← dropLast_eq_take, Int.toNat_one, drop_one,
    drop_one, tail_dropLast]

/-! ### Decimal numbers -/

theorem ofNat_eq (n : ℕ) :
    ofNat n = (if n < 10 then [] else ofNat (n / 10)) ++ [UInt8.ofNat (48 + n % 10)] := by
  rw [ofNat, Nat.toDigits_eq_if (by decide)]
  have hlast : ∀ d : ℕ, d < 10 → UInt8.ofNat d.digitChar.toNat = UInt8.ofNat (48 + d) := by
    intro d hd
    rw [Nat.toNat_digitChar_of_lt_ten hd]
  split
  · rename_i hn
    rw [map_singleton, hlast n hn, Nat.mod_eq_of_lt hn, nil_append]
  · rw [map_append, map_singleton, hlast _ (Nat.mod_lt n (by decide))]
    rfl

theorem digit_ofNat {d : ℕ} (hd : d < 10) : digit (UInt8.ofNat (48 + d)) = some d := by
  have hbyte : (UInt8.ofNat (48 + d)).toNat = 48 + d := by simp; omega
  have hrange : 48 ≤ UInt8.ofNat (48 + d) ∧ UInt8.ofNat (48 + d) ≤ 57 := by
    rw [UInt8.le_iff_toNat_le, UInt8.le_iff_toNat_le, hbyte]
    constructor
    · exact Nat.le_add_right 48 d
    · exact Nat.add_le_add_left (Nat.le_of_lt_succ hd) 48
  rw [digit, if_pos hrange, hbyte, Nat.add_sub_cancel_left]

theorem ofNat_ne_nil (n : ℕ) : ofNat n ≠ [] := by
  rw [ofNat_eq]
  simp

theorem digit_of_mem_ofNat {n : ℕ} {x : UInt8} (hx : x ∈ ofNat n) : (digit x).isSome := by
  induction n using Nat.strongRecOn with
  | ind n ih =>
    rw [ofNat_eq, mem_append, mem_singleton] at hx
    rcases hx with hx | rfl
    · split at hx
      · simp at hx
      · exact ih (n / 10) (by omega) hx
    · rw [digit_ofNat (Nat.mod_lt n (by decide))]
      rfl

theorem not_mem_ofNat {x : UInt8} (hx : digit x = none) (n : ℕ) : x ∉ ofNat n := by
  intro hmem
  have hsome := digit_of_mem_ofNat hmem
  rw [hx] at hsome
  cases hsome

theorem parseDigits64_append {acc m d : ℕ} {s : GoString} {c : UInt8}
    (hs : parseDigits64 acc s = some m) (hc : digit c = some d) (hsmall : m * 10 + d < 2 ^ 64) :
    parseDigits64 acc (s ++ [c]) = some (m * 10 + d) := by
  induction s generalizing acc with
  | nil =>
    rw [parseDigits64, Option.some.injEq] at hs
    subst hs
    rw [nil_append, parseDigits64]
    simp only [hc, if_pos hsmall, parseDigits64]
  | cons x s ih =>
    rw [parseDigits64] at hs
    rw [cons_append, parseDigits64]
    cases hx : digit x with
    | none => simp [hx] at hs
    | some e =>
      simp only [hx] at hs ⊢
      split at hs
      · rename_i hlt
        rw [if_pos hlt]
        exact ih hs
      · -- after an overflow there is no room for another digit
        rw [Option.some.injEq] at hs
        omega

theorem parseDigits64_ofNat {n : ℕ} (hn : n < 2 ^ 64) : parseDigits64 0 (ofNat n) = some n := by
  induction n using Nat.strongRecOn with
  | ind n ih =>
    have hdigit := digit_ofNat (Nat.mod_lt n (by decide : 0 < 10))
    have hsum : n / 10 * 10 + n % 10 = n := by omega
    rw [ofNat_eq]
    split
    · rename_i hsmall
      have hzero := @parseDigits64_append 0 0 _ [] _ rfl hdigit (by omega)
      rw [hzero]
      congr 1
      omega
    · have hprev := ih (n / 10) (by omega) (by omega)
      rw [parseDigits64_append hprev hdigit (by omega), hsum]

theorem atoi_of_digits {s : GoString} (h : ∀ x ∈ s, (digit x).isSome) :
    atoi s = min (magnitude s : ℤ) (2 ^ 63 - 1) := by
  unfold atoi
  split
  · exact absurd (h 43 mem_cons_self) (by decide)
  · exact absurd (h 45 mem_cons_self) (by decide)
  · rfl

/-- **A number that was printed is read back**, if it is a 64-bit integer. -/
theorem atoi_ofInt {i : ℤ} (hi : 0 ≤ i ∧ i < 2 ^ 63) : atoi (ofInt i) = i := by
  have hlt : i.natAbs < 2 ^ 64 := by omega
  rw [ofInt, if_neg (by omega), atoi_of_digits fun _ => digit_of_mem_ofNat, magnitude,
    if_neg (ofNat_ne_nil _), parseDigits64_ofNat hlt, Option.getD_some]
  omega

theorem atoi_bounds {s : GoString} (h : 45 ∉ s) : 0 ≤ atoi s ∧ atoi s < 2 ^ 63 := by
  unfold atoi
  split
  · omega
  · simp at h
  · omega

end GoString

/-- An error value: a fresh message, an error wrapped by `E.Cause` or `E.Extend`, or what a library
function reports about its input. -/
inductive GoError where
  | new (message : GoString)
  | cause (err : GoError) (message : GoString)
  | extend (err : GoError) (message : GoString)
  | library (function input : GoString)
  deriving DecidableEq

/-- `Error`.  The wording of library errors is theirs; the function and its input stand for it. -/
def GoError.text : GoError → GoString
  | .new message => message
  | .cause err message => message ++ ": " ++ err.text
  | .extend err message => err.text ++ ": " ++ message
  | .library function input => function ++ ": " ++ input

/-- `io.EOF`. -/
def ioEOF : GoError := .new "EOF"

/-- `io.ErrUnexpectedEOF`. -/
def ioErrUnexpectedEOF : GoError := .new "unexpected EOF"

/-- The errors of `io` and `encoding/binary`. -/
def ioErrors : ByteReader.Errors GoError where
  eof := .new "EOF"
  unexpectedEOF := .new "unexpected EOF"
  overflow := .new "binary: varint overflows a 64-bit integer"

theorem exceptBind_eq_ok {ε α β : Type} {x : Except ε α} {f : α → Except ε β} {b : β} :
    (x >>= f) = .ok b ↔ ∃ a, x = .ok a ∧ f a = .ok b := by
  cases x <;> simp [bind, Except.bind]

theorem iteError_eq_ok {ε α : Type} {p : Prop} [Decidable p] {err : ε} {x : Except ε α} {a : α} :
    (if p then .error err else x) = .ok a ↔ ¬p ∧ x = .ok a := by
  split <;> simp [*]
