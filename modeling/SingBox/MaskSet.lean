/-
**Sets of machine words held as one mask.**

A set of `n`-bit words can be kept in a single word of `2 ^ n` bits: the word `x` belongs to the
set exactly when the bit at position `x` is set.  Such sets are built with loops over all `2 ^ n`
words that add a word to an accumulator whenever some test passes.

* `MaskSet.ext`, `MaskSet.eq_zero_iff` — a mask is determined by its members, and the zero mask
  is the one without members;
* `MaskSet.contains_foldl` — **the loop rule**: if one round adds exactly the words of `P x`, the
  whole loop adds exactly the words of `P x` for the visited `x`.
-/

import Mathlib.Data.BitVec

namespace MaskSet

variable {n : ℕ}

/-- The `n`-bit words in increasing order. -/
def words (n : ℕ) : List (BitVec n) := (List.range (2 ^ n)).map (BitVec.ofNat n)

variable (x : BitVec n)

theorem mem_words : x ∈ words n := by
  refine List.mem_map.2 ⟨x.toNat, List.mem_range.2 x.isLt, ?_⟩
  simp

/-- The mask that holds the word `x` and nothing else. -/
def single (x : BitVec n) : BitVec (2 ^ n) := 1#(2 ^ n) <<< x.toNat

/-- The membership test: the bit at position `x` is set. -/
def contains (s : BitVec (2 ^ n)) (x : BitVec n) : Bool := s &&& single x != 0

theorem single_getLsbD (i : ℕ) : (single x).getLsbD i = decide (i = x.toNat) := by
  have hx : x.toNat < 2 ^ n := x.isLt
  have h := BitVec.getLsbD_twoPow (w := 2 ^ n) x.toNat i
  simp only [hx, decide_true, Bool.true_and] at h
  rw [single, ← BitVec.twoPow_eq, h]
  simp [eq_comm]

variable (s : BitVec (2 ^ n))

theorem contains_eq_getLsbD : contains s x = s.getLsbD x.toNat := by
  have hx : x.toNat < 2 ^ n := x.isLt
  cases hbit : s.getLsbD x.toNat with
  | true =>
    rw [contains, bne_iff_ne]
    intro h
    have := congrArg (fun t => t.getLsbD x.toNat) h
    simp [single_getLsbD, hbit] at this
  | false =>
    rw [contains, bne_eq_false_iff_eq]
    refine BitVec.eq_of_getLsbD_eq fun i hi => ?_
    rw [BitVec.getLsbD_and, single_getLsbD]
    by_cases h : i = x.toNat
    · simp [h, hbit]
    · simp [h]

@[simp] theorem contains_zero : contains 0 x = false := by
  simp [contains]

@[simp] theorem contains_single (x y : BitVec n) : contains (single x) y = decide (x = y) := by
  rw [contains_eq_getLsbD, single_getLsbD]
  simp [BitVec.toNat_inj, eq_comm]

@[simp] theorem contains_or (s t : BitVec (2 ^ n)) (x : BitVec n) :
    contains (s ||| t) x = (contains s x || contains t x) := by
  simp [contains_eq_getLsbD]

theorem ext {s t : BitVec (2 ^ n)} (h : ∀ x, contains s x = contains t x) : s = t := by
  refine BitVec.eq_of_getLsbD_eq fun i hi => ?_
  have := h (BitVec.ofNat n i)
  rwa [contains_eq_getLsbD, contains_eq_getLsbD, BitVec.toNat_ofNat, Nat.mod_eq_of_lt hi] at this

theorem eq_zero_iff : s = 0 ↔ ∀ x, contains s x = false := by
  constructor
  · rintro rfl x
    exact contains_zero x
  · intro h
    exact ext fun x => by rw [h x, contains_zero]

theorem ne_zero_iff : s ≠ 0 ↔ ∃ x, contains s x := by
  rw [ne_eq, eq_zero_iff]
  simp

/-- **The loop rule**: if a round on `x` adds exactly the words satisfying `P x`, then the loop
over `l` adds exactly the words satisfying `P x` for some `x` of `l`. -/
theorem contains_foldl {ι : Type*} (step : BitVec (2 ^ n) → ι → BitVec (2 ^ n))
    (P : ι → BitVec n → Prop)
    (hstep : ∀ acc x y, contains (step acc x) y ↔ contains acc y ∨ P x y)
    (l : List ι) (acc : BitVec (2 ^ n)) (y : BitVec n) :
    contains (l.foldl step acc) y ↔ contains acc y ∨ ∃ x ∈ l, P x y := by
  induction l generalizing acc with
  | nil => simp
  | cons x l ih =>
    rw [List.foldl_cons, ih, hstep, or_assoc]
    simp

theorem contains_foldl_ite {ι : Type*} (p : ι → Bool) (f : ι → BitVec n) (l : List ι)
    (acc : BitVec (2 ^ n)) (y : BitVec n) :
    contains (l.foldl (fun acc x => if p x then acc ||| single (f x) else acc) acc) y ↔
      contains acc y ∨ ∃ x ∈ l, p x ∧ f x = y := by
  refine contains_foldl _ (fun x y => p x ∧ f x = y) (fun acc x y => ?_) l acc y
  by_cases hp : p x
  · simp [hp]
  · simp [hp]

end MaskSet
