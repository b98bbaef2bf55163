/-
**Numbers of 53 bits**, for the floating point arithmetic of durations.

The result of an operation on floating point numbers is the nearest number of the format to the
exact result, and of two that are equally near, the one with the even last bit.  Only positive
numbers of moderate size are needed here, so a number is a rational, and there are no limits to
exponents.

A duration in nanoseconds is turned into seconds by dividing the part below a second by `10 ^ 9` and
adding the whole seconds.  When these are many, the sum has no room for nine decimals, and a
duration just below a whole second becomes that second.

* `Binary64.toNearest_mono` — rounding is monotone;
* `Binary64.seconds_eq_iff` — **when the whole seconds are right**;
* `Binary64.seconds_mono` — a longer duration has no fewer seconds.
-/

import Mathlib.Data.Int.Log
import Mathlib.Data.Rat.Floor
import Mathlib.Tactic.IntervalCases
import Mathlib.Tactic.Positivity

namespace Binary64

/-! ### The nearest integer -/

/-- The nearest integer, and of two the even one. -/
def nearest (x : ℚ) : ℤ :=
  if x - ⌊x⌋ < 1 / 2 then ⌊x⌋
  else if 1 / 2 < x - ⌊x⌋ then ⌊x⌋ + 1
  else if ⌊x⌋ % 2 = 0 then ⌊x⌋ else ⌊x⌋ + 1

theorem nearest_intCast (n : ℤ) : nearest n = n := by
  rw [nearest, Int.floor_intCast, sub_self, if_pos (by norm_num)]

theorem floor_le_nearest (x : ℚ) : ⌊x⌋ ≤ nearest x := by
  rw [nearest]
  split_ifs <;> omega

theorem nearest_le_floor_add_one (x : ℚ) : nearest x ≤ ⌊x⌋ + 1 := by
  rw [nearest]
  split_ifs <;> omega

theorem nearest_mono {x y : ℚ} (h : x ≤ y) : nearest x ≤ nearest y := by
  have hfloor := Int.floor_le_floor h
  rcases Int.lt_or_eq_of_le hfloor with hlt | heq
  · have hx := nearest_le_floor_add_one x
    have hy := floor_le_nearest y
    omega
  · rw [nearest, nearest, ← heq]
    split_ifs <;> first | omega | (exfalso; linarith)

variable {n : ℤ} {x : ℚ}

theorem le_nearest_iff (hn : n % 2 = 0) : n ≤ nearest x ↔ (n : ℚ) - 1 / 2 ≤ x := by
  have hle := Int.floor_le x
  have hlt := Int.lt_floor_add_one x
  constructor
  · intro h
    rw [nearest] at h
    split_ifs at h with h₁ h₂ h₃
    · have : (n : ℚ) ≤ ⌊x⌋ := by exact_mod_cast h
      linarith
    · have : (n : ℚ) ≤ ⌊x⌋ + 1 := by exact_mod_cast h
      linarith
    · have : (n : ℚ) ≤ ⌊x⌋ := by exact_mod_cast h
      linarith
    · have : (n : ℚ) ≤ ⌊x⌋ + 1 := by exact_mod_cast h
      linarith
  · intro h
    by_contra hlt'
    rw [not_le] at hlt'
    have hfloor : ⌊x⌋ = n - 1 := by
      have h₁ := floor_le_nearest x
      have h₂ : (n : ℚ) - 1 < ⌊x⌋ + 1 := by linarith
      have h₃ : n - 1 < ⌊x⌋ + 1 := by exact_mod_cast h₂
      omega
    rw [nearest, hfloor] at hlt'
    have hcast : ((n - 1 : ℤ) : ℚ) = n - 1 := by push_cast; ring
    rw [hcast] at hlt'
    split_ifs at hlt' with h₁ h₂ h₃
    · linarith
    · omega
    · omega
    · omega

theorem nearest_add (hn : n % 2 = 0) (x : ℚ) : nearest (n + x) = n + nearest x := by
  have hfloor : ⌊(n : ℚ) + x⌋ = n + ⌊x⌋ := Int.floor_intCast_add n x
  have hfract : (n : ℚ) + x - ((n + ⌊x⌋ : ℤ) : ℚ) = x - ⌊x⌋ := by push_cast; ring
  have heven : (n + ⌊x⌋) % 2 = ⌊x⌋ % 2 := by omega
  rw [nearest, nearest, hfloor, hfract, heven]
  split_ifs <;> omega

/-! ### The nearest number of 53 bits -/

/-- The distance of the numbers of the size of `x`. -/
def ulp (x : ℚ) : ℚ := 2 ^ (Int.log 2 x - 52)

/-- The nearest number of 53 bits to a number that is not negative. -/
def toNearest (x : ℚ) : ℚ := nearest (x / ulp x) * ulp x

theorem ulp_pos (x : ℚ) : 0 < ulp x := zpow_pos (by norm_num) _

theorem toNearest_of_eq_mul (h : x = n * ulp x) : toNearest x = x := by
  have hdiv : x / ulp x = n := by
    rw [div_eq_iff (ulp_pos x).ne']
    exact h
  rw [toNearest, hdiv, nearest_intCast, ← h]

theorem mul_ulp (x : ℚ) (e : ℤ) : (2 : ℚ) ^ e * ulp x = 2 ^ (Int.log 2 x + (e - 52)) := by
  rw [ulp, ← zpow_add₀ (by norm_num)]
  congr 1
  ring

theorem le_toNearest (h : n * ulp x ≤ x) : n * ulp x ≤ toNearest x := by
  have hulp := ulp_pos x
  have hdiv : (n : ℚ) ≤ x / ulp x := by
    rw [le_div_iff₀ hulp]
    exact h
  have hnearest := nearest_mono hdiv
  rw [nearest_intCast] at hnearest
  have hcast : (n : ℚ) ≤ nearest (x / ulp x) := by exact_mod_cast hnearest
  exact mul_le_mul_of_nonneg_right hcast hulp.le

theorem toNearest_le (h : x ≤ n * ulp x) : toNearest x ≤ n * ulp x := by
  have hulp := ulp_pos x
  have hdiv : x / ulp x ≤ (n : ℚ) := by
    rw [div_le_iff₀ hulp]
    exact h
  have hnearest := nearest_mono hdiv
  rw [nearest_intCast] at hnearest
  have hcast : (nearest (x / ulp x) : ℚ) ≤ n := by exact_mod_cast hnearest
  exact mul_le_mul_of_nonneg_right hcast hulp.le

theorem toNearest_bounds (hx : 0 < x) :
    (2 : ℚ) ^ Int.log 2 x ≤ toNearest x ∧ toNearest x ≤ (2 : ℚ) ^ (Int.log 2 x + 1) := by
  have hlow : (2 : ℚ) ^ Int.log 2 x ≤ x := by
    exact_mod_cast Int.zpow_log_le_self (b := 2) (by norm_num) hx
  have hhigh : x < (2 : ℚ) ^ (Int.log 2 x + 1) := by
    exact_mod_cast Int.lt_zpow_succ_log_self (b := 2) (by norm_num) x
  have h52 : ((2 ^ 52 : ℤ) : ℚ) * ulp x = 2 ^ Int.log 2 x := by
    have h := mul_ulp x 52
    rw [sub_self, add_zero] at h
    exact_mod_cast h
  have h53 : ((2 ^ 53 : ℤ) : ℚ) * ulp x = 2 ^ (Int.log 2 x + 1) := by
    have h := mul_ulp x 53
    norm_num at h ⊢
    exact h
  constructor
  · rw [← h52] at hlow ⊢
    exact le_toNearest hlow
  · rw [← h53] at hhigh ⊢
    exact toNearest_le hhigh.le

/-- **Rounding is monotone.** -/
theorem toNearest_mono {x y : ℚ} (hx : 0 < x) (h : x ≤ y) : toNearest x ≤ toNearest y := by
  have hlog := Int.log_mono_right (b := 2) hx h
  rcases Int.lt_or_eq_of_le hlog with hlt | heq
  · -- Numbers of different size are kept apart by a power of two.
    calc toNearest x ≤ 2 ^ (Int.log 2 x + 1) := (toNearest_bounds hx).2
      _ ≤ 2 ^ Int.log 2 y := zpow_le_zpow_right₀ (by norm_num) hlt
      _ ≤ toNearest y := (toNearest_bounds (hx.trans_le h)).1
  · have hulp : ulp x = ulp y := by rw [ulp, ulp, heq]
    have hdiv : x / ulp y ≤ y / ulp y := div_le_div_of_nonneg_right h (ulp_pos y).le
    have hcast : (nearest (x / ulp y) : ℚ) ≤ nearest (y / ulp y) := by
      exact_mod_cast nearest_mono hdiv
    rw [toNearest, toNearest, hulp]
    exact mul_le_mul_of_nonneg_right hcast (ulp_pos y).le

/-! ### Below one -/

theorem toNearest_of_half (hlow : 2 ^ 52 ≤ n) (hhigh : n < 2 ^ 53) :
    toNearest (n / 2 ^ 53) = n / 2 ^ 53 := by
  have hlow' : (2 ^ 52 : ℚ) ≤ n := by exact_mod_cast hlow
  have hhigh' : (n : ℚ) < 2 ^ 53 := by exact_mod_cast hhigh
  have hlog : Int.log 2 ((n : ℚ) / 2 ^ 53) = -1 := by
    have hpos : (0 : ℚ) < n / 2 ^ 53 := by positivity
    have h₁ : -1 ≤ Int.log 2 ((n : ℚ) / 2 ^ 53) := by
      rw [← Int.zpow_le_iff_le_log (by norm_num) hpos]
      norm_num
      linarith
    have h₂ : Int.log 2 ((n : ℚ) / 2 ^ 53) < 0 := by
      rw [← Int.lt_zpow_iff_log_lt (by norm_num) hpos]
      norm_num
      linarith
    omega
  refine toNearest_of_eq_mul (n := n) ?_
  rw [ulp, hlog]
  norm_num [zpow_neg]
  ring

theorem toNearest_zero : toNearest 0 = 0 := by
  rw [toNearest, zero_div, ← Int.cast_zero, nearest_intCast, Int.cast_zero, zero_mul]

/-! ### Seconds -/

/-- The part of a duration below a second, as a floating point number. -/
def fraction (nanoseconds : ℕ) : ℚ := toNearest (nanoseconds / 10 ^ 9)

/-- The whole seconds of a duration in nanoseconds, of the floating point number of its seconds. -/
def seconds (d : ℕ) : ℕ := ⌊toNearest ((d / 10 ^ 9 : ℕ) + fraction (d % 10 ^ 9))⌋₊

theorem fraction_mono {m n : ℕ} (h : m ≤ n) : fraction m ≤ fraction n := by
  have hcast : (m : ℚ) ≤ n := by exact_mod_cast h
  have hdiv : (m : ℚ) / 10 ^ 9 ≤ n / 10 ^ 9 := div_le_div_of_nonneg_right hcast (by norm_num)
  rcases Nat.eq_zero_or_pos m with rfl | hm
  · rw [fraction, Nat.cast_zero, zero_div, toNearest_zero, fraction]
    rcases Nat.eq_zero_or_pos n with rfl | hn
    · rw [Nat.cast_zero, zero_div, toNearest_zero]
    · have hpos : (0 : ℚ) < n / 10 ^ 9 := by positivity
      exact (zpow_pos (by norm_num) _).le.trans (toNearest_bounds hpos).1
  · exact toNearest_mono (by positivity) hdiv

theorem fraction_nonneg (n : ℕ) : 0 ≤ fraction n := by
  have h := fraction_mono (Nat.zero_le n)
  rwa [fraction, Nat.cast_zero, zero_div, toNearest_zero] at h

theorem gap {m k : ℕ} (hk : k < 32) (h : 10 ^ 9 < m * 2 ^ (53 - k)) :
    10 ^ 9 * (2 ^ k + 1) ≤ m * 2 ^ 53 := by
  interval_cases k <;> omega

theorem fraction_le {n : ℕ} {c : ℤ} (hlow : 2 ^ 52 ≤ c) (hhigh : c < 2 ^ 53)
    (h : (n : ℤ) * 2 ^ 53 ≤ c * 10 ^ 9) : fraction n ≤ c / 2 ^ 53 := by
  have hc : (2 ^ 52 : ℚ) ≤ c := by exact_mod_cast hlow
  have h' : (n : ℚ) * 2 ^ 53 ≤ c * 10 ^ 9 := by exact_mod_cast h
  rw [fraction, ← toNearest_of_half hlow hhigh]
  rcases Nat.eq_zero_or_pos n with rfl | hpos
  · rw [Nat.cast_zero, zero_div, toNearest_zero, toNearest_of_half hlow hhigh]
    positivity
  · refine toNearest_mono (by positivity) ?_
    rw [div_le_div_iff₀ (by norm_num) (by norm_num)]
    exact h'

theorem le_fraction {n : ℕ} {c : ℤ} (hlow : 2 ^ 52 ≤ c) (hhigh : c < 2 ^ 53)
    (h : c * 10 ^ 9 ≤ (n : ℤ) * 2 ^ 53) : c / 2 ^ 53 ≤ fraction n := by
  have hc : (2 ^ 52 : ℚ) ≤ c := by exact_mod_cast hlow
  have h' : c * 10 ^ 9 ≤ (n : ℚ) * 2 ^ 53 := by exact_mod_cast h
  rw [fraction, ← toNearest_of_half hlow hhigh]
  refine toNearest_mono (by positivity) ?_
  rw [div_le_div_iff₀ (by norm_num) (by norm_num)]
  exact h'

/-- **When the fraction is within half a step of one.**  The steps are those of numbers between
`2 ^ k` and `2 ^ (k + 1)`. -/
theorem le_fraction_iff {n k : ℕ} (hn : n < 10 ^ 9) (hk : k < 32) :
    ((2 ^ 53 - 2 ^ k : ℤ) : ℚ) / 2 ^ 53 ≤ fraction n ↔ (10 ^ 9 - n) * 2 ^ (53 - k) ≤ 10 ^ 9 := by
  have hpow : 2 ^ k ≤ 2 ^ 31 := Nat.pow_le_pow_right (by norm_num) (by omega)
  have hpow' : (2 : ℤ) ^ k ≤ 2 ^ 31 := by exact_mod_cast hpow
  have hpos : (0 : ℤ) < 2 ^ k := by positivity
  obtain ⟨m, hm⟩ : ∃ m : ℕ, 10 ^ 9 - n = m := ⟨_, rfl⟩
  have hn' : (n : ℤ) = 10 ^ 9 - m := by omega
  rw [hm]
  constructor
  · intro hle
    refine not_lt.1 fun hlt => ?_
    -- The fraction is at most the number of the format below.
    have hgap := gap hk hlt
    have hgap' : (10 ^ 9 * (2 ^ k + 1) : ℤ) ≤ m * 2 ^ 53 := by exact_mod_cast hgap
    have hbelow := fraction_le (n := n) (c := 2 ^ 53 - 2 ^ k - 1) (by omega) (by omega)
      (by rw [hn']; linarith)
    have hlt' := hle.trans hbelow
    rw [div_le_div_iff_of_pos_right (by norm_num)] at hlt'
    exact absurd (Int.cast_le.1 hlt') (not_le.2 (sub_one_lt _))
  · intro hle
    have hmul : m * 2 ^ 53 ≤ 10 ^ 9 * 2 ^ k := by
      calc m * 2 ^ 53 = m * 2 ^ (53 - k) * 2 ^ k := by
            rw [mul_assoc, ← pow_add, Nat.sub_add_cancel (by omega)]
        _ ≤ 10 ^ 9 * 2 ^ k := Nat.mul_le_mul_right _ hle
    have hmul' : (m * 2 ^ 53 : ℤ) ≤ 10 ^ 9 * 2 ^ k := by exact_mod_cast hmul
    exact le_fraction (by omega) (by omega) (by rw [hn']; linarith)

theorem fraction_lt_one {n : ℕ} (hn : n < 10 ^ 9) : fraction n < 1 := by
  have h := (le_fraction_iff (n := n) (k := 0) hn (by norm_num)).not.2 (by omega)
  rw [not_le] at h
  refine h.trans ?_
  norm_num

theorem floor_toNearest_fraction {n : ℕ} (hn : n < 10 ^ 9) : ⌊toNearest (fraction n)⌋₊ = 0 := by
  have h := (le_fraction_iff (n := n) (k := 0) hn (by norm_num)).not.2 (by omega)
  rw [not_le] at h
  rw [Nat.floor_eq_zero]
  rcases (fraction_nonneg n).eq_or_lt with hzero | hpos
  · rw [← hzero, toNearest_zero]
    norm_num
  · have hround := toNearest_of_half (n := 2 ^ 53 - 2 ^ 0) (by norm_num) (by norm_num)
    calc toNearest (fraction n) ≤ toNearest (((2 ^ 53 - 2 ^ 0 : ℤ) : ℚ) / 2 ^ 53) :=
          toNearest_mono hpos h.le
      _ = ((2 ^ 53 - 2 ^ 0 : ℤ) : ℚ) / 2 ^ 53 := hround
      _ < 1 := by norm_num

theorem toNearest_of_log {k : ℕ} (hlog : Int.log 2 x = k) (hk : k ≤ 52) :
    toNearest x = nearest (x * 2 ^ (52 - k)) / 2 ^ (52 - k) := by
  have hulp : ulp x = ((2 : ℚ) ^ (52 - k))⁻¹ := by
    rw [ulp, hlog, ← zpow_natCast, ← zpow_neg]
    congr 1
    omega
  rw [toNearest, hulp, div_inv_eq_mul, div_eq_mul_inv]

theorem log_add {s : ℕ} {q : ℚ} (hs : 0 < s) (hq : 0 ≤ q) (hq' : q < 1) :
    Int.log 2 ((s : ℚ) + q) = Nat.log 2 s := by
  have hpos : (0 : ℚ) < s + q := by positivity
  have hle : (s : ℚ) ≤ s + q := le_add_of_nonneg_right hq
  have hlow := Int.log_mono_right (b := 2) (by exact_mod_cast hs) hle
  rw [Int.log_natCast] at hlow
  have hhigh : Int.log 2 ((s : ℚ) + q) < Nat.log 2 s + 1 := by
    rw [← Int.lt_zpow_iff_log_lt (by norm_num) hpos]
    have hpow : ((s + 1 : ℕ) : ℚ) ≤ ((2 ^ (Nat.log 2 s + 1) : ℕ) : ℚ) := by
      exact_mod_cast Nat.lt_pow_succ_log_self (b := 2) (by norm_num) s
    push_cast at hpow ⊢
    calc (s : ℚ) + q < s + 1 := by linarith
      _ ≤ 2 ^ (Nat.log 2 s + 1) := hpow
      _ = (2 : ℚ) ^ ((Nat.log 2 s : ℤ) + 1) := by norm_cast
  omega

/-- **The whole seconds of a sum**: they are one too many if the fraction is within half a step of
one. -/
theorem floor_toNearest_add {s : ℕ} {q : ℚ} (hs : 0 < s) (hlt : s < 2 ^ 32) (hq : 0 ≤ q)
    (hq' : q < 1) :
    ⌊toNearest (s + q)⌋₊ =
      if ((2 ^ 53 - 2 ^ Nat.log 2 s : ℤ) : ℚ) / 2 ^ 53 ≤ q then s + 1 else s := by
  have hlog := log_add hs hq hq'
  have hk : Nat.log 2 s < 32 := Nat.log_lt_of_lt_pow hs.ne' hlt
  generalize Nat.log 2 s = k at hlog hk ⊢
  obtain ⟨N, hN⟩ : ∃ N : ℤ, N = 2 ^ (52 - k) := ⟨_, rfl⟩
  have hN' : (N : ℚ) = 2 ^ (52 - k) := by exact_mod_cast hN
  have hNpos : (0 : ℚ) < N := by rw [hN']; positivity
  have heven : N % 2 = 0 := by
    have hsplit : 52 - k = (51 - k) + 1 := by omega
    rw [hN, hsplit, pow_succ, Int.mul_emod_left]
  have hsum : toNearest (s + q) = s + nearest (q * N) / N := by
    have hsplit : ((s : ℚ) + q) * N = ((s * N : ℤ) : ℚ) + q * N := by push_cast; ring
    rw [toNearest_of_log hlog (by omega), ← hN', hsplit,
      nearest_add (by rw [Int.mul_emod, heven, mul_zero, Int.zero_emod])]
    push_cast
    field_simp
  -- What is added is between zero and one, and it is one if the fraction is near to it.
  have hlow : 0 ≤ nearest (q * N) := by
    have h := nearest_mono (mul_nonneg hq hNpos.le)
    rwa [← Int.cast_zero, nearest_intCast] at h
  have hhigh : nearest (q * N) ≤ N := by
    have h := nearest_mono (mul_le_of_le_one_left hNpos.le hq'.le)
    rwa [nearest_intCast] at h
  have hnear : ((2 ^ 53 - 2 ^ k : ℤ) : ℚ) / 2 ^ 53 ≤ q ↔ N ≤ nearest (q * N) := by
    have hsplit : (2 : ℚ) ^ 53 = 2 * N * 2 ^ k := by
      rw [hN', mul_assoc, ← pow_add, ← pow_succ']
      congr 1
      omega
    rw [le_nearest_iff heven]
    push_cast
    rw [hsplit, div_le_iff₀ (by positivity)]
    have hpow : (0 : ℚ) < 2 ^ k := by positivity
    constructor
    · intro h
      have h' : (2 * N - 1) * 2 ^ k ≤ q * (2 * N) * 2 ^ k := by linarith
      have h'' := le_of_mul_le_mul_right h' hpow
      linarith
    · intro h
      have h' : (2 * N - 1) * 2 ^ k ≤ q * (2 * N) * 2 ^ k :=
        mul_le_mul_of_nonneg_right (by linarith) hpow.le
      linarith
  rw [hsum]
  split
  · rename_i h
    have hone : nearest (q * N) = N := le_antisymm hhigh (hnear.1 h)
    rw [hone, div_self hNpos.ne']
    exact_mod_cast Nat.floor_natCast (s + 1)
  · rename_i h
    have hlt' : nearest (q * N) < N := not_le.1 fun hle => h (hnear.2 hle)
    have hlt'' : (nearest (q * N) : ℚ) < N := by exact_mod_cast hlt'
    have hlow' : (0 : ℚ) ≤ nearest (q * N) := by exact_mod_cast hlow
    rw [Nat.floor_eq_iff (by positivity)]
    constructor
    · exact le_add_of_nonneg_right (by positivity)
    · have hdiv : (nearest (q * N) : ℚ) / N < 1 := (div_lt_one hNpos).2 hlt''
      linarith

theorem seconds_eq {d : ℕ} (hd : d / 10 ^ 9 < 2 ^ 32) :
    seconds d = if (10 ^ 9 - d % 10 ^ 9) * 2 ^ (53 - Nat.log 2 (d / 10 ^ 9)) ≤ 10 ^ 9
      then d / 10 ^ 9 + 1 else d / 10 ^ 9 := by
  have hfraction : d % 10 ^ 9 < 10 ^ 9 := Nat.mod_lt d (by norm_num)
  rw [seconds]
  rcases Nat.eq_zero_or_pos (d / 10 ^ 9) with hzero | hpos
  · rw [hzero, Nat.cast_zero, zero_add, floor_toNearest_fraction hfraction, Nat.log_zero_right,
      if_neg (by omega)]
  · have hk : Nat.log 2 (d / 10 ^ 9) < 32 := Nat.log_lt_of_lt_pow hpos.ne' hd
    rw [floor_toNearest_add hpos hd (fraction_nonneg _) (fraction_lt_one hfraction)]
    exact if_congr (le_fraction_iff hfraction hk) rfl rfl

/-- The duration is not so near to the next second that its floating point number is that second. -/
def Exact (d : ℕ) : Prop := 10 ^ 9 < (10 ^ 9 - d % 10 ^ 9) * 2 ^ (53 - Nat.log 2 (d / 10 ^ 9))

instance : DecidablePred Exact := fun d =>
  inferInstanceAs (Decidable (10 ^ 9 < (10 ^ 9 - d % 10 ^ 9) * 2 ^ (53 - Nat.log 2 (d / 10 ^ 9))))

/-- **When the whole seconds are right.** -/
theorem seconds_eq_iff {d : ℕ} (hd : d / 10 ^ 9 < 2 ^ 32) : seconds d = d / 10 ^ 9 ↔ Exact d := by
  rw [seconds_eq hd, Exact]
  split <;> omega

/-- **A longer duration has no fewer seconds.** -/
theorem seconds_mono {d d' : ℕ} (h : d ≤ d') (hd : d' / 10 ^ 9 < 2 ^ 32) :
    seconds d ≤ seconds d' := by
  have hle := Nat.div_le_div_right (c := 10 ^ 9) h
  rw [seconds_eq (hle.trans_lt hd), seconds_eq hd]
  rcases Nat.lt_or_eq_of_le hle with hlt | heq
  · split <;> split <;> omega
  · -- Within one second, the later the nearer.
    have hmod : d % 10 ^ 9 ≤ d' % 10 ^ 9 := by omega
    rw [heq]
    split
    · rename_i hnear
      have hnear' : (10 ^ 9 - d' % 10 ^ 9) * 2 ^ (53 - Nat.log 2 (d' / 10 ^ 9)) ≤ 10 ^ 9 :=
        (Nat.mul_le_mul_right _ (Nat.sub_le_sub_left hmod _)).trans hnear
      rw [if_pos hnear']
    · split <;> omega

theorem seconds_mul {n : ℕ} (hn : n < 2 ^ 32) : seconds (n * 10 ^ 9) = n := by
  have hdiv : n * 10 ^ 9 / 10 ^ 9 = n := Nat.mul_div_cancel n (by norm_num)
  have hmod : n * 10 ^ 9 % 10 ^ 9 = 0 := Nat.mul_mod_left n _
  rw [seconds_eq (by rw [hdiv]; exact hn), hdiv, hmod, if_neg]
  have hlog : Nat.log 2 n < 53 := by
    rcases Nat.eq_zero_or_pos n with rfl | hpos
    · norm_num
    · exact Nat.log_lt_of_lt_pow hpos.ne' (hn.trans (by norm_num))
  have hpow : 2 ^ 1 ≤ 2 ^ (53 - Nat.log 2 n) := Nat.pow_le_pow_right (by norm_num) (by omega)
  omega

end Binary64
