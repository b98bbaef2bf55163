/-
**Binary heaps in a list**, as Go's package `container/heap` keeps them in a slice.

The element at index `i` has its children at `2 * i + 1` and `2 * i + 2`.  A new element is appended
and moved up while it is smaller than its parent; to take out the first element it is exchanged with
the last one, which is then moved down.  Elements are compared by a key.

* `BinaryHeap.ordered_up`, `BinaryHeap.ordered_down` — moving an element restores the order;
* `BinaryHeap.perm_push` — pushing adds one element;
* `BinaryHeap.pop_eq_some` — **popping takes out one element, of the smallest key**.
-/

import Mathlib.Order.WithBot
import Mathlib.Data.List.Perm.Basic

variable {α κ : Type} [LinearOrder κ] (key : α → κ)

namespace BinaryHeap

open List

/-! ### Lists as arrays -/

/-- `Less`: the element at `i` has a smaller key than the one at `j`. -/
def lessAt (l : List α) (i j : ℕ) : Bool :=
  match l[i]?, l[j]? with
  | some x, some y => decide (key x < key y)
  | _, _ => false

/-- `Swap`. -/
def swap (l : List α) (i j : ℕ) : List α :=
  match l[i]?, l[j]? with
  | some x, some y => (l.set i y).set j x
  | _, _ => l

/-- The key at an index, which is larger than all keys outside of the list. -/
def keyAt (l : List α) (i : ℕ) : WithTop κ :=
  match l[i]? with
  | some x => (key x : WithTop κ)
  | none => ⊤

section

variable {l : List α} {i j : ℕ}

@[simp] theorem length_swap : (swap l i j).length = l.length := by
  rw [swap]
  split <;> simp

theorem swap_perm : (swap l i j).Perm l := by
  rw [swap]
  split
  case h_1 x y hx hy =>
    obtain ⟨hi, rfl⟩ := List.getElem?_eq_some_iff.1 hx
    obtain ⟨hj, rfl⟩ := List.getElem?_eq_some_iff.1 hy
    exact set_set_perm hi hj
  case h_2 => rfl

theorem getElem?_swap (hi : i < l.length) (hj : j < l.length) (k : ℕ) :
    (swap l i j)[k]? = if k = j then l[i]? else if k = i then l[j]? else l[k]? := by
  rw [swap, getElem?_eq_getElem hi, getElem?_eq_getElem hj]
  simp only [getElem?_set, length_set]
  by_cases hkj : k = j
  · simp [hkj, hj]
  · by_cases hki : k = i
    · subst hki
      simp [hkj, Ne.symm hkj, hi]
    · simp [hkj, hki, Ne.symm hkj, Ne.symm hki]

omit [LinearOrder κ] in
theorem keyAt_swap (hi : i < l.length) (hj : j < l.length) (k : ℕ) :
    keyAt key (swap l i j) k =
      if k = j then keyAt key l i else if k = i then keyAt key l j else keyAt key l k := by
  rw [keyAt, getElem?_swap hi hj]
  by_cases hkj : k = j
  · rw [if_pos hkj, if_pos hkj, keyAt]
  · rw [if_neg hkj, if_neg hkj]
    by_cases hki : k = i
    · rw [if_pos hki, if_pos hki, keyAt]
    · rw [if_neg hki, if_neg hki, keyAt]

theorem lessAt_iff (hi : i < l.length) (hj : j < l.length) :
    lessAt key l i j = true ↔ keyAt key l i < keyAt key l j := by
  simp only [lessAt, keyAt, getElem?_eq_getElem hi, getElem?_eq_getElem hj,
    decide_eq_true_eq, WithTop.coe_lt_coe]

end

/-! ### The order -/

/-- None of the first `n` elements is smaller than its parent. -/
def Ordered (n : ℕ) (l : List α) : Prop :=
  ∀ k, 0 < k → k < n → keyAt key l ((k - 1) / 2) ≤ keyAt key l k

variable {l : List α}

theorem Ordered.keyAt_zero_le {n : ℕ} (h : Ordered key n l) :
    ∀ k, k < n → keyAt key l 0 ≤ keyAt key l k := by
  intro k
  induction k using Nat.strong_induction_on with
  | _ k ih =>
    intro hk
    rcases Nat.eq_zero_or_pos k with rfl | hpos
    · exact le_rfl
    · exact (ih ((k - 1) / 2) (by omega) (by omega)).trans (h k hpos hk)

/-! ### Moving up -/

/-- `up`: the element at `j` moves up while it is smaller than its parent. -/
def up : ℕ → List α → ℕ → List α
  | 0, l, _ => l
  | fuel + 1, l, j =>
    if (j - 1) / 2 = j ∨ lessAt key l j ((j - 1) / 2) = false then l
    else up fuel (swap l ((j - 1) / 2) j) ((j - 1) / 2)

theorem up_perm (fuel : ℕ) (l : List α) (j : ℕ) : (up key fuel l j).Perm l := by
  induction fuel generalizing l j with
  | zero => rfl
  | succ fuel ih =>
    rw [up]
    split
    · rfl
    · exact (ih _ _).trans swap_perm

/-- The order except between `j` and its parent. -/
structure OrderedAbove (n : ℕ) (l : List α) (j : ℕ) : Prop where
  except : ∀ k, 0 < k → k < n → k ≠ j → keyAt key l ((k - 1) / 2) ≤ keyAt key l k
  grand : ∀ k, 0 < k → k < n → (k - 1) / 2 = j → 0 < j →
    keyAt key l ((j - 1) / 2) ≤ keyAt key l k

theorem OrderedAbove.swap {j : ℕ} (h : OrderedAbove key l.length l j)
    (hj : j < l.length) (hpos : 0 < j) (hless : keyAt key l j < keyAt key l ((j - 1) / 2)) :
    OrderedAbove key l.length (swap l ((j - 1) / 2) j) ((j - 1) / 2) := by
  have hi : (j - 1) / 2 < l.length := by omega
  have hkey := keyAt_swap key hi hj
  constructor
  · intro k hk hn hki
    rw [hkey, hkey]
    by_cases hkj : k = j
    · subst hkj
      rw [if_neg (Nat.ne_of_lt (by omega)), if_pos rfl, if_pos rfl]
      exact hless.le
    · rw [if_neg hkj, if_neg hki]
      have hparent := h.except k hk hn hkj
      split
      · rename_i hp
        exact h.grand k hk hn hp hpos
      · split
        · rename_i hp
          exact hless.le.trans (hp ▸ hparent)
        · exact hparent
  · intro k hk hn hp hposi
    rw [hkey, hkey, if_neg (by omega), if_neg (by omega)]
    have hgrand := h.except ((j - 1) / 2) hposi hi (by omega)
    split
    · exact hgrand
    · rename_i hkj
      rw [if_neg (by omega)]
      have hparent := h.except k hk hn hkj
      rw [hp] at hparent
      exact hgrand.trans hparent

/-- **Moving up restores the order.** -/
theorem ordered_up {fuel : ℕ} {j : ℕ} (hfuel : j < fuel) (hj : j < l.length)
    (h : OrderedAbove key l.length l j) : Ordered key l.length (up key fuel l j) := by
  induction fuel generalizing l j with
  | zero => omega
  | succ fuel ih =>
    have hi : (j - 1) / 2 < l.length := by omega
    rw [up]
    split
    · rename_i hstop
      intro k hk hn
      by_cases hkj : k = j
      · subst hkj
        rcases hstop with hstop | hstop
        · omega
        · rw [← Bool.not_eq_true, lessAt_iff key hj hi, not_lt] at hstop
          exact hstop
      · exact h.except k hk hn hkj
    · rename_i hmove
      rw [not_or, Bool.not_eq_false, lessAt_iff key hj hi] at hmove
      have hlen := length_swap (l := l) (i := (j - 1) / 2) (j := j)
      have hrest := ih (l := BinaryHeap.swap l ((j - 1) / 2) j) (j := (j - 1) / 2) (by omega)
        (by omega) (hlen ▸ h.swap key hj (by omega) hmove.2)
      rwa [hlen] at hrest

/-! ### Moving down -/

/-- The smaller child of `i` among the first `n` elements. -/
def smallerChild (l : List α) (i n : ℕ) : ℕ :=
  if 2 * i + 1 + 1 < n ∧ lessAt key l (2 * i + 1 + 1) (2 * i + 1) = true then 2 * i + 1 + 1
  else 2 * i + 1

/-- `down`: the element at `i` moves down while a child of it is smaller. -/
def down : ℕ → List α → ℕ → ℕ → List α
  | 0, l, _, _ => l
  | fuel + 1, l, i, n =>
    if n ≤ 2 * i + 1 then l
    else if lessAt key l (smallerChild key l i n) i = false then l
    else down fuel (swap l i (smallerChild key l i n)) (smallerChild key l i n) n

theorem down_perm (fuel : ℕ) (l : List α) (i n : ℕ) : (down key fuel l i n).Perm l := by
  induction fuel generalizing l i with
  | zero => rfl
  | succ fuel ih =>
    rw [down]
    split
    · rfl
    · split
      · rfl
      · exact (ih _ _).trans swap_perm

theorem smallerChild_spec {i n : ℕ} (hn : n ≤ l.length) (hi : 2 * i + 1 < n) :
    (smallerChild key l i n - 1) / 2 = i ∧ 0 < smallerChild key l i n ∧
      smallerChild key l i n < n ∧ ∀ k, 0 < k → k < n → (k - 1) / 2 = i →
        keyAt key l (smallerChild key l i n) ≤ keyAt key l k := by
  rw [smallerChild]
  split
  · rename_i hright
    rw [lessAt_iff key (by omega) (by omega)] at hright
    refine ⟨by omega, by omega, by omega, fun k hk hkn hp => ?_⟩
    rcases (by omega : k = 2 * i + 1 ∨ k = 2 * i + 1 + 1) with rfl | rfl
    · exact hright.2.le
    · exact le_rfl
  · rename_i hleft
    refine ⟨by omega, by omega, hi, fun k hk hkn hp => ?_⟩
    rcases (by omega : k = 2 * i + 1 ∨ k = 2 * i + 1 + 1) with rfl | rfl
    · exact le_rfl
    · by_contra hlt
      rw [not_le] at hlt
      exact hleft ⟨hkn, (lessAt_iff key (by omega) (by omega)).2 hlt⟩

/-- The order except between `i` and its children. -/
structure OrderedBelow (n : ℕ) (l : List α) (i : ℕ) : Prop where
  except : ∀ k, 0 < k → k < n → (k - 1) / 2 ≠ i → keyAt key l ((k - 1) / 2) ≤ keyAt key l k
  grand : ∀ k, 0 < k → k < n → (k - 1) / 2 = i → 0 < i →
    keyAt key l ((i - 1) / 2) ≤ keyAt key l k

theorem OrderedBelow.swap {i j n : ℕ} (h : OrderedBelow key n l i)
    (hn : n ≤ l.length) (hj : j < n) (hpos : 0 < j) (hparent : (j - 1) / 2 = i)
    (hmin : ∀ k, 0 < k → k < n → (k - 1) / 2 = i → keyAt key l j ≤ keyAt key l k)
    (hless : keyAt key l j < keyAt key l i) : OrderedBelow key n (swap l i j) j := by
  have hkey := keyAt_swap key (l := l) (i := i) (j := j) (by omega) (by omega)
  constructor
  · intro k hk hkn hp
    rw [hkey, hkey, if_neg hp]
    by_cases hkj : k = j
    · subst hkj
      rw [if_pos hparent, if_pos rfl]
      exact hless.le
    · rw [if_neg hkj]
      by_cases hki : k = i
      · subst hki
        rw [if_neg (by omega), if_pos rfl]
        exact h.grand j hpos hj hparent hk
      · rw [if_neg hki]
        split
        · rename_i hpi
          exact hmin k hk hkn hpi
        · rename_i hpi
          exact h.except k hk hkn hpi
  · intro k hk hkn hp _
    rw [hkey, hkey, hparent, if_neg (by omega), if_pos rfl, if_neg (by omega), if_neg (by omega)]
    have hchild := h.except k hk hkn (by omega)
    rwa [hp] at hchild

/-- **Moving down restores the order.** -/
theorem ordered_down {fuel : ℕ} {i n : ℕ} (hfuel : n ≤ i + fuel)
    (hn : n ≤ l.length) (h : OrderedBelow key n l i) : Ordered key n (down key fuel l i n) := by
  induction fuel generalizing l i with
  | zero => exact fun k hk hkn => h.except k hk hkn (by omega)
  | succ fuel ih =>
    rw [down]
    split
    · rename_i hleaf
      intro k hk hkn
      exact h.except k hk hkn (by omega)
    · rename_i hchild
      obtain ⟨hparent, hpos, hj, hmin⟩ := smallerChild_spec key hn (by omega : 2 * i + 1 < n)
      split
      · rename_i hstop
        rw [← Bool.not_eq_true, lessAt_iff key (by omega) (by omega), not_lt] at hstop
        intro k hk hkn
        by_cases hp : (k - 1) / 2 = i
        · rw [hp]
          exact hstop.trans (hmin k hk hkn hp)
        · exact h.except k hk hkn hp
      · rename_i hmove
        rw [Bool.not_eq_false, lessAt_iff key (by omega) (by omega)] at hmove
        refine ih (by omega) ?_ (h.swap key hn hj hpos hparent hmin hmove)
        rwa [length_swap]

theorem getElem?_down {fuel : ℕ} {i n k : ℕ} (hn : n ≤ l.length)
    (hk : n ≤ k) : (down key fuel l i n)[k]? = l[k]? := by
  induction fuel generalizing l i with
  | zero => rfl
  | succ fuel ih =>
    rw [down]
    split
    · rfl
    · obtain ⟨-, -, hj, -⟩ := smallerChild_spec key hn (by omega : 2 * i + 1 < n)
      split
      · rfl
      · rw [ih (by rwa [length_swap]), getElem?_swap (by omega) (by omega),
          if_neg (by omega), if_neg (by omega)]

end BinaryHeap

/-! ### Heaps -/

/-- A heap: the elements in the order of the slice, none of them smaller than its parent. -/
structure BinaryHeap where
  items : List α
  ordered : BinaryHeap.Ordered key items.length items

namespace BinaryHeap

open List

variable {key}

/-- The empty heap. -/
def empty : BinaryHeap key where
  items := []
  ordered := by
    intro k _ hk
    cases hk

variable (h : BinaryHeap key)

theorem orderedAbove_append (x : α) :
    OrderedAbove key (h.items ++ [x]).length (h.items ++ [x]) h.items.length := by
  have hkey : ∀ k, k < h.items.length → keyAt key (h.items ++ [x]) k = keyAt key h.items k := by
    intro k hk
    rw [keyAt, keyAt, getElem?_append_left hk]
  rw [length_append, length_singleton]
  constructor
  · intro k hk hn hne
    rw [hkey k (by omega), hkey _ (by omega)]
    exact h.ordered k hk (by omega)
  · intro k hk hn hp _
    omega

/-- `heap.Push`. -/
def push (h : BinaryHeap key) (x : α) : BinaryHeap key where
  items := up key (h.items.length + 1) (h.items ++ [x]) h.items.length
  ordered := by
    have hup := ordered_up key (Nat.lt_succ_self h.items.length) (by simp)
      (orderedAbove_append h x)
    rwa [(up_perm key _ _ _).length_eq]

/-- **Pushing adds one element.** -/
theorem perm_push (x : α) : (h.push x).items.Perm (x :: h.items) :=
  (up_perm key _ _ _).trans (perm_append_singleton x h.items)

variable (key) in
/-- The slice after the first element was exchanged with the last and that one moved down. -/
def popped (l : List α) : List α :=
  down key l.length (swap l 0 (l.length - 1)) 0 (l.length - 1)

variable (key) in
theorem popped_perm (l : List α) : (popped key l).Perm l := (down_perm key _ _ _ _).trans swap_perm

theorem ordered_popped : Ordered key (h.items.length - 1) (popped key h.items) := by
  refine ordered_down key (by omega) (by rw [length_swap]; omega) ?_
  rcases Nat.eq_zero_or_pos h.items.length with hzero | hpos
  · constructor <;>
    · intro k _ hk
      omega
  · have hkey := keyAt_swap key hpos (Nat.sub_lt hpos Nat.one_pos)
    constructor
    · intro k hk hn hp
      rw [hkey, hkey, if_neg (by omega), if_neg hp, if_neg (by omega), if_neg (by omega)]
      exact h.ordered k hk (by omega)
    · intro k hk hn hp hzero
      omega

theorem getLast?_popped (l : List α) : (popped key l).getLast? = l[0]? := by
  rw [getLast?_eq_getElem?, (popped_perm key l).length_eq, popped,
    getElem?_down key (by rw [length_swap]; omega) le_rfl]
  cases l with
  | nil => rfl
  | cons x l => rw [getElem?_swap (by simp) (by simp), if_pos rfl]

/-- `heap.Pop`, or nothing if the heap is empty. -/
def pop (h : BinaryHeap key) : Option (α × BinaryHeap key) :=
  (popped key h.items).getLast?.map fun x =>
    (x, { items := (popped key h.items).dropLast
          ordered := by
            have hlen := (popped_perm key h.items).length_eq
            have hkey : ∀ k, k < h.items.length - 1 →
                keyAt key (popped key h.items).dropLast k = keyAt key (popped key h.items) k := by
              intro k hk
              rw [keyAt, keyAt, List.getElem?_dropLast, hlen, if_pos hk]
            rw [List.length_dropLast, hlen]
            intro k hk hn
            rw [hkey k hn, hkey _ (by omega)]
            exact ordered_popped h k hk hn })

/-- **Popping takes out one element, of the smallest key.** -/
theorem pop_eq_some {h rest : BinaryHeap key} {x : α} (hpop : h.pop = some (x, rest)) :
    h.items.Perm (x :: rest.items) ∧ ∀ y ∈ rest.items, key x ≤ key y := by
  obtain ⟨z, hlast, heq⟩ := Option.map_eq_some_iff.1 hpop
  obtain ⟨rfl, rfl⟩ := Prod.mk.inj heq
  have hperm : h.items.Perm (z :: (popped key h.items).dropLast) := by
    refine (popped_perm key h.items).symm.trans ?_
    rw [← dropLast_append_getLast? z hlast, dropLast_concat]
    exact perm_append_singleton z _
  refine ⟨hperm, fun y hy => ?_⟩
  rw [getLast?_popped] at hlast
  obtain ⟨k, hk⟩ := List.mem_iff_getElem?.1 (hperm.symm.subset (mem_cons_of_mem _ hy))
  have hmin := Ordered.keyAt_zero_le key h.ordered k (List.getElem?_eq_some_iff.1 hk).1
  rw [keyAt, keyAt, hlast, hk] at hmin
  exact WithTop.coe_le_coe.1 hmin

end BinaryHeap
