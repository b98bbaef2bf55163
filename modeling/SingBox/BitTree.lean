/-
**Trees in bits.**

A sequence of bits describes an ordered tree, level by level: every node is a run of zeros, one for
each of its children, and a one.  The nodes are numbered in the order of their ones, and the zeros
are numbered too: the `k`-th zero leads to the node with the number `k`, the root has the number
zero.  So the parent of a node is the node in whose run its zero lies.

The bits need not come from a tree.  Still a walk that starts at the root, goes down at every zero
and back at every one comes to each zero at most once.

* `BitTree.Walked.push`, `BitTree.Walked.pop` — going down and going back;
* `BitTree.Walked.not_mem` — **no zero is gone down twice**;
* `BitTree.Walked.complete` — at the end all zeros of the reached nodes were gone down.
-/

import Mathlib.Data.Nat.Count

namespace BitTree

open List

variable (one : ℕ → Bool)

/-! ### Counting -/

/-- The number of ones before a position. -/
def rank (i : ℕ) : ℕ := Nat.count (fun j => one j) i

/-- The number of zeros before a position. -/
def zeros (i : ℕ) : ℕ := Nat.count (fun j => one j = false) i

/-- The position below `size` of the one with the number `k`. -/
def select (size k : ℕ) : Option ℕ :=
  (List.range size).find? fun j => one j && rank one j == k

variable {one}

@[simp] theorem rank_zero : rank one 0 = 0 := Nat.count_zero _

variable {p : ℕ}

theorem rank_succ_of_one (h : one p) : rank one (p + 1) = rank one p + 1 := by
  rw [rank, Nat.count_succ, if_pos h]
  rfl

theorem rank_succ_of_zero (h : one p = false) : rank one (p + 1) = rank one p := by
  rw [rank, Nat.count_succ, if_neg (by simp [h])]
  rfl

theorem zeros_succ_of_zero (h : one p = false) : zeros one (p + 1) = zeros one p + 1 := by
  rw [zeros, Nat.count_succ, if_pos h]
  rfl

theorem zeros_succ_of_one (h : one p) : zeros one (p + 1) = zeros one p := by
  rw [zeros, Nat.count_succ, if_neg (by simp [h])]
  rfl

variable {p q : ℕ}

theorem rank_mono (h : p ≤ q) : rank one p ≤ rank one q := Nat.count_monotone _ h

theorem zeros_mono (h : p ≤ q) : zeros one p ≤ zeros one q := Nat.count_monotone _ h

theorem rank_add_zeros (i : ℕ) : rank one i + zeros one i = i := by
  induction i with
  | zero => rfl
  | succ i ih =>
    cases h : one i with
    | true => rw [rank_succ_of_one h, zeros_succ_of_one h]; omega
    | false => rw [rank_succ_of_zero h, zeros_succ_of_zero h]; omega

theorem rank_congr {one' : ℕ → Bool} {n : ℕ} (h : ∀ i < n, one i = one' i) :
    rank one n = rank one' n := by
  induction n with
  | zero => rfl
  | succ n ih =>
    have hprev := ih fun i hi => h i (by omega)
    have hlast := h n (Nat.lt_succ_self n)
    cases hn : one n with
    | true => rw [rank_succ_of_one hn, rank_succ_of_one (hlast.symm.trans hn), hprev]
    | false => rw [rank_succ_of_zero hn, rank_succ_of_zero (hlast.symm.trans hn), hprev]

theorem rank_add (a b : ℕ) : rank one (a + b) = rank one a + rank (fun j => one (a + j)) b :=
  Nat.count_add _ a b

theorem rank_eq_of_le {m n : ℕ} (hmn : m ≤ n) (h : ∀ i, m ≤ i → one i = false) :
    rank one n = rank one m := by
  induction n, hmn using Nat.le_induction with
  | base => rfl
  | succ n hn ih => rw [rank_succ_of_zero (h n hn), ih]

theorem zero_injective (hp : one p = false) (hq : one q = false)
    (h : zeros one p = zeros one q) : p = q :=
  Nat.count_injective hp hq h

theorem one_injective (hp : one p) (hq : one q) (h : rank one p = rank one q) : p = q :=
  Nat.count_injective hp hq h

theorem select_eq_some {size k p : ℕ} :
    select one size k = some p ↔ p < size ∧ one p ∧ rank one p = k := by
  unfold select
  rw [find?_range_eq_some, mem_range]
  constructor
  · rintro ⟨hp, hlt, -⟩
    rw [Bool.and_eq_true, beq_iff_eq] at hp
    exact ⟨hlt, hp⟩
  · rintro ⟨hlt, hone, hrank⟩
    refine ⟨by simp [hone, hrank], hlt, fun j hj => ?_⟩
    rw [Bool.not_eq_true', Bool.and_eq_false_iff, beq_eq_false_iff_ne]
    by_contra hboth
    push Not at hboth
    obtain ⟨hjone, hjrank⟩ := hboth
    rw [Bool.ne_false_iff] at hjone
    have := one_injective hjone hone (hjrank.trans hrank.symm)
    omega

theorem exists_select {size k : ℕ} (h : k < rank one size) : ∃ p, select one size k = some p := by
  induction size with
  | zero => simp at h
  | succ size ih =>
    by_cases hk : k < rank one size
    · obtain ⟨p, hp⟩ := ih hk
      obtain ⟨hlt, hrest⟩ := select_eq_some.1 hp
      exact ⟨p, select_eq_some.2 ⟨by omega, hrest⟩⟩
    · cases hone : one size with
      | false =>
        rw [rank_succ_of_zero hone] at h
        exact absurd h hk
      | true =>
        rw [rank_succ_of_one hone] at h
        exact ⟨size, select_eq_some.2 ⟨by omega, hone, by omega⟩⟩

theorem lt_of_rank_lt {p size : ℕ} (h : rank one p < rank one size) : p < size := by
  by_contra hle
  have hmono : rank one size ≤ rank one p := rank_mono (not_lt.1 hle)
  omega

theorem lt_of_same_run (hp : one p) (h : rank one q = rank one p) (hne : q ≠ p) : q < p := by
  by_contra hle
  have hlt : p + 1 ≤ q := by omega
  have hmono : rank one (p + 1) ≤ rank one q := rank_mono hlt
  rw [rank_succ_of_one hp] at hmono
  omega

/-! ### The walk -/

variable (one)

/-- The nodes that are reached from the root: a node is reached by the zero that leads to it, from
the node in whose run this zero lies. -/
inductive Reached : ℕ → Prop where
  | root : Reached 0
  | down {p : ℕ} (zero : one p = false) (parent : Reached (rank one p)) :
      Reached (zeros one p + 1)

/-- The node was entered: it is the root, or the zero that leads to it was gone down. -/
def Entered (visited : List ℕ) (n : ℕ) : Prop := n = 0 ∨ ∃ q ∈ visited, zeros one q + 1 = n

/-- The frames below the top stand at a zero that was gone down. -/
def Below (visited : List ℕ) (frames : List (ℕ × ℕ)) : Prop :=
  ∀ f ∈ frames, rank one f.2 = f.1 ∧ one f.2 = false ∧ f.2 ∈ visited ∧
    (∀ q ∈ visited, rank one q = f.1 → q ≤ f.2) ∧
    ∀ q, one q = false → rank one q = f.1 → q < f.2 → q ∈ visited

/-- The frame on the top stands in the run of its node, and the zeros of the run that were gone down
are those before it. -/
def Top (visited : List ℕ) (f : ℕ × ℕ) : Prop :=
  rank one f.2 = f.1 ∧ (∀ q ∈ visited, rank one q = f.1 → q < f.2) ∧
    ∀ q, one q = false → rank one q = f.1 → q < f.2 → q ∈ visited

/-- **The invariant of the walk**: the zeros that were gone down are different and lie in nodes that
were entered, the nodes on the stack are different and were entered, and a node that was entered and
is not on the stack is finished. -/
structure Walked (stack : List (ℕ × ℕ)) (visited : List ℕ) : Prop where
  nodup : visited.Nodup
  visitedZero : ∀ q ∈ visited, one q = false
  visitedEntered : ∀ q ∈ visited, Entered one visited (rank one q)
  stackNodup : (stack.map Prod.fst).Nodup
  stackEntered : ∀ f ∈ stack, Entered one visited f.1
  top : ∀ f ∈ stack.head?, Top one visited f
  below : Below one visited stack.tail
  finished : ∀ n, Entered one visited n → n ∉ stack.map Prod.fst →
    ∀ q, one q = false → rank one q = n → q ∈ visited

variable {one} {visited : List ℕ}

theorem Entered.mono {n : ℕ} (h : Entered one visited n) (p : ℕ) :
    Entered one (p :: visited) n := by
  rcases h with h | ⟨q, hq, h⟩
  · exact .inl h
  · exact .inr ⟨q, mem_cons_of_mem _ hq, h⟩

theorem walked_initial : Walked one [(0, 0)] [] where
  nodup := List.nodup_nil
  visitedZero := by simp
  visitedEntered := by simp
  stackNodup := by simp
  stackEntered := by
    intro f hf
    rw [List.mem_singleton.1 hf]
    exact .inl rfl
  top := by
    intro f hf
    obtain rfl : (0, 0) = f := Option.some.inj hf
    exact ⟨rank_zero, by simp, fun q _ _ hq => absurd hq (Nat.not_lt_zero q)⟩
  below := by simp [Below]
  finished := by
    rintro n (rfl | ⟨q, hq, -⟩) hn
    · simp at hn
    · simp at hq

variable {rest : List (ℕ × ℕ)}

/-- **No zero is gone down twice.** -/
theorem Walked.not_mem {n p : ℕ} (h : Walked one ((n, p) :: rest) visited) : p ∉ visited := by
  intro hmem
  obtain ⟨hrank, hbefore, -⟩ := h.top (n, p) rfl
  exact absurd (hbefore p hmem hrank) (lt_irrefl p)

theorem Walked.not_entered {n p : ℕ}
    (h : Walked one ((n, p) :: rest) visited) (hzero : one p = false) :
    ¬Entered one visited (zeros one p + 1) := by
  rintro (hroot | ⟨q, hq, hsame⟩)
  · omega
  · have hqp := zero_injective (h.visitedZero q hq) hzero (Nat.succ.inj hsame)
    exact h.not_mem (hqp ▸ hq)

theorem Below.mono {frames : List (ℕ × ℕ)} (h : Below one visited frames)
    (hp : ∀ f ∈ frames, f.1 ≠ rank one p) : Below one (p :: visited) frames := by
  intro f hf
  obtain ⟨hrank, hzero, hmem, hbefore, hall⟩ := h f hf
  refine ⟨hrank, hzero, mem_cons_of_mem _ hmem, fun q hq hqrank => ?_,
    fun q hq hqrank hlt => mem_cons_of_mem _ (hall q hq hqrank hlt)⟩
  rcases List.mem_cons.1 hq with rfl | hq
  · exact absurd hqrank.symm (hp f hf)
  · exact hbefore q hq hqrank

theorem Top.below {n p : ℕ} (h : Top one visited (n, p))
    (hzero : one p = false) : Below one (p :: visited) [(n, p)] := by
  obtain ⟨hrank, hbefore, hall⟩ := h
  intro f hf
  obtain rfl := List.mem_singleton.1 hf
  refine ⟨hrank, hzero, mem_cons_self, fun q hq hqrank => ?_, fun q hq hqrank hlt => ?_⟩
  · rcases List.mem_cons.1 hq with rfl | hq
    · exact le_rfl
    · exact (hbefore q hq hqrank).le
  · exact mem_cons_of_mem _ (hall q hq hqrank hlt)

theorem top_of_not_entered {n a : ℕ} (hone : one a)
    (ha : rank one a + 1 = n) (hvisited : ∀ q ∈ visited, rank one q ≠ n) :
    Top one visited (n, a + 1) := by
  refine ⟨by rw [rank_succ_of_one hone, ha], fun q hq hqrank => ?_, fun q _ hqrank hlt => ?_⟩
  · exact absurd hqrank (hvisited q hq)
  · have hle : rank one q ≤ rank one a := rank_mono (Nat.le_of_lt_succ hlt)
    dsimp only at hqrank
    omega

theorem Walked.push {n p a : ℕ} (h : Walked one ((n, p) :: rest) visited) (hzero : one p = false)
    (hone : one a) (ha : rank one a = zeros one p) :
    Walked one ((zeros one p + 1, a + 1) :: (n, p) :: rest) (p :: visited) := by
  have htop := h.top (n, p) rfl
  have hrank : rank one p = n := htop.1
  have hnew := h.not_entered hzero
  have hstack : zeros one p + 1 ∉ ((n, p) :: rest).map Prod.fst := by
    intro hmem
    obtain ⟨f, hf, hfst⟩ := List.mem_map.1 hmem
    exact hnew (hfst ▸ h.stackEntered f hf)
  have hn : Entered one visited n := h.stackEntered (n, p) mem_cons_self
  have hdistinct : ∀ f ∈ rest, f.1 ≠ rank one p := by
    intro f hf hfn
    have hnodup := h.stackNodup
    rw [map_cons, nodup_cons] at hnodup
    exact hnodup.1 (List.mem_map.2 ⟨f, hf, hfn.trans hrank⟩)
  -- nothing in the run of a node that was not entered was gone down
  have hfresh : ∀ q ∈ p :: visited, rank one q ≠ zeros one p + 1 := by
    intro q hq hqrank
    rcases List.mem_cons.1 hq with rfl | hq
    · exact hnew (hqrank ▸ hrank ▸ hn)
    · exact hnew (hqrank ▸ h.visitedEntered q hq)
  refine ⟨List.nodup_cons.2 ⟨h.not_mem, h.nodup⟩, ?_, ?_, List.nodup_cons.2 ⟨hstack, h.stackNodup⟩,
    ?_, ?_, ?_, ?_⟩
  · intro q hq
    rcases List.mem_cons.1 hq with rfl | hq
    · exact hzero
    · exact h.visitedZero q hq
  · intro q hq
    rcases List.mem_cons.1 hq with rfl | hq
    · exact hrank ▸ hn.mono q
    · exact (h.visitedEntered q hq).mono p
  · intro f hf
    rcases List.mem_cons.1 hf with rfl | hf
    · exact .inr ⟨p, mem_cons_self, rfl⟩
    · exact (h.stackEntered f hf).mono p
  · intro f hf
    obtain rfl : (zeros one p + 1, a + 1) = f := Option.some.inj hf
    exact top_of_not_entered hone (by rw [ha]) hfresh
  · intro f hf
    rcases List.mem_cons.1 hf with rfl | hf
    · exact htop.below hzero _ (mem_singleton_self _)
    · exact h.below.mono hdistinct f hf
  · intro k hk hnotMem q hq hqrank
    rw [map_cons, mem_cons, not_or] at hnotMem
    refine mem_cons_of_mem _ (h.finished k ?_ hnotMem.2 q hq hqrank)
    rcases hk with rfl | ⟨r, hr, hrk⟩
    · exact .inl rfl
    · rcases List.mem_cons.1 hr with rfl | hr
      · exact absurd hrk.symm hnotMem.1
      · exact .inr ⟨r, hr, hrk⟩

theorem Walked.finished_top {n p : ℕ} (h : Walked one ((n, p) :: rest) visited)
    (hone : one p) {q : ℕ} (hq : one q = false) (hqrank : rank one q = n) : q ∈ visited := by
  obtain ⟨hrank, -, hall⟩ := h.top (n, p) rfl
  refine hall q hq hqrank (lt_of_same_run hone (hqrank.trans hrank.symm) ?_)
  rintro rfl
  rw [hone] at hq
  cases hq

theorem Walked.pop {n p n' p' : ℕ}
    (h : Walked one ((n, p) :: (n', p') :: rest) visited) (hone : one p) :
    Walked one ((n', p' + 1) :: rest) visited := by
  obtain ⟨hrank, hzero, hmem, hbefore, hall⟩ := h.below (n', p') mem_cons_self
  have hnodup := h.stackNodup
  rw [map_cons, nodup_cons] at hnodup
  refine ⟨h.nodup, h.visitedZero, h.visitedEntered, hnodup.2, ?_, ?_, ?_, ?_⟩
  · intro f hf
    rcases List.mem_cons.1 hf with rfl | hf
    · exact h.stackEntered (n', p') (by simp)
    · exact h.stackEntered f (by simp [hf])
  · intro f hf
    obtain rfl : (n', p' + 1) = f := Option.some.inj hf
    refine ⟨by rw [rank_succ_of_zero hzero, hrank], fun q hq hqrank => ?_,
      fun q hq hqrank hlt => ?_⟩
    · exact Nat.lt_succ_of_le (hbefore q hq hqrank)
    · rcases Nat.lt_succ_iff_lt_or_eq.1 hlt with hlt | rfl
      · exact hall q hq hqrank hlt
      · exact hmem
  · intro f hf
    exact h.below f (mem_cons_of_mem _ hf)
  · intro k hk hnotMem q hq hqrank
    by_cases hkn : k = n
    · exact h.finished_top hone hq (hqrank.trans hkn)
    · refine h.finished k hk ?_ q hq hqrank
      rw [map_cons, mem_cons, not_or]
      exact ⟨hkn, hnotMem⟩

theorem Walked.finish {n p : ℕ} (h : Walked one [(n, p)] visited)
    (hone : one p) : Walked one [] visited := by
  refine ⟨h.nodup, h.visitedZero, h.visitedEntered, by simp, by simp, by simp, by simp [Below],
    fun k hk _ q hq hqrank => ?_⟩
  by_cases hkn : k = n
  · exact h.finished_top hone hq (hqrank.trans hkn)
  · exact h.finished k hk (by simpa using hkn) q hq hqrank

/-- **At the end all zeros of the reached nodes were gone down.** -/
theorem Walked.complete (h : Walked one [] visited) {n : ℕ}
    (hn : Reached one n) {q : ℕ} (hq : one q = false) (hqrank : rank one q = n) : q ∈ visited := by
  have hentered : Entered one visited n := by
    induction hn generalizing q with
    | root => exact .inl rfl
    | @down p hp _ ih =>
      have hentered := ih hp rfl
      exact .inr ⟨p, h.finished _ hentered (by simp) p hp rfl, rfl⟩
  exact h.finished n hentered (by simp) q hq hqrank

theorem length_filter_range (size : ℕ) :
    ((List.range size).filter fun j => one j = false).length = zeros one size := by
  induction size with
  | zero => rfl
  | succ size ih =>
    rw [range_succ, filter_append, length_append, ih]
    cases h : one size with
    | true => rw [zeros_succ_of_one h]; simp [h]
    | false => rw [zeros_succ_of_zero h]; simp [h]

theorem Walked.length_le {stack : List (ℕ × ℕ)} {size : ℕ}
    (h : Walked one stack visited) (hsize : ∀ q ∈ visited, q < size) :
    visited.length ≤ zeros one size := by
  have hsubset : visited ⊆ (List.range size).filter fun j => one j = false := by
    intro q hq
    rw [mem_filter, mem_range]
    exact ⟨hsize q hq, by simpa using h.visitedZero q hq⟩
  rw [← length_filter_range size]
  exact (h.nodup.subperm hsubset).length_le

end BitTree
