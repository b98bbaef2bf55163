/-
**Trees of leaves under nested connectives.**

A tree is a leaf, or a node with a mode, an inversion flag and a list of subtrees.  The recursion
through the list makes Lean's own induction principle awkward, so it is set up here once.

* `LogicalTree.induction` — induction in which a node may assume the claim for every subtree;
* `LogicalTree.all_logical` — the leaves of a node are those of its subtrees.
-/

import Mathlib.Data.List.Basic

/-- A leaf, or a node that combines subtrees. -/
inductive LogicalTree (μ δ : Type) where
  | default (r : δ)
  | logical (mode : μ) (invert : Bool) (rules : List (LogicalTree μ δ))

namespace LogicalTree

open List

variable {μ δ : Type}

/-- Induction on a tree: a node may assume the claim for each of its subtrees. -/
@[elab_as_elim, induction_eliminator]
theorem induction {P : LogicalTree μ δ → Prop} (default : ∀ r, P (.default r))
    (logical : ∀ mode invert rules, (∀ t ∈ rules, P t) → P (.logical mode invert rules))
    (t : LogicalTree μ δ) : P t :=
  @LogicalTree.rec μ δ P (fun l => ∀ t ∈ l, P t) default logical
    (fun _ h => absurd h not_mem_nil)
    (fun _ _ hh ht t h => (List.mem_cons.1 h).elim (fun e => e ▸ hh) (ht t)) t

mutual

/-- The leaves of a tree, from left to right. -/
def leaves : LogicalTree μ δ → List δ
  | .default r => [r]
  | .logical _ _ rules => leavesOf rules

/-- The leaves of a list of trees. -/
def leavesOf : List (LogicalTree μ δ) → List δ
  | [] => []
  | t :: ts => leaves t ++ leavesOf ts

end

variable {l : List (LogicalTree μ δ)}

theorem mem_leavesOf {r : δ} : r ∈ leavesOf l ↔ ∃ t ∈ l, r ∈ leaves t := by
  induction l with
  | nil => simp [leavesOf]
  | cons t ts ih => simp [leavesOf, ih]

/-- Every leaf of the tree satisfies `p`. -/
def All (p : δ → Prop) (t : LogicalTree μ δ) : Prop := ∀ r ∈ t.leaves, p r

@[simp] theorem all_default (p : δ → Prop) (r : δ) : All p (.default r : LogicalTree μ δ) ↔
    p r := by
  simp [All, leaves]

@[simp] theorem all_logical (p : δ → Prop) (mode : μ) (invert : Bool)
    (rules : List (LogicalTree μ δ)) :
    All p (.logical mode invert rules) ↔ ∀ t ∈ rules, All p t := by
  simp only [All, leaves, mem_leavesOf]
  constructor
  · intro h t ht r hr
    exact h r ⟨t, ht, hr⟩
  · rintro h r ⟨t, ht, hr⟩
    exact h t ht r hr

mutual

/-- How deeply the deepest leaf or node of a tree is nested. -/
def depth : LogicalTree μ δ → ℕ
  | .default _ => 0
  | .logical _ _ rules => depthOf rules

/-- The same for a list of subtrees, which are one level down. -/
def depthOf : List (LogicalTree μ δ) → ℕ
  | [] => 0
  | t :: ts => max (depth t + 1) (depthOf ts)

end

theorem depthOf_le {n : ℕ} : depthOf l ≤ n ↔ ∀ t ∈ l, depth t < n := by
  induction l with
  | nil => simp [depthOf]
  | cons t ts ih => rw [depthOf, Nat.max_le, ih, forall_mem_cons, Nat.succ_le_iff]

mutual

/-- The greatest number of subtrees that a node has. -/
def width : LogicalTree μ δ → ℕ
  | .default _ => 0
  | .logical _ _ rules => max rules.length (widthOf rules)

/-- The same for a list of trees. -/
def widthOf : List (LogicalTree μ δ) → ℕ
  | [] => 0
  | t :: ts => max (width t) (widthOf ts)

end

theorem widthOf_lt {n : ℕ} (hn : 0 < n) : widthOf l < n ↔ ∀ t ∈ l, width t < n := by
  induction l with
  | nil => simpa [widthOf] using hn
  | cons t ts ih => rw [widthOf, Nat.max_lt, ih, forall_mem_cons]

/-! ### Changing the leaves -/

mutual

/-- The tree with its leaves replaced. -/
def map {δ' : Type} (f : δ → δ') : LogicalTree μ δ → LogicalTree μ δ'
  | .default r => .default (f r)
  | .logical mode invert rules => .logical mode invert (mapAll f rules)

/-- The trees with their leaves replaced. -/
def mapAll {δ' : Type} (f : δ → δ') : List (LogicalTree μ δ) → List (LogicalTree μ δ')
  | [] => []
  | t :: ts => map f t :: mapAll f ts

end

variable {δ' : Type} (f : δ → δ')

@[simp] theorem map_default (r : δ) : map f (.default r : LogicalTree μ δ) = .default (f r) := rfl

@[simp] theorem map_logical (mode : μ) (invert : Bool) (rules : List (LogicalTree μ δ)) :
    map f (.logical mode invert rules) = .logical mode invert (rules.map (map f)) := by
  have h : mapAll f rules = rules.map (map f) := by
    induction rules with
    | nil => rfl
    | cons t ts ih => rw [mapAll, ih, map_cons]
  rw [map, h]

theorem leavesOf_eq_flatMap (l : List (LogicalTree μ δ)) : leavesOf l = l.flatMap leaves := by
  induction l with
  | nil => rfl
  | cons t ts ih => rw [leavesOf, ih, flatMap_cons]

theorem leaves_map (t : LogicalTree μ δ) : (t.map f).leaves = t.leaves.map f := by
  induction t using LogicalTree.induction with
  | default r => rfl
  | logical mode invert rules ih =>
    rw [map_logical, leaves, leaves, leavesOf_eq_flatMap, leavesOf_eq_flatMap, flatMap_map,
      map_flatMap]
    exact flatMap_congr ih

theorem map_map {δ'' : Type} (g : δ' → δ'') (t : LogicalTree μ δ) :
    (t.map f).map g = t.map (g ∘ f) := by
  induction t using LogicalTree.induction with
  | default r => rfl
  | logical mode invert rules ih =>
    rw [map_logical, map_logical, map_logical, List.map_map]
    congr 1
    exact map_congr_left ih

end LogicalTree
