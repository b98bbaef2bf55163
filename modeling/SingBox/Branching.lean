/-
**Branch choice with merging, inversion and deferred conditions.**

A condition of the kind studied here is satisfied by *choosing branches*: an alternative offers a
list of conditions of which one is taken, a conjunction asks for all of its conditions, and a clause
has a guard, satisfies some groups by itself, may include one more condition as a branch merged
into it, and requires certain groups to be satisfied by what it inherits, by itself or by the
merged branch.  An inverted condition holds when the condition cannot be satisfied on its own.

Some conditions may have to be decided before everything they read is known.  Each condition
therefore has two readings in a context: *possible*, in which what is not known yet is taken for
granted, and *definite*, in which it must not be relied upon.  Inversion exchanges the two.  A
context that knows more can only remove possible choices and add definite ones, if this is so for
the clauses.

* `Branching.reaches_oneOf`, `Branching.reaches_allOf_cons` — the choices of a combination are made
  of choices of its parts;
* `Branching.Refines.clause`, `Branching.Refines.invertIf`, and their companions for the other
  constructions — the properties above are inherited from the parts of a condition.
-/

import Mathlib.Order.CompletePartialOrder
import Mathlib.Data.Set.Lattice

namespace Branching

open List

/-- The two readings of a condition that may rest on something not known yet. -/
inductive Reading where
  | possible
  | definite

/-- Inversion exchanges the readings. -/
def Reading.flip : Reading → Reading
  | .possible => .definite
  | .definite => .possible

@[simp] theorem Reading.flip_possible : Reading.possible.flip = .definite := rfl

@[simp] theorem Reading.flip_definite : Reading.definite.flip = .possible := rfl

/-- A choice of branches: nothing to choose, one branch of an alternative, or a choice for each
condition of a conjunction. -/
inductive Choice where
  | here
  | one (i : ℕ) (c : Choice)
  | every (f : ℕ → Choice)

/-- A condition on contexts `Γ` over groups `G`: which choices satisfy it given the inherited
groups, and which groups a choice satisfies. -/
structure Meaning (Γ G : Type*) where
  sat : Reading → Choice → Γ → Set G → Prop
  hits : Choice → Γ → Set G

variable {Γ G : Type*}

/-- The condition holds: some choice satisfies it with nothing inherited. -/
def Meaning.Holds (S : Meaning Γ G) (m : Γ) : Prop := ∃ c, S.sat .possible c m ∅

/-! ### Building conditions -/

/-- Alternatives, evaluated in the context `f m`. -/
def oneOf (f : Γ → Γ) (l : List (Meaning Γ G)) : Meaning Γ G where
  sat ρ c m b := ∃ i c', c = .one i c' ∧ ∃ S : Meaning Γ G, l[i]? = some S ∧ S.sat ρ c' (f m) b
  hits c m := {g | ∃ i c', c = .one i c' ∧
    ∃ S : Meaning Γ G, l[i]? = some S ∧ g ∈ S.hits c' (f m)}

/-- A conjunction, evaluated in the context `f m`: every condition inherits the same groups. -/
def allOf (f : Γ → Γ) (l : List (Meaning Γ G)) : Meaning Γ G where
  sat ρ c m b := ∃ t, c = .every t ∧
    ∀ i, ∀ S : Meaning Γ G, l[i]? = some S → S.sat ρ (t i) (f m) b
  hits c m := {g | ∃ t, c = .every t ∧
    ∃ i, ∃ S : Meaning Γ G, l[i]? = some S ∧ g ∈ S.hits (t i) (f m)}

/-- A clause: a guard, the groups it satisfies itself, the groups it requires in each reading, and
the condition whose branch is merged into it, if there is one. -/
structure Clause (Γ G : Type*) where
  guard : Γ → Prop
  own : Γ → Set G
  required : Reading → Γ → Set G
  branch : Option (Meaning Γ G)

namespace Clause

/-- The merged branch is satisfied. -/
def branchSat (k : Clause Γ G) (ρ : Reading) (c : Choice) (m : Γ) (b : Set G) : Prop :=
  ∀ S, k.branch = some S → S.sat ρ c m b

/-- The groups the merged branch satisfies. -/
def branchHits (k : Clause Γ G) (c : Choice) (m : Γ) : Set G :=
  {g | ∃ S, k.branch = some S ∧ g ∈ S.hits c m}

/-- The branch inherits what the clause inherits and what the clause satisfies itself. -/
def meaning (k : Clause Γ G) : Meaning Γ G where
  sat ρ c m b := k.guard m ∧ k.branchSat ρ c m (b ∪ k.own m) ∧
    k.required ρ m ⊆ b ∪ (k.own m ∪ k.branchHits c m)
  hits c m := k.own m ∪ k.branchHits c m

end Clause

/-- The inverted condition: the condition itself cannot be satisfied with nothing inherited. -/
def inverted (S : Meaning Γ G) : Meaning Γ G where
  sat ρ _ m _ := ¬∃ c, S.sat ρ.flip c m ∅
  hits _ _ := ∅

/-- Inversion under a flag. -/
def invertIf (invert : Bool) (S : Meaning Γ G) : Meaning Γ G :=
  if invert then inverted S else S

@[simp] theorem invertIf_true (S : Meaning Γ G) : invertIf true S = inverted S := rfl

@[simp] theorem invertIf_false (S : Meaning Γ G) : invertIf false S = S := rfl

/-! ### The choices of a combination -/

/-- Some choice satisfies the condition and satisfies exactly the groups `h`. -/
def Meaning.Reaches (S : Meaning Γ G) (ρ : Reading) (m : Γ) (b h : Set G) : Prop :=
  ∃ c, S.sat ρ c m b ∧ S.hits c m = h

variable {l : List (Meaning Γ G)} {f : Γ → Γ} {m : Γ} {ρ : Reading} {b h : Set G}

theorem reaches_oneOf : (oneOf f l).Reaches ρ m b h ↔ ∃ S ∈ l, S.Reaches ρ (f m) b h := by
  have hhits : ∀ {i : ℕ} {S : Meaning Γ G} (c : Choice), l[i]? = some S →
      (oneOf f l).hits (.one i c) m = S.hits c (f m) := by
    intro i S c hS
    ext g
    constructor
    · rintro ⟨i', c', heq, S', hS', hg⟩
      obtain ⟨rfl, rfl⟩ := Choice.one.inj heq
      rw [hS] at hS'
      obtain rfl := Option.some.inj hS'
      exact hg
    · exact fun hg => ⟨i, c, rfl, S, hS, hg⟩
  constructor
  · rintro ⟨c, ⟨i, c', rfl, S, hS, hsat⟩, rfl⟩
    exact ⟨S, mem_of_getElem? hS, c', hsat, (hhits c' hS).symm⟩
  · rintro ⟨S, hmem, c, hsat, rfl⟩
    obtain ⟨i, hi⟩ := List.mem_iff_getElem?.1 hmem
    exact ⟨.one i c, ⟨i, c, rfl, S, hi, hsat⟩, hhits c hi⟩

variable {S : Meaning Γ G}

theorem holds_inverted : (inverted S).Holds m ↔ ¬∃ c, S.sat .definite c m ∅ :=
  ⟨fun ⟨_, h⟩ => h, fun h => ⟨.here, h⟩⟩

theorem holds_oneOf : (oneOf f l).Holds m ↔ ∃ S ∈ l, S.Holds (f m) := by
  constructor
  · rintro ⟨_, i, c, rfl, S, hS, hc⟩
    exact ⟨S, mem_of_getElem? hS, c, hc⟩
  · rintro ⟨S, hS, c, hc⟩
    obtain ⟨i, hi⟩ := getElem?_of_mem hS
    exact ⟨.one i c, i, c, rfl, S, hi, hc⟩

theorem holds_allOf : (allOf f l).Holds m ↔ ∀ S ∈ l, S.Holds (f m) := by
  constructor
  · rintro ⟨_, t, rfl, ht⟩ S hS
    obtain ⟨i, hi⟩ := getElem?_of_mem hS
    exact ⟨t i, ht i S hi⟩
  · intro h
    -- a choice for each condition, put together by position
    have hchoice : ∀ i : ℕ, ∃ c, ∀ S, l[i]? = some S → S.sat .possible c (f m) ∅ := by
      intro i
      cases hi : l[i]? with
      | none => exact ⟨.here, by simp⟩
      | some S =>
        obtain ⟨c, hc⟩ := h S (mem_of_getElem? hi)
        exact ⟨c, by rintro _ ⟨⟩; exact hc⟩
    choose t ht using hchoice
    exact ⟨.every t, t, rfl, ht⟩

theorem reaches_allOf_nil : (allOf f []).Reaches ρ m b h ↔ h = ∅ := by
  have hhits : ∀ c, (allOf f ([] : List (Meaning Γ G))).hits c m = ∅ := by
    intro c
    simp [allOf]
  constructor
  · rintro ⟨c, -, rfl⟩
    exact hhits c
  · rintro rfl
    exact ⟨.every fun _ => .here, ⟨_, rfl, by simp⟩, hhits _⟩

theorem reaches_allOf_cons :
    (allOf f (S :: l)).Reaches ρ m b h ↔
      ∃ h₁, S.Reaches ρ (f m) b h₁ ∧ ∃ h₂, (allOf f l).Reaches ρ m b h₂ ∧ h₁ ∪ h₂ = h := by
  have hhits : ∀ t : ℕ → Choice, (allOf f (S :: l)).hits (.every t) m =
      S.hits (t 0) (f m) ∪ (allOf f l).hits (.every fun i => t (i + 1)) m := by
    intro t
    ext g
    constructor
    · rintro ⟨t', heq, i, S', hS', hg⟩
      obtain rfl := Choice.every.inj heq
      cases i with
      | zero =>
        obtain rfl : S = S' := by simpa using hS'
        exact .inl hg
      | succ i => exact .inr ⟨_, rfl, i, S', by simpa using hS', hg⟩
    · rintro (hg | ⟨t', heq, i, S', hS', hg⟩)
      · exact ⟨t, rfl, 0, S, rfl, hg⟩
      · obtain rfl := Choice.every.inj heq
        exact ⟨t, rfl, i + 1, S', by simpa using hS', hg⟩
  constructor
  · rintro ⟨c, ⟨t, rfl, hsat⟩, rfl⟩
    exact ⟨_, ⟨t 0, hsat 0 S rfl, rfl⟩, _, ⟨.every fun i => t (i + 1),
      ⟨_, rfl, fun i S' hS' => hsat (i + 1) S' (by simpa using hS')⟩, rfl⟩, (hhits t).symm⟩
  · rintro ⟨_, ⟨c, hc, rfl⟩, _, ⟨_, ⟨t, rfl, hsat⟩, rfl⟩, rfl⟩
    refine ⟨.every fun | 0 => c | i + 1 => t i, ⟨_, rfl, ?_⟩, hhits _⟩
    intro i S' hS'
    cases i with
    | zero =>
      obtain rfl : S = S' := by simpa using hS'
      exact hc
    | succ i => exact hsat i S' (by simpa using hS')

/-! ### Definite choices are possible -/

/-- Every definite choice is a possible one. -/
def Coherent (S : Meaning Γ G) : Prop :=
  ∀ c m b, S.sat .definite c m b → S.sat .possible c m b

theorem Coherent.oneOf (h : ∀ S ∈ l, Coherent S) : Coherent (oneOf f l) := by
  rintro c m b ⟨i, c', rfl, S, hS, hsat⟩
  exact ⟨i, c', rfl, S, hS, h S (mem_of_getElem? hS) _ _ _ hsat⟩

theorem Coherent.allOf (h : ∀ S ∈ l, Coherent S) : Coherent (allOf f l) := by
  rintro c m b ⟨t, rfl, hsat⟩
  exact ⟨t, rfl, fun i S hS => h S (mem_of_getElem? hS) _ _ _ (hsat i S hS)⟩

variable {k : Clause Γ G}

theorem Coherent.clause (hb : ∀ S, k.branch = some S → Coherent S)
    (hreq : ∀ m, k.required .possible m ⊆ k.required .definite m) : Coherent k.meaning := by
  rintro c m b ⟨hguard, hsat, hgroups⟩
  exact ⟨hguard, fun S hS => hb S hS _ _ _ (hsat S hS), (hreq m).trans hgroups⟩

theorem Coherent.invertIf (h : Coherent S) (invert : Bool) : Coherent (invertIf invert S) := by
  cases invert with
  | false => exact h
  | true =>
    rintro c m b hnone ⟨c', hc'⟩
    exact hnone ⟨c', h _ _ _ hc'⟩

/-! ### Inheriting more -/

/-- A choice that satisfies the condition still satisfies it when more groups are inherited. -/
def Upward (S : Meaning Γ G) : Prop :=
  ∀ ρ c m b b', b ⊆ b' → S.sat ρ c m b → S.sat ρ c m b'

theorem Upward.oneOf (h : ∀ S ∈ l, Upward S) : Upward (oneOf f l) := by
  rintro ρ c m b b' hb ⟨i, c', rfl, S, hS, hsat⟩
  exact ⟨i, c', rfl, S, hS, h S (mem_of_getElem? hS) ρ c' (f m) b b' hb hsat⟩

theorem Upward.allOf (h : ∀ S ∈ l, Upward S) : Upward (allOf f l) := by
  rintro ρ c m b b' hb ⟨t, rfl, hsat⟩
  refine ⟨t, rfl, fun i S hS => ?_⟩
  exact h S (mem_of_getElem? hS) ρ (t i) (f m) b b' hb (hsat i S hS)

theorem Upward.clause (h : ∀ S, k.branch = some S → Upward S) : Upward k.meaning := by
  rintro ρ c m b b' hb ⟨hguard, hsat, hgroups⟩
  refine ⟨hguard, fun S hS => ?_, hgroups.trans (Set.union_subset_union_left _ hb)⟩
  exact h S hS ρ c m _ _ (Set.union_subset_union_left _ hb) (hsat S hS)

theorem Upward.invertIf (h : Upward S) (invert : Bool) : Upward (invertIf invert S) := by
  cases invert with
  | false => exact h
  | true => exact fun ρ c m b b' _ hnone => hnone

/-! ### Contexts in which the readings coincide -/

/-- In the contexts `P` every possible choice is a definite one. -/
def Settled (P : Γ → Prop) (S : Meaning Γ G) : Prop :=
  ∀ c m b, P m → S.sat .possible c m b → S.sat .definite c m b

variable {P : Γ → Prop}

theorem Settled.oneOf (hf : ∀ m, P m → P (f m)) (h : ∀ S ∈ l, Settled P S) :
    Settled P (oneOf f l) := by
  rintro c m b hm ⟨i, c', rfl, S, hS, hsat⟩
  exact ⟨i, c', rfl, S, hS, h S (mem_of_getElem? hS) _ _ _ (hf m hm) hsat⟩

theorem Settled.allOf (hf : ∀ m, P m → P (f m)) (h : ∀ S ∈ l, Settled P S) :
    Settled P (allOf f l) := by
  rintro c m b hm ⟨t, rfl, hsat⟩
  exact ⟨t, rfl, fun i S hS =>
    h S (mem_of_getElem? hS) _ _ _ (hf m hm) (hsat i S hS)⟩

theorem Settled.clause (hb : ∀ S, k.branch = some S → Settled P S)
    (hreq : ∀ m, P m → k.required .definite m ⊆ k.required .possible m) :
    Settled P k.meaning := by
  rintro c m b hm ⟨hguard, hsat, hgroups⟩
  exact ⟨hguard, fun S hS => hb S hS _ _ _ hm (hsat S hS), (hreq m hm).trans hgroups⟩

theorem Settled.invertIf (h : Settled P S) (invert : Bool) : Settled P (invertIf invert S) := by
  cases invert with
  | false => exact h
  | true =>
    rintro c m b hm hnone ⟨c', hc'⟩
    exact hnone ⟨c', h _ _ _ hm hc'⟩

/-! ### Knowing more -/

/-- The second set has what the first has, and beyond it only groups of `D`. -/
def Grows (D b b' : Set G) : Prop := b ⊆ b' ∧ b' ⊆ b ∪ D

namespace Grows

variable {D D' b b' d d' : Set G}

theorem refl (D b : Set G) : Grows D b b := ⟨subset_rfl, Set.subset_union_left⟩

theorem mono (h : Grows D b b') (hD : D ⊆ D') : Grows D' b b' :=
  ⟨h.1, h.2.trans (Set.union_subset_union_right b hD)⟩

theorem union (h : Grows D b b') (h' : Grows D' d d') : Grows (D ∪ D') (b ∪ d) (b' ∪ d') := by
  refine ⟨Set.union_subset_union h.1 h'.1, ?_⟩
  rintro g (hg | hg)
  · rcases h.2 hg with hg | hg
    · exact .inl (.inl hg)
    · exact .inr (.inl hg)
  · rcases h'.2 hg with hg | hg
    · exact .inl (.inr hg)
    · exact .inr (.inr hg)

theorem subset_of_disjoint (h : Grows D b b') {q : Set G} (hq : Disjoint (q \ b) D)
    (hsub : q ⊆ b') : q ⊆ b := by
  intro g hg
  by_contra hb
  exact Set.disjoint_left.1 hq ⟨hg, hb⟩ ((h.2 (hsub hg)).resolve_left hb)

end Grows

/-- Passing to a context that knows more (`R`) makes a choice satisfy at most the groups of `D` in
addition. -/
def HitsGrow (R : Γ → Γ → Prop) (D : Set G) (S : Meaning Γ G) : Prop :=
  ∀ m m' c, R m m' → Grows D (S.hits c m) (S.hits c m')

/-- Passing to a context that knows more, with inherited groups that grow by groups of `D` only,
keeps the definite choices and adds no possible ones. -/
def Refines (R : Γ → Γ → Prop) (D : Set G) (S : Meaning Γ G) : Prop :=
  ∀ m m' b b' c, R m m' → Grows D b b' →
    (S.sat .possible c m' b' → S.sat .possible c m b) ∧
      (S.sat .definite c m b → S.sat .definite c m' b')

variable {R Q : Γ → Γ → Prop} {f : Γ → Γ} {l : List (Meaning Γ G)} {D A B : Set G}

theorem HitsGrow.mono (h : HitsGrow R A S) (hD : A ⊆ D) : HitsGrow R D S :=
  fun m m' c hm => (h m m' c hm).mono hD

theorem HitsGrow.oneOf (hf : ∀ m m', R m m' → Q (f m) (f m')) (h : ∀ S ∈ l, HitsGrow Q D S) :
    HitsGrow R D (oneOf f l) := by
  intro m m' c hm
  constructor
  · rintro g ⟨i, c', rfl, S, hS, hg⟩
    exact ⟨i, c', rfl, S, hS, (h S (mem_of_getElem? hS) _ _ c' (hf _ _ hm)).1 hg⟩
  · rintro g ⟨i, c', rfl, S, hS, hg⟩
    rcases (h S (mem_of_getElem? hS) _ _ c' (hf _ _ hm)).2 hg with hg | hg
    · exact .inl ⟨i, c', rfl, S, hS, hg⟩
    · exact .inr hg

theorem HitsGrow.allOf (hf : ∀ m m', R m m' → Q (f m) (f m')) (h : ∀ S ∈ l, HitsGrow Q D S) :
    HitsGrow R D (allOf f l) := by
  intro m m' c hm
  constructor
  · rintro g ⟨t, rfl, i, S, hS, hg⟩
    exact ⟨t, rfl, i, S, hS, (h S (mem_of_getElem? hS) _ _ (t i) (hf _ _ hm)).1 hg⟩
  · rintro g ⟨t, rfl, i, S, hS, hg⟩
    rcases (h S (mem_of_getElem? hS) _ _ (t i) (hf _ _ hm)).2 hg with hg | hg
    · exact .inl ⟨t, rfl, i, S, hS, hg⟩
    · exact .inr hg

theorem HitsGrow.branch (h : ∀ S, k.branch = some S → HitsGrow R D S)
    {m m' : Γ} (hm : R m m') (c : Choice) : Grows D (k.branchHits c m) (k.branchHits c m') := by
  constructor
  · rintro g ⟨S, hS, hg⟩
    exact ⟨S, hS, (h S hS m m' c hm).1 hg⟩
  · rintro g ⟨S, hS, hg⟩
    rcases (h S hS m m' c hm).2 hg with hg | hg
    · exact .inl ⟨S, hS, hg⟩
    · exact .inr hg

theorem HitsGrow.clause (hown : ∀ m m', R m m' → Grows A (k.own m) (k.own m'))
    (hbranch : ∀ S, k.branch = some S → HitsGrow R B S) : HitsGrow R (A ∪ B) k.meaning :=
  fun m m' c hm => (hown m m' hm).union (HitsGrow.branch hbranch hm c)

theorem HitsGrow.invertIf (h : HitsGrow R D S) (invert : Bool) :
    HitsGrow R D (invertIf invert S) := by
  cases invert with
  | false => exact h
  | true => exact fun m m' c _ => Grows.refl D ∅

theorem Refines.oneOf (hf : ∀ m m', R m m' → Q (f m) (f m')) (h : ∀ S ∈ l, Refines Q D S) :
    Refines R D (oneOf f l) := by
  intro m m' b b' c hm hb
  constructor
  · rintro ⟨i, c', rfl, S, hS, hsat⟩
    exact ⟨i, c', rfl, S, hS, (h S (mem_of_getElem? hS) _ _ _ _ c' (hf _ _ hm) hb).1 hsat⟩
  · rintro ⟨i, c', rfl, S, hS, hsat⟩
    exact ⟨i, c', rfl, S, hS, (h S (mem_of_getElem? hS) _ _ _ _ c' (hf _ _ hm) hb).2 hsat⟩

theorem Refines.allOf (hf : ∀ m m', R m m' → Q (f m) (f m')) (h : ∀ S ∈ l, Refines Q D S) :
    Refines R D (allOf f l) := by
  intro m m' b b' c hm hb
  constructor
  · rintro ⟨t, rfl, hsat⟩
    exact ⟨t, rfl, fun i S hS =>
      (h S (mem_of_getElem? hS) _ _ _ _ (t i) (hf _ _ hm) hb).1 (hsat i S hS)⟩
  · rintro ⟨t, rfl, hsat⟩
    exact ⟨t, rfl, fun i S hS =>
      (h S (mem_of_getElem? hS) _ _ _ _ (t i) (hf _ _ hm) hb).2 (hsat i S hS)⟩

/-- A clause refines if its guard is decided, its branch refines over what the clause hands to it,
and the groups it possibly requires and does not satisfy itself are not among those that may still
become satisfied. -/
theorem Refines.clause (hguard : ∀ m m', R m m' → (k.guard m ↔ k.guard m'))
    (hown : ∀ m m', R m m' → Grows A (k.own m) (k.own m'))
    (hbranch : ∀ S, k.branch = some S → Refines R (D ∪ A) S)
    (hhits : ∀ S, k.branch = some S → HitsGrow R B S)
    (hpossible : ∀ m m', R m m' → k.required .possible m ⊆ k.required .possible m')
    (hdisjoint : ∀ m m', R m m' → Disjoint (k.required .possible m \ k.own m) (D ∪ (A ∪ B)))
    (hdefinite : ∀ m m', R m m' → k.required .definite m' ⊆ k.required .definite m) :
    Refines R D k.meaning := by
  intro m m' b b' c hm hb
  have hinherited : Grows (D ∪ A) (b ∪ k.own m) (b' ∪ k.own m') := hb.union (hown m m' hm)
  have hgroups : Grows (D ∪ (A ∪ B)) (b ∪ (k.own m ∪ k.branchHits c m))
      (b' ∪ (k.own m' ∪ k.branchHits c m')) :=
    hb.union ((hown m m' hm).union (HitsGrow.branch hhits hm c))
  have hopen : Disjoint (k.required .possible m \ (b ∪ (k.own m ∪ k.branchHits c m)))
      (D ∪ (A ∪ B)) := by
    refine (hdisjoint m m' hm).mono_left (Set.sdiff_subset_sdiff_right ?_)
    exact fun g hg => .inr (.inl hg)
  constructor
  · rintro ⟨hg, hsat, hreq⟩
    exact ⟨(hguard m m' hm).2 hg, fun S hS => (hbranch S hS _ _ _ _ c hm hinherited).1 (hsat S hS),
      hgroups.subset_of_disjoint hopen ((hpossible m m' hm).trans hreq)⟩
  · rintro ⟨hg, hsat, hreq⟩
    exact ⟨(hguard m m' hm).1 hg, fun S hS => (hbranch S hS _ _ _ _ c hm hinherited).2 (hsat S hS),
      ((hdefinite m m' hm).trans hreq).trans hgroups.1⟩

theorem Refines.invertIf (h : Refines R D S) (invert : Bool) : Refines R D (invertIf invert S) := by
  cases invert with
  | false => exact h
  | true =>
    intro m m' b b' c hm _
    constructor
    · rintro hnone ⟨c', hc'⟩
      exact hnone ⟨c', (h _ _ _ _ c' hm (Grows.refl D ∅)).2 hc'⟩
    · rintro hnone ⟨c', hc'⟩
      exact hnone ⟨c', (h _ _ _ _ c' hm (Grows.refl D ∅)).1 hc'⟩

end Branching
