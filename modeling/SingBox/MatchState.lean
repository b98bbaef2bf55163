/-
**Group states and sets of group states** (`route/rule/match_state.go`).

A rule evaluation does not return a Boolean.  It returns the set of *states* it can end in, a
state being the set of groups — source address, source port, destination address, destination
port — that some item has satisfied so far.  A state is held in four bits and a set of states in a
`uint16`, one bit for each state; the operations are loops over the sixteen states.

* `RuleMatchStateSet.contains_combine`, `.contains_withBase`, `.contains_filter` — what each
  operation contains;
* `RuleMatchState.groups_or`, `RuleMatchState.groups_injective`, `.groups_surjective` — joining
  states joins their groups, and states and sets of groups are the same thing.
-/

import SingBox.MaskSet

namespace SingBox

/-- A state: the low four bits of the source's `uint8`, the only ones that are ever set. -/
abbrev RuleMatchState : Type := BitVec 4

def ruleMatchSourceAddress : RuleMatchState := 1#4
def ruleMatchSourcePort : RuleMatchState := 2#4
def ruleMatchDestinationAddress : RuleMatchState := 4#4
def ruleMatchDestinationPort : RuleMatchState := 8#4

/-- A set of states, one bit for each state. -/
abbrev RuleMatchStateSet : Type := BitVec (2 ^ 4)

def singleRuleMatchState (state : RuleMatchState) : RuleMatchStateSet := MaskSet.single state

def emptyRuleMatchState : RuleMatchStateSet := singleRuleMatchState 0

/-- The state has one of the bits of `target`. -/
def RuleMatchState.has (s target : RuleMatchState) : Bool := s &&& target != 0

namespace RuleMatchStateSet

def isEmpty (s : RuleMatchStateSet) : Bool := s == 0

def contains (s : RuleMatchStateSet) (state : RuleMatchState) : Bool := MaskSet.contains s state

def add (s : RuleMatchStateSet) (state : RuleMatchState) : RuleMatchStateSet :=
  s ||| singleRuleMatchState state

def merge (s other : RuleMatchStateSet) : RuleMatchStateSet := s ||| other

/-- Every join of a state of `s` with a state of `other`. -/
def combine (s other : RuleMatchStateSet) : RuleMatchStateSet :=
  if isEmpty s || isEmpty other then 0
  else
    (MaskSet.words 4).foldl (fun combined left =>
      if contains s left then
        (MaskSet.words 4).foldl (fun combined right =>
          if contains other right then add combined (left ||| right) else combined) combined
      else combined) 0

/-- Every state of `s` joined with `base`. -/
def withBase (s : RuleMatchStateSet) (base : RuleMatchState) : RuleMatchStateSet :=
  if isEmpty s then 0
  else
    (MaskSet.words 4).foldl (fun withBase state =>
      if contains s state then add withBase (state ||| base) else withBase) 0

/-- The states of `s` that pass the test. -/
def filter (s : RuleMatchStateSet) (allowed : RuleMatchState → Bool) : RuleMatchStateSet :=
  (MaskSet.words 4).foldl (fun filtered state =>
    if contains s state && allowed state then add filtered state else filtered) 0

/-! ### What the operations contain -/

variable (s : RuleMatchStateSet)

theorem isEmpty_iff : isEmpty s ↔ ∀ x, contains s x = false := by
  rw [isEmpty, beq_iff_eq]
  exact MaskSet.eq_zero_iff s

theorem isEmpty_eq_false_iff : isEmpty s = false ↔ ∃ x, contains s x := by
  rw [isEmpty, beq_eq_false_iff_ne]
  exact MaskSet.ne_zero_iff s

@[simp] theorem contains_zero (x : RuleMatchState) : contains 0#16 x = false :=
  MaskSet.contains_zero x

@[simp] theorem contains_single (x y : RuleMatchState) :
    contains (singleRuleMatchState x) y = decide (x = y) := MaskSet.contains_single x y

@[simp] theorem contains_merge (s t : RuleMatchStateSet) (x : RuleMatchState) :
    contains (merge s t) x = (contains s x || contains t x) := MaskSet.contains_or s t x

theorem contains_combine (s t : RuleMatchStateSet) (x : RuleMatchState) :
    contains (combine s t) x ↔ ∃ l r, contains s l ∧ contains t r ∧ l ||| r = x := by
  unfold combine
  split
  case isTrue h =>
    rw [Bool.or_eq_true, isEmpty_iff, isEmpty_iff] at h
    rcases h with h | h <;> simp [h, contains_zero]
  case isFalse h =>
    -- one outer round adds the joins of one left state with every right state
    refine (MaskSet.contains_foldl _
      (fun l y => contains s l ∧ ∃ r, contains t r ∧ l ||| r = y) ?_ _ 0 x).trans ?_
    · intro acc l y
      by_cases hl : contains s l
      · simp only [hl, if_true, true_and]
        refine (MaskSet.contains_foldl_ite (contains t) (l ||| ·) _ acc y).trans ?_
        simp [MaskSet.mem_words]
      · simp [hl]
    · rw [MaskSet.contains_zero]
      simp [MaskSet.mem_words]

theorem contains_withBase (b x : RuleMatchState) :
    contains (withBase s b) x ↔ ∃ y, contains s y ∧ y ||| b = x := by
  unfold withBase
  split
  case isTrue h =>
    rw [isEmpty_iff] at h
    simp [h]
  case isFalse h =>
    refine (MaskSet.contains_foldl_ite (contains s) (· ||| b) _ 0 x).trans ?_
    rw [MaskSet.contains_zero]
    simp [MaskSet.mem_words]

theorem contains_filter (p : RuleMatchState → Bool) (x : RuleMatchState) :
    contains (filter s p) x ↔ contains s x ∧ p x := by
  refine (MaskSet.contains_foldl_ite (fun y => contains s y && p y) id _ 0 x).trans ?_
  rw [MaskSet.contains_zero]
  simp [MaskSet.mem_words]

theorem emptyRuleMatchState_withBase (b : RuleMatchState) :
    withBase emptyRuleMatchState b = singleRuleMatchState b := by
  refine MaskSet.ext fun x => Bool.eq_iff_iff.2 ?_
  refine (contains_withBase _ b x).trans ?_
  rw [singleRuleMatchState, MaskSet.contains_single]
  simp [emptyRuleMatchState]

end RuleMatchStateSet

/-! ### Groups -/

/-- The four groups of a rule: items of one group are alternatives of each other. -/
inductive Group where
  | sourceAddress
  | sourcePort
  | destinationAddress
  | destinationPort
  deriving DecidableEq

/-- The bit of a group. -/
def Group.bit : Group → RuleMatchState
  | .sourceAddress => ruleMatchSourceAddress
  | .sourcePort => ruleMatchSourcePort
  | .destinationAddress => ruleMatchDestinationAddress
  | .destinationPort => ruleMatchDestinationPort

namespace RuleMatchState

/-- The groups a state stands for. -/
def groups (s : RuleMatchState) : Set Group := {g | has s g.bit}

theorem mem_groups (s : RuleMatchState) (g : Group) : g ∈ groups s ↔ has s g.bit := Iff.rfl

@[simp] theorem groups_zero : groups 0#4 = ∅ := by
  ext g
  cases g <;> simp [mem_groups, has]

variable (s t : RuleMatchState)

theorem has_or (g : Group) : has (s ||| t) g.bit = (has s g.bit || has t g.bit) := by
  revert s t
  cases g <;> decide

@[simp] theorem groups_or : groups (s ||| t) = groups s ∪ groups t := by
  ext g
  simp [mem_groups, has_or]

theorem groups_bit (g : Group) : groups g.bit = {g} := by
  ext h
  cases g <;> cases h <;> simp [mem_groups] <;> decide

theorem groups_injective : Function.Injective groups := by
  intro s t h
  have hbit : ∀ g : Group, has s g.bit = has t g.bit := fun g => by
    rw [Bool.eq_iff_iff, ← mem_groups, ← mem_groups, h]
  have key : ∀ s t : RuleMatchState,
      (has s 1#4 = has t 1#4 ∧ has s 2#4 = has t 2#4 ∧
        has s 4#4 = has t 4#4 ∧ has s 8#4 = has t 8#4) → s = t := by decide
  exact key s t ⟨hbit .sourceAddress, hbit .sourcePort, hbit .destinationAddress,
    hbit .destinationPort⟩

theorem groups_surjective : Function.Surjective groups := by
  classical
  intro S
  refine ⟨(if Group.sourceAddress ∈ S then ruleMatchSourceAddress else 0) |||
    ((if Group.sourcePort ∈ S then ruleMatchSourcePort else 0) |||
      ((if Group.destinationAddress ∈ S then ruleMatchDestinationAddress else 0) |||
        (if Group.destinationPort ∈ S then ruleMatchDestinationPort else 0))), ?_⟩
  ext g
  have hbit : ∀ h : Group, g ∈ groups (if h ∈ S then h.bit else 0) ↔ g = h ∧ h ∈ S := by
    intro h
    by_cases hS : h ∈ S
    · simp [hS, groups_bit]
    · simp [hS]
  have hs := hbit .sourceAddress
  have hsp := hbit .sourcePort
  have hd := hbit .destinationAddress
  have hdp := hbit .destinationPort
  simp only [Group.bit] at hs hsp hd hdp
  simp only [groups_or, Set.mem_union, hs, hsp, hd, hdp]
  cases g <;> simp

end RuleMatchState

end SingBox
