/-
**Sets of names as succinct tries** (`replace/sing/common/domain/set.go`).

Domain matchers and AdGuard matchers keep their names in a trie, which is written as a bitmap of its
nodes, a bitmap of its leaves and the labels of its edges.  The reader takes the three from the
stream and checks only that they fit together in number; which tree the bits describe, and whether
they describe one at all, is not checked.  `keys` lists the names by a walk with an explicit stack.

Positions in the bitmap are 32-bit numbers, so that one from `2 ^ 31` on is an index out of range.

* `SuccinctSet.keysLoop_spec` — the walk comes to an end, whatever the bits are;
* `SuccinctSet.keys_eq_none_iff` — **it panics exactly if it comes to a position out of range**;
* `SuccinctSet.mem_keys_iff` — otherwise it lists the names of the leaves.
-/

import SingBox.BitTree
import SingBox.BinaryRuleSet

namespace SingBox

open ByteReader BitTree List Option Nat

/-! ### Bitmaps -/

/-- `getBit`, for an index that is not negative. -/
def getBit (bm : List UInt64) (i : ℕ) : Option Bool :=
  bm[i / 64]?.map fun word => word.toNat.testBit (i % 64)

/-- The bit at a position, and zero behind the end. -/
def bitAt (bm : List UInt64) (i : ℕ) : Bool := (getBit bm i).getD false

/-- `bits.OnesCount64`. -/
def onesCount64 (word : UInt64) : ℕ := rank word.toNat.testBit 64

/-- One round of the loop of `readSuccinctSet` over the words: the number of ones, and one more than
the index of the last one. -/
def scanWord (counts : ℕ × ℕ) (word : UInt64 × ℕ) : ℕ × ℕ :=
  (counts.1 + onesCount64 word.1,
    if word.1 ≠ 0 then word.2 * 64 + word.1.toNat.log2 + 1 else counts.2)

/-- The loop of `readSuccinctSet` over the words. -/
def scanWords (bm : List UInt64) : ℕ × ℕ := bm.zipIdx.foldl scanWord (0, 0)

/-- A `succinctSet` that `readSuccinctSet` accepts: there is one more one than there are zeros
before the last one, a label for every zero, and a bit of `leaves` for every one. -/
structure SuccinctSet where
  (leaves labelBitmap : List UInt64)
  labels : List UInt8
  balanced : (scanWords labelBitmap).1 =
    (scanWords labelBitmap).2 - (scanWords labelBitmap).1 + 1
  labels_length : labels.length = (scanWords labelBitmap).2 - (scanWords labelBitmap).1
  leaves_length : (scanWords labelBitmap).1 ≤ 64 * leaves.length

/-- `varbin.ReadSlice` for 64-bit words. -/
def readUint64s : ByteReader GoError (List UInt64) :=
  readList ioErrors do return .ofNat (ofBigEndian (← readFull ioErrors 8))

/-- `leaves`, made long enough. -/
def padLeaves (leaves : List UInt64) (onesCount : ℕ) : List UInt64 :=
  leaves ++ List.replicate ((onesCount + 63) / 64 - leaves.length) 0

theorem le_length_padLeaves (leaves : List UInt64) (onesCount : ℕ) :
    onesCount ≤ 64 * (padLeaves leaves onesCount).length := by
  rw [padLeaves, length_append, length_replicate]
  omega

/-- The checks of `readSuccinctSet`. -/
def checkSuccinctSet (leaves labelBitmap : List UInt64) (labels : List UInt8) :
    Except GoError SuccinctSet :=
  let zerosCount := (scanWords labelBitmap).2 - (scanWords labelBitmap).1
  if h : (scanWords labelBitmap).1 = zerosCount + 1 ∧ labels.length = zerosCount then
    .ok
      { leaves := padLeaves leaves (scanWords labelBitmap).1
        labelBitmap := labelBitmap
        labels := labels
        balanced := h.1
        labels_length := h.2
        leaves_length := le_length_padLeaves leaves _ }
  else .error (.new "domain: malformed succinct set")

/-- `readSuccinctSet`. -/
def readSuccinctSet : ByteReader GoError SuccinctSet := do
  let _ ← readUint8
  let leaves ← readUint64s
  let labelBitmap ← readUint64s
  let labels ← readList ioErrors readUint8
  fun bytes => (checkSuccinctSet leaves labelBitmap labels).map fun set => (set, bytes)

/-! ### The bits of a bitmap -/

theorem bitAt_of_le {bm : List UInt64} {i : ℕ} (h : 64 * bm.length ≤ i) : bitAt bm i = false := by
  have hnone : bm[i / 64]? = none := getElem?_eq_none (by omega)
  rw [bitAt, getBit, hnone]
  rfl

theorem getBit_of_lt {bm : List UInt64} {i : ℕ} (h : i < 64 * bm.length) :
    getBit bm i = some (bitAt bm i) := by
  obtain ⟨word, hword⟩ : ∃ word, bm[i / 64]? = some word := ⟨_, getElem?_eq_getElem (by omega)⟩
  rw [bitAt, getBit, hword]
  rfl

theorem bitAt_append_left {bm bm' : List UInt64} {i : ℕ} (h : i < 64 * bm.length) :
    bitAt (bm ++ bm') i = bitAt bm i := by
  rw [bitAt, bitAt, getBit, getBit, getElem?_append_left (by omega)]

theorem bitAt_append_word (bm : List UInt64) (word : UInt64) {j : ℕ} (h : j < 64) :
    bitAt (bm ++ [word]) (64 * bm.length + j) = word.toNat.testBit j := by
  have hdiv : (64 * bm.length + j) / 64 = bm.length := by omega
  have hmod : (64 * bm.length + j) % 64 = j := by omega
  rw [bitAt, getBit, hdiv, hmod, getElem?_append_right le_rfl, Nat.sub_self]
  rfl

/-- **What the loop over the words finds**: the number of ones, and the end of the last one. -/
structure Scanned (bm : List UInt64) (counts : ℕ × ℕ) : Prop where
  ones : counts.1 = rank (bitAt bm) (64 * bm.length)
  extent_le : counts.2 ≤ 64 * bm.length
  beyond : ∀ i, counts.2 ≤ i → bitAt bm i = false
  last : ∀ i, counts.2 = i + 1 → bitAt bm i

theorem scanned_scanWords (bm : List UInt64) : Scanned bm (scanWords bm) := by
  induction bm using List.reverseRecOn with
  | nil => exact ⟨rfl, le_rfl, fun i _ => rfl, fun i h => by simp [scanWords] at h⟩
  | append_singleton bm word ih =>
    have hscan : scanWords (bm ++ [word]) = scanWord (scanWords bm) (word, bm.length) := by
      rw [scanWords, zipIdx_append, foldl_append, Nat.zero_add]
      rfl
    have hlen : 64 * (bm ++ [word]).length = 64 * bm.length + 64 := by
      rw [length_append, length_singleton]
      omega
    have hbefore : ∀ i < 64 * bm.length, bitAt (bm ++ [word]) i = bitAt bm i :=
      fun i hi => bitAt_append_left hi
    have hword : ∀ j < 64, bitAt (bm ++ [word]) (64 * bm.length + j) = word.toNat.testBit j :=
      fun j hj => bitAt_append_word bm word hj
    have hextent := ih.extent_le
    rw [hscan]
    by_cases hzero : word = 0
    · -- a word of zeros: the last one stays where it was
      have hend : (scanWord (scanWords bm) (word, bm.length)).2 = (scanWords bm).2 := by
        rw [scanWord, if_neg (not_not.2 hzero)]
      refine ⟨?_, by omega, fun i hi => ?_, fun i hi => ?_⟩
      · rw [hlen, rank_add, rank_congr hbefore, rank_congr hword, ← ih.ones]
        rfl
      · rw [hend] at hi
        by_cases hi' : i < 64 * bm.length
        · rw [hbefore i hi', ih.beyond i hi]
        · by_cases hin : i < 64 * bm.length + 64
          · obtain ⟨j, rfl⟩ := Nat.exists_eq_add_of_le (not_lt.1 hi')
            rw [hword j (by omega), hzero]
            exact zero_testBit j
          · exact bitAt_of_le (by omega)
      · rw [hend] at hi
        rw [hbefore i (by omega), ih.last i hi]
    · have hne : word.toNat ≠ 0 := fun h => hzero (UInt64.toNat_inj.1 h)
      have hlog : word.toNat.log2 < 64 := (log2_lt hne).2 word.toNat_lt
      have hend : (scanWord (scanWords bm) (word, bm.length)).2 =
          bm.length * 64 + word.toNat.log2 + 1 := by
        rw [scanWord, if_pos hzero]
      refine ⟨?_, by omega, fun i hi => ?_, fun i hi => ?_⟩
      · rw [hlen, rank_add, rank_congr hbefore, rank_congr hword, ← ih.ones]
        rfl
      · by_cases hin : i < 64 * bm.length + 64
        · obtain ⟨j, rfl⟩ := Nat.exists_eq_add_of_le (show 64 * bm.length ≤ i by omega)
          rw [hword j (by omega)]
          refine testBit_lt_two_pow ((log2_lt hne).1 ?_)
          omega
        · exact bitAt_of_le (by omega)
      · obtain rfl : i = 64 * bm.length + word.toNat.log2 := by omega
        rw [hword _ hlog]
        exact testBit_log2 hne

/-! ### The trie of a set -/

namespace SuccinctSet

variable (set : SuccinctSet)

/-- The bits of the nodes. -/
def one : ℕ → Bool := bitAt set.labelBitmap

/-- The number of the nodes, which is the number of ones. -/
def nodes : ℕ := (scanWords set.labelBitmap).1

/-- The end of the last one. -/
def extent : ℕ := (scanWords set.labelBitmap).2

/-- The number of bits there are. -/
def size : ℕ := 64 * set.labelBitmap.length

theorem scanned : Scanned set.labelBitmap (set.nodes, set.extent) :=
  scanned_scanWords set.labelBitmap

theorem rank_size : rank set.one set.size = set.nodes := set.scanned.ones.symm

theorem rank_extent : rank set.one set.extent = set.nodes := by
  rw [← set.rank_size]
  exact (rank_eq_of_le set.scanned.extent_le set.scanned.beyond).symm

theorem nodes_eq : set.nodes = set.labels.length + 1 := by
  rw [set.labels_length]
  exact set.balanced

theorem zeros_extent : zeros set.one set.extent = set.labels.length := by
  have hsum : rank set.one set.extent + zeros set.one set.extent = set.extent :=
    rank_add_zeros set.extent
  have hlabels : set.labels.length = set.extent - set.nodes := set.labels_length
  rw [set.rank_extent] at hsum
  omega

variable {set} {p : ℕ}

theorem lt_extent (h : rank set.one p < set.nodes) : p < set.extent := by
  rw [← set.rank_extent] at h
  exact lt_of_rank_lt h

theorem lt_size (h : rank set.one p < set.nodes) : p < set.size :=
  (lt_extent h).trans_le set.scanned.extent_le

theorem succ_lt_size (hzero : set.one p = false)
    (h : rank set.one p < set.nodes) : p + 1 < set.size := by
  have hp := lt_extent h
  have hle : set.extent ≤ set.size := set.scanned.extent_le
  by_contra hend
  have hlast : set.one p := set.scanned.last p (show set.extent = p + 1 by omega)
  rw [hlast] at hzero
  cases hzero

theorem zeros_succ_lt (hzero : set.one p = false) (hp : p < set.extent) :
    zeros set.one p + 1 < set.nodes := by
  have hmono : zeros set.one (p + 1) ≤ zeros set.one set.extent := zeros_mono hp
  rw [zeros_succ_of_zero hzero, set.zeros_extent] at hmono
  have := set.nodes_eq
  omega

theorem exists_start (hzero : set.one p = false) (hp : p < set.extent) :
    ∃ a, select set.one set.size (zeros set.one p) = some a := by
  have hlt := zeros_succ_lt hzero hp
  exact exists_select (by rw [set.rank_size]; omega)

variable (set)

/-- The label at a zero in the run of the node `n`. -/
def labelAt (n p : ℕ) : Option UInt8 := if n ≤ p then set.labels[p - n]? else none

theorem exists_labelAt (hzero : set.one p = false) (hp : p < set.extent) :
    ∃ label, set.labelAt (rank set.one p) p = some label := by
  have hsum : rank set.one p + zeros set.one p = p := rank_add_zeros p
  have hlt := zeros_succ_lt hzero hp
  have hnodes := set.nodes_eq
  rw [labelAt, if_pos (by omega)]
  exact ⟨_, getElem?_eq_getElem (by omega)⟩

/-- **The nodes with their names**: a node has the labels on the way to it for a name. -/
inductive Named : ℕ → GoString → Prop where
  | root : Named 0 []
  | down {p : ℕ} {name : GoString} {label : UInt8} (zero : set.one p = false)
      (parent : Named (rank set.one p) name)
      (edge : set.labelAt (rank set.one p) p = some label) :
      Named (zeros set.one p + 1) (name ++ [label])

variable {set} {name : GoString} {n : ℕ}

theorem Named.lt_nodes (h : set.Named n name) : n < set.nodes := by
  induction h with
  | root => rw [set.nodes_eq]; omega
  | down hzero _ _ ih => exact zeros_succ_lt hzero (lt_extent ih)

theorem Named.reached (h : set.Named n name) : Reached set.one n := by
  induction h with
  | root => exact .root
  | down hzero _ _ ih => exact .down hzero ih

theorem Named.unique {name name' : GoString} (h : set.Named n name)
    (h' : set.Named n name') : name = name' := by
  induction h generalizing name' with
  | root => cases h'; rfl
  | @down p name label hzero parent edge ih =>
    generalize hn : zeros set.one p + 1 = n at h'
    cases h' with
    | root => omega
    | @down q _ _ hzero' parent' edge' =>
      obtain rfl : q = p := zero_injective hzero' hzero (by omega)
      rw [ih parent', some.inj (edge.symm.trans edge')]

/-! ### The walk -/

variable (set)

/-- The positions that 32-bit numbers can say. -/
def indexLimit : ℕ := 2 ^ 31

/-- `countZeros`: the source counts the ones before `i` with the help of a table. -/
def countZeros (i : ℕ) : Option ℕ :=
  if i < indexLimit ∧ i < set.size then some (i - rank set.one i) else none

/-- `selectIthOne`: the source finds the one with the number `i` with the help of two tables. -/
def selectIthOne (i : ℕ) : Option ℕ :=
  (select set.one set.size i).filter (· < indexLimit)

/-- What `keys` computes at a zero: the label, the node the zero leads to, where its run begins, and
whether a name ends there. -/
def edge (n p : ℕ) : Option (UInt8 × ℕ × ℕ × Bool) := do
  let label ← set.labelAt n p
  let nextNodeId ← set.countZeros (p + 1)
  let nextBmIdx ← set.selectIthOne (nextNodeId - 1)
  let isLeaf ← getBit set.leaves nextNodeId
  return (label, nextNodeId, nextBmIdx + 1, isLeaf)

/-- The loop of `keys`.  It gives `none` if the fuel runs out, and `some none` for an index out of
range. -/
def keysLoop : ℕ → List (ℕ × ℕ) → GoString → List GoString → Option (Option (List GoString))
  | _, [], _, result => some (some result)
  | 0, _ :: _, _, _ => none
  | fuel + 1, (nodeId, bmIdx) :: rest, currentKey, result =>
    match getBit set.labelBitmap bmIdx with
    | none => some none
    | some true =>
      match rest with
      | [] => keysLoop fuel [] currentKey result
      | (parent, parentBmIdx) :: below =>
        if currentKey.isEmpty then some none
        else keysLoop fuel ((parent, parentBmIdx + 1) :: below) currentKey.dropLast result
    | some false =>
      match set.edge nodeId bmIdx with
      | none => some none
      | some (label, nextNodeId, nextBmIdx, isLeaf) =>
        keysLoop fuel ((nextNodeId, nextBmIdx) :: (nodeId, bmIdx) :: rest)
          (currentKey ++ [label])
          (if isLeaf then result ++ [currentKey ++ [label]] else result)

/-- The rounds that the loop makes at most: one for every node and one for every zero. -/
def keysFuel : ℕ := 2 * set.labels.length + 1

/-- `keys`, or `none` if it panics. -/
def keys : Option (List GoString) := do
  let isLeaf ← getBit set.leaves 0
  (set.keysLoop set.keysFuel [(0, 0)] [] (if isLeaf then [[]] else [])).getD none

/-- A name ends at the node. -/
def isLeaf (n : ℕ) : Bool := bitAt set.leaves n

/-- The walk can go down at this zero: its position and the run it leads to can be said with 32
bits. -/
def EdgeIndexed (p : ℕ) : Prop :=
  p + 1 < indexLimit ∧
    ∀ a ∈ select set.one set.size (zeros set.one p), a < indexLimit

/-- All zeros of the nodes below the root can be gone down. -/
def Indexed : Prop :=
  ∀ p name, set.one p = false → set.Named (rank set.one p) name → set.EdgeIndexed p

variable {set}

theorem getBit_leaves (h : n < set.nodes) : getBit set.leaves n = some (set.isLeaf n) := by
  have hleaves : set.nodes ≤ 64 * set.leaves.length := set.leaves_length
  exact getBit_of_lt (by omega)

variable {label : UInt8}

theorem edge_eq {p a : ℕ} (hzero : set.one p = false)
    (hp : rank set.one p < set.nodes) (hlabel : set.labelAt (rank set.one p) p = some label)
    (ha : select set.one set.size (zeros set.one p) = some a) (hindexed : set.EdgeIndexed p) :
    set.edge (rank set.one p) p = some
      (label, zeros set.one p + 1, a + 1, set.isLeaf (zeros set.one p + 1)) := by
  have hsum : rank set.one p + zeros set.one p = p := rank_add_zeros p
  have hcount : set.countZeros (p + 1) = some (zeros set.one p + 1) := by
    rw [countZeros, if_pos ⟨hindexed.1, succ_lt_size hzero hp⟩, rank_succ_of_zero hzero]
    congr 1
    omega
  have hselect : set.selectIthOne (zeros set.one p + 1 - 1) = some a := by
    rw [Nat.add_sub_cancel, selectIthOne, ha]
    simp [Option.filter, hindexed.2 a ha]
  have hleaf := getBit_leaves (zeros_succ_lt hzero (lt_extent hp))
  rw [edge, hlabel]
  simp only [bind_eq_bind, bind_some, hcount, hselect, hleaf]
  rfl

theorem edge_eq_none (hzero : set.one p = false) (hindexed : ¬set.EdgeIndexed p) :
    set.edge n p = none := by
  have hsum : rank set.one p + zeros set.one p = p := rank_add_zeros p
  rw [edge]
  cases set.labelAt n p with
  | none => rfl
  | some label =>
    simp only [bind_eq_bind, bind_some]
    rw [countZeros]
    split
    case isFalse => rfl
    case isTrue hlimit =>
        have hnumber : p + 1 - rank set.one (p + 1) - 1 = zeros set.one p := by
          rw [rank_succ_of_zero hzero]
          omega
        have hselect : set.selectIthOne (zeros set.one p) = none := by
          rw [selectIthOne, filter_eq_none_iff]
          intro a ha hlt
          refine hindexed ⟨hlimit.1, fun a' ha' => ?_⟩
          obtain rfl : a = a' := some.inj (ha.symm.trans ha')
          exact of_decide_eq_true hlt
        rw [bind_some, hnumber, hselect]
        rfl

/-! ### The invariant of the walk -/

variable (set)

/-- The current key is the name of the node on the top of the stack, and without its last label that
of the node below it, and so on. -/
inductive Keyed : List (ℕ × ℕ) → GoString → Prop where
  | bottom {f : ℕ × ℕ} {key : GoString} (name : set.Named f.1 key) : Keyed [f] key
  | frame {f g : ℕ × ℕ} {rest : List (ℕ × ℕ)} {key : GoString} {label : UInt8}
      (below : Keyed (g :: rest) key) (name : set.Named f.1 (key ++ [label])) :
      Keyed (f :: g :: rest) (key ++ [label])

/-- **The invariant of the loop**, by the zeros that were gone down: the result has the names that
end at the nodes that were entered. -/
structure Walking (stack : List (ℕ × ℕ)) (currentKey : GoString) (result : List GoString)
    (visited : List ℕ) : Prop where
  walked : Walked set.one stack visited
  keyed : stack ≠ [] → set.Keyed stack currentKey
  indexed : ∀ q ∈ visited, set.EdgeIndexed q
  parents : ∀ q ∈ visited, ∃ name, set.Named (rank set.one q) name
  sound : ∀ name ∈ result, ∃ n, set.Named n name ∧ set.isLeaf n
  root : set.isLeaf 0 → [] ∈ result
  complete : ∀ q ∈ visited, ∀ name, set.Named (zeros set.one q + 1) name →
    set.isLeaf (zeros set.one q + 1) → name ∈ result
  length_le : result.length ≤ visited.length + 1

variable {set}
variable {n p : ℕ} {rest stack : List (ℕ × ℕ)} {currentKey : GoString} {result : List GoString}
  {visited : List ℕ}

theorem Keyed.named (h : set.Keyed ((n, p) :: rest) currentKey) : set.Named n currentKey := by
  cases h with
  | bottom name => exact name
  | frame _ name => exact name

theorem Keyed.advance (h : set.Keyed ((n, p) :: rest) currentKey) (p' : ℕ) :
    set.Keyed ((n, p') :: rest) currentKey := by
  cases h with
  | bottom name => exact .bottom name
  | frame below name => exact .frame below name

theorem walking_initial :
    set.Walking [(0, 0)] [] (if set.isLeaf 0 then [[]] else []) [] where
  walked := walked_initial
  keyed := fun _ => .bottom .root
  indexed := by simp
  parents := by simp
  sound := by
    intro name hname
    split at hname
    · rw [mem_singleton] at hname
      exact ⟨0, hname ▸ .root, ‹_›⟩
    · simp at hname
  root := by
    intro hleaf
    rw [if_pos hleaf]
    exact mem_cons_self
  complete := by simp
  length_le := by split <;> simp

theorem Walking.visited_length_le (h : set.Walking stack currentKey result visited) :
    visited.length ≤ set.labels.length := by
  rw [← set.zeros_extent]
  refine h.walked.length_le fun q hq => ?_
  obtain ⟨name, hname⟩ := h.parents q hq
  exact lt_extent hname.lt_nodes

theorem Walking.rank_top (h : set.Walking ((n, p) :: rest) currentKey result visited) :
    rank set.one p = n := (h.walked.top (n, p) rfl).1

theorem Walking.named_top (h : set.Walking ((n, p) :: rest) currentKey result visited) :
    set.Named n currentKey := (h.keyed (List.cons_ne_nil _ _)).named

theorem Walking.pop {n' p' : ℕ} {key : GoString}
    (h : set.Walking ((n, p) :: (n', p') :: rest) (key ++ [label]) result visited)
    (hkey : set.Keyed ((n', p') :: rest) key) (hone : set.one p) :
    set.Walking ((n', p' + 1) :: rest) key result visited where
  walked := h.walked.pop hone
  keyed := fun _ => hkey.advance (p' + 1)
  indexed := h.indexed
  parents := h.parents
  sound := h.sound
  root := h.root
  complete := h.complete
  length_le := h.length_le

theorem Walking.finish (h : set.Walking [(n, p)] currentKey result visited)
    (hone : set.one p) : set.Walking [] currentKey result visited where
  walked := h.walked.finish hone
  keyed := fun hne => absurd rfl hne
  indexed := h.indexed
  parents := h.parents
  sound := h.sound
  root := h.root
  complete := h.complete
  length_le := h.length_le

theorem Walking.push {a : ℕ} (h : set.Walking ((n, p) :: rest) currentKey result visited)
    (hzero : set.one p = false) (hlabel : set.labelAt n p = some label)
    (ha : select set.one set.size (zeros set.one p) = some a) (hindexed : set.EdgeIndexed p) :
    set.Walking ((zeros set.one p + 1, a + 1) :: (n, p) :: rest) (currentKey ++ [label])
      (if set.isLeaf (zeros set.one p + 1) then result ++ [currentKey ++ [label]]
        else result) (p :: visited) := by
  have hrank := h.rank_top
  have hnamed := h.named_top
  have hchild : set.Named (zeros set.one p + 1) (currentKey ++ [label]) := by
    subst hrank
    exact .down hzero hnamed hlabel
  have hsubset : ∀ name ∈ result, name ∈
      if set.isLeaf (zeros set.one p + 1) then result ++ [currentKey ++ [label]] else result := by
    intro name hname
    split
    · exact mem_append_left _ hname
    · exact hname
  obtain ⟨-, hone, hstart⟩ := select_eq_some.1 ha
  refine ⟨h.walked.push hzero hone hstart, fun _ => .frame (h.keyed (cons_ne_nil _ _)) hchild,
    List.forall_mem_cons.2 ⟨hindexed, h.indexed⟩,
    List.forall_mem_cons.2 ⟨⟨currentKey, hrank ▸ hnamed⟩, h.parents⟩,
    fun name hname => ?_, fun hleaf => hsubset _ (h.root hleaf),
    fun q hq name hname hleaf => ?_, ?_⟩
  · split at hname
    · rcases List.mem_append.1 hname with hname | hname
      · exact h.sound name hname
      · rw [mem_singleton] at hname
        exact ⟨_, hname ▸ hchild, ‹_›⟩
    · exact h.sound name hname
  · rcases List.mem_cons.1 hq with rfl | hq
    · rw [if_pos hleaf, hname.unique hchild]
      exact mem_append_right _ (mem_singleton_self _)
    · exact hsubset name (h.complete q hq name hname hleaf)
  · have := h.length_le
    split
    · rw [length_append, length_singleton, length_cons]
      omega
    · rw [length_cons]
      omega

theorem keysLoop_of_zero {fuel : ℕ} (hbit : getBit set.labelBitmap p = some false) :
    set.keysLoop (fuel + 1) ((n, p) :: rest) currentKey result =
      match set.edge n p with
      | none => some none
      | some (label, nextNodeId, nextBmIdx, isLeaf) =>
        set.keysLoop fuel ((nextNodeId, nextBmIdx) :: (n, p) :: rest) (currentKey ++ [label])
          (if isLeaf then result ++ [currentKey ++ [label]] else result) := by
  cases rest with
  | nil | cons g rest => rw [keysLoop, hbit]

/-- **The loop comes to an end**: with fuel for the zeros that were not gone down and the frames on
the stack it returns, or it panics at a position that is out of range. -/
theorem keysLoop_spec {fuel : ℕ} (h : set.Walking stack currentKey result visited)
    (hfuel : 2 * (set.labels.length - visited.length) + stack.length ≤ fuel) :
    (∃ result' key' visited', set.keysLoop fuel stack currentKey result = some (some result') ∧
      set.Walking [] key' result' visited') ∨
    (set.keysLoop fuel stack currentKey result = some none ∧ ¬set.Indexed) := by
  -- a round that goes down uses up a zero and adds a frame, a round that goes back takes one away
  induction fuel generalizing stack currentKey result visited with
  | zero =>
    obtain rfl : stack = [] := List.length_eq_zero_iff.1 (by omega)
    exact .inl ⟨result, currentKey, visited, rfl, h⟩
  | succ fuel ih =>
    cases stack with
    | nil => exact .inl ⟨result, currentKey, visited, rfl, h⟩
    | cons f rest =>
      obtain ⟨n, p⟩ := f
      have hrank := h.rank_top
      have hnamed := h.named_top
      have hlt : rank set.one p < set.nodes := hrank ▸ hnamed.lt_nodes
      have hbit : getBit set.labelBitmap p = some (set.one p) := getBit_of_lt (lt_size hlt)
      rw [length_cons] at hfuel
      cases hone : set.one p with
      | true =>
        rw [hone] at hbit
        cases rest with
        | nil =>
          rw [keysLoop, hbit]
          exact ih (h.finish hone) (by rw [length_nil] at hfuel ⊢; omega)
        | cons g rest =>
          obtain ⟨n', p'⟩ := g
          cases h.keyed (cons_ne_nil _ _) with
          | @frame _ _ _ key label below _ =>
            have hne : (key ++ [label]).isEmpty = false := by simp
            rw [keysLoop, hbit]
            dsimp only
            rw [hne, dropLast_concat]
            exact ih (h.pop below hone) (by rw [length_cons] at hfuel ⊢; omega)
      | false =>
        rw [hone] at hbit
        by_cases hindexed : set.EdgeIndexed p
        · obtain ⟨label, hlabel⟩ := set.exists_labelAt hone (lt_extent hlt)
          obtain ⟨a, ha⟩ := exists_start hone (lt_extent hlt)
          have hedge := edge_eq hone hlt hlabel ha hindexed
          rw [hrank] at hedge hlabel
          have hnext := h.push hone hlabel ha hindexed
          have hvisited := hnext.visited_length_le
          rw [keysLoop_of_zero hbit, hedge]
          refine ih hnext ?_
          rw [length_cons] at hvisited
          rw [length_cons, length_cons, length_cons]
          omega
        · refine .inr ⟨?_, fun hall => hindexed (hall p currentKey hone (hrank ▸ hnamed))⟩
          rw [keysLoop_of_zero hbit, edge_eq_none hone hindexed]

/-! ### The names of a set -/

theorem Walking.indexed_of_finished (h : set.Walking [] currentKey result visited) : set.Indexed :=
  fun p _ hzero hname => h.indexed p (h.walked.complete hname.reached hzero rfl)

theorem Walking.mem_iff (h : set.Walking [] currentKey result visited) :
    name ∈ result ↔ ∃ n, set.Named n name ∧ set.isLeaf n := by
  refine ⟨h.sound name, ?_⟩
  rintro ⟨n, hname, hleaf⟩
  cases hname with
  | root => exact h.root hleaf
  | @down p _ _ hzero hparent hedge =>
    exact h.complete p (h.walked.complete hparent.reached hzero rfl) _
      (.down hzero hparent hedge) hleaf

theorem keys_spec (set : SuccinctSet) :
    (∃ result key visited, set.keys = some result ∧ set.Walking [] key result visited) ∨
      (set.keys = none ∧ ¬set.Indexed) := by
  have hroot : getBit set.leaves 0 = some (set.isLeaf 0) :=
    getBit_leaves (by rw [set.nodes_eq]; omega)
  have hkeys : set.keys =
      (set.keysLoop set.keysFuel [(0, 0)] [] (if set.isLeaf 0 then [[]] else [])).getD none := by
    rw [keys, hroot]
    rfl
  rcases keysLoop_spec walking_initial (show _ ≤ set.keysFuel from le_rfl) with
    ⟨result, key, visited, hloop, hwalking⟩ | ⟨hloop, hnot⟩
  · exact .inl ⟨result, key, visited, by rw [hkeys, hloop]; rfl, hwalking⟩
  · exact .inr ⟨by rw [hkeys, hloop]; rfl, hnot⟩

/-- **`keys` panics exactly if it comes to a position out of range.** -/
theorem keys_eq_none_iff (set : SuccinctSet) : set.keys = none ↔ ¬set.Indexed := by
  rcases keys_spec set with ⟨result, key, visited, hkeys, hwalking⟩ | ⟨hkeys, hnot⟩
  · rw [hkeys]
    exact ⟨fun h => (by cases h), fun h => absurd hwalking.indexed_of_finished h⟩
  · exact ⟨fun _ => hnot, fun _ => hkeys⟩

/-- **Otherwise it lists the names that end in the trie.** -/
theorem mem_keys_iff {names : List GoString} (h : set.keys = some names) :
    name ∈ names ↔ ∃ n, set.Named n name ∧ set.isLeaf n := by
  rcases keys_spec set with ⟨result, key, visited, hkeys, hwalking⟩ | ⟨hkeys, -⟩
  · obtain rfl : result = names := some.inj (hkeys.symm.trans h)
    exact hwalking.mem_iff
  · rw [hkeys] at h
    cases h

theorem length_keys_le {names : List GoString} (h : set.keys = some names) :
    names.length ≤ set.labels.length + 1 := by
  rcases keys_spec set with ⟨result, key, visited, hkeys, hwalking⟩ | ⟨hkeys, -⟩
  · obtain rfl : result = names := some.inj (hkeys.symm.trans h)
    have := hwalking.length_le
    have := hwalking.visited_length_le
    omega
  · rw [hkeys] at h
    cases h

end SuccinctSet

end SingBox
