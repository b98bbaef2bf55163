/-
**The first write of a fragmented connection** (`Conn.Write` in `common/tlsfragment/conn.go`).

The first write is cut inside the labels of its server name.  The pieces go out as segments, or each
as a record of its own, in one write or in one for each.  Of a name with a public suffix only the
first label is cut.  `rand.Intn` panics if it is asked for a place in an empty label.

* `TLSFragment.cuts_splitIndexes` — the places are in order, and inside the name;
* `TLSFragment.preserves_iff` — **the record is preserved exactly if no empty label is cut**;
* `TLSFragment.neverPanics_iff` — **for which bytes the write cannot panic**.
-/

import SingBox.Checked
import SingBox.GoString
import SingBox.TLSFragmentIndex

namespace SingBox.TLSFragment

open GoString Checked List

open ByteReader

/-! ### The write -/

/-- The labels that are cut, and where the first of them is. -/
def splitsOf (publicSuffix : GoString → GoString) (name : MyServerName) : ℕ × List GoString :=
  let splits := split 46 name.serverName
  let splits :=
    if publicSuffix name.serverName ≠ [] then
      splits.take (splits.length - name.serverName.count 46)
    else splits
  if 1 < splits.length ∧ splits.head? = some [46, 46, 46] then (name.index + 4, splits.tail)
  else (name.index, splits)

/-- A cut in each label.  The `i`-th call of `rand.Intn` chooses by `intn i`. -/
def splitIndexes (intn : ℕ → ℕ) : ℕ → ℕ → List GoString → Checked Unit (List ℕ)
  | _, _, [] => .ok []
  | i, currentIndex, split :: splits =>
    if split.length = 0 then .panicked
    else do
      let indexes ← splitIndexes intn (i + 1) (currentIndex + split.length + 1) splits
      return (currentIndex + intn i % split.length) :: indexes

/-- The bytes from a place on, cut at the indexes. -/
def piecesFrom (b : List UInt8) : ℕ → List ℕ → Checked Unit (List (List UInt8))
  | start, [] => do return [← sliceFrom b start]
  | start, i :: indexes => do
    let payload ← slice b start i
    let payloads ← piecesFrom b i indexes
    return payload :: payloads

/-- A record with the type and the version of the first one. -/
def recordOf (b payload : List UInt8) : List UInt8 :=
  b.take 3 ++ putBigEndian 2 (payload.length % 65536) ++ payload

/-- How `Conn` cuts. -/
structure Conn where
  splitPacket : Bool
  splitRecord : Bool

namespace Conn

/-- The writes for the pieces. -/
def writes (c : Conn) (b : List UInt8) : List (List UInt8) → Checked Unit (List (List UInt8))
  | [] => .ok []
  | payload :: payloads =>
    if c.splitRecord then do
      let payload ← sliceFrom payload 5
      let records := (payload :: payloads).map (recordOf b)
      return if c.splitPacket then records else [records.flatten]
    else .ok (if c.splitPacket then payload :: payloads else [])

/-- The first call of `Write`: what is written, if every write succeeds. -/
def write (c : Conn) (publicSuffix : GoString → GoString) (intn : ℕ → ℕ) (fuel : ℕ)
    (b : List UInt8) : Checked Unit (List (List UInt8)) :=
  match indexTLSServerName fuel b with
  | none => .exhausted
  | some none => .ok [b]
  | some (some name) => do
    let indexes ← splitIndexes intn 0 (splitsOf publicSuffix name).1 (splitsOf publicSuffix name).2
    -- the first piece is `b[:splitIndexes[0]]`
    let _ ← index indexes 0
    let payloads ← piecesFrom b 0 indexes
    c.writes b payloads

/-- The segments are the bytes that were to be written; or there are records with the type and the
version of the original one and correct lengths, whose payloads are its payload. -/
def Preserves (c : Conn) (b : List UInt8) (written : List (List UInt8)) : Prop :=
  if c.splitRecord then
    ∃ payloads : List (List UInt8), (∀ payload ∈ payloads, payload.length < 65536) ∧
      payloads.flatten = b.drop 5 ∧ written =
        (let records := payloads.map fun payload =>
          b.take 3 ++ putBigEndian 2 payload.length ++ payload
        if c.splitPacket then records else [records.flatten])
  else written.flatten = b

end Conn

/-- Exactly one record. -/
def OneRecord (b : List UInt8) : Prop :=
  isRecord b ∧ b.length = 5 + ofBigEndian ((b.drop 3).take 2)

/-! ### Cuts -/

/-- Cuts in order, between two places. -/
def Cuts (hi : ℕ) : ℕ → List ℕ → Prop
  | lo, [] => lo ≤ hi
  | lo, i :: indexes => lo ≤ i ∧ Cuts hi i indexes

variable {indexes : List ℕ}

theorem Cuts.le {hi lo : ℕ} (h : Cuts hi lo indexes) : lo ≤ hi := by
  induction indexes generalizing lo with
  | nil => exact h
  | cons i indexes ih => exact h.1.trans (ih h.2)

variable {b : List UInt8}

theorem piecesFrom_eq {start : ℕ} (h : Cuts b.length start indexes) :
    ∃ payloads, piecesFrom b start indexes = .ok payloads ∧ payloads.flatten = b.drop start := by
  induction indexes generalizing start with
  | nil =>
    refine ⟨[b.drop start], ?_, append_nil _⟩
    rw [piecesFrom, sliceFrom_eq h]
    rfl
  | cons i indexes ih =>
    obtain ⟨payloads, hpayloads, hflatten⟩ := ih h.2
    refine ⟨(b.take i).drop start :: payloads, ?_, ?_⟩
    · rw [piecesFrom, slice_eq h.1 h.2.le, ok_bind, hpayloads]
      rfl
    · rw [flatten_cons, hflatten, drop_take]
      have hdrop : b.drop i = (b.drop start).drop (i - start) := by
        rw [drop_drop, Nat.add_sub_cancel' h.1]
      rw [hdrop, take_append_drop]

theorem piecesFrom_eq_panicked {i : ℕ} (hi : b.length < i)
    (hmem : i ∈ indexes) (start : ℕ) : piecesFrom b start indexes = .panicked := by
  induction indexes generalizing start with
  | nil => cases hmem
  | cons j indexes ih =>
    rw [piecesFrom]
    by_cases hj : start ≤ j ∧ j ≤ b.length
    · rcases List.mem_cons.1 hmem with rfl | hmem
      · omega
      · rw [slice_eq hj.1 hj.2, ok_bind, ih hmem]
        rfl
    · rw [slice_eq_panicked hj]
      rfl

/-- The room that labels need, with a dot behind each. -/
def room (splits : List GoString) : ℕ := (splits.map fun split => split.length + 1).sum

variable {splits : List GoString}

theorem cuts_splitIndexes (intn : ℕ → ℕ) (hne : [] ∉ splits) {i currentIndex lo hi : ℕ}
    (hlo : lo ≤ currentIndex) (hhi : lo ≤ hi) (hroom : currentIndex + room splits ≤ hi + 2) :
    ∃ indexes, splitIndexes intn i currentIndex splits = .ok indexes ∧ Cuts hi lo indexes ∧
      indexes.length = splits.length := by
  induction splits generalizing i currentIndex lo with
  | nil => exact ⟨[], rfl, hhi, rfl⟩
  | cons split splits ih =>
    rw [mem_cons, not_or] at hne
    have hpos : 0 < split.length := List.length_pos_iff.2 (Ne.symm hne.1)
    have hlt := Nat.mod_lt (intn i) hpos
    simp only [room, map_cons, sum_cons] at hroom
    obtain ⟨indexes, hindexes, hcuts, hlen⟩ : ∃ indexes,
        splitIndexes intn (i + 1) (currentIndex + split.length + 1) splits = .ok indexes ∧
          Cuts hi (currentIndex + intn i % split.length) indexes ∧
          indexes.length = splits.length :=
      ih hne.2 (by omega) (by omega) (by simp only [room]; omega)
    refine ⟨(currentIndex + intn i % split.length) :: indexes, ?_, ⟨by omega, hcuts⟩,
      congrArg (· + 1) hlen⟩
    rw [splitIndexes, if_neg (by omega), hindexes]
    rfl

theorem splitIndexes_eq_panicked (intn : ℕ → ℕ) (hmem : [] ∈ splits)
    (i currentIndex : ℕ) : splitIndexes intn i currentIndex splits = .panicked := by
  induction splits generalizing i currentIndex with
  | nil => cases hmem
  | cons split splits ih =>
    rw [splitIndexes]
    split
    · rfl
    · rename_i hsplit
      rcases List.mem_cons.1 hmem with rfl | hmem
      · exact absurd rfl hsplit
      · rw [ih hmem]
        rfl

theorem mem_splitIndexes {last : GoString}
    (hlast : splits.getLast? = some last) {i currentIndex : ℕ}
    (h : splitIndexes (fun _ => last.length - 1) i currentIndex splits = .ok indexes) :
    currentIndex + room splits - 2 ∈ indexes := by
  induction splits generalizing i currentIndex indexes with
  | nil => cases hlast
  | cons split splits ih =>
    rw [splitIndexes] at h
    split at h
    · cases h
    · rename_i hsplit
      obtain ⟨rest, hrest, hindexes⟩ := bind_eq_ok.1 h
      cases hindexes
      cases splits with
      | nil =>
        obtain rfl := Option.some.inj (getLast?_singleton ▸ hlast)
        have hmod : (split.length - 1) % split.length = split.length - 1 :=
          Nat.mod_eq_of_lt (by omega)
        simp only [room, map_cons, map_nil, sum_cons, sum_nil, hmod]
        exact List.mem_cons.2 (.inl (by omega))
      | cons next splits =>
        have hmem := ih (getLast?_cons_cons ▸ hlast) hrest
        have hroom : currentIndex + room (split :: next :: splits) =
            currentIndex + split.length + 1 + room (next :: splits) := by
          simp only [room, map_cons, sum_cons]
          omega
        exact mem_cons_of_mem _ (hroom ▸ hmem)

/-! ### Labels -/

section

variable {c : UInt8}

theorem room_split (s : GoString) : room (split c s) = s.length + 1 := by
  induction s with
  | nil => rfl
  | cons x s ih =>
    rw [split]
    split
    · simp only [room, map_cons, sum_cons, length_nil, length_cons] at ih ⊢
      omega
    · cases hsplit : split c s with
      | nil => simp [hsplit, room] at ih
      | cons w ws =>
        simp only [hsplit, room, map_cons, sum_cons, length_cons] at ih ⊢
        omega

theorem length_split (s : GoString) : (split c s).length = s.count c + 1 := by
  induction s with
  | nil => rfl
  | cons x s ih =>
    rw [split]
    split
    · rename_i hx
      rw [length_cons, ih, hx, count_cons_self]
    · rename_i hx
      rw [count_cons_of_ne hx, ← ih]
      cases hsplit : split c s with
      | nil => simp [hsplit] at ih
      | cons w ws => rfl

theorem head_split {s : GoString} (hne : s ≠ []) (hdot : s.head? ≠ some c) :
    ∃ x w ws, split c s = (x :: w) :: ws := by
  cases s with
  | nil => exact absurd rfl hne
  | cons x s =>
    have hx : x ≠ c := fun h => hdot (congrArg some h)
    rw [split, if_neg hx]
    cases split c s with
    | nil => exact ⟨x, [], [], rfl⟩
    | cons w ws => exact ⟨x, w, ws, rfl⟩

/-- The labels that are cut: the first one, if the name has a public suffix. -/
def labelsOf (publicSuffix : GoString → GoString) (name : GoString) : List GoString :=
  if publicSuffix name ≠ [] then (split 46 name).take 1 else split 46 name

variable (publicSuffix : GoString → GoString)

/-- No label has dots in it, so the branch for one of three dots is never taken. -/
theorem splitsOf_eq (name : MyServerName) :
    splitsOf publicSuffix name = (name.index, labelsOf publicSuffix name.serverName) := by
  have hone : (split 46 name.serverName).length - name.serverName.count 46 = 1 := by
    rw [length_split]
    omega
  rw [splitsOf, hone]
  refine if_neg fun h => ?_
  have hmem : [46, 46, 46] ∈ split 46 name.serverName := by
    have hhead := mem_of_mem_head? h.2
    split at hhead
    · exact mem_of_mem_take hhead
    · exact hhead
  exact not_mem_of_mem_split hmem (by simp)

theorem labelsOf_ne_nil (name : GoString) : labelsOf publicSuffix name ≠ [] := by
  have hlen := length_split (c := 46) name
  rw [labelsOf]
  cases hsplit : split 46 name with
  | nil => simp [hsplit] at hlen
  | cons w ws => split <;> exact cons_ne_nil _ _

theorem room_labelsOf_le (name : GoString) :
    room (labelsOf publicSuffix name) ≤ name.length + 1 := by
  rw [← room_split (c := 46), labelsOf]
  split
  · have hsplit := congrArg room (take_append_drop 1 (split 46 name))
    simp only [room, map_append, sum_append] at hsplit ⊢
    omega
  · rfl

end

/-! ### One record -/

theorem reaches_zero {exs : List UInt8} {o k : ℕ} (h : Reaches exs o k)
    (hlen : exs.length < 65536) : k = 0 := by
  induction h with
  | start => rfl
  | next h hext htype ih =>
    have hlength := (length_of_nextExtension hext).1
    rw [length_drop] at hlength
    omega

theorem OneRecord.lt (hb : OneRecord b) : b.length < 65541 := by
  have hle : ((b.drop 3).take 2).length ≤ 2 := length_take_le _ _
  have hlt : ofBigEndian ((b.drop 3).take 2) < 65536 :=
    calc ofBigEndian ((b.drop 3).take 2) < (0 + 1) * 256 ^ ((b.drop 3).take 2).length :=
          foldl_bigEndian_lt _ 0
      _ ≤ 65536 := by
          rw [Nat.zero_add, Nat.one_mul]
          exact Nat.pow_le_pow_right (by decide) hle
  have hlen := hb.2
  omega

theorem place_of_index {fuel : ℕ} {name : MyServerName}
    (h : indexTLSServerName fuel b = some (some name)) :
    ∃ start o k x y n₁ n₀ sex, extensionsAt b = some start ∧ 5 ≤ start ∧
      Reaches (b.drop (start + 2)) o k ∧
      nextExtension (b.drop (start + 2 + o)) = some (0, x :: y :: 0 :: n₁ :: n₀ :: sex) ∧
      name = ⟨start + 2 + o + 9 + 65536 * k, ofBigEndian [n₁, n₀], sex⟩ := by
  cases hat : extensionsAt b with
  | none =>
    rw [index_of_extensionsAt_none hat] at h
    cases h
  | some start =>
    have hstart : 5 ≤ start := by
      obtain ⟨-, hat⟩ := Option.ite_none_right_eq_some.1 hat
      cases hindex : extensionsIndex (b.drop 5) with
      | none =>
        rw [hindex] at hat
        cases hat
      | some currentIndex =>
        rw [hindex] at hat
        obtain ⟨_, _, rfl⟩ := Option.map_eq_some_iff.1 hat
        omega
    obtain ⟨o, k, x, y, n₁, n₀, sex, hfound⟩ := (found_iff hat name).1 ⟨fuel, h⟩
    exact ⟨start, o, k, x, y, n₁, n₀, sex, rfl, hstart, hfound⟩

theorem nameAt_of_oneRecord {fuel : ℕ} {name : MyServerName} (hb : OneRecord b)
    (h : indexTLSServerName fuel b = some (some name)) :
    NameAt b name.index name.serverName ∧ 5 ≤ name.index := by
  obtain ⟨start, o, k, x, y, n₁, n₀, sex, -, hstart, hreaches, hext, rfl⟩ := place_of_index h
  have hlen := hb.lt
  obtain rfl := reaches_zero hreaches (by rw [length_drop]; omega)
  exact ⟨nameAt_of_nextExtension hext, by dsimp only; omega⟩

theorem Conn.writes_preserves (c : Conn) (hc : c.splitPacket ∨ c.splitRecord)
    {b payload : List UInt8} {payloads : List (List UInt8)} (hb : OneRecord b)
    (hpayload : 5 ≤ payload.length) (hflatten : (payload :: payloads).flatten = b) :
    ∃ written, c.writes b (payload :: payloads) = .ok written ∧ c.Preserves b written := by
  rw [writes]
  cases hrecord : c.splitRecord with
  | false =>
    have hpacket : c.splitPacket := by simpa [hrecord] using hc
    refine ⟨payload :: payloads, ?_, ?_⟩
    · rw [if_neg Bool.false_ne_true, if_pos hpacket]
    · rw [Preserves, hrecord, if_neg Bool.false_ne_true]
      exact hflatten
  | true =>
    have hdrop : (payload.drop 5 :: payloads).flatten = b.drop 5 := by
      rw [← hflatten, flatten_cons, flatten_cons, drop_append_of_le_length hpayload]
    have hlt : ∀ p ∈ payload.drop 5 :: payloads, p.length < 65536 := by
      intro p hp
      have hle := (sublist_flatten_of_mem hp).length_le
      have hlen := hb.lt
      rw [hdrop, length_drop] at hle
      omega
    have hrecords : (payload.drop 5 :: payloads).map (recordOf b) =
        (payload.drop 5 :: payloads).map fun p => b.take 3 ++ putBigEndian 2 p.length ++ p :=
      map_congr_left fun p hp => by rw [recordOf, Nat.mod_eq_of_lt (hlt p hp)]
    rw [if_pos rfl, sliceFrom_eq hpayload, ok_bind, hrecords]
    refine ⟨_, rfl, ?_⟩
    rw [Preserves, hrecord, if_pos rfl]
    exact ⟨payload.drop 5 :: payloads, hlt, hdrop, rfl⟩

theorem Conn.exists_writes (c : Conn) {payload : List UInt8} (hpayload : 5 ≤ payload.length)
    (b : List UInt8) (payloads : List (List UInt8)) :
    ∃ written, c.writes b (payload :: payloads) = .ok written := by
  rw [writes]
  split
  · rw [sliceFrom_eq hpayload]
    exact ⟨_, rfl⟩
  · exact ⟨_, rfl⟩

section

variable (c : Conn) {publicSuffix : GoString → GoString} {b : List UInt8} {fuel : ℕ}
  {name : MyServerName} {intn : ℕ → ℕ}

theorem Conn.write_eq_panicked (hname : indexTLSServerName fuel b = some (some name))
    (hmem : [] ∈ labelsOf publicSuffix name.serverName) (intn : ℕ → ℕ) :
    c.write publicSuffix intn fuel b = .panicked := by
  rw [write, hname]
  dsimp only
  rw [splitsOf_eq, splitIndexes_eq_panicked intn hmem]
  rfl

theorem Conn.write_eq_bind (hname : indexTLSServerName fuel b = some (some name)) {i : ℕ}
    (hindexes : splitIndexes intn 0 name.index (labelsOf publicSuffix name.serverName) =
      .ok (i :: indexes)) :
    c.write publicSuffix intn fuel b = (piecesFrom b 0 (i :: indexes) >>= c.writes b) := by
  rw [write, hname]
  dsimp only
  rw [splitsOf_eq, hindexes]
  rfl

theorem exists_splitIndexes {labels : List GoString} (hlabels : labels ≠ [])
    (hne : [] ∉ labels) {index hi : ℕ} (hfive : 5 ≤ index) (hroom : index + room labels ≤ hi + 2) :
    ∃ i indexes, splitIndexes intn 0 index labels = .ok (i :: indexes) ∧
      Cuts hi 5 (i :: indexes) := by
  have hfits : 5 ≤ hi := by
    cases labels with
    | nil => exact absurd rfl hlabels
    | cons split splits =>
      have hpos : 0 < split.length := List.length_pos_iff.2 fun hnil => hne (hnil ▸ mem_cons_self)
      simp only [room, map_cons, sum_cons] at hroom
      omega
  obtain ⟨indexes, hindexes, hcuts, hlen⟩ :
      ∃ indexes, splitIndexes intn 0 index labels = .ok indexes ∧ Cuts hi 5 indexes ∧
        indexes.length = labels.length :=
    cuts_splitIndexes intn hne hfive hfits hroom
  cases indexes with
  | nil => exact absurd (List.length_eq_zero_iff.1 hlen.symm) hlabels
  | cons i indexes => exact ⟨i, indexes, hindexes, hcuts⟩

theorem Conn.write_cut (hname : indexTLSServerName fuel b = some (some name))
    (hfive : 5 ≤ name.index) (hne : [] ∉ labelsOf publicSuffix name.serverName)
    (hroom : name.index + room (labelsOf publicSuffix name.serverName) ≤ b.length + 2)
    (intn : ℕ → ℕ) : ∃ payload payloads,
      c.write publicSuffix intn fuel b = c.writes b (payload :: payloads) ∧
        5 ≤ payload.length ∧ (payload :: payloads).flatten = b := by
  obtain ⟨i, indexes, hindexes, hcuts⟩ := exists_splitIndexes (labelsOf_ne_nil _ _) hne hfive hroom
  obtain ⟨payloads, hpayloads, hflatten⟩ := piecesFrom_eq hcuts.2
  refine ⟨b.take i, payloads, ?_, ?_, ?_⟩
  · rw [c.write_eq_bind hname hindexes, piecesFrom, slice_eq (Nat.zero_le i) hcuts.2.le,
      ok_bind, hpayloads]
    rfl
  · rw [length_take]
    exact Nat.le_min.2 ⟨hcuts.1, hcuts.1.trans hcuts.2.le⟩
  · rw [flatten_cons, hflatten, take_append_drop]

end

/-- **The record is preserved, for all choices of the cuts, exactly if the name has a public suffix
or no empty label.** -/
theorem preserves_iff (c : Conn) (hc : c.splitPacket = true ∨ c.splitRecord = true)
    (publicSuffix : GoString → GoString) {b : List UInt8} {fuel : ℕ} {name : MyServerName}
    (hb : OneRecord b) (hname : indexTLSServerName fuel b = some (some name))
    (hne : name.serverName ≠ []) (hdot : name.serverName.head? ≠ some 46) :
    (∀ intn, ∃ written, c.write publicSuffix intn fuel b = .ok written ∧ c.Preserves b written) ↔
      publicSuffix name.serverName ≠ [] ∨ [] ∉ split 46 name.serverName := by
  constructor
  · intro h
    by_contra hnot
    rw [not_or, Decidable.not_not, Decidable.not_not] at hnot
    obtain ⟨written, hwritten, -⟩ := h fun _ => 0
    rw [c.write_eq_panicked hname (by rw [labelsOf, if_neg (not_not.2 hnot.1)]; exact hnot.2)]
      at hwritten
    cases hwritten
  · intro h intn
    have hlabels : [] ∉ labelsOf publicSuffix name.serverName := by
      obtain ⟨x, w, ws, hsplit⟩ := head_split hne hdot
      rw [labelsOf]
      split
      · rw [hsplit]
        simp
      · rename_i hsuffix
        exact h.resolve_left hsuffix
    obtain ⟨⟨hle, -⟩, hfive⟩ := nameAt_of_oneRecord hb hname
    have hroom := room_labelsOf_le publicSuffix name.serverName
    obtain ⟨payload, payloads, hwrite, hpayload, hflatten⟩ :=
      c.write_cut hname hfive hlabels (by omega) intn
    rw [hwrite]
    exact c.writes_preserves hc hb hpayload hflatten

/-- What the list of public suffixes has for names to which no rule of it applies. -/
def lastLabel (name : GoString) : GoString := (split 46 name).getLastD []

/-- A hello with a server name. -/
def helloFor (name : GoString) : List UInt8 :=
  let n := name.length
  [22, 3, 1] ++ putBigEndian 2 (56 + n) ++ [1] ++ putBigEndian 3 (52 + n) ++ [3, 3] ++
    List.replicate 32 0 ++ [0, 0, 2, 19, 1, 1, 0] ++ putBigEndian 2 (9 + n) ++ [0, 0] ++
    putBigEndian 2 (5 + n) ++ putBigEndian 2 (3 + n) ++ [0] ++ putBigEndian 2 n ++ name

theorem plainName_preserved : OneRecord (helloFor [97, 46, 98]) ∧
    ∀ intn, ∃ written,
      Conn.write ⟨true, true⟩ lastLabel intn 2 (helloFor [97, 46, 98]) = .ok written ∧
        Conn.Preserves ⟨true, true⟩ (helloFor [97, 46, 98]) written := by
  have hb : OneRecord (helloFor [97, 46, 98]) := ⟨by decide, by decide⟩
  have hname : indexTLSServerName 2 (helloFor [97, 46, 98]) =
      some (some ⟨61, 3, [97, 46, 98]⟩) := by decide
  exact ⟨hb, (preserves_iff ⟨true, true⟩ (.inl rfl) lastLabel hb hname (by decide) (by decide)).2
    (.inl (by decide))⟩

/-- **A name that ends in a dot makes the write panic.** -/
theorem trailingDot_panics : OneRecord (helloFor [97, 46]) ∧
    indexTLSServerName 2 (helloFor [97, 46]) = some (some ⟨61, 2, [97, 46]⟩) ∧
    Conn.write ⟨true, false⟩ lastLabel (fun _ => 0) 2 (helloFor [97, 46]) = .panicked := by
  refine ⟨⟨by decide, by decide⟩, by decide, rfl⟩

/-- **The first write never panics, whatever the cuts, exactly if no label that is cut is empty, and
if long extensions came before the name, the last cut lies in the bytes as well.** -/
theorem neverPanics_iff (c : Conn) (publicSuffix : GoString → GoString) (b : List UInt8) :
    (∀ intn fuel, c.write publicSuffix intn fuel b ≠ .panicked) ↔
      ∀ start o k x y n₁ n₀ name, extensionsAt b = some start →
        Reaches (b.drop (start + 2)) o k →
        nextExtension (b.drop (start + 2 + o)) = some (0, x :: y :: 0 :: n₁ :: n₀ :: name) →
          [] ∉ labelsOf publicSuffix name ∧ (k = 0 ∨
            start + 2 + o + 9 + 65536 * k + room (labelsOf publicSuffix name) ≤ b.length + 2) := by
  constructor
  · intro h start o k x y n₁ n₀ name hat hreaches hext
    obtain ⟨fuel, hname⟩ := (found_iff hat _).2 ⟨o, k, x, y, n₁, n₀, name, hreaches, hext, rfl⟩
    have hne : [] ∉ labelsOf publicSuffix name := fun hmem =>
      h (fun _ => 0) fuel (c.write_eq_panicked hname hmem _)
    refine ⟨hne, or_iff_not_imp_right.2 fun hout => ?_⟩
    -- With the last place of the last label, a slice would end behind the bytes.
    obtain ⟨last, hlast⟩ := Option.ne_none_iff_exists'.1
      (mt List.getLast?_eq_none_iff.1 (labelsOf_ne_nil publicSuffix name))
    have hfive : 5 ≤ start + 2 + o + 9 + 65536 * k := by omega
    obtain ⟨i, indexes, hindexes, -⟩ := exists_splitIndexes
      (labelsOf_ne_nil publicSuffix name) hne hfive (Nat.le_add_right _ 2)
    refine absurd ?_ (h (fun _ => last.length - 1) fuel)
    rw [c.write_eq_bind hname hindexes,
      piecesFrom_eq_panicked (by omega) (mem_splitIndexes hlast hindexes)]
    rfl
  · intro h intn fuel hpanicked
    cases hindex : indexTLSServerName fuel b with
    | none =>
      rw [Conn.write, hindex] at hpanicked
      cases hpanicked
    | some found =>
      cases found with
      | none =>
        rw [Conn.write, hindex] at hpanicked
        cases hpanicked
      | some name =>
        obtain ⟨start, o, k, x, y, n₁, n₀, sex, hat, hstart, hreaches, hext, rfl⟩ :=
          place_of_index hindex
        obtain ⟨hne, hk⟩ := h start o k x y n₁ n₀ sex hat hreaches hext
        have hle := (nameAt_of_nextExtension hext).1
        have hroom := room_labelsOf_le publicSuffix sex
        obtain ⟨payload, payloads, hwrite, hpayload, -⟩ := c.write_cut hindex
          (by dsimp only; omega) hne (by dsimp only; omega) intn
        obtain ⟨written, hwritten⟩ := c.exists_writes hpayload b payloads
        rw [hwrite, hwritten] at hpanicked
        cases hpanicked

/-- **An empty name makes the write panic.** -/
theorem emptyName_panics :
    Conn.write ⟨true, true⟩ lastLabel (fun _ => 0) 2 (helloFor []) = .panicked := rfl

end SingBox.TLSFragment
