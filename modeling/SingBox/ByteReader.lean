/-
**Readers of byte streams, and the integers of binary formats.**

A reader takes bytes from the front of a list and returns a value with what is left, or fails.  Two
relations say what a reader does with given bytes whatever follows them: it *reads* a value from
them, or it *fails* on them.  Both are closed under the combinators from which formats are built, so
that a round trip is proved by following the writer.

* `ByteReader`, `ByteReader.Reads`, `ByteReader.Fails` — readers and the two relations;
* `ByteReader.readByte`, `ByteReader.readFull`, `ByteReader.many` — the combinators;
* `ByteReader.putUvarint`, `ByteReader.readUvarint` — numbers in groups of seven bits;
* `ByteReader.putBigEndian`, `ByteReader.ofBigEndian` — numbers in bytes of fixed count.

Main results:

* `ByteReader.Reads.bind`, `ByteReader.Reads.many` — sequences and repetitions;
* `ByteReader.reads_uvarint`, `ByteReader.ofBigEndian_put` — the round trips of integers.
-/

import Mathlib.Data.List.Basic
import Mathlib.Tactic.Ring

/-- A reader of bytes that can fail. -/
abbrev ByteReader (ε α : Type) : Type := StateT (List UInt8) (Except ε) α

namespace ByteReader

open List Nat

variable {ε α β γ : Type}

/-- The reader takes exactly `bytes` and returns `a`, whatever follows. -/
def Reads (p : ByteReader ε α) (bytes : List UInt8) (a : α) : Prop :=
  ∀ rest, p (bytes ++ rest) = .ok (a, rest)

/-- The reader fails on `bytes`, whatever follows. -/
def Fails (p : ByteReader ε α) (bytes : List UInt8) : Prop :=
  ∀ rest, ∃ err, p (bytes ++ rest) = .error err

variable {p : ByteReader ε α} {bytes : List UInt8} {a : α}

theorem Fails.not_reads (h : Fails p bytes) : ¬Reads p bytes a := by
  intro hreads
  obtain ⟨err, herr⟩ := h []
  rw [hreads []] at herr
  simp at herr

/-! ### Sequences -/

variable {f : α → ByteReader ε β}

theorem bind_eq_of_ok {bytes rest : List UInt8} (h : p bytes = .ok (a, rest)) :
    (p >>= f) bytes = f a rest := by
  change (p bytes).bind _ = _
  rw [h]
  rfl

theorem bind_eq_of_error {err : ε} (h : p bytes = .error err) : (p >>= f) bytes = .error err := by
  change (p bytes).bind _ = _
  rw [h]
  rfl

theorem reads_pure (a : α) : Reads (pure a : ByteReader ε α) [] a := fun _ => rfl

theorem Reads.bind {bytes bytes' : List UInt8} {b : β} (hp : Reads p bytes a)
    (hf : Reads (f a) bytes' b) :
    Reads (p >>= f) (bytes ++ bytes') b := by
  intro rest
  rw [append_assoc, bind_eq_of_ok (hp _)]
  exact hf rest

theorem Reads.bind_nil {b : β} (hp : Reads p bytes a) (hf : Reads (f a) [] b) :
    Reads (p >>= f) bytes b := by
  have h := hp.bind hf
  rwa [append_nil] at h

theorem Reads.bind_fails {bytes bytes' : List UInt8} (hp : Reads p bytes a)
    (hf : Fails (f a) bytes') :
    Fails (p >>= f) (bytes ++ bytes') := by
  intro rest
  rw [append_assoc, bind_eq_of_ok (hp _)]
  exact hf rest

theorem Fails.bind (hp : Fails p bytes)
    (f : α → ByteReader ε β) (bytes' : List UInt8) : Fails (p >>= f) (bytes ++ bytes') := by
  intro rest
  obtain ⟨err, herr⟩ := hp (bytes' ++ rest)
  rw [append_assoc]
  exact ⟨err, bind_eq_of_error herr⟩

theorem Fails.bind_nil (hp : Fails p bytes) (f : α → ByteReader ε β) : Fails (p >>= f) bytes := by
  have h := hp.bind f []
  rwa [append_nil] at h

/-- The errors of a reader are changed. -/
def mapError (g : ε → ε) (p : ByteReader ε α) : ByteReader ε α := fun bytes => (p bytes).mapError g

theorem Reads.mapError (hp : Reads p bytes a) (g : ε → ε) : Reads (mapError g p) bytes a := by
  intro rest
  rw [ByteReader.mapError, hp rest]
  rfl

theorem Fails.mapError (hp : Fails p bytes) (g : ε → ε) : Fails (mapError g p) bytes := by
  intro rest
  obtain ⟨err, herr⟩ := hp rest
  rw [ByteReader.mapError, herr]
  exact ⟨g err, rfl⟩

/-! ### What a reader returns -/

/-- The reader returns only values with the property. -/
def Yields (p : ByteReader ε α) (P : α → Prop) : Prop :=
  ∀ bytes a rest, p bytes = .ok (a, rest) → P a

theorem yields_true (p : ByteReader ε α) : Yields p fun _ => True :=
  fun _ _ _ _ => trivial

theorem yields_pure {P : α → Prop} (h : P a) : Yields (pure a : ByteReader ε α) P := by
  intro bytes a' rest hrun
  cases hrun
  exact h

theorem Yields.bind {P : α → Prop} {Q : β → Prop}
    (hp : Yields p P) (hf : ∀ a, P a → Yields (f a) Q) : Yields (p >>= f) Q := by
  intro bytes b rest hrun
  cases hfirst : p bytes with
  | ok result =>
    obtain ⟨a, rest'⟩ := result
    rw [bind_eq_of_ok hfirst] at hrun
    exact hf a (hp bytes a rest' hfirst) rest' b rest hrun
  | error err =>
    rw [bind_eq_of_error hfirst] at hrun
    cases hrun

/-! ### Repetitions -/

/-- A reader that is applied `n` times, from index `i` on. -/
def many (p : ℕ → ByteReader ε α) : ℕ → ℕ → ByteReader ε (List α)
  | _, 0 => pure []
  | i, n + 1 => do
      let a ← p i
      let as ← many p (i + 1) n
      return a :: as

variable {write : β → List UInt8}

theorem Reads.many {p : ℕ → ByteReader ε α} (value : β → α) {xs : List β}
    (h : ∀ x ∈ xs, ∀ i, Reads (p i) (write x) (value x)) (i : ℕ) :
    Reads (many p i xs.length) (xs.flatMap write) (xs.map value) := by
  induction xs generalizing i with
  | nil => exact reads_pure []
  | cons x xs ih =>
    rw [forall_mem_cons] at h
    rw [flatMap_cons]
    exact (h.1 i).bind ((ih h.2 (i + 1)).bind_nil (reads_pure _))

theorem Fails.many {p : ℕ → ByteReader ε α} (value : β → α) {xs : List β}
    (hread : ∀ x ∈ xs, (∀ i, Reads (p i) (write x) (value x)) ∨ ∀ i, Fails (p i) (write x))
    (hfail : ∃ x ∈ xs, ¬∀ i, Reads (p i) (write x) (value x)) (i : ℕ) :
    Fails (many p i xs.length) (xs.flatMap write) := by
  induction xs generalizing i with
  | nil => simp at hfail
  | cons x xs ih =>
    rw [forall_mem_cons] at hread
    rw [flatMap_cons]
    rcases hread.1 with hx | hx
    · have hxs : ∃ x ∈ xs, ¬∀ i, Reads (p i) (write x) (value x) := by
        obtain ⟨y, hy, hnot⟩ := hfail
        rcases List.mem_cons.1 hy with rfl | hy
        · exact absurd hx hnot
        · exact ⟨y, hy, hnot⟩
      exact (hx i).bind_fails ((ih hread.2 hxs (i + 1)).bind_nil _)
    · exact (hx i).bind _ _

theorem yields_many (p : ℕ → ByteReader ε α) (i n : ℕ) :
    Yields (many p i n) fun as => as.length = n := by
  induction n generalizing i with
  | zero => exact yields_pure rfl
  | succ n ih =>
    refine (yields_true (p i)).bind fun a _ => (ih (i + 1)).bind fun as has => yields_pure ?_
    rw [length_cons, has]

/-! ### Bytes -/

/-- The errors of the basic readers: at the end, within a value, and for numbers that are too
large. -/
structure Errors (ε : Type) where
  (eof unexpectedEOF overflow : ε)

variable (e : Errors ε)

/-- The next byte, or an error at the end. -/
def readByte (eof : ε) : ByteReader ε UInt8
  | [] => .error eof
  | b :: bytes => .ok (b, bytes)

theorem reads_byte (eof : ε) (b : UInt8) : Reads (readByte eof) [b] b := fun _ => rfl

/-- The next `n` bytes. -/
def readFull (n : ℕ) : ByteReader ε (List UInt8) := fun bytes =>
  if bytes.length < n then .error (if bytes = [] then e.eof else e.unexpectedEOF)
  else .ok (bytes.take n, bytes.drop n)

theorem reads_full (bytes : List UInt8) : Reads (readFull e bytes.length) bytes bytes := by
  intro rest
  rw [readFull, if_neg (by simp), take_left, drop_left]

/-! ### Numbers in groups of seven bits -/

/-- The groups of `n`, of which at most `k` are followed by another one. -/
def putGroups : ℕ → ℕ → List UInt8
  | 0, n => [.ofNat n]
  | k + 1, n =>
    if n < 128 then [.ofNat n] else .ofNat (n % 128 + 128) :: putGroups k (n / 128)

/-- A 64-bit number has at most ten groups. -/
def putUvarint (n : ℕ) : List UInt8 := putGroups 9 n

/-- The loop of the decoder, which may read `k` more bytes of ten. -/
def readGroups : ℕ → ℕ → ℕ → ByteReader ε ℕ
  | 0, _, _ => throw e.overflow
  | k + 1, x, s => do
      let b ← readByte (if k = 9 then e.eof else e.unexpectedEOF)
      if b < 128 then
        if k = 0 ∧ 1 < b then throw e.overflow else return x + b.toNat * 2 ^ s
      else readGroups k (x + b.toNat % 128 * 2 ^ s) (s + 7)

/-- A number, which must be below `2 ^ 64`. -/
def readUvarint : ByteReader ε ℕ := readGroups e 10 0 0

theorem reads_groups (k n x s : ℕ) (hn : n < 2 ^ (7 * k + 1)) :
    Reads (readGroups e (k + 1) x s) (putGroups k n) (x + n * 2 ^ s) := by
  induction k generalizing n x s with
  | zero =>
    have hn : n < 2 := hn
    refine (reads_byte _ (.ofNat n)).bind_nil ?_
    obtain rfl | rfl : n = 0 ∨ n = 1 := by omega
    · exact reads_pure _
    · exact reads_pure _
  | succ k ih =>
    by_cases hsmall : n < 128
    · have hbyte : (UInt8.ofNat n).toNat = n := by simp; omega
      have hlt : UInt8.ofNat n < 128 := by
        rw [UInt8.lt_iff_toNat_lt, hbyte]
        exact hsmall
      rw [putGroups, if_pos hsmall]
      refine (reads_byte _ (.ofNat n)).bind_nil ?_
      rw [if_pos hlt, if_neg (by omega), hbyte]
      exact reads_pure _
    · have hbyte : (UInt8.ofNat (n % 128 + 128)).toNat = n % 128 + 128 := by simp; omega
      have hge : ¬UInt8.ofNat (n % 128 + 128) < 128 := by
        rw [UInt8.lt_iff_toNat_lt, hbyte]
        simp
      have hdiv : n / 128 < 2 ^ (7 * k + 1) := by
        rw [Nat.div_lt_iff_lt_mul (by decide), show (128 : ℕ) = 2 ^ 7 by rfl, ← Nat.pow_add]
        exact hn
      have hsum : x + n * 2 ^ s = x + (n % 128 + 128) % 128 * 2 ^ s + n / 128 * 2 ^ (s + 7) := by
        have hn' : n * 2 ^ s = (128 * (n / 128) + n % 128) * 2 ^ s := by rw [div_add_mod]
        rw [hn', add_mod_right, mod_mod, pow_add]
        ring
      rw [putGroups, if_neg hsmall]
      refine (reads_byte _ _).bind ?_
      rw [if_neg hge, hbyte, hsum]
      exact ih _ _ _ hdiv

/-- **Numbers below `2 ^ 64` are read back.** -/
theorem reads_uvarint {n : ℕ} (hn : n < 2 ^ 64) : Reads (readUvarint e) (putUvarint n) n := by
  have h := reads_groups e 9 n 0 0 hn
  rwa [Nat.zero_add, pow_zero, Nat.mul_one] at h

/-- A number that is cut off ends within a value, or at the end where nothing is left of it. -/
theorem readGroups_take {k : ℕ} (hk : k ≤ 9) (n x s : ℕ) {j : ℕ} (hj : j < (putGroups k n).length) :
    readGroups e (k + 1) x s ((putGroups k n).take j) =
      .error (if j = 0 ∧ k = 9 then e.eof else e.unexpectedEOF) := by
  cases j with
  | zero =>
    rw [take_zero, readGroups]
    simp only [true_and]
    rfl
  | succ j =>
    rw [if_neg (by omega)]
    induction k generalizing n x s j with
    | zero => simp [putGroups] at hj
    | succ k ih =>
      by_cases hsmall : n < 128
      · rw [putGroups, if_pos hsmall] at hj
        simp at hj
      · have hge : ¬UInt8.ofNat (n % 128 + 128) < 128 := by
          rw [UInt8.lt_iff_toNat_lt]
          simp
          omega
        rw [putGroups, if_neg hsmall, length_cons] at hj
        rw [putGroups, if_neg hsmall, take_succ_cons, readGroups,
          bind_eq_of_ok (a := UInt8.ofNat (n % 128 + 128)) (by rfl), if_neg hge]
        cases j with
        | zero =>
          rw [take_zero, readGroups, if_neg (by omega)]
          rfl
        | succ j => exact ih (by omega) _ _ _ _ (by omega)

theorem readUvarint_take {n j : ℕ} (hj : j < (putUvarint n).length) :
    readUvarint e ((putUvarint n).take j) = .error (if j = 0 then e.eof else e.unexpectedEOF) := by
  have h := readGroups_take e (le_refl 9) n 0 0 hj
  simp only [and_true] at h
  exact h

/-! ### Lists after their length -/

/-- A list, written as its length and its elements. -/
def putList (write : β → List UInt8) (xs : List β) : List UInt8 :=
  putUvarint xs.length ++ xs.flatMap write

/-- A list, read after its length. -/
def readList (p : ByteReader ε α) : ByteReader ε (List α) := do
  let length ← readUvarint e
  many (fun _ => p) 0 length

theorem reads_list {write : α → List UInt8} {xs : List α}
    (hlen : xs.length < 2 ^ 64) (h : ∀ x ∈ xs, Reads p (write x) x) :
    Reads (readList e p) (putList write xs) xs := by
  refine (reads_uvarint e hlen).bind ?_
  have hmany := Reads.many id (fun x hx _ => h x hx) 0
  rwa [map_id] at hmany

theorem fails_list {write : α → List UInt8} {xs : List α}
    (hlen : xs.length < 2 ^ 64) (hread : ∀ x ∈ xs, Reads p (write x) x ∨ Fails p (write x))
    (hfail : ∃ x ∈ xs, Fails p (write x)) : Fails (readList e p) (putList write xs) := by
  refine (reads_uvarint e hlen).bind_fails (Fails.many id ?_ ?_ 0)
  · intro x hx
    exact (hread x hx).imp (fun h _ => h) fun h _ => h
  · obtain ⟨x, hx, hfail⟩ := hfail
    exact ⟨x, hx, fun h => hfail.not_reads (h 0)⟩

/-! ### Numbers in bytes of fixed count -/

/-- The lowest `k` bytes of `n`, the highest of them first. -/
def putBigEndian : ℕ → ℕ → List UInt8
  | 0, _ => []
  | k + 1, n => putBigEndian k (n / 256) ++ [.ofNat (n % 256)]

/-- The number that bytes spell, the highest first. -/
def ofBigEndian (bytes : List UInt8) : ℕ := bytes.foldl (fun n b => n * 256 + b.toNat) 0

@[simp] theorem length_putBigEndian (k n : ℕ) : (putBigEndian k n).length = k := by
  induction k generalizing n with
  | zero => rfl
  | succ k ih => rw [putBigEndian, length_append, ih, length_singleton]

/-- **Numbers that fit are spelt back.** -/
theorem ofBigEndian_put {k n : ℕ} (hn : n < 256 ^ k) :
    ofBigEndian (putBigEndian k n) = n := by
  induction k generalizing n with
  | zero =>
    rw [pow_zero, lt_one_iff] at hn
    rw [hn]
    rfl
  | succ k ih =>
    have hdiv : n / 256 < 256 ^ k := by
      rw [Nat.div_lt_iff_lt_mul (by decide), ← pow_succ]
      exact hn
    have hbyte : (UInt8.ofNat (n % 256)).toNat = n % 256 := by simp
    have hhead : (putBigEndian k (n / 256)).foldl (fun n b => n * 256 + b.toNat) 0 = n / 256 :=
      ih hdiv
    rw [ofBigEndian, putBigEndian, foldl_append, hhead, foldl_cons, foldl_nil, hbyte]
    omega

theorem foldl_bigEndian_lt (bytes : List UInt8) (acc : ℕ) :
    bytes.foldl (fun n b => n * 256 + b.toNat) acc < (acc + 1) * 256 ^ bytes.length := by
  induction bytes generalizing acc with
  | nil => simp
  | cons b bytes ih =>
    rw [foldl_cons, length_cons, pow_succ]
    have hb : acc * 256 + b.toNat + 1 ≤ (acc + 1) * 256 := by
      have := b.toNat_lt
      omega
    calc bytes.foldl (fun n b => n * 256 + b.toNat) (acc * 256 + b.toNat)
        < (acc * 256 + b.toNat + 1) * 256 ^ bytes.length := ih _
      _ ≤ (acc + 1) * 256 * 256 ^ bytes.length := Nat.mul_le_mul_right _ hb
      _ = (acc + 1) * (256 ^ bytes.length * 256) := by ring

/-! ### Words, the lowest byte first -/

/-- The word that the first four bytes spell, the lowest first. -/
def littleEndianUint32 : List UInt8 → UInt32
  | b₀ :: b₁ :: b₂ :: b₃ :: _ =>
    b₀.toUInt32 ||| b₁.toUInt32 <<< 8 ||| b₂.toUInt32 <<< 16 ||| b₃.toUInt32 <<< 24
  | _ => 0

/-- The bytes of a word, the lowest first. -/
def putLittleEndianUint32 (x : UInt32) : List UInt8 :=
  [x.toUInt8, (x >>> 8).toUInt8, (x >>> 16).toUInt8, (x >>> 24).toUInt8]

@[simp] theorem littleEndianUint32_put (x : UInt32) :
    littleEndianUint32 (putLittleEndianUint32 x) = x := by
  apply UInt32.toBitVec_inj.1
  simp only [putLittleEndianUint32, littleEndianUint32, UInt32.toBitVec_or,
    UInt32.toBitVec_shiftLeft, UInt8.toBitVec_toUInt32, UInt32.toBitVec_toUInt8,
    UInt32.toBitVec_shiftRight]
  ext i hi
  simp
  grind

theorem putLittleEndianUint32_of_length (h : bytes.length = 4) :
    putLittleEndianUint32 (littleEndianUint32 bytes) = bytes := by
  obtain ⟨a, b, c, d, rfl⟩ : ∃ a b c d, bytes = [a, b, c, d] := List.length_eq_four.1 h
  simp only [putLittleEndianUint32, littleEndianUint32, List.cons.injEq, and_true]
  refine ⟨?_, ?_, ?_, ?_⟩ <;> apply UInt8.toBitVec_inj.1 <;> ext i hi <;> simp <;> grind

theorem putLittleEndianUint32_xor (x y : UInt32) :
    putLittleEndianUint32 (x ^^^ y) =
      List.zipWith (· ^^^ ·) (putLittleEndianUint32 x) (putLittleEndianUint32 y) := by
  simp [putLittleEndianUint32, UInt32.shiftRight_xor]

theorem zipWith_xor_cancel {x y : List UInt8} (h : x.length = y.length) :
    List.zipWith (· ^^^ ·) (List.zipWith (· ^^^ ·) x y) x = y := by
  induction x generalizing y with
  | nil => exact (List.length_eq_zero_iff.1 h.symm).symm
  | cons a x ih =>
    cases y with
    | nil => simp at h
    | cons b y =>
      rw [zipWith_cons_cons, zipWith_cons_cons, ih (Nat.succ.inj h),
        UInt8.xor_comm a b, UInt8.xor_assoc, UInt8.xor_self, UInt8.xor_zero]

end ByteReader
