/-
**The server name in a hello** (`common/tlsfragment/index.go`).

`IndexTLSServerName` goes through the headers of a hello and through its extensions, and says where
in the payload the server name is.  It leaves an extension behind with `exs[4+exLen:]`, where the
sum is one of 16-bit numbers: an extension of 65532 bytes is never left, and one of three more
lengths is left at a byte of its header while the index goes on by its whole length.  The length
that it returns is that of the name in the extension, which is compared with nothing, and the name
that it returns is the rest of the extension.

* `TLSFragment.loop_of_reaches` — the loop may as well begin at an extension to which it comes;
* `TLSFragment.terminates_iff` — **it ends unless it comes to an extension of 65532 bytes**;
* `TLSFragment.indexes_iff` — **for which payloads the search is right**.
-/

import SingBox.ByteReader

namespace SingBox.TLSFragment

open ByteReader List Option

/-! ### The search -/

/-- `MyServerName`. -/
structure MyServerName where
  index : ℕ
  length : ℕ
  serverName : List UInt8
  deriving DecidableEq

/-- The type and the body of the first extension, if all of it is there. -/
def nextExtension : List UInt8 → Option (ℕ × List UInt8)
  | t₁ :: t₀ :: l₁ :: l₀ :: rest =>
    if rest.length < ofBigEndian [l₁, l₀] then none
    else some (ofBigEndian [t₁, t₀], rest.take (ofBigEndian [l₁, l₀]))
  | _ => none

/-- What is returned for the body of a `server_name` extension. -/
def sniServerName (currentIndex : ℕ) : List UInt8 → Option MyServerName
  | _ :: _ :: sniType :: n₁ :: n₀ :: sex =>
    if sniType ≠ 0 then none else some ⟨currentIndex + 4 + 5, ofBigEndian [n₁, n₀], sex⟩
  | _ => none

/-- The loop of `indexTLSServerNameFromExtensions`. -/
def extensionsLoop : ℕ → ℕ → List UInt8 → Option (Option MyServerName)
  | 0, _, _ => none
  | fuel + 1, currentIndex, exs =>
    if exs = [] then some none
    else
      match nextExtension exs with
      | none => some none
      | some (exType, sex) =>
        if exType = 0 then some (sniServerName currentIndex sex)
        else extensionsLoop fuel (currentIndex + (4 + sex.length))
          (exs.drop ((4 + sex.length) % 65536))

/-- The extensions behind their length, if they are as long as it says. -/
def extensionsOf : List UInt8 → Option (List UInt8)
  | h :: l :: exs => if exs.length < ofBigEndian [h, l] then none else some exs
  | _ => none

def indexTLSServerNameFromExtensions (fuel : ℕ) (exs : List UInt8) : Option (Option MyServerName) :=
  match extensionsOf exs with
  | none => some none
  | some exs => extensionsLoop fuel 2 exs

/-- Where the extensions of a handshake begin. -/
def extensionsIndex (handshake : List UInt8) : Option ℕ := do
  guard (6 + 32 + 1 ≤ handshake.length)
  guard (handshake.getD 0 0 = 1)
  guard (handshake.length - 4 = ofBigEndian ((handshake.drop 1).take 3))
  let tlsVersion := ofBigEndian ((handshake.drop 4).take 2)
  guard (tlsVersion &&& 0xFFFC = 0x0300 ∨ tlsVersion = 0x0304)
  let currentIndex := 6 + 32 + 1 + (handshake.getD 38 0).toNat
  guard (currentIndex ≤ handshake.length)
  let cipherSuites := handshake.drop currentIndex
  guard (2 ≤ cipherSuites.length)
  let csLen := ofBigEndian (cipherSuites.take 2)
  guard (2 + csLen + 1 ≤ cipherSuites.length)
  let currentIndex := currentIndex + (2 + csLen + 1 + (cipherSuites.getD (2 + csLen) 0).toNat)
  guard (currentIndex ≤ handshake.length)
  return currentIndex

def MyServerName.shift (name : MyServerName) (n : ℕ) : MyServerName :=
  { name with index := name.index + n }

def indexTLSServerNameFromHandshake (fuel : ℕ) (handshake : List UInt8) :
    Option (Option MyServerName) :=
  match extensionsIndex handshake with
  | none => some none
  | some currentIndex =>
    (indexTLSServerNameFromExtensions fuel (handshake.drop currentIndex)).map
      (Option.map (·.shift currentIndex))

/-- The payload has a record of its own length or a longer one. -/
def isRecord (payload : List UInt8) : Bool :=
  decide (5 ≤ payload.length) && payload.getD 0 0 == 22 &&
    decide (5 + ofBigEndian ((payload.drop 3).take 2) ≤ payload.length)

/-- `IndexTLSServerName`, with a number of rounds for the loop. -/
def indexTLSServerName (fuel : ℕ) (payload : List UInt8) : Option (Option MyServerName) :=
  if isRecord payload then
    (indexTLSServerNameFromHandshake fuel (payload.drop 5)).map (Option.map (·.shift 5))
  else some none

/-! ### Extensions to which the loop comes -/

/-- The loop comes to the extension at the offset, after `k` extensions whose length with that of
the header needs more than 16 bits. -/
inductive Reaches (exs : List UInt8) : ℕ → ℕ → Prop
  | start : Reaches exs 0 0
  | next {o k exType : ℕ} {sex : List UInt8} (h : Reaches exs o k)
      (hext : nextExtension (exs.drop o) = some (exType, sex)) (htype : exType ≠ 0) :
      Reaches exs (o + (4 + sex.length) % 65536) (k + (4 + sex.length) / 65536)

variable {exs sex : List UInt8} {o k exType : ℕ}

theorem length_of_nextExtension (h : nextExtension exs = some (exType, sex)) :
    4 + sex.length ≤ exs.length ∧ sex.length < 65536 := by
  unfold nextExtension at h
  split at h
  · rename_i t₁ t₀ l₁ l₀ rest
    have hl₁ := l₁.toNat_lt
    have hl₀ := l₀.toNat_lt
    obtain ⟨hlen, h⟩ := ite_none_left_eq_some.1 h
    obtain ⟨-, rfl⟩ := Prod.mk.inj (some.inj h)
    simp only [ofBigEndian, foldl_cons, foldl_nil] at hlen ⊢
    simp only [length_take, length_cons]
    omega
  · cases h

theorem extensionsLoop_next (h : nextExtension exs = some (exType, sex)) (htype : exType ≠ 0)
    (fuel currentIndex : ℕ) :
    extensionsLoop (fuel + 1) currentIndex exs =
      extensionsLoop fuel (currentIndex + (4 + sex.length))
        (exs.drop ((4 + sex.length) % 65536)) := by
  have hne : exs ≠ [] := by
    rintro rfl
    cases h
  rw [extensionsLoop, if_neg hne, h]
  exact if_neg htype

theorem extensionsLoop_found (h : nextExtension exs = some (0, sex)) (fuel currentIndex : ℕ) :
    extensionsLoop (fuel + 1) currentIndex exs = some (sniServerName currentIndex sex) := by
  have hne : exs ≠ [] := by
    rintro rfl
    cases h
  rw [extensionsLoop, if_neg hne, h]
  rfl

theorem extensionsLoop_end (h : nextExtension exs = none) (fuel currentIndex : ℕ) :
    extensionsLoop (fuel + 1) currentIndex exs = some none := by
  rw [extensionsLoop, h]
  split <;> rfl

/-- **The loop may as well begin at an extension to which it comes.** -/
theorem loop_of_reaches (h : Reaches exs o k) (i : ℕ) (r : Option MyServerName) :
    (∃ fuel, extensionsLoop fuel i exs = some r) ↔
      ∃ fuel, extensionsLoop fuel (i + (o + 65536 * k)) (exs.drop o) = some r := by
  induction h with
  | start => rfl
  | @next o k exType sex h hext htype ih =>
    have hindex : i + (o + 65536 * k) + (4 + sex.length) =
        i + (o + (4 + sex.length) % 65536 + 65536 * (k + (4 + sex.length) / 65536)) := by
      omega
    rw [ih, ← hindex, ← drop_drop]
    constructor
    · rintro ⟨fuel, hfuel⟩
      cases fuel with
      | zero => cases hfuel
      | succ fuel => exact ⟨fuel, extensionsLoop_next hext htype fuel _ ▸ hfuel⟩
    · rintro ⟨fuel, hfuel⟩
      exact ⟨fuel + 1, (extensionsLoop_next hext htype fuel _).trans hfuel⟩

/-- An extension that the loop does not leave. -/
def Stalls (exs : List UInt8) : Prop :=
  ∃ exType sex, nextExtension exs = some (exType, sex) ∧ exType ≠ 0 ∧ sex.length = 65532

theorem extensionsLoop_of_stalls (h : Stalls exs) (fuel i : ℕ) :
    extensionsLoop fuel i exs = none := by
  obtain ⟨exType, sex, hext, htype, hlen⟩ := h
  induction fuel generalizing i with
  | zero => rfl
  | succ fuel ih =>
    rw [extensionsLoop_next hext htype, hlen]
    exact ih _

/-- **The loop ends unless it comes to an extension of 65532 bytes.** -/
theorem terminates_iff (i : ℕ) :
    (∃ fuel r, extensionsLoop fuel i exs = some r) ↔
      ∀ o k, Reaches exs o k → ¬Stalls (exs.drop o) := by
  constructor
  · rintro ⟨fuel, r, hr⟩ o k hreaches hstalls
    obtain ⟨fuel', hr'⟩ := (loop_of_reaches hreaches i r).1 ⟨fuel, hr⟩
    rw [extensionsLoop_of_stalls hstalls] at hr'
    cases hr'
  · intro h
    -- By induction on what is left: every round but a stalled one leaves a byte behind.
    suffices ∀ n o k, Reaches exs o k → (exs.drop o).length ≤ n →
        ∃ fuel r, extensionsLoop fuel (i + (o + 65536 * k)) (exs.drop o) = some r from
      this _ 0 0 .start le_rfl
    intro n
    induction n with
    | zero =>
      intro o k _ hlen
      refine ⟨1, none, ?_⟩
      rw [List.length_eq_zero_iff.1 (Nat.le_zero.1 hlen)]
      rfl
    | succ n ih =>
      intro o k hreaches hlen
      cases hext : nextExtension (exs.drop o) with
      | none => exact ⟨1, none, extensionsLoop_end hext 0 _⟩
      | some ext =>
        obtain ⟨exType, sex⟩ := ext
        by_cases htype : exType = 0
        · rw [htype] at hext
          exact ⟨1, _, extensionsLoop_found hext 0 _⟩
        · have hstall : sex.length ≠ 65532 := fun hsex =>
            h o k hreaches ⟨exType, sex, hext, htype, hsex⟩
          have hlength := length_of_nextExtension hext
          have hnext := hreaches.next hext htype
          rw [length_drop] at hlen hlength
          obtain ⟨fuel, r, hr⟩ := ih _ _ hnext (by rw [length_drop]; omega)
          obtain ⟨fuel', hr'⟩ :=
            (loop_of_reaches hreaches i r).1 ((loop_of_reaches hnext i r).2 ⟨fuel, hr⟩)
          exact ⟨fuel', r, hr'⟩

theorem found_of_reaches (h : Reaches exs o k) (hext : nextExtension (exs.drop o) = some (0, sex))
    (i : ℕ) : ∃ fuel, extensionsLoop fuel i exs = some (sniServerName (i + (o + 65536 * k)) sex) :=
  (loop_of_reaches h i _).2 ⟨1, extensionsLoop_found hext 0 _⟩

theorem reaches_of_found {fuel i : ℕ} {name : MyServerName} (hreaches : Reaches exs o k)
    (h : extensionsLoop fuel (i + (o + 65536 * k)) (exs.drop o) = some (some name)) :
    ∃ o' k' sex, Reaches exs o' k' ∧ nextExtension (exs.drop o') = some (0, sex) ∧
      sniServerName (i + (o' + 65536 * k')) sex = some name := by
  induction fuel generalizing o k with
  | zero => cases h
  | succ fuel ih =>
    cases hext : nextExtension (exs.drop o) with
    | none =>
      rw [extensionsLoop_end hext] at h
      cases h
    | some ext =>
      obtain ⟨exType, sex⟩ := ext
      by_cases htype : exType = 0
      · rw [htype] at hext
        rw [extensionsLoop_found hext] at h
        exact ⟨o, k, sex, hreaches, hext, some.inj h⟩
      · have hindex : i + (o + 65536 * k) + (4 + sex.length) =
            i + (o + (4 + sex.length) % 65536 + 65536 * (k + (4 + sex.length) / 65536)) := by
          omega
        rw [extensionsLoop_next hext htype, hindex, drop_drop] at h
        exact ih (hreaches.next hext htype) h

/-! ### Payloads -/

/-- Where the extensions of a payload are, if its headers are those of a hello. -/
def extensionsAt (payload : List UInt8) : Option ℕ :=
  if isRecord payload then
    match extensionsIndex (payload.drop 5) with
    | none => none
    | some currentIndex =>
      (extensionsOf (payload.drop (5 + currentIndex))).map fun _ => 5 + currentIndex
  else none

theorem eq_drop_of_extensionsOf {exs' : List UInt8} (h : extensionsOf exs = some exs') :
    exs' = exs.drop 2 := by
  unfold extensionsOf at h
  split at h
  · obtain ⟨-, h⟩ := ite_none_left_eq_some.1 h
    exact (some.inj h).symm
  · cases h

variable {payload : List UInt8}

theorem index_of_extensionsAt_none (h : extensionsAt payload = none)
    (fuel : ℕ) : indexTLSServerName fuel payload = some none := by
  rw [extensionsAt] at h
  rw [indexTLSServerName]
  split
  · rename_i hrecord
    rw [if_pos hrecord] at h
    rw [indexTLSServerNameFromHandshake]
    cases hindex : extensionsIndex (payload.drop 5) with
    | none => rfl
    | some currentIndex =>
      rw [hindex] at h
      dsimp only at h ⊢
      rw [indexTLSServerNameFromExtensions, drop_drop, Option.map_eq_none_iff.1 h]
      rfl
  · rfl

theorem index_of_extensionsAt {start : ℕ}
    (h : extensionsAt payload = some start) (fuel : ℕ) : indexTLSServerName fuel payload =
      (extensionsLoop fuel 2 (payload.drop (start + 2))).map (Option.map (·.shift start)) := by
  obtain ⟨hrecord, h⟩ := ite_none_right_eq_some.1 h
  rw [indexTLSServerName, if_pos hrecord, indexTLSServerNameFromHandshake]
  cases hindex : extensionsIndex (payload.drop 5) with
  | none =>
    rw [hindex] at h
    cases h
  | some currentIndex =>
    rw [hindex] at h
    dsimp only at h ⊢
    obtain ⟨exs, hexs, rfl⟩ := Option.map_eq_some_iff.1 h
    rw [indexTLSServerNameFromExtensions, drop_drop, hexs]
    dsimp only
    rw [eq_drop_of_extensionsOf hexs, drop_drop, Option.map_map]
    congr 1
    funext r
    cases r with
    | none => rfl
    | some name =>
      simp only [MyServerName.shift, Function.comp_apply, Option.map_some]
      rw [Nat.add_assoc, Nat.add_comm currentIndex]

/-- **The names that are returned**: those of the extensions to which the loop comes. -/
theorem found_iff {start : ℕ} (h : extensionsAt payload = some start)
    (name : MyServerName) : (∃ fuel, indexTLSServerName fuel payload = some (some name)) ↔
      ∃ o k a b n₁ n₀ sex, Reaches (payload.drop (start + 2)) o k ∧
        nextExtension (payload.drop (start + 2 + o)) = some (0, a :: b :: 0 :: n₁ :: n₀ :: sex) ∧
        name = ⟨start + 2 + o + 9 + 65536 * k, ofBigEndian [n₁, n₀], sex⟩ := by
  have hsum : ∀ o k, 2 + (o + 65536 * k) + 4 + 5 + start = start + 2 + o + 9 + 65536 * k :=
    fun o k => by omega
  simp only [index_of_extensionsAt h, Option.map_eq_some_iff]
  constructor
  · rintro ⟨fuel, _, hfuel, name', rfl, rfl⟩
    obtain ⟨o, k, sex, hreaches, hext, hname⟩ := reaches_of_found .start hfuel
    rw [drop_drop] at hext
    unfold sniServerName at hname
    split at hname
    · split at hname
      · cases hname
      · rename_i a b sniType n₁ n₀ sex htype
        obtain rfl := some.inj hname
        obtain rfl := Decidable.not_not.1 htype
        exact ⟨o, k, a, b, n₁, n₀, sex, hreaches, hext, by rw [← hsum]; rfl⟩
    · cases hname
  · rintro ⟨o, k, a, b, n₁, n₀, sex, hreaches, hext, rfl⟩
    rw [← drop_drop] at hext
    obtain ⟨fuel, hfuel⟩ := found_of_reaches hreaches hext 2
    exact ⟨fuel, _, hfuel, _, rfl, by rw [← hsum]; rfl⟩

/-- The name stands at the place. -/
def NameAt (payload : List UInt8) (i : ℕ) (name : List UInt8) : Prop :=
  i + name.length ≤ payload.length ∧ (payload.drop i).take name.length = name

/-- The search ends, and what it returns is where it says. -/
def Indexes (payload : List UInt8) : Prop :=
  (∃ fuel r, indexTLSServerName fuel payload = some r) ∧
    ∀ fuel name, indexTLSServerName fuel payload = some (some name) →
      name.index + name.length ≤ payload.length ∧
        (payload.drop name.index).take name.length = name.serverName

theorem nameAt_of_nextExtension {payload name : List UInt8} {i : ℕ} {a b c d e : UInt8}
    (h : nextExtension (payload.drop i) = some (0, a :: b :: c :: d :: e :: name)) :
    NameAt payload (i + 9) name := by
  unfold nextExtension at h
  split at h
  · rename_i t₁ t₀ l₁ l₀ rest hdrop
    obtain ⟨hlen, h⟩ := ite_none_left_eq_some.1 h
    have hsex := (Prod.mk.inj (some.inj h)).2
    obtain ⟨tail, rfl⟩ : ∃ tail, rest = a :: b :: c :: d :: e :: (name ++ tail) :=
      ⟨rest.drop _, (take_append_drop _ rest).symm.trans (congrArg (· ++ _) hsex)⟩
    -- Four bytes of the extension and five of the body come before the name.
    have hlength := congrArg List.length hdrop
    simp only [length_drop, length_cons, length_append] at hlength
    refine ⟨by omega, ?_⟩
    rw [← drop_drop, hdrop]
    exact take_left
  · cases h

/-- **The search is right exactly if the loop comes to no extension of 65532 bytes, and for a
`server_name` extension to which it comes the length of the name is that of the rest of the
extension; and if longer extensions came before it, the name stands as many times 65536 bytes
further on as well.** -/
theorem indexes_iff (payload : List UInt8) :
    Indexes payload ↔ ∀ start o k, extensionsAt payload = some start →
      Reaches (payload.drop (start + 2)) o k →
        ¬Stalls (payload.drop (start + 2 + o)) ∧ ∀ a b n₁ n₀ name,
          nextExtension (payload.drop (start + 2 + o)) =
              some (0, a :: b :: 0 :: n₁ :: n₀ :: name) →
            ofBigEndian [n₁, n₀] = name.length ∧
              (k = 0 ∨ NameAt payload (start + 2 + o + 9 + 65536 * k) name) := by
  cases hat : extensionsAt payload with
  | none =>
    refine iff_of_true ⟨⟨0, none, index_of_extensionsAt_none hat 0⟩, fun fuel name h => ?_⟩
      fun start o k h => by cases h
    rw [index_of_extensionsAt_none hat] at h
    cases h
  | some start =>
    have hterminates : (∃ fuel r, indexTLSServerName fuel payload = some r) ↔
        ∃ fuel r, extensionsLoop fuel 2 (payload.drop (start + 2)) = some r := by
      simp only [index_of_extensionsAt hat, Option.map_eq_some_iff]
      exact ⟨fun ⟨fuel, _, r, hr, _⟩ => ⟨fuel, r, hr⟩, fun ⟨fuel, r, hr⟩ => ⟨fuel, _, r, hr, rfl⟩⟩
    rw [Indexes, hterminates, terminates_iff]
    constructor
    · rintro ⟨hstalls, hindex⟩ start' o k hstart hreaches
      cases hstart
      refine ⟨drop_drop ▸ hstalls o k hreaches, fun a b n₁ n₀ name hext => ?_⟩
      obtain ⟨fuel, hfuel⟩ := (found_iff hat _).2 ⟨o, k, a, b, n₁, n₀, name, hreaches, hext, rfl⟩
      obtain ⟨hle, hbytes⟩ := hindex fuel _ hfuel
      have hlength := congrArg List.length hbytes
      rw [length_take, length_drop] at hlength
      have heq : ofBigEndian [n₁, n₀] = name.length := by
        dsimp only at hle hlength
        omega
      exact ⟨heq, .inr ⟨heq ▸ hle, heq ▸ hbytes⟩⟩
    · intro h
      refine ⟨fun o k hreaches => ?_, fun fuel name hname => ?_⟩
      · rw [drop_drop]
        exact (h start o k rfl hreaches).1
      · obtain ⟨o, k, a, b, n₁, n₀, sex, hreaches, hext, rfl⟩ :=
          (found_iff hat name).1 ⟨fuel, hname⟩
        obtain ⟨heq, hat⟩ := (h start o k rfl hreaches).2 a b n₁ n₀ sex hext
        have hplace : NameAt payload (start + 2 + o + 9 + 65536 * k) sex := by
          rcases hat with rfl | hat
          · exact nameAt_of_nextExtension hext
          · exact hat
        rw [NameAt, ← heq] at hplace
        exact hplace

/-- A hello whose name says that it is longer than the rest of its extension. -/
def longName : List UInt8 :=
  [22, 3, 1, 0, 57, 1, 0, 0, 53, 3, 3] ++ List.replicate 32 0 ++
    [0, 0, 2, 19, 1, 1, 0, 0, 10, 0, 0, 0, 6, 0, 4, 0, 0, 200, 97]

/-- **The index and the length that are returned lie outside of the payload.** -/
theorem longName_outside : ¬Indexes longName := by
  intro h
  have hname : indexTLSServerName 2 longName = some (some ⟨61, 200, [97]⟩) := by decide
  exact absurd (h.2 2 _ hname).1 (by decide)

end SingBox.TLSFragment
