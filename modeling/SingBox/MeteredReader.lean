/-
**Readers of byte streams that keep count.**

A metered reader takes bytes from the front of a list like a `ByteReader`, and besides says what it
did: how many values it has decoded, how deep it has gone, and which things it has come across.
This is known for a run that fails too.  A run ends with a value or an error, or it panics, or, if
the reader is a loop that is given a number of rounds, it has used them up.

The number of values is bounded by a potential argument (`MeteredReader.Costs`): every byte that is
taken is worth a fixed number of values, and what is left over can be handed on.

* `MeteredReader.Costs.bind`, `MeteredReader.Costs.many` — sequences and repetitions;
* `MeteredReader.Shadows.bind`, `MeteredReader.Erases.bind` and their repetitions, likewise.
-/

import SingBox.ByteReader
import Mathlib.Data.List.Forall2

namespace MeteredReader

/-- How a run ends. -/
inductive Outcome (ε α : Type) where
  | ok (a : α)
  | error (err : ε)
  | panicked
  | exhausted

/-- What a run did, and what it has left. -/
structure Meter (ω : Type) where
  rest : List UInt8
  (decoded deepest : ℕ := 0)
  seen : List ω := []

/-- What two parts of a run did together. -/
def Meter.andThen {ω : Type} (m m' : Meter ω) : Meter ω :=
  { rest := m'.rest
    decoded := m.decoded + m'.decoded
    deepest := max m.deepest m'.deepest
    seen := m.seen ++ m'.seen }

end MeteredReader

open MeteredReader in
/-- A reader that says what it did. -/
def MeteredReader (ω ε α : Type) : Type := List UInt8 → Outcome ε α × Meter ω

namespace MeteredReader

open List ByteReader

variable {ω ε α β γ : Type}

/-- Going on after a part of a run, unless it was the last one. -/
def goOn (f : α → MeteredReader ω ε β) : Outcome ε α × Meter ω → Outcome ε β × Meter ω
  | (.ok a, m) => ((f a m.rest).1, m.andThen (f a m.rest).2)
  | (.error err, m) => (.error err, m)
  | (.panicked, m) => (.panicked, m)
  | (.exhausted, m) => (.exhausted, m)

instance : Monad (MeteredReader ω ε) where
  pure a := fun bytes => (.ok a, { rest := bytes })
  bind p f := fun bytes => goOn f (p bytes)

/-! ### The combinators -/

/-- A reader that decodes nothing that counts.  What it takes before it fails is not counted. -/
def lift (p : ByteReader ε α) : MeteredReader ω ε α := fun bytes =>
  match p bytes with
  | .ok (a, rest) => (.ok a, { rest := rest })
  | .error err => (.error err, { rest := bytes })

/-- Some values were decoded. -/
def tick (n : ℕ) : MeteredReader ω ε Unit := fun bytes => (.ok (), { rest := bytes, decoded := n })

/-- The depth of a call. -/
def enter (depth : ℕ) : MeteredReader ω ε Unit :=
  fun bytes => (.ok (), { rest := bytes, deepest := depth })

/-- Something was come across. -/
def note (x : ω) : MeteredReader ω ε Unit := fun bytes => (.ok (), { rest := bytes, seen := [x] })

def fail (err : ε) : MeteredReader ω ε α := fun bytes => (.error err, { rest := bytes })

def crash : MeteredReader ω ε α := fun bytes => (.panicked, { rest := bytes })

def exhaust : MeteredReader ω ε α := fun bytes => (.exhausted, { rest := bytes })

/-- A value that counts. -/
def counted (p : ByteReader ε α) : MeteredReader ω ε α := do
  let a ← lift p
  tick 1
  return a

def mapError (g : ε → ε) (p : MeteredReader ω ε α) : MeteredReader ω ε α := fun bytes =>
  match p bytes with
  | (.error err, m) => (.error (g err), m)
  | result => result

/-- A reader that is applied `n` times, from index `i` on. -/
def many (p : ℕ → MeteredReader ω ε α) : ℕ → ℕ → MeteredReader ω ε (List α)
  | _, 0 => pure []
  | i, n + 1 => do
      let a ← p i
      let as ← many p (i + 1) n
      return a :: as

/-- The values of a list, after their number. -/
def readList (e : ByteReader.Errors ε) (p : MeteredReader ω ε α) :
    MeteredReader ω ε (List α) := do
  let n ← lift (ByteReader.readUvarint e)
  many (fun _ => p) 0 n

theorem bind_eq (p : MeteredReader ω ε α) (f : α → MeteredReader ω ε β) (bytes : List UInt8) :
    (p >>= f) bytes = goOn f (p bytes) := rfl

/-! ### The potential -/

/-- What a run hands on. -/
def Outcome.leftOver (c : α → ℕ) : Outcome ε α → ℕ
  | .ok a => c a
  | _ => 0

/-- **The run of a reader pays for what it decodes**, with `K` for every byte it takes and `s` from
the readers before it, and hands on `c a` with its value; besides it stays within the depth and does
not use up its rounds. -/
structure Costs (K limit : ℕ) (bytes : List UInt8) (s : ℕ) (p : MeteredReader ω ε α) (c : α → ℕ) :
    Prop where
  pays : (p bytes).2.decoded + K * (p bytes).2.rest.length + (p bytes).1.leftOver c ≤
    K * bytes.length + s
  shrinks : (p bytes).2.rest.length ≤ bytes.length
  deepest_le : (p bytes).2.deepest ≤ limit
  ends : (p bytes).1 ≠ .exhausted

variable {K limit s : ℕ} {bytes : List UInt8} {p : MeteredReader ω ε α} {c : α → ℕ}

theorem Costs.of_run {o : Outcome ε α} {m : Meter ω} (hrun : p bytes = (o, m))
    (hpays : m.decoded + K * m.rest.length + o.leftOver c ≤ K * bytes.length + s)
    (hshrinks : m.rest.length ≤ bytes.length) (hdeep : m.deepest ≤ limit) (hends : o ≠ .exhausted) :
    Costs K limit bytes s p c := by
  refine ⟨?_, ?_, ?_, ?_⟩
  all_goals rw [hrun]
  all_goals assumption

theorem Costs.of_idle {o : Outcome ε α} {m : Meter ω}
    (hrun : p bytes = (o, m)) (hrest : m.rest = bytes) (hdeep : m.deepest ≤ limit)
    (hpays : m.decoded + o.leftOver c ≤ s) (hends : o ≠ .exhausted) :
    Costs K limit bytes s p c := by
  refine Costs.of_run hrun ?_ ?_ hdeep hends
  · rw [hrest]
    omega
  · rw [hrest]

theorem Costs.pure (a : α) (c : α → ℕ) : Costs K limit bytes (c a)
    (pure a : MeteredReader ω ε α) c :=
  Costs.of_idle (o := .ok a) rfl rfl (Nat.zero_le _) (Nat.zero_add (c a)).le nofun

variable (err : ε)

theorem Costs.fail (c : α → ℕ) : Costs K limit bytes s (fail err : MeteredReader ω ε α) c :=
  Costs.of_idle rfl rfl (Nat.zero_le _) (Nat.zero_le _) nofun

theorem Costs.crash (c : α → ℕ) : Costs K limit bytes s (crash : MeteredReader ω ε α) c :=
  Costs.of_idle rfl rfl (Nat.zero_le _) (Nat.zero_le _) nofun

theorem Costs.tick (n k : ℕ) :
    Costs K limit bytes (n + k) (tick n : MeteredReader ω ε Unit) fun _ => k :=
  Costs.of_idle rfl rfl (Nat.zero_le _) le_rfl nofun

theorem Costs.note (x : ω) (k : ℕ) :
    Costs K limit bytes k (note x : MeteredReader ω ε Unit) fun _ => k :=
  Costs.of_idle rfl rfl (Nat.zero_le _) (Nat.zero_add k).le nofun

theorem Costs.enter {depth : ℕ} (h : depth ≤ limit) (k : ℕ) :
    Costs K limit bytes k (enter depth : MeteredReader ω ε Unit) fun _ => k :=
  Costs.of_idle rfl rfl h (Nat.zero_add k).le nofun

theorem Costs.frame (h : Costs K limit bytes s p c) (k : ℕ) :
    Costs K limit bytes (s + k) p fun a => c a + k := by
  obtain ⟨hpays, hshrinks, hdeep, hends⟩ := h
  refine ⟨?_, hshrinks, hdeep, hends⟩
  have hleft : (p bytes).1.leftOver (fun a => c a + k) ≤ (p bytes).1.leftOver c + k := by
    cases (p bytes).1 with
    | ok a => exact le_rfl
    | error _ | panicked | exhausted => exact Nat.zero_le _
  omega

theorem Costs.weaken {c c' : α → ℕ} (h : Costs K limit bytes s p c)
    (hc : ∀ a, c' a ≤ c a) : Costs K limit bytes s p c' := by
  obtain ⟨hpays, hshrinks, hdeep, hends⟩ := h
  refine ⟨?_, hshrinks, hdeep, hends⟩
  have hleft : (p bytes).1.leftOver c' ≤ (p bytes).1.leftOver c := by
    cases (p bytes).1 with
    | ok a => exact hc a
    | error _ => exact le_rfl
    | panicked | exhausted => exact le_rfl
  omega

variable {f : α → MeteredReader ω ε β}

/-- **Sequences**: what the first reader hands on the second one can use. -/
theorem Costs.bind {d : β → ℕ} (hp : Costs K limit bytes s p c)
    (hf : ∀ a m, p bytes = (.ok a, m) → Costs K limit m.rest (c a) (f a) d) :
    Costs K limit bytes s (p >>= f) d := by
  obtain ⟨hpays, hshrinks, hdeep, hends⟩ := hp
  have hbind := bind_eq p f bytes
  rcases hrun : p bytes with ⟨o, m⟩
  rw [hrun] at hpays hshrinks hdeep hends hbind
  cases o with
  | ok a =>
    obtain ⟨hpays', hshrinks', hdeep', hends'⟩ := hf a m hrun
    refine Costs.of_run hbind ?_ (hshrinks'.trans hshrinks) (max_le hdeep hdeep') hends'
    have hleft : m.decoded + K * m.rest.length + c a ≤ K * bytes.length + s := hpays
    dsimp only [Meter.andThen]
    omega
  | error err | panicked => exact Costs.of_run hbind hpays hshrinks hdeep nofun
  | exhausted => exact absurd rfl hends

/-- The reader takes at least so many bytes for its value. -/
def Takes (p : ByteReader ε α) (n : α → ℕ) : Prop :=
  ∀ bytes a rest, p bytes = .ok (a, rest) → rest.length + n a ≤ bytes.length

theorem Takes.weaken {p : ByteReader ε α} {n n' : α → ℕ} (h : Takes p n) (hn : ∀ a, n' a ≤ n a) :
    Takes p n' := by
  intro bytes a rest hrun
  have htakes := h bytes a rest hrun
  have hle := hn a
  omega

theorem Takes.bind {p : ByteReader ε α} {f : α → ByteReader ε β} {n : α → ℕ} {d : β → ℕ}
    (hp : Takes p n)
    (hf : ∀ a bytes b rest, f a bytes = .ok (b, rest) → rest.length + d b ≤ bytes.length + n a) :
    Takes (p >>= f) d := by
  intro bytes b rest hrun
  cases hfirst : p bytes with
  | ok result =>
    obtain ⟨a, rest'⟩ := result
    rw [bind_eq_of_ok hfirst] at hrun
    have h1 := hp bytes a rest' hfirst
    have h2 := hf a rest' b rest hrun
    omega
  | error err =>
    rw [bind_eq_of_error hfirst] at hrun
    cases hrun

theorem takes_bind {p : ByteReader ε α} {f : α → ByteReader ε β} (hp : Takes p fun _ => 0)
    (hf : ∀ a, Takes (f a) fun _ => 0) : Takes (p >>= f) fun _ => 0 :=
  hp.bind fun a => hf a

theorem takes_pure (a : α) : Takes (pure a : ByteReader ε α) fun _ => 0 := by
  intro bytes a' rest hrun
  cases hrun
  exact le_rfl

theorem takes_byte (eof : ε) : Takes (ByteReader.readByte eof) fun _ => 1 := by
  intro bytes a rest hrun
  cases bytes with
  | nil => cases hrun
  | cons b bytes =>
    cases hrun
    exact le_rfl

variable (e : ByteReader.Errors ε)

theorem takes_full (n : ℕ) : Takes (ByteReader.readFull e n) fun _ => n := by
  intro bytes a rest hrun
  rw [ByteReader.readFull] at hrun
  split at hrun
  · cases hrun
  · cases hrun
    rw [length_drop]
    dsimp only
    omega

theorem takes_groups (k x s : ℕ) : Takes (ByteReader.readGroups e k x s) fun _ => 1 := by
  induction k generalizing x s with
  | zero =>
    intro bytes a rest hrun
    cases hrun
  | succ k ih =>
    refine (takes_byte _).bind fun b bytes a rest hrun => ?_
    split at hrun
    · split at hrun
      · cases hrun
      · cases hrun
        exact le_rfl
    · have htakes := ih _ _ bytes a rest hrun
      exact htakes.trans (Nat.le_add_right _ _)

theorem takes_uvarint : Takes (ByteReader.readUvarint e) fun _ => 1 := takes_groups e 10 0 0

variable {k : ℕ}

theorem Takes.many {p : ℕ → ByteReader ε α} (h : ∀ i, Takes (p i) fun _ => k) (i n : ℕ) :
    Takes (ByteReader.many p i n) fun as => k * as.length := by
  induction n generalizing i with
  | zero =>
    intro bytes as rest hrun
    cases hrun
    exact le_rfl
  | succ n ih =>
    refine (h i).bind fun a bytes as rest hrun => ?_
    cases htail : ByteReader.many p (i + 1) n bytes with
    | error err =>
      rw [bind_eq_of_error htail] at hrun
      cases hrun
    | ok result =>
      obtain ⟨as', rest'⟩ := result
      rw [bind_eq_of_ok htail] at hrun
      cases hrun
      have htakes : rest.length + k * as'.length ≤ bytes.length := ih (i + 1) bytes as' rest htail
      rw [length_cons, Nat.mul_add, Nat.mul_one]
      omega

variable {e : ByteReader.Errors ε}

theorem Takes.readList {p : ByteReader ε α} (h : Takes p fun _ => k) :
    Takes (ByteReader.readList e p) fun as => 1 + k * as.length := by
  refine (takes_uvarint e).bind fun n bytes as rest hrun => ?_
  have htakes : rest.length + k * as.length ≤ bytes.length :=
    Takes.many (fun _ => h) 0 n bytes as rest hrun
  omega

theorem Costs.lift {p : ByteReader ε α} {n : α → ℕ} (h : Takes p n) :
    Costs K limit bytes 0 (lift p : MeteredReader ω ε α) fun a => K * n a := by
  cases hrun : p bytes with
  | ok result =>
    obtain ⟨a, rest⟩ := result
    have hlift : (MeteredReader.lift p : MeteredReader ω ε α) bytes =
        (.ok a, { rest := rest }) := by
      rw [MeteredReader.lift, hrun]
    have htakes := h bytes a rest hrun
    have hmul : K * (rest.length + n a) ≤ K * bytes.length := Nat.mul_le_mul_left K htakes
    rw [Nat.mul_add] at hmul
    refine Costs.of_run hlift ?_ (Nat.le_of_add_right_le htakes) (Nat.zero_le _) nofun
    dsimp only [Outcome.leftOver]
    omega
  | error err =>
    have hlift : (MeteredReader.lift p : MeteredReader ω ε α) bytes =
        (.error err, { rest := bytes }) := by
      rw [MeteredReader.lift, hrun]
    exact Costs.of_idle hlift rfl (Nat.zero_le _) le_rfl nofun

theorem Costs.counted {p : ByteReader ε α} {n : ℕ} (h : Takes p fun _ => n) (hn : 1 ≤ K * n) :
    Costs K limit bytes 0 (counted p : MeteredReader ω ε α) fun _ => K * n - 1 := by
  refine (Costs.lift h).bind fun a m _ => ?_
  have htick : Costs K limit m.rest (1 + (K * n - 1))
      (MeteredReader.tick 1 : MeteredReader ω ε Unit) fun _ => K * n - 1 :=
    Costs.tick 1 (K * n - 1)
  rw [Nat.add_sub_cancel' hn] at htick
  exact htick.bind fun _ _ _ => Costs.pure a fun _ => K * n - 1

theorem Costs.mapError (h : Costs K limit bytes s p c)
    (g : ε → ε) : Costs K limit bytes s (mapError g p) c := by
  obtain ⟨hpays, hshrinks, hdeep, hends⟩ := h
  rcases hrun : p bytes with ⟨o, m⟩
  rw [hrun] at hpays hshrinks hdeep hends
  cases o with
  | ok a
  | panicked => exact Costs.of_run (by rw [MeteredReader.mapError, hrun]) hpays hshrinks hdeep nofun
  | error err =>
    exact Costs.of_run (o := .error (g err)) (by rw [MeteredReader.mapError, hrun]) hpays hshrinks
      hdeep nofun
  | exhausted => exact absurd rfl hends

/-- **Repetitions**: every value hands on the same. -/
theorem Costs.many {p : ℕ → MeteredReader ω ε α}
    (h : ∀ i bytes, Costs K limit bytes 0 (p i) fun _ => k) (i n : ℕ) (bytes : List UInt8) :
    Costs K limit bytes 0 (many p i n) fun as => k * as.length := by
  induction n generalizing i bytes with
  | zero => exact Costs.pure [] fun as => k * as.length
  | succ n ih =>
    refine (h i bytes).bind fun a m _ => ?_
    -- what the first value hands on is kept while the others are read
    have hrest := (ih (i + 1) m.rest).frame k
    rw [Nat.zero_add] at hrest
    refine hrest.bind fun as m' _ => ?_
    exact Costs.pure (a :: as) fun as => k * as.length

theorem Costs.readList (h : ∀ bytes, Costs K limit bytes 0 p fun _ => k) (bytes : List UInt8) :
    Costs K limit bytes 0 (readList e p) fun as => k * as.length := by
  have hlen : Takes (ByteReader.readUvarint e) fun _ => 0 :=
    (takes_uvarint e).weaken fun _ => Nat.zero_le _
  refine (Costs.lift hlen).bind fun n m _ => ?_
  rw [Nat.mul_zero]
  exact Costs.many (fun _ => h) 0 n m.rest

/-! ### One reader in the shadow of another -/

/-- How the run of one reader goes beside that of another: it panics if the other one comes across
something that is not good, and otherwise it takes the same bytes and ends alike. -/
inductive Shadowed (Good : ω → Prop) (R : α → β → Prop) :
    Outcome ε α × Meter ω → Outcome ε β × Meter ω → Prop where
  | bad {run : Outcome ε α × Meter ω} {m' : Meter ω} (x : ω) (seen : x ∈ run.2.seen)
      (bad : ¬Good x) : Shadowed Good R run (.panicked, m')
  | value {a : α} {b : β} {m m' : Meter ω} (good : ∀ x ∈ m.seen, Good x) (rest : m.rest = m'.rest)
      (related : R a b) : Shadowed Good R (.ok a, m) (.ok b, m')
  | error {err err' : ε} {m m' : Meter ω} (good : ∀ x ∈ m.seen, Good x) :
      Shadowed Good R (.error err, m) (.error err', m')
  | exhausted {m m' : Meter ω} (good : ∀ x ∈ m.seen, Good x) :
      Shadowed Good R (.exhausted, m) (.exhausted, m')

/-- **The reader `q` does what `p` does, until it panics.** -/
def Shadows (Good : ω → Prop) (R : α → β → Prop) (p : MeteredReader ω ε α)
    (q : MeteredReader ω ε β) : Prop :=
  ∀ bytes, Shadowed Good R (p bytes) (q bytes)

section

variable {Good : ω → Prop} {R : α → β → Prop}

theorem Shadows.pure {a : α} {b : β} (h : R a b) :
    Shadows Good R (pure a : MeteredReader ω ε α) (pure b : MeteredReader ω ε β) :=
  fun _ => .value nofun rfl h

theorem Shadows.tick (n n' : ℕ) : Shadows Good Eq (tick n : MeteredReader ω ε Unit) (tick n') :=
  fun _ => .value nofun rfl rfl

theorem Shadows.enter (depth : ℕ) :
    Shadows Good Eq (enter depth : MeteredReader ω ε Unit) (enter depth) :=
  fun _ => .value nofun rfl rfl

theorem Shadows.fail :
    Shadows Good R (fail err : MeteredReader ω ε α) (fail err : MeteredReader ω ε β) :=
  fun _ => .error nofun

theorem Shadows.exhaust :
    Shadows Good R (exhaust : MeteredReader ω ε α) (exhaust : MeteredReader ω ε β) :=
  fun _ => .exhausted nofun

theorem Shadows.lift (p : ByteReader ε α) :
    Shadows Good Eq (lift p : MeteredReader ω ε α) (lift p : MeteredReader ω ε α) := by
  intro bytes
  rw [MeteredReader.lift]
  cases p bytes with
  | ok result => exact .value nofun rfl rfl
  | error err => exact .error nofun

variable {q : MeteredReader ω ε β}

/-- **Sequences.** -/
theorem Shadows.bind {δ : Type} {S : γ → δ → Prop} {f : α → MeteredReader ω ε γ}
    {g : β → MeteredReader ω ε δ} (h : Shadows Good R p q)
    (hf : ∀ a b, R a b → Shadows Good S (f a) (g b)) :
    Shadows Good S (p >>= f) (q >>= g) := by
  intro bytes
  rw [bind_eq, bind_eq]
  have hfirst := h bytes
  generalize p bytes = run at hfirst
  generalize q bytes = run' at hfirst
  cases hfirst with
  | bad x hx hbad =>
    refine .bad x ?_ hbad
    obtain ⟨o, m⟩ := run
    cases o with
    | ok a => exact mem_append_left _ hx
    | error _ | panicked | exhausted => exact hx
  | error hgood => exact .error hgood
  | exhausted hgood => exact .exhausted hgood
  | @value a b m m' hgood hrest hab =>
    have hsecond := hf a b hab m'.rest
    have hgood' : ∀ {seen : List ω}, (∀ x ∈ seen, Good x) → ∀ x ∈ m.seen ++ seen, Good x := by
      intro seen hseen x hx
      rcases List.mem_append.1 hx with hx | hx
      · exact hgood x hx
      · exact hseen x hx
    dsimp only [goOn, Meter.andThen]
    rw [hrest]
    generalize f a m'.rest = run at hsecond
    generalize g b m'.rest = run' at hsecond
    cases hsecond with
    | bad x hx hbad => exact .bad x (mem_append_right _ hx) hbad
    | value hseen hrest' hcd => exact .value (hgood' hseen) hrest' hcd
    | error hseen => exact .error (hgood' hseen)
    | exhausted hseen => exact .exhausted (hgood' hseen)

theorem Shadows.mono {S : α → β → Prop}
    (h : Shadows Good R p q) (hRS : ∀ a b, R a b → S a b) : Shadows Good S p q := by
  intro bytes
  have hrun := h bytes
  generalize p bytes = run at hrun
  generalize q bytes = run' at hrun
  cases hrun with
  | bad x hx hbad => exact .bad x hx hbad
  | value hseen hrest hab => exact .value hseen hrest (hRS _ _ hab)
  | error hseen => exact .error hseen
  | exhausted hseen => exact .exhausted hseen

theorem Shadows.mapError
    (h : Shadows Good R p q) (g : ε → ε) : Shadows Good R (mapError g p) (mapError g q) := by
  intro bytes
  have hrun := h bytes
  rw [MeteredReader.mapError, MeteredReader.mapError]
  generalize p bytes = run at hrun
  generalize q bytes = run' at hrun
  cases hrun with
  | bad x hx hbad =>
    refine .bad x ?_ hbad
    obtain ⟨o, m⟩ := run
    cases o with
    | ok _ | error _ | panicked | exhausted => exact hx
  | value hseen hrest hab => exact .value hseen hrest hab
  | error hseen => exact .error hseen
  | exhausted hseen => exact .exhausted hseen

/-- **Repetitions.** -/
theorem Shadows.many {p : ℕ → MeteredReader ω ε α} {q : ℕ → MeteredReader ω ε β}
    (h : ∀ i, Shadows Good R (p i) (q i)) (i n : ℕ) :
    Shadows Good (List.Forall₂ R) (many p i n) (many q i n) := by
  induction n generalizing i with
  | zero => exact Shadows.pure .nil
  | succ n ih =>
    refine (h i).bind fun a b hab => ?_
    exact (ih (i + 1)).bind fun as bs habs => Shadows.pure (.cons hab habs)

theorem Shadows.counted (p : ByteReader ε α) :
    Shadows Good Eq (counted p : MeteredReader ω ε α) (counted p) := by
  refine (Shadows.lift p).bind fun a b hab => ?_
  exact (Shadows.tick 1 1).bind fun _ _ _ => Shadows.pure hab

theorem Shadows.readList {p q : MeteredReader ω ε α}
    (h : Shadows Good Eq p q) : Shadows Good Eq (readList e p) (readList e q) := by
  refine (Shadows.lift _).bind ?_
  rintro n _ rfl
  refine (Shadows.many (fun _ => h) 0 n).mono fun as bs habs => ?_
  exact forall₂_eq_eq_eq ▸ habs

end

/-! ### Readers without the meter -/

/-- What a run says about the reader without the meter; a run that panics or uses up its rounds says
nothing. -/
def Erased (result : Except ε (α × List UInt8)) : Outcome ε α × Meter ω → Prop
  | (.ok a, m) => result = .ok (a, m.rest)
  | (.error err, _) => result = .error err
  | (.panicked, _) => True
  | (.exhausted, _) => True

/-- **Without its meter the reader `p` is `q`.** -/
def Erases (p : MeteredReader ω ε α) (q : ByteReader ε α) : Prop :=
  ∀ bytes, Erased (q bytes) (p bytes)

theorem Erases.pure (a : α) : Erases (pure a : MeteredReader ω ε α) (pure a) := fun _ => rfl

theorem Erases.fail : Erases (fail err : MeteredReader ω ε α) (throw err) := fun _ => rfl

theorem Erases.lift (p : ByteReader ε α) : Erases (lift p : MeteredReader ω ε α) p := by
  intro bytes
  rw [MeteredReader.lift]
  cases hrun : p bytes with
  | ok result => exact rfl
  | error err => exact rfl

variable {q : ByteReader ε α}

theorem Erases.bind {g : α → ByteReader ε β} (h : Erases p q) (hf : ∀ a, Erases (f a) (g a)) :
    Erases (p >>= f) (q >>= g) := by
  intro bytes
  have hfirst := h bytes
  rw [bind_eq]
  generalize p bytes = run at hfirst
  obtain ⟨o, m⟩ := run
  cases o with
  | ok a =>
    have hsecond := hf a m.rest
    rw [bind_eq_of_ok hfirst]
    dsimp only [goOn, Meter.andThen]
    generalize f a m.rest = run at hsecond
    obtain ⟨o', m'⟩ := run
    cases o' with
    | ok _ | error _ => exact hsecond
    | panicked | exhausted => exact trivial
  | error err => exact bind_eq_of_error hfirst
  | panicked | exhausted => exact trivial

theorem Erases.skip {p : MeteredReader ω ε Unit} {f : Unit → MeteredReader ω ε β}
    {q : ByteReader ε β} (h : Erases p (Pure.pure ())) (hf : Erases (f ()) q) :
    Erases (p >>= f) q := by
  have hbind := h.bind (f := f) (g := fun _ => q) fun _ => hf
  intro bytes
  exact hbind bytes

theorem Erases.tick (n : ℕ) : Erases (tick n : MeteredReader ω ε Unit) (Pure.pure ()) :=
  fun _ => rfl

theorem Erases.note (x : ω) : Erases (note x : MeteredReader ω ε Unit) (Pure.pure ()) :=
  fun _ => rfl

theorem Erases.enter (depth : ℕ) :
    Erases (enter depth : MeteredReader ω ε Unit) (Pure.pure ()) := fun _ => rfl

theorem Erases.crash (q : ByteReader ε α) : Erases (crash : MeteredReader ω ε α) q :=
  fun _ => trivial

theorem Erases.exhaust (q : ByteReader ε α) : Erases (exhaust : MeteredReader ω ε α) q :=
  fun _ => trivial

theorem Erases.counted (p : ByteReader ε α) : Erases (counted p : MeteredReader ω ε α) p := by
  have hcounted : Erases (MeteredReader.counted p : MeteredReader ω ε α) (p >>= Pure.pure) :=
    (Erases.lift p).bind fun a =>
      (Erases.tick 1).skip (f := fun _ => (Pure.pure a : MeteredReader ω ε α)) (Erases.pure a)
  rwa [bind_pure] at hcounted

theorem Erases.mapError (h : Erases p q)
    (g : ε → ε) : Erases (mapError g p) (ByteReader.mapError g q) := by
  intro bytes
  have hrun := h bytes
  rw [MeteredReader.mapError, ByteReader.mapError]
  generalize p bytes = run at hrun
  obtain ⟨o, m⟩ := run
  cases o with
  | ok a =>
    have hq : q bytes = .ok (a, m.rest) := hrun
    rw [hq]
    rfl
  | error err =>
    have hq : q bytes = .error err := hrun
    rw [hq]
    rfl
  | panicked | exhausted => exact trivial

theorem Erases.many {p : ℕ → MeteredReader ω ε α} {q : ℕ → ByteReader ε α}
    (h : ∀ i, Erases (p i) (q i)) (i n : ℕ) : Erases (many p i n) (ByteReader.many q i n) := by
  induction n generalizing i with
  | zero => exact Erases.pure []
  | succ n ih => exact (h i).bind fun a => (ih (i + 1)).bind fun as => Erases.pure (a :: as)

theorem Erases.readList (h : Erases p q) : Erases (readList e p) (ByteReader.readList e q) :=
  (Erases.lift _).bind fun n => Erases.many (fun _ => h) 0 n

end MeteredReader
