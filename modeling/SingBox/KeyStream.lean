/-
**Key streams.**

A stream cipher turns a key into an endless stream of bytes and combines it with the text byte by
byte.  The same operation encrypts and decrypts, provided both sides are at the same position of the
stream.

* `KeyStream.xorAt` — the text combined with the stream from a position on;
* `KeyStream.xorAt_append`, `KeyStream.drop_xorAt` — pieces of text are combined one after the
  other;
* `KeyStream.xorAt_xorAt` — **twice is nothing**.
-/

import Mathlib.Tactic.Common

namespace KeyStream

open List

variable (ks : ℕ → UInt8)

/-- The text combined with the stream from a position on. -/
def xorAt : ℕ → List UInt8 → List UInt8
  | _, [] => []
  | pos, b :: text => (b ^^^ ks pos) :: xorAt (pos + 1) text

variable (pos : ℕ)

@[simp] theorem length_xorAt (text : List UInt8) : (xorAt ks pos text).length = text.length := by
  induction text generalizing pos with
  | nil => rfl
  | cons b text ih => rw [xorAt, length_cons, length_cons, ih]

theorem xorAt_append (text text' : List UInt8) :
    xorAt ks pos (text ++ text') = xorAt ks pos text ++ xorAt ks (pos + text.length) text' := by
  induction text generalizing pos with
  | nil => rfl
  | cons b text ih =>
    rw [cons_append, xorAt, xorAt, ih, cons_append, length_cons, Nat.add_right_comm, Nat.add_assoc]

theorem drop_xorAt (pos n : ℕ) (text : List UInt8) :
    (xorAt ks pos text).drop n = xorAt ks (pos + n) (text.drop n) := by
  induction n generalizing pos text with
  | zero => rfl
  | succ n ih =>
    cases text with
    | nil => rfl
    | cons b text =>
      rw [xorAt, drop_succ_cons, drop_succ_cons, ih, Nat.add_assoc, Nat.add_comm 1 n]

@[simp] theorem xorAt_xorAt (text : List UInt8) : xorAt ks pos (xorAt ks pos text) = text := by
  induction text generalizing pos with
  | nil => rfl
  | cons b text ih => rw [xorAt, xorAt, ih, UInt8.xor_assoc, UInt8.xor_self, UInt8.xor_zero]

end KeyStream
