/-
**IP addresses, prefixes and address sets.**

The packages `net/netip` and `netipx` as far as rules read them: an address is absent, an IPv4
address or an IPv6 address with a zone; addresses are ordered by family, then by value, then by
zone; an address set is the list of ranges that `netipx.IPSet` holds.
-/

import SingBox.GoString

/-- `netip.Addr`.  The zero value is no address at all. -/
inductive Addr where
  | zero
  | v4 (bits : BitVec 32)
  | v6 (bits : BitVec 128) (zone : GoString)
  deriving DecidableEq

namespace Addr

open BitVec GoString Nat

/-- `Addr.IsValid`. -/
def isValid : Addr → Bool
  | zero => false
  | _ => true

/-- `Addr.Is4`. -/
def is4 : Addr → Bool
  | v4 _ => true
  | _ => false

/-- `Addr.Is6`, which IPv4-mapped IPv6 addresses satisfy too. -/
def is6 : Addr → Bool
  | v6 _ _ => true
  | _ => false

/-- `Addr.BitLen`. -/
def bitLen : Addr → ℕ
  | zero => 0
  | v4 _ => 32
  | v6 _ _ => 128

/-- The address bits as a number. -/
def value : Addr → ℕ
  | zero => 0
  | v4 b => b.toNat
  | v6 b _ => b.toNat

/-- The IPv6 zone, empty for every other address. -/
def zone : Addr → GoString
  | v6 _ z => z
  | _ => []

/-- `Addr.IsUnspecified`: `0.0.0.0` or `::`. -/
def isUnspecified (a : Addr) : Bool := a = v4 0 || a = v6 0 []

/-- `Addr.Compare`: by family, then by value, then by zone. -/
def compare (a b : Addr) : Ordering :=
  (Ord.compare a.bitLen b.bitLen).then
    ((Ord.compare a.value b.value).then (Ord.compare a.zone b.zone))

/-- `a ≤ b` in the order of `Addr.Compare`. -/
def le (a b : Addr) : Bool := (a.compare b).isLE

/-- `Addr.Next`: the zero value after the last address of a family. -/
def next : Addr → Addr
  | zero => zero
  | v4 b => if b + 1#32 = 0#32 then zero else v4 (b + 1#32)
  | v6 b z => if b + 1#128 = 0#128 then zero else v6 (b + 1#128) z

/-- `Addr.As16`: an IPv4 address is mapped. -/
def as16 : Addr → BitVec 128
  | zero => 0#128
  | v4 b => 0xffff#128 <<< 32 ||| b.setWidth 128
  | v6 b _ => b

/-- `Addr.Unmap`: an IPv4-mapped IPv6 address becomes the IPv4 address it maps. -/
def unmap : Addr → Addr
  | v6 b z => if b >>> 32 = 0xffff#128 then v4 (b.setWidth 32) else v6 b z
  | a => a

/-- The class tests of `netip.Addr` that `N.IsPublicAddr` refers to: unspecified, which is the only
one that does not unmap, private, loopback, multicast, link-local unicast, interface-local
multicast. -/
def isSpecial (a : Addr) : Bool :=
  a.isUnspecified ||
    match a.unmap with
    | zero => false
    | v4 b =>
      b >>> 24 = 10#32 || b >>> 20 = 0xac1#32 || b >>> 16 = 0xc0a8#32 || b >>> 24 = 127#32 ||
        b >>> 28 = 0xe#32 || b >>> 16 = 0xa9fe#32
    | v6 b _ => b >>> 121 = 0x7e#128 || b = 1#128 || b >>> 120 = 0xff#128 || b >>> 118 = 0x3fa#128

/-- `N.IsPublicAddr`. -/
def isPublicAddr (a : Addr) : Bool := !a.isSpecial

theorem value_lt (a : Addr) : a.value < 2 ^ a.bitLen := by
  cases a with
  | zero => exact Nat.one_pos
  | v4 b => exact b.isLt
  | v6 b z => exact b.isLt

theorem ext_value {a b : Addr} (hlen : a.bitLen = b.bitLen) (hvalue : a.value = b.value)
    (hzone : a.zone = b.zone) : a = b := by
  cases a <;> cases b <;> simp_all [bitLen, value, zone, toNat_inj]

theorem toNat_add_one {w : ℕ} (b : BitVec w) (h : b.toNat + 1 < 2 ^ w) :
    (b + 1#w).toNat = b.toNat + 1 := by
  have hw : 1 < 2 ^ w := by omega
  rw [toNat_add, toNat_ofNat, mod_eq_of_lt hw, mod_eq_of_lt h]

theorem add_one_ne_zero {w : ℕ} (b : BitVec w) (h : b.toNat + 1 < 2 ^ w) : b + 1#w ≠ 0#w := by
  intro hzero
  have hvalue := toNat_add_one b h
  rw [hzero, toNat_zero] at hvalue
  omega

theorem add_one_eq_zero {w : ℕ} (b : BitVec w) (h : b.toNat + 1 = 2 ^ w) : b + 1#w = 0#w := by
  apply toNat_inj.1
  rw [toNat_add, toNat_ofNat, add_mod_mod, h, mod_self, toNat_zero]

variable {a : Addr}

theorem next_of_lt (ha : a.isValid) (h : a.value + 1 < 2 ^ a.bitLen) :
    a.next.bitLen = a.bitLen ∧ a.next.value = a.value + 1 ∧ a.next.zone = a.zone := by
  cases a with
  | zero => cases ha
  | v4 b | v6 b z =>
    have hvalue := toNat_add_one b h
    rw [next, if_neg (add_one_ne_zero b h)]
    exact ⟨rfl, hvalue, rfl⟩

theorem next_of_eq (h : a.value + 1 = 2 ^ a.bitLen) : a.next = zero := by
  cases a with
  | zero => rfl
  | v4 b | v6 b z => exact if_pos (add_one_eq_zero b h)

theorem isValid_iff : a.isValid ↔ a.bitLen ≠ 0 := by
  cases a <;> simp [isValid, bitLen]

theorem is4_iff : a.is4 ↔ a.bitLen = 32 := by
  cases a <;> simp [is4, bitLen]

/-! ### Textual form -/

/-- One field of a dotted address: a number up to 255 without leading zeros. -/
def parseOctet (s : GoString) : Option ℕ :=
  if 1 < s.length && s.head? == some 48 then none else s.parseUint 8

/-- The number whose base `2 ^ width` digits are `fields`. -/
def ofFields (width : ℕ) (fields : List ℕ) : ℕ := fields.foldl (fun n d => n * 2 ^ width + d) 0

/-- Four dotted octets. -/
def parseIPv4Fields (s : GoString) : Option (List ℕ) :=
  match s.split 46 with
  | [a, b, c, d] => [a, b, c, d].mapM parseOctet
  | _ => none

/-- The value of a hexadecimal digit. -/
def hexDigit (c : UInt8) : Option ℕ :=
  if 48 ≤ c ∧ c ≤ 57 then some (c.toNat - 48)
  else if 97 ≤ c ∧ c ≤ 102 then some (c.toNat - 87)
  else if 65 ≤ c ∧ c ≤ 70 then some (c.toNat - 55)
  else none

/-- The hexadecimal digits at the front of `s`, with what follows them. -/
def hexField (s : GoString) : List ℕ × GoString :=
  ((s.takeWhile fun c => (hexDigit c).isSome).filterMap hexDigit,
    s.dropWhile fun c => (hexDigit c).isSome)

/-- The fields of an IPv6 address read so far, in 16-bit groups, the position of the ellipsis, and
the text that is left.  `n` bounds the fields still to come. -/
def parseIPv6Fields : ℕ → List ℕ → Option ℕ → GoString → Option (List ℕ × Option ℕ × GoString)
  | 0, fields, ellipsis, s => some (fields, ellipsis, s)
  | n + 1, fields, ellipsis, s =>
    match hexField s with
    | ([], _) => none
    | (digits, rest) =>
      if 4 < digits.length then none
      else
        match rest with
        | [] => some (fields ++ [ofFields 4 digits], ellipsis, [])
        | 46 :: _ =>
          -- a trailing IPv4 address stands for two fields
          if (ellipsis = none ∧ fields.length ≠ 6) ∨ n = 0 then none
          else (parseIPv4Fields s).map fun o =>
            (fields ++ [ofFields 8 (o.take 2), ofFields 8 (o.drop 2)], ellipsis, [])
        | 58 :: [] => none
        | 58 :: 58 :: [] =>
          if ellipsis = none then
            some (fields ++ [ofFields 4 digits], some (fields.length + 1), [])
          else none
        | 58 :: 58 :: rest =>
          if ellipsis = none then
            parseIPv6Fields n (fields ++ [ofFields 4 digits]) (some (fields.length + 1)) rest
          else none
        | 58 :: rest => parseIPv6Fields n (fields ++ [ofFields 4 digits]) ellipsis rest
        | _ => none

/-- The eight fields of an IPv6 address, the ellipsis expanded to at least one zero field. -/
def expandIPv6 (fields : List ℕ) : Option ℕ → Option (List ℕ)
  | none => if fields.length = 8 then some fields else none
  | some e =>
    if fields.length < 8 then
      some (fields.take e ++ List.replicate (8 - fields.length) 0 ++ fields.drop e)
    else none

/-- An IPv6 address without its zone. -/
def parseIPv6Bits (s : GoString) : Option (BitVec 128) :=
  let parsed := match s with
    | 58 :: 58 :: [] => some ([], some 0, [])
    | 58 :: 58 :: rest => parseIPv6Fields 8 [] (some 0) rest
    | s => parseIPv6Fields 8 [] none s
  match parsed with
  | some (fields, ellipsis, []) =>
    (expandIPv6 fields ellipsis).map fun f => .ofNat 128 (ofFields 16 f)
  | _ => none

/-- `netip.ParseAddr`: the first `.`, `:` or `%` decides how the text is read. -/
def parseAddr (s : GoString) : Option Addr :=
  match s.find? fun c => c = 46 || c = 58 || c = 37 with
  | some 46 => (parseIPv4Fields s).map fun o => v4 (.ofNat 32 (ofFields 8 o))
  | some 58 =>
    match s.cut 37 with
    | none => (parseIPv6Bits s).map fun b => v6 b []
    | some (s, zone) => if zone = [] then none else (parseIPv6Bits s).map fun b => v6 b zone
  | _ => none

section

variable {c : UInt8} {s : GoString} (hdigit : hexDigit c = none)

include hdigit

theorem parseIPv4Fields_cons_eq_none (hdot : c ≠ 46) : parseIPv4Fields (c :: s) = none := by
  have hfield : ∀ field : GoString, parseOctet (c :: field) = none := by
    intro field
    have hdecimal : digit c = none := by
      rw [digit, if_neg]
      intro h
      rw [hexDigit, if_pos h] at hdigit
      cases hdigit
    simp [parseOctet, parseUint, parseDigits, hdecimal]
  have hsplit : ∃ field fields, GoString.split 46 (c :: s) = (c :: field) :: fields := by
    rw [GoString.split, if_neg hdot]
    cases GoString.split 46 s with
    | nil | cons field fields => exact ⟨_, _, rfl⟩
  obtain ⟨field, fields, hsplit⟩ := hsplit
  rw [parseIPv4Fields, hsplit]
  split
  case h_1 heq =>
    obtain ⟨rfl, -⟩ := List.cons.inj heq
    simp [hfield]
  case h_2 => rfl

theorem parseIPv6Bits_cons_eq_none (hcolon : c ≠ 58) : parseIPv6Bits (c :: s) = none := by
  have hfield : hexField (c :: s) = ([], c :: s) := by simp [hexField, hdigit]
  simp [parseIPv6Bits, hcolon, parseIPv6Fields, hfield]

theorem parseAddr_cons_eq_none (hdot : c ≠ 46) (hcolon : c ≠ 58) (hzone : c ≠ 37) :
    parseAddr (c :: s) = none := by
  rw [parseAddr]
  split
  case h_1 => rw [parseIPv4Fields_cons_eq_none hdigit hdot, Option.map_none]
  case h_2 =>
    rw [cut, if_neg hzone]
    cases cut 37 s with
    | none | some parts => simp [parseIPv6Bits_cons_eq_none hdigit hcolon]
  case h_3 => rfl

end

end Addr

/-- `netip.Prefix`: an address and the number of leading bits that count. -/
structure Prefix where
  addr : Addr
  bits : ℕ
  deriving DecidableEq

namespace Prefix

/-- `Prefix.IsValid`: the zero prefix and prefixes longer than their address are not. -/
def isValid (p : Prefix) : Bool := p.addr.isValid && decide (p.bits ≤ p.addr.bitLen)

/-- Two addresses of one family agree on their leading `bits` bits. -/
def agree (a b : Addr) (bits : ℕ) : Bool :=
  decide (a.bitLen = b.bitLen) &&
    decide (a.value >>> (a.bitLen - bits) = b.value >>> (b.bitLen - bits))

/-- `Prefix.Contains`, which is false for addresses with a zone and for the other family. -/
def contains (p : Prefix) (a : Addr) : Bool :=
  p.isValid && a.zone.isEmpty && agree p.addr a p.bits

/-- The number of addresses of a prefix. -/
def size (p : Prefix) : ℕ := 2 ^ (p.addr.bitLen - p.bits)

/-- The value of the first of them. -/
def firstValue (p : Prefix) : ℕ := p.size * (p.addr.value / p.size)

variable (p : Prefix)

theorem size_pos : 0 < p.size := Nat.two_pow_pos _

theorem firstValue_le : p.firstValue ≤ p.addr.value := Nat.mul_div_le _ _

theorem firstValue_add_le : p.firstValue + p.size ≤ 2 ^ p.addr.bitLen := by
  have hdvd : p.size ∣ 2 ^ p.addr.bitLen := pow_dvd_pow 2 (Nat.sub_le _ _)
  obtain ⟨k, hk⟩ := hdvd
  have hlt := p.addr.value_lt
  rw [hk] at hlt ⊢
  rw [firstValue, ← Nat.mul_succ]
  exact Nat.mul_le_mul_left _ (Nat.div_lt_of_lt_mul hlt)

theorem contains_iff {p : Prefix} {a : Addr} :
    p.contains a ↔ p.isValid ∧ a.zone = [] ∧ p.addr.bitLen = a.bitLen ∧
      p.addr.value / p.size = a.value / p.size := by
  simp only [contains, agree, size, Bool.and_eq_true, decide_eq_true_eq, List.isEmpty_iff,
    Nat.shiftRight_eq_div_pow, and_assoc]
  refine and_congr_right fun _ => and_congr_right fun _ => and_congr_right fun hlen => ?_
  rw [hlen]

theorem isValid_of_contains {p : Prefix} {a : Addr} (h : p.contains a) : a.isValid := by
  obtain ⟨hvalid, -, hlen, -⟩ := contains_iff.1 h
  rw [isValid, Bool.and_eq_true, Addr.isValid_iff, hlen, ← Addr.isValid_iff] at hvalid
  exact hvalid.1

theorem value_next_of_contains {p : Prefix} {a : Addr} (ha : a.isValid)
    (h : p.contains a.next) : a.next.value = a.value + 1 := by
  have hlt := a.value_lt
  by_cases hlast : a.value + 1 = 2 ^ a.bitLen
  · rw [Addr.next_of_eq hlast] at h
    exact absurd (isValid_of_contains h) Bool.false_ne_true
  · exact (Addr.next_of_lt ha (by omega)).2.1

/-- `Prefix.Overlaps`: one of the two prefixes contains the other. -/
def overlaps (p q : Prefix) : Bool :=
  p.isValid && q.isValid && agree p.addr q.addr (min p.bits q.bits)

/-- The length of a prefix: decimal, without sign or leading zeros. -/
def parseBits (s : GoString) : Option ℕ :=
  if 1 < s.length && s.head? == some 48 then none else s.parseUint 63

/-- `netip.ParsePrefix`: an address without zone and, after the last slash, a length within the
address. -/
def parsePrefix (s : GoString) : Option Prefix :=
  match GoString.cut 47 (List.reverse s) with
  | none => none
  | some (bits, addr) =>
    match Addr.parseAddr (List.reverse addr), parseBits (List.reverse bits) with
    | some a, some n => if a.zone = [] ∧ n ≤ a.bitLen then some ⟨a, n⟩ else none
    | _, _ => none

end Prefix

/-- One range of an address set, both ends included. -/
structure IPRange where
  from_ : Addr
  to_ : Addr
  deriving DecidableEq

/-- `netipx.IPSet`: the sorted, disjoint ranges that make up the set. -/
abbrev IPSet : Type := List IPRange

/-- `IPSet.Contains`, which is false for addresses with a zone. -/
def IPSet.contains (s : IPSet) (a : Addr) : Bool :=
  a.zone.isEmpty && s.any fun r => r.from_.le a && a.le r.to_
