import Mathlib.Data.List.Basic

/-!
# Base64url

The encoding of the parts of a JWT: three octets are four characters of six bits each, without
padding. A prefix of whole groups is encoded on its own (`encode_append`). `decode` reads either alphabet and
skips every other character, as `Buffer.from` does; what is encoded is read back (`decode_encode`).
-/

namespace OumraHajj

/-- The UTF-8 octets of a text. -/
def octets (s : String) : List UInt8 := s.toList.flatMap String.utf8EncodeChar

namespace Base64

/-- The character of six bits. -/
def digit (n : Nat) : Char :=
  "ABCDEFGHIJKLMNOPQRSTUVWXYZabcdefghijklmnopqrstuvwxyz0123456789-_".toList.getD n 'A'

/-- The first `n` characters of the group of 24 bits `x`. -/
def group (x n : Nat) : List Char :=
  [digit (x / 262144 % 64), digit (x / 4096 % 64), digit (x / 64 % 64), digit (x % 64)].take n

def encode : List UInt8 → List Char
  | [] => []
  | [a] => group (a.toNat * 65536) 2
  | [a, b] => group (a.toNat * 65536 + b.toNat * 256) 3
  | a :: b :: c :: rest => group (a.toNat * 65536 + b.toNat * 256 + c.toNat) 4 ++ encode rest

example : encode (octets "\x7b\"alg\":\"HS256\",\"typ\":\"JWT\"\x7d") =
    "eyJhbGciOiJIUzI1NiIsInR5cCI6IkpXVCJ9".toList := by decide +kernel

/-- A whole group starts octets in groups. -/
theorem exists_group {k : Nat} {p : List UInt8} (hp : p.length = 3 * (k + 1)) :
    ∃ a b c q, p = a :: b :: c :: q ∧ q.length = 3 * k := by
  rcases p with _ | ⟨a, _ | ⟨b, _ | ⟨c, q⟩⟩⟩
  · simp at hp
  · simp at hp; omega
  · simp at hp; omega
  · refine ⟨a, b, c, q, rfl, ?_⟩
    simp only [List.length_cons] at hp
    omega

theorem encode_append {k : Nat} {p : List UInt8} (hp : p.length = 3 * k) (r : List UInt8) :
    encode (p ++ r) = encode p ++ encode r := by
  induction k generalizing p with
  | zero => rw [List.length_eq_zero_iff.mp hp]; rfl
  | succ k ih =>
    obtain ⟨a, b, c, q, rfl, hq⟩ := exists_group hp
    rw [List.cons_append, List.cons_append, List.cons_append, encode, encode, ih hq, List.append_assoc]

theorem length_encode {k : Nat} {p : List UInt8} (hp : p.length = 3 * k) :
    (encode p).length = 4 * k := by
  induction k generalizing p with
  | zero => rw [List.length_eq_zero_iff.mp hp]; rfl
  | succ k ih =>
    obtain ⟨a, b, c, q, rfl, hq⟩ := exists_group hp
    rw [encode, List.length_append, ih hq, group]
    simp only [List.length_take, List.length_cons, List.length_nil]
    omega

/-- The six bits of a character, of either alphabet. -/
def sixBits (c : Char) : Option Nat :=
  if 'A' ≤ c ∧ c ≤ 'Z' then some (c.toNat - 65)
  else if 'a' ≤ c ∧ c ≤ 'z' then some (c.toNat - 71)
  else if c.isDigit then some (c.toNat + 4)
  else if c = '-' ∨ c = '+' then some 62
  else if c = '_' ∨ c = '/' then some 63
  else none

/-- The octets of groups of six bits; the bits after the last whole octet are dropped. -/
def ungroup : List Nat → List UInt8
  | a :: b :: c :: d :: l =>
    let x := a * 262144 + b * 4096 + c * 64 + d
    UInt8.ofNat (x / 65536) :: UInt8.ofNat (x / 256 % 256) :: UInt8.ofNat (x % 256) :: ungroup l
  | [a, b, c] =>
    let x := a * 262144 + b * 4096 + c * 64
    [UInt8.ofNat (x / 65536), UInt8.ofNat (x / 256 % 256)]
  | [a, b] => [UInt8.ofNat ((a * 262144 + b * 4096) / 65536)]
  | _ => []

/-- `Buffer.from(texte, 'base64url')`. -/
def decode (l : List Char) : List UInt8 := ungroup (l.filterMap sixBits)

example : decode "eyJhbGci\nOiJI=Uz".toList = octets "\x7b\"alg\":\"HS" := by decide +kernel

theorem sixBits_digit (n : Nat) : sixBits (digit (n % 64)) = some (n % 64) := by
  have h : ∀ m < 64, sixBits (digit m) = some m := by decide +kernel
  exact h _ (Nat.mod_lt _ (by decide))

theorem filterMap_group (x n : Nat) : (group x n).filterMap sixBits =
    [x / 262144 % 64, x / 4096 % 64, x / 64 % 64, x % 64].take n := by
  have h : [digit (x / 262144 % 64), digit (x / 4096 % 64), digit (x / 64 % 64), digit (x % 64)] =
      [x / 262144 % 64, x / 4096 % 64, x / 64 % 64, x % 64].map digit := rfl
  rw [group, h, ← List.map_take, List.filterMap_map]
  refine (List.filterMap_congr fun y hy => ?_).trans List.filterMap_some
  have hy := List.mem_of_mem_take hy
  simp only [List.mem_cons, List.not_mem_nil, or_false] at hy
  rcases hy with rfl | rfl | rfl | rfl <;> exact sixBits_digit _

/-- **What is encoded is read back.** -/
theorem decode_encode (l : List UInt8) : decode (encode l) = l := by
  unfold decode
  induction l using encode.induct with
  | case1 => rfl
  | case2 a =>
    have ha := a.toNat_lt
    have hx : (a.toNat * 65536 / 262144 % 64 * 262144 + a.toNat * 65536 / 4096 % 64 * 4096) / 65536 =
        a.toNat := by omega
    simp only [encode, filterMap_group, List.take_succ_cons, List.take_zero, ungroup, hx,
      UInt8.ofNat_toNat]
  | case3 a b =>
    have ha := a.toNat_lt
    have hb := b.toNat_lt
    have hx : ∀ x < 16777216, x % 64 = 0 → x / 262144 % 64 * 262144 + x / 4096 % 64 * 4096 +
        x / 64 % 64 * 64 = x := by omega
    simp only [encode, filterMap_group, List.take_succ_cons, List.take_zero, ungroup]
    rw [hx _ (by omega) (by omega), (by omega : (a.toNat * 65536 + b.toNat * 256) / 65536 = a.toNat),
      (by omega : (a.toNat * 65536 + b.toNat * 256) / 256 % 256 = b.toNat)]
    simp only [UInt8.ofNat_toNat]
  | case4 a b c rest ih =>
    have ha := a.toNat_lt
    have hb := b.toNat_lt
    have hc := c.toNat_lt
    have hx : ∀ x < 16777216, x / 262144 % 64 * 262144 + x / 4096 % 64 * 4096 + x / 64 % 64 * 64 +
        x % 64 = x := by omega
    rw [encode, List.filterMap_append, filterMap_group]
    simp only [List.take_succ_cons, List.take_zero, List.cons_append, List.nil_append, ungroup, ih]
    rw [hx _ (by omega),
      (by omega : (a.toNat * 65536 + b.toNat * 256 + c.toNat) / 65536 = a.toNat),
      (by omega : (a.toNat * 65536 + b.toNat * 256 + c.toNat) / 256 % 256 = b.toNat),
      (by omega : (a.toNat * 65536 + b.toNat * 256 + c.toNat) % 256 = c.toNat)]
    simp only [UInt8.ofNat_toNat]

end Base64

end OumraHajj
