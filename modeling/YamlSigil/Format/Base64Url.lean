/-
The unpadded URL-safe base64 codec.

The decoder is strict: a character outside the alphabet, a dangling single
character and nonzero unused bits are errors, so every octet string has exactly
one accepted spelling.
-/
import Mathlib.Data.List.Basic
import Mathlib.Algebra.Ring.Nat

namespace YamlSigil
namespace Format
namespace Base64Url

/-! ## The alphabet -/

/-- The character of a six-bit number. -/
def sextet (n : Nat) : Char :=
  if n < 26 then Char.ofNat (n + 65)
  else if n < 52 then Char.ofNat (n + 71)
  else if n < 62 then Char.ofNat (n - 4)
  else if n = 62 then '-'
  else '_'

def sextet? (c : Char) : Option Nat :=
  if 65 ≤ c.toNat ∧ c.toNat ≤ 90 then some (c.toNat - 65)
  else if 97 ≤ c.toNat ∧ c.toNat ≤ 122 then some (c.toNat - 71)
  else if 48 ≤ c.toNat ∧ c.toNat ≤ 57 then some (c.toNat + 4)
  else if c = '-' then some 62
  else if c = '_' then some 63
  else none

/-- The letters, the digits, `-` and `_`. -/
def IsLetter (c : Char) : Prop := ∃ n, n < 64 ∧ sextet n = c

theorem sextet?_sextet {n : Nat} (h : n < 64) : sextet? (sextet n) = some n :=
  (by decide : ∀ n < 64, sextet? (sextet n) = some n) n h

theorem sextet?_eq_some {c : Char} {n : Nat} (h : sextet? c = some n) : n < 64 ∧ sextet n = c := by
  have hlt : c.toNat < 128 := by
    rw [sextet?] at h
    split at h
    · omega
    · split at h
      · omega
      · split at h
        · omega
        · split at h
          · next hc => subst hc; decide
          · split at h
            · next hc => subst hc; decide
            · cases h
  have hall : ∀ k < 128, ∀ n ∈ sextet? (Char.ofNat k), n < 64 ∧ sextet n = Char.ofNat k := by
    decide
  have := hall c.toNat hlt n
  rw [Char.ofNat_toNat] at this
  exact this h

theorem isLetter_sextet {n : Nat} (h : n < 64) : IsLetter (sextet n) := ⟨n, h, rfl⟩

/-! ## The codec -/

def encode : List UInt8 → List Char
  | [] => []
  | [a] => [sextet (a.toNat / 4), sextet (a.toNat % 4 * 16)]
  | [a, b] =>
    [sextet (a.toNat / 4), sextet (a.toNat % 4 * 16 + b.toNat / 16), sextet (b.toNat % 16 * 4)]
  | a :: b :: c :: t =>
    sextet (a.toNat / 4) :: sextet (a.toNat % 4 * 16 + b.toNat / 16) ::
      sextet (b.toNat % 16 * 4 + c.toNat / 64) :: sextet (c.toNat % 64) :: encode t

def decode : List Char → Option (List UInt8)
  | [] => some []
  | [_] => none
  | [w, x] => do
    let w ← sextet? w
    let x ← sextet? x
    if x % 16 = 0 then some [UInt8.ofNat (w * 4 + x / 16)] else none
  | [w, x, y] => do
    let w ← sextet? w
    let x ← sextet? x
    let y ← sextet? y
    if y % 4 = 0 then
      some [UInt8.ofNat (w * 4 + x / 16), UInt8.ofNat (x % 16 * 16 + y / 4)]
    else none
  | w :: x :: y :: z :: t => do
    let w ← sextet? w
    let x ← sextet? x
    let y ← sextet? y
    let z ← sextet? z
    let r ← decode t
    some (UInt8.ofNat (w * 4 + x / 16) :: UInt8.ofNat (x % 16 * 16 + y / 4) ::
      UInt8.ofNat (y % 4 * 64 + z) :: r)

theorem ofNat_eq {a : UInt8} {n : Nat} (h : n = a.toNat) : UInt8.ofNat n = a := by
  rw [h, UInt8.ofNat_toNat]

theorem decode_encode (o : List UInt8) : decode (encode o) = some o := by
  induction o using encode.induct with
  | case1 => rfl
  | case2 a =>
    have ha := a.toNat_lt
    simp only [encode, decode, sextet?_sextet (show a.toNat / 4 < 64 by omega),
      sextet?_sextet (show a.toNat % 4 * 16 < 64 by omega), Option.bind_eq_bind,
      Option.bind_some]
    rw [if_pos (by omega), ofNat_eq (a := a) (by omega)]
  | case3 a b =>
    have ha := a.toNat_lt
    have hb := b.toNat_lt
    simp only [encode, decode, sextet?_sextet (show a.toNat / 4 < 64 by omega),
      sextet?_sextet (show a.toNat % 4 * 16 + b.toNat / 16 < 64 by omega),
      sextet?_sextet (show b.toNat % 16 * 4 < 64 by omega), Option.bind_eq_bind,
      Option.bind_some]
    rw [if_pos (by omega), ofNat_eq (a := a) (by omega), ofNat_eq (a := b) (by omega)]
  | case4 a b c t ih =>
    have ha := a.toNat_lt
    have hb := b.toNat_lt
    have hc := c.toNat_lt
    simp only [encode, decode, sextet?_sextet (show a.toNat / 4 < 64 by omega),
      sextet?_sextet (show a.toNat % 4 * 16 + b.toNat / 16 < 64 by omega),
      sextet?_sextet (show b.toNat % 16 * 4 + c.toNat / 64 < 64 by omega),
      sextet?_sextet (show c.toNat % 64 < 64 by omega), ih, Option.bind_eq_bind,
      Option.bind_some]
    rw [ofNat_eq (a := a) (by omega), ofNat_eq (a := b) (by omega), ofNat_eq (a := c) (by omega)]

theorem toNat_ofNat_of_lt {n : Nat} (h : n < 256) : (UInt8.ofNat n).toNat = n := by
  rw [UInt8.toNat_ofNat']
  omega

/-- Only the spelling the encoder chooses is accepted. -/
theorem encode_of_decode {t : List Char} {o : List UInt8} (h : decode t = some o) :
    encode o = t := by
  induction t using decode.induct generalizing o with
  | case1 =>
    cases h
    rfl
  | case2 => cases h
  | case3 w x =>
    simp only [decode, Option.bind_eq_bind, Option.bind_eq_some_iff,
      Option.ite_none_right_eq_some, Option.some.injEq] at h
    obtain ⟨w', hw, x', hx, hz, rfl⟩ := h
    obtain ⟨hw', rfl⟩ := sextet?_eq_some hw
    obtain ⟨hx', rfl⟩ := sextet?_eq_some hx
    have e₁ : (w' * 4 + x' / 16) / 4 = w' := by omega
    have e₂ : (w' * 4 + x' / 16) % 4 * 16 = x' := by omega
    rw [encode, toNat_ofNat_of_lt (by omega), e₁, e₂]
  | case4 w x y =>
    simp only [decode, Option.bind_eq_bind, Option.bind_eq_some_iff,
      Option.ite_none_right_eq_some, Option.some.injEq] at h
    obtain ⟨w', hw, x', hx, y', hy, hz, rfl⟩ := h
    obtain ⟨hw', rfl⟩ := sextet?_eq_some hw
    obtain ⟨hx', rfl⟩ := sextet?_eq_some hx
    obtain ⟨hy', rfl⟩ := sextet?_eq_some hy
    have e₁ : (w' * 4 + x' / 16) / 4 = w' := by omega
    have e₂ : (w' * 4 + x' / 16) % 4 * 16 + (x' % 16 * 16 + y' / 4) / 16 = x' := by omega
    have e₃ : (x' % 16 * 16 + y' / 4) % 16 * 4 = y' := by omega
    rw [encode, toNat_ofNat_of_lt (by omega), toNat_ofNat_of_lt (by omega), e₁, e₂, e₃]
  | case5 w x y z t ih =>
    simp only [decode, Option.bind_eq_bind, Option.bind_eq_some_iff, Option.some.injEq] at h
    obtain ⟨w', hw, x', hx, y', hy, z', hz, r, hr, rfl⟩ := h
    obtain ⟨hw', rfl⟩ := sextet?_eq_some hw
    obtain ⟨hx', rfl⟩ := sextet?_eq_some hx
    obtain ⟨hy', rfl⟩ := sextet?_eq_some hy
    obtain ⟨hz', rfl⟩ := sextet?_eq_some hz
    have e₁ : (w' * 4 + x' / 16) / 4 = w' := by omega
    have e₂ : (w' * 4 + x' / 16) % 4 * 16 + (x' % 16 * 16 + y' / 4) / 16 = x' := by omega
    have e₃ : (x' % 16 * 16 + y' / 4) % 16 * 4 + (y' % 4 * 64 + z') / 64 = y' := by omega
    have e₄ : (y' % 4 * 64 + z') % 64 = z' := by omega
    rw [encode, toNat_ofNat_of_lt (by omega), toNat_ofNat_of_lt (by omega),
      toNat_ofNat_of_lt (by omega), e₁, e₂, e₃, e₄, ih hr]

theorem isLetter_of_mem_encode {o : List UInt8} {c : Char} (h : c ∈ encode o) : IsLetter c := by
  induction o using encode.induct with
  | case1 => cases h
  | case2 a =>
    have ha := a.toNat_lt
    simp only [encode, List.mem_cons, List.not_mem_nil, or_false] at h
    rcases h with rfl | rfl <;> exact isLetter_sextet (by omega)
  | case3 a b =>
    have ha := a.toNat_lt
    have hb := b.toNat_lt
    simp only [encode, List.mem_cons, List.not_mem_nil, or_false] at h
    rcases h with rfl | rfl | rfl <;> exact isLetter_sextet (by omega)
  | case4 a b d t ih =>
    have ha := a.toNat_lt
    have hb := b.toNat_lt
    have hd := d.toNat_lt
    simp only [encode, List.mem_cons] at h
    rcases h with rfl | rfl | rfl | rfl | h
    · exact isLetter_sextet (by omega)
    · exact isLetter_sextet (by omega)
    · exact isLetter_sextet (by omega)
    · exact isLetter_sextet (by omega)
    · exact ih h

/-- Four characters for three octets, rounded up to whole characters. -/
theorem length_encode (o : List UInt8) : (encode o).length = (4 * o.length + 2) / 3 := by
  induction o using encode.induct with
  | case1 => rfl
  | case2 a => simp [encode]
  | case3 a b => simp [encode]
  | case4 a b c t ih =>
    simp only [encode, List.length_cons, ih]
    omega

end Base64Url
end Format
end YamlSigil
