/-
Base-128 little-endian integers.

An octet carries seven bits, least significant group first, and its top bit
says that another octet follows.  `Terminated` is the shape, `value` the number,
`encode` the shortest spelling.  `IsVarint` adds the two limits of a 64-bit
reader, ten octets and a value below `2 ^ 64`; a spelling may be longer than the
shortest one and still be accepted.
-/
import Mathlib.Data.List.Basic
import Mathlib.Algebra.Ring.Nat

namespace YamlSigil
namespace Format
namespace Varint

/-- All octets but the last announce a successor. -/
def Terminated : List UInt8 → Prop
  | [] => False
  | [b] => b.toNat < 128
  | b :: c :: bs => 128 ≤ b.toNat ∧ Terminated (c :: bs)

def value : List UInt8 → Nat
  | [] => 0
  | b :: bs => b.toNat % 128 + 128 * value bs

/-- What a 64-bit reader accepts as the number `v`. -/
structure IsVarint (bs : List UInt8) (v : Nat) : Prop where
  terminated : Terminated bs
  length_le : bs.length ≤ 10
  value_eq : value bs = v
  lt : v < 2 ^ 64

@[simp] theorem terminated_singleton {b : UInt8} : Terminated [b] ↔ b.toNat < 128 := Iff.rfl

theorem terminated_cons {b : UInt8} {bs : List UInt8} (h : bs ≠ []) :
    Terminated (b :: bs) ↔ 128 ≤ b.toNat ∧ Terminated bs := by
  cases bs with
  | nil => exact absurd rfl h
  | cons c bs => exact Iff.rfl

theorem Terminated.ne_nil {bs : List UInt8} (h : Terminated bs) : bs ≠ [] := by
  rintro rfl
  exact h

theorem Terminated.length_pos {bs : List UInt8} (h : Terminated bs) : 0 < bs.length :=
  List.length_pos_of_ne_nil h.ne_nil

theorem IsVarint.length_pos {bs : List UInt8} {v : Nat} (h : IsVarint bs v) : 0 < bs.length :=
  h.terminated.length_pos

/-! ## Splitting at the first terminator -/

/-- The octets through the first one with a clear top bit, and the rest. -/
def splitFirst : List UInt8 → Option (List UInt8 × List UInt8)
  | [] => none
  | b :: bs =>
    if b.toNat < 128 then some ([b], bs)
    else (splitFirst bs).map fun p => (b :: p.1, p.2)

theorem splitFirst_append {h : List UInt8} (hh : Terminated h) (t : List UInt8) :
    splitFirst (h ++ t) = some (h, t) := by
  induction h with
  | nil => exact absurd hh id
  | cons b h ih =>
    cases h with
    | nil =>
      have hb : b.toNat < 128 := hh
      simp [splitFirst, hb]
    | cons c h =>
      obtain ⟨hb, hh⟩ := hh
      rw [List.cons_append, splitFirst, if_neg (Nat.not_lt.mpr hb), ih hh]
      rfl

theorem splitFirst_eq_some_iff {bs h t : List UInt8} :
    splitFirst bs = some (h, t) ↔ bs = h ++ t ∧ Terminated h := by
  constructor
  · intro hs
    induction bs generalizing h with
    | nil => simp [splitFirst] at hs
    | cons b bs ih =>
      rw [splitFirst] at hs
      split at hs
      · next hb =>
        cases hs
        exact ⟨rfl, hb⟩
      · next hb =>
        simp only [Option.map_eq_some_iff, Prod.mk.injEq] at hs
        obtain ⟨⟨h', t'⟩, hs, rfl, rfl⟩ := hs
        obtain ⟨rfl, hh'⟩ := ih hs
        exact ⟨rfl, (terminated_cons hh'.ne_nil).mpr ⟨Nat.not_lt.mp hb, hh'⟩⟩
  · intro h
    rcases h with ⟨rfl, hh⟩
    exact splitFirst_append hh t

theorem splitFirst_eq_none_iff {bs : List UInt8} :
    splitFirst bs = none ↔ ∀ b ∈ bs, 128 ≤ b.toNat := by
  induction bs with
  | nil =>
    rw [splitFirst]
    exact ⟨fun _ _ hb => (by cases hb), fun _ => rfl⟩
  | cons b bs ih =>
    rw [splitFirst, List.forall_mem_cons]
    by_cases hb : b.toNat < 128
    · rw [if_pos hb]
      exact ⟨fun h => (by cases h), fun h => absurd h.1 (by omega)⟩
    · rw [if_neg hb, Option.map_eq_none_iff, ih]
      exact ⟨fun h => ⟨by omega, h⟩, fun h => h.2⟩

/-- Before the last octet there is no terminator. -/
theorem Terminated.all_take_iff {h : List UInt8} (hh : Terminated h) (t : List UInt8) {k : Nat} :
    (∀ b ∈ (h ++ t).take k, 128 ≤ b.toNat) ↔ k < h.length := by
  induction h generalizing k with
  | nil => exact absurd rfl hh.ne_nil
  | cons b h ih =>
    cases k with
    | zero =>
      rw [List.take_zero, List.length_cons]
      exact ⟨fun _ => Nat.succ_pos _, fun _ _ hb => (by cases hb)⟩
    | succ k =>
      rw [List.cons_append, List.take_succ_cons, List.forall_mem_cons, List.length_cons,
        Nat.succ_lt_succ_iff]
      by_cases hne : h = []
      · subst hne
        have hb : b.toNat < 128 := hh
        exact ⟨fun h => absurd h.1 (by omega), fun h => absurd h (Nat.not_lt_zero k)⟩
      · obtain ⟨hb, hh⟩ := (terminated_cons hne).mp hh
        rw [ih hh]
        exact ⟨fun h => h.2, fun h => ⟨hb, h⟩⟩

/-- Two readings of the same octets agree on where the number ends. -/
theorem Terminated.append_inj {h h' t t' : List UInt8} (hh : Terminated h) (hh' : Terminated h')
    (e : h ++ t = h' ++ t') : h = h' ∧ t = t' := by
  have := splitFirst_append hh t
  rw [e, splitFirst_append hh' t'] at this
  simp only [Option.some.injEq, Prod.mk.injEq] at this
  exact ⟨this.1.symm, this.2.symm⟩

/-! ## Reading 64-bit numbers -/

/-- The number at the front of `bs` and what follows it. -/
def read64 (bs : List UInt8) : Option (Nat × List UInt8) :=
  match splitFirst bs with
  | some (h, t) => if h.length ≤ 10 ∧ value h < 2 ^ 64 then some (value h, t) else none
  | none => none

theorem read64_eq_some_iff {bs t : List UInt8} {v : Nat} :
    read64 bs = some (v, t) ↔ ∃ h, bs = h ++ t ∧ IsVarint h v := by
  constructor
  · intro hr
    rw [read64] at hr
    split at hr
    · next h t' hs =>
      obtain ⟨rfl, hh⟩ := splitFirst_eq_some_iff.mp hs
      split at hr
      · next hb =>
        cases hr
        exact ⟨h, rfl, hh, hb.1, rfl, hb.2⟩
      · cases hr
    · cases hr
  · intro h
    rcases h with ⟨h, rfl, hv⟩
    simp only [read64, splitFirst_append hv.terminated, hv.value_eq]
    exact if_pos ⟨hv.length_le, hv.lt⟩

theorem read64_append {h : List UInt8} {v : Nat} (hv : IsVarint h v) (t : List UInt8) :
    read64 (h ++ t) = some (v, t) :=
  read64_eq_some_iff.mpr ⟨h, rfl, hv⟩

/-! ## The shortest spelling -/

def encode (v : Nat) : List UInt8 :=
  if v < 128 then [UInt8.ofNat v] else UInt8.ofNat (v % 128 + 128) :: encode (v / 128)

theorem encode_of_lt {v : Nat} (h : v < 128) : encode v = [UInt8.ofNat v] := by
  rw [encode, if_pos h]

theorem encode_of_le {v : Nat} (h : 128 ≤ v) :
    encode v = UInt8.ofNat (v % 128 + 128) :: encode (v / 128) := by
  rw [encode, if_neg (Nat.not_lt.mpr h)]

theorem encode_ne_nil (v : Nat) : encode v ≠ [] := by
  rw [encode]
  split <;> simp

theorem terminated_encode (v : Nat) : Terminated (encode v) := by
  induction v using Nat.strongRecOn with
  | ind v ih =>
    rcases Nat.lt_or_ge v 128 with h | h
    · rw [encode_of_lt h, terminated_singleton, UInt8.toNat_ofNat']
      omega
    · rw [encode_of_le h, terminated_cons (encode_ne_nil _), UInt8.toNat_ofNat']
      exact ⟨by omega, ih (v / 128) (by omega)⟩

theorem value_encode (v : Nat) : value (encode v) = v := by
  induction v using Nat.strongRecOn with
  | ind v ih =>
    rcases Nat.lt_or_ge v 128 with h | h
    · rw [encode_of_lt h, value, value, UInt8.toNat_ofNat']
      omega
    · rw [encode_of_le h, value, ih (v / 128) (by omega), UInt8.toNat_ofNat']
      omega

/-- Seven bits an octet. -/
theorem length_encode_le {k v : Nat} (h : v < 128 ^ (k + 1)) : (encode v).length ≤ k + 1 := by
  induction k generalizing v with
  | zero =>
    rw [encode_of_lt (by simpa using h)]
    exact Nat.le_refl 1
  | succ k ih =>
    rcases Nat.lt_or_ge v 128 with hv | hv
    · rw [encode_of_lt hv]
      simp
    · have hdiv : v / 128 < 128 ^ (k + 1) := by
        rw [Nat.div_lt_iff_lt_mul (by decide)]
        simpa [Nat.pow_succ] using h
      have := ih hdiv
      rw [encode_of_le hv, List.length_cons]
      omega

theorem isVarint_encode {v : Nat} (h : v < 2 ^ 64) : IsVarint (encode v) v where
  terminated := terminated_encode v
  length_le := length_encode_le (k := 9) (Nat.lt_of_lt_of_le h (by decide))
  value_eq := value_encode v
  lt := h

/-- The only spelling of its length, and no spelling is shorter. -/
theorem length_encode_value_le {e : List UInt8} (he : Terminated e) :
    (encode (value e)).length ≤ e.length := by
  induction e with
  | nil => exact absurd rfl he.ne_nil
  | cons b e ih =>
    rcases Nat.lt_or_ge (value (b :: e)) 128 with hv | hv
    · rw [encode_of_lt hv, List.length_cons]
      exact Nat.succ_le_succ (Nat.zero_le _)
    · have hne : e ≠ [] := by
        rintro rfl
        rw [value, value] at hv
        omega
      have hdiv : value (b :: e) / 128 = value e := by
        rw [value]
        omega
      rw [encode_of_le hv, hdiv, List.length_cons, List.length_cons]
      exact Nat.succ_le_succ (ih ((terminated_cons hne).mp he).2)

theorem eq_encode_value {e : List UInt8} (he : Terminated e)
    (hlen : e.length ≤ (encode (value e)).length) : e = encode (value e) := by
  induction e with
  | nil => exact absurd rfl he.ne_nil
  | cons b e ih =>
    have hb := b.toNat_lt
    rcases Nat.lt_or_ge (value (b :: e)) 128 with hv | hv
    · rw [encode_of_lt hv, List.length_cons] at hlen
      have hnil : e = [] := List.length_eq_zero_iff.mp (by simpa using hlen)
      subst hnil
      have hlast : b.toNat < 128 := he
      have hval : value [b] = b.toNat := by
        rw [value, value]
        omega
      rw [encode_of_lt hv, hval, UInt8.ofNat_toNat]
    · have hne : e ≠ [] := by
        rintro rfl
        rw [value, value] at hv
        omega
      obtain ⟨hmore, he⟩ := (terminated_cons hne).mp he
      have hdiv : value (b :: e) / 128 = value e := by
        rw [value]
        omega
      have hmod : value (b :: e) % 128 + 128 = b.toNat := by
        rw [value]
        omega
      rw [encode_of_le hv, hdiv, List.length_cons, List.length_cons] at hlen
      rw [encode_of_le hv, hdiv, hmod, UInt8.ofNat_toNat,
        ← ih he (Nat.le_of_succ_le_succ hlen)]

theorem length_encode_mono {v w : Nat} (h : v ≤ w) : (encode v).length ≤ (encode w).length := by
  induction v using Nat.strongRecOn generalizing w with
  | ind v ih =>
    rcases Nat.lt_or_ge v 128 with hv | hv
    · rw [encode_of_lt hv]
      exact List.length_pos_of_ne_nil (encode_ne_nil w)
    · rw [encode_of_le hv, encode_of_le (Nat.le_trans hv h), List.length_cons, List.length_cons]
      exact Nat.succ_le_succ (ih (v / 128) (by omega) (Nat.div_le_div_right h))

theorem lt_length_encode {k v : Nat} (h : 128 ^ k ≤ v) : k < (encode v).length := by
  induction k generalizing v with
  | zero => exact List.length_pos_of_ne_nil (encode_ne_nil v)
  | succ k ih =>
    have hdiv : 128 ^ k ≤ v / 128 := by
      rw [Nat.le_div_iff_mul_le (by decide)]
      rwa [Nat.pow_succ] at h
    have hpos : 0 < 128 ^ k := Nat.pow_pos (by decide)
    rw [encode_of_le (by omega), List.length_cons]
    exact Nat.succ_lt_succ (ih hdiv)

/-! ## Counting octets -/

theorem toNat_shiftRight_seven (v : UInt64) : (v >>> 7).toNat = v.toNat / 128 := by
  rw [UInt64.toNat_shiftRight]
  exact Nat.shiftRight_eq_div_pow v.toNat 7

/-- The number of octets of the shortest spelling, counted by shifting. -/
def countOctets (value : UInt64) : Nat :=
  if _h : value ≥ 0x80 then countOctets (value >>> 7) + 1 else 1
termination_by value.toNat
decreasing_by
  have h128 : 128 ≤ value.toNat := UInt64.le_iff_toNat_le.mp _h
  rw [toNat_shiftRight_seven]
  omega

theorem length_encode_toNat (v : UInt64) : (encode v.toNat).length = countOctets v := by
  fun_induction countOctets v with
  | case1 v hv ih =>
    have h128 : 128 ≤ v.toNat := UInt64.le_iff_toNat_le.mp hv
    rw [encode_of_le h128, List.length_cons, ← toNat_shiftRight_seven, ih]
  | case2 v hv =>
    have hlt : v.toNat < 128 := by
      by_cases hlt : v.toNat < 128
      · exact hlt
      · exact absurd (UInt64.le_iff_toNat_le.mpr (Nat.not_lt.mp hlt)) hv
    rw [encode_of_lt hlt]
    rfl

end Varint
end Format
end YamlSigil
