/-
UTF-8 as a map between octet lists and character lists.

Lean's own decoder works on `ByteArray`.  This file moves it to `List UInt8`,
where byte scanners are written, and adds the one fact a scanner for ASCII
delimiters needs: an octet below 128 is always a whole character, so a
well-formed octet string splits at it into two well-formed ones.
-/
import Mathlib.Data.List.Basic
import Mathlib.Algebra.Ring.Nat

namespace YamlSigil
namespace Format
namespace Utf8

def encode (t : List Char) : List UInt8 := t.flatMap String.utf8EncodeChar

/-- The text an octet string spells, or `none` if the octets are not
well-formed UTF-8. -/
def decode (b : List UInt8) : Option (List Char) :=
  b.toByteArray.utf8Decode?.map Array.toList

def Valid (b : List UInt8) : Prop := ∃ t, b = encode t

@[simp] theorem encode_nil : encode [] = [] := rfl

@[simp] theorem encode_cons (c : Char) (t : List Char) :
    encode (c :: t) = String.utf8EncodeChar c ++ encode t := List.flatMap_cons

@[simp] theorem encode_append (s t : List Char) : encode (s ++ t) = encode s ++ encode t :=
  List.flatMap_append

theorem toByteArray_encode (t : List Char) : (encode t).toByteArray = t.utf8Encode := rfl

@[simp] theorem decode_encode (t : List Char) : decode (encode t) = some t := by
  simp [decode, toByteArray_encode]

theorem encode_of_decode {b : List UInt8} {t : List Char} (h : decode b = some t) :
    encode t = b := by
  simp only [decode, Option.map_eq_some_iff] at h
  obtain ⟨a, ha, rfl⟩ := h
  have hs : b.toByteArray.utf8Decode?.isSome := by simp [ha]
  have he : a.toList.utf8Encode = b.toByteArray := by
    have := ByteArray.utf8Encode_get_utf8Decode? (b := b.toByteArray) (h := hs)
    simpa [ha] using this
  have := congrArg (fun x => x.data.toList) he
  simpa [← toByteArray_encode] using this

theorem decode_eq_some_iff {b : List UInt8} {t : List Char} :
    decode b = some t ↔ b = encode t :=
  ⟨fun h => (encode_of_decode h).symm, fun h => h ▸ decode_encode t⟩

theorem encode_injective {s t : List Char} (h : encode s = encode t) : s = t := by
  have := congrArg decode h
  simpa using this

theorem isSome_decode_iff {b : List UInt8} : (decode b).isSome = true ↔ Valid b := by
  rw [Option.isSome_iff_exists]
  exact exists_congr fun t => decode_eq_some_iff

theorem valid_encode (t : List Char) : Valid (encode t) := ⟨t, rfl⟩

/-! ## ASCII octets -/

theorem encodeChar_ascii {c : Char} (h : c.toNat < 128) :
    String.utf8EncodeChar c = [UInt8.ofNat c.toNat] := by
  have hv : c.val.toNat ≤ 127 := by
    have : c.val.toNat = c.toNat := rfl
    omega
  simp only [String.utf8EncodeChar, hv, if_true]
  rfl

theorem encodeChar_high {c : Char} (h : 128 ≤ c.toNat) :
    ∀ b ∈ String.utf8EncodeChar c, 128 ≤ b.toNat := by
  intro b hb
  have hv : ¬ c.val.toNat ≤ 127 := by
    have : c.val.toNat = c.toNat := rfl
    omega
  simp only [String.utf8EncodeChar, hv, if_false] at hb
  split at hb
  · simp only [List.mem_cons, List.not_mem_nil, or_false] at hb
    rcases hb with rfl | rfl <;> simp <;> omega
  · split at hb
    · simp only [List.mem_cons, List.not_mem_nil, or_false] at hb
      rcases hb with rfl | rfl | rfl <;> simp <;> omega
    · simp only [List.mem_cons, List.not_mem_nil, or_false] at hb
      rcases hb with rfl | rfl | rfl | rfl <;> simp <;> omega

/-- An ASCII octet inside an encoded character is the whole of it. -/
theorem encodeChar_eq_append {c : Char} {p s : List UInt8} {a : UInt8} (ha : a.toNat < 128)
    (h : String.utf8EncodeChar c = p ++ a :: s) : p = [] ∧ s = [] ∧ c.toNat = a.toNat := by
  rcases Nat.lt_or_ge c.toNat 128 with hc | hc
  · rw [encodeChar_ascii hc] at h
    cases p with
    | nil =>
      simp only [List.nil_append, List.cons.injEq] at h
      refine ⟨rfl, h.2.symm, ?_⟩
      rw [← h.1, UInt8.toNat_ofNat']
      omega
    | cons x p => simp at h
  · have := encodeChar_high hc a (by rw [h]; simp)
    omega

/-- A text splits wherever its encoding has an ASCII octet. -/
theorem encode_eq_append_cons {t : List Char} {p s : List UInt8} {a : UInt8}
    (ha : a.toNat < 128) (h : encode t = p ++ a :: s) :
    ∃ t₁ c t₂, t = t₁ ++ c :: t₂ ∧ encode t₁ = p ∧ c.toNat = a.toNat ∧ encode t₂ = s := by
  induction t generalizing p with
  | nil => simp at h
  | cons c t ih =>
    rw [encode_cons, List.append_eq_append_iff] at h
    rcases h with ⟨p', rfl, ht⟩ | ⟨r, hc, hs⟩
    · obtain ⟨t₁, d, t₂, rfl, rfl, hd, rfl⟩ := ih ht
      exact ⟨c :: t₁, d, t₂, rfl, encode_cons c t₁, hd, rfl⟩
    · cases r with
      | nil =>
        -- the character ends exactly where the octet starts
        obtain ⟨t₁, d, t₂, rfl, h₁, hd, rfl⟩ := ih (p := []) hs.symm
        refine ⟨c :: t₁, d, t₂, rfl, ?_, hd, rfl⟩
        rw [encode_cons, h₁, hc, List.append_nil, List.append_nil]
      | cons x r =>
        simp only [List.cons_append, List.cons.injEq] at hs
        obtain ⟨rfl, hs⟩ := hs
        obtain ⟨rfl, rfl, hca⟩ := encodeChar_eq_append ha hc
        exact ⟨[], c, t, rfl, rfl, hca, by simpa using hs.symm⟩

/-- An ASCII octet separates well-formed octet strings from well-formed octet
strings. -/
theorem valid_append_cons_iff {p s : List UInt8} {a : UInt8} (ha : a.toNat < 128) :
    Valid (p ++ a :: s) ↔ Valid p ∧ Valid s := by
  constructor
  · intro h
    rcases h with ⟨t, ht⟩
    obtain ⟨t₁, c, t₂, -, h₁, -, h₂⟩ := encode_eq_append_cons ha ht.symm
    exact ⟨⟨t₁, h₁.symm⟩, ⟨t₂, h₂.symm⟩⟩
  · intro h
    rcases h with ⟨⟨t₁, rfl⟩, ⟨t₂, rfl⟩⟩
    have hc : (Char.ofNat a.toNat).toNat = a.toNat :=
      (by decide : ∀ n < 128, (Char.ofNat n).toNat = n) a.toNat ha
    refine ⟨t₁ ++ Char.ofNat a.toNat :: t₂, ?_⟩
    rw [encode_append, encode_cons, encodeChar_ascii (by omega), hc]
    simp

theorem length_encode_ge (t : List Char) : t.length ≤ (encode t).length := by
  induction t with
  | nil => exact Nat.le_refl 0
  | cons c t ih =>
    rw [encode_cons, List.length_append, String.length_utf8EncodeChar, List.length_cons]
    have := c.utf8Size_pos
    omega

/-- One octet for each character of an ASCII text. -/
theorem length_encode_ascii {t : List Char} (h : ∀ c ∈ t, c.toNat < 128) :
    (encode t).length = t.length := by
  induction t with
  | nil => rfl
  | cons c t ih =>
    rw [encode_cons, encodeChar_ascii (h c List.mem_cons_self), List.length_append,
      ih fun d hd => h d (List.mem_cons_of_mem c hd), List.length_singleton, List.length_cons]
    omega

end Utf8
end Format
end YamlSigil
