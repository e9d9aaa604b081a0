/-
The varint functions of the crates agree.

There are one writer, one reader and two size formulas.  The reader takes back
what the writer emits and the formulas count it.  The reader also takes longer
spellings, of ten octets at most, and never a truncated number.
-/
import YamlSigil.Core.Pb.Outer
import YamlSigil.Signing.Bounded

namespace YamlSigil
namespace Signing

open Format YamlSigil.Core Pb

/-- What the writer leaves in an empty vector. -/
theorem pushVarint_nil (v : UInt64) : pushVarint ([] : Bytes) v = Varint.encode v.toNat :=
  pushVarint_spec (vecSpec []) v (o := []) rfl

theorem readVarint_pushVarint (before suffix : Bytes) (v : UInt64) :
    readVarint (before ++ (pushVarint ([] : Bytes) v ++ suffix)) before.length =
      some (v, before.length + (pushVarint ([] : Bytes) v).length) := by
  rw [pushVarint_nil]
  exact readVarint_eq_some_iff.mpr ⟨_, suffix, List.drop_left, Varint.isVarint_encode v.toNat_lt,
    rfl⟩

theorem countOctets_eq (v : UInt64) :
    Varint.countOctets v = (pushVarint ([] : Bytes) v).length := by
  rw [pushVarint_nil, Varint.length_encode_toNat]

/-- Nine continuations more than the shortest spelling of zero are read. -/
example : readVarint (List.replicate 9 0x80 ++ [0x00]) 0 = some (0, 10) := by decide +kernel

/-- Writer, reader and size formulas of base-128 numbers. -/
theorem varint_codec :
    (∀ (v : UInt64) (before suffix : Bytes),
      readVarint (before ++ (pushVarint ([] : Bytes) v ++ suffix)) before.length =
        some (v, before.length + (pushVarint ([] : Bytes) v).length)) ∧
    (∀ v : UInt64, Transcription.varintLen v = (pushVarint ([] : Bytes) v).length ∧
      varintLen v = (pushVarint ([] : Bytes) v).length) ∧
    (∀ (bytes : Bytes) (index next : Nat) (v : UInt64), readVarint bytes index = some (v, next) →
      ∃ e t, bytes.drop index = e ++ t ∧ next = index + e.length ∧ 1 ≤ e.length ∧
        e.length ≤ 10 ∧ Varint.Terminated e ∧ Varint.value e = v.toNat) ∧
    ∀ (bytes : Bytes) (index : Nat), readVarint bytes index = none ↔
      (∀ b ∈ (bytes.drop index).take 10, 128 ≤ b.toNat) ∨
        ∃ e t, bytes.drop index = e ++ t ∧ Varint.Terminated e ∧ 2 ^ 64 ≤ Varint.value e := by
  refine ⟨fun v before suffix => readVarint_pushVarint before suffix v,
    fun v => ⟨countOctets_eq v, countOctets_eq v⟩, ?_, fun _ _ => readVarint_eq_none_iff⟩
  intro bytes index next v h
  obtain ⟨e, t, hdrop, hv, hnext⟩ := readVarint_eq_some_iff.mp h
  exact ⟨e, t, hdrop, hnext, hv.length_pos, hv.length_le, hv.terminated, hv.value_eq⟩

/-- An eleventh octet is not read, whatever the number is. -/
theorem varint_of_eleven_octets_refused :
    ¬ ∀ (bytes : Bytes) (index : Nat), readVarint bytes index = none ↔
      (∀ b ∈ bytes.drop index, 128 ≤ b.toNat) ∨
        ∃ e t, bytes.drop index = e ++ t ∧ Varint.Terminated e ∧ 2 ^ 64 ≤ Varint.value e := by
  intro hclaim
  have hterm : Varint.Terminated (List.replicate 10 0x80 ++ [0x00]) := by
    simp [List.replicate, Varint.Terminated]
  have hnone : readVarint (List.replicate 10 0x80 ++ [0x00]) 0 = none := by decide +kernel
  rcases (hclaim _ _).mp hnone with hall | ⟨e, t, hdrop, he, hlarge⟩
  · exact absurd (hall 0x00 (by simp)) (by decide)
  · have hsplit := (Varint.splitFirst_append hterm []).symm.trans
      ((congrArg Varint.splitFirst ((List.append_nil _).trans hdrop)).trans
        (Varint.splitFirst_append he t))
    cases hsplit
    revert hlarge
    decide

end Signing
end YamlSigil
