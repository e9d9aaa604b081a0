/-
Public keys from octets.

`KeyCrypto` adds the decoders of the libraries to their checks.  A resolver is
stricter than its decoder: it wants the one canonical spelling of a key, and an
Ed25519 key of small order is no key.
-/
import YamlSigil.Verification.Verifier

namespace YamlSigil
namespace Verification

open YamlSigil.Core

/-- The libraries with the decoders of public keys. -/
structure KeyCrypto extends Crypto where
  ed25519FromBytes : Bytes → Option Ed25519VerifyingKey
  p256FromSec1Bytes : Bytes → Option P256VerifyingKey

/-- An Ed25519 key is made from every compressed point, and keeps its octets. -/
structure KeyCrypto.Lawful (C : KeyCrypto) : Prop where
  total : ∀ {bytes point}, C.decompress bytes = some point →
    ∃ vk, C.ed25519FromBytes bytes = some vk
  asBytes : ∀ {bytes vk}, C.ed25519FromBytes bytes = some vk → C.ed25519AsBytes vk = bytes

section
variable (C : KeyCrypto)

def resolveEd25519VerifyingKey (bytes : Bytes) : Except InvocationError C.Ed25519VerifyingKey :=
  if bytes.length ≠ 32 then .error .keyResolutionFailure
  else
    match decodeCanonicalEdwardsPoint C.toCrypto bytes with
    | none => .error .keyResolutionFailure
    | some point =>
      if C.isSmallOrder point then .error .keyResolutionFailure
      else
        match C.ed25519FromBytes bytes with
        | none => .error .keyResolutionFailure
        | some vk => .ok vk

/-- The 65-octet uncompressed point. -/
def resolveP256VerifyingKey (bytes : Bytes) : Except InvocationError C.P256VerifyingKey :=
  if bytes.length ≠ 65 ∨ bytes.head? ≠ some 0x04 then .error .keyResolutionFailure
  else
    match C.p256FromSec1Bytes bytes with
    | none => .error .keyResolutionFailure
    | some vk => .ok vk

def providerPublicKeyIsAdmissible (algorithm : AlgorithmId) (bytes : Bytes) : Bool :=
  match algorithm with
  | .ed25519 => (resolveEd25519VerifyingKey C bytes).isOk
  | .ecdsaP256Sha256 => (resolveP256VerifyingKey C bytes).isOk

variable {C}

theorem resolveEd25519VerifyingKey_eq_ok_iff {bytes : Bytes} {vk : C.Ed25519VerifyingKey} :
    resolveEd25519VerifyingKey C bytes = .ok vk ↔ bytes.length = 32 ∧
      (∃ point, decodeCanonicalEdwardsPoint C.toCrypto bytes = some point ∧
        C.isSmallOrder point = false) ∧ C.ed25519FromBytes bytes = some vk := by
  rw [resolveEd25519VerifyingKey]
  by_cases hlen : bytes.length ≠ 32
  · rw [if_pos hlen]
    exact ⟨fun h => (by cases h), fun h => absurd h.1 hlen⟩
  · rw [if_neg hlen]
    cases decodeCanonicalEdwardsPoint C.toCrypto bytes with
    | none =>
      refine ⟨fun h => (by cases h), fun h => ?_⟩
      obtain ⟨-, ⟨_, hpoint, -⟩, -⟩ := h
      cases hpoint
    | some point =>
      simp only
      by_cases hsmall : C.isSmallOrder point = true
      · rw [if_pos hsmall]
        refine ⟨fun h => (by cases h), fun h => ?_⟩
        obtain ⟨-, ⟨_, hpoint, horder⟩, -⟩ := h
        cases hpoint
        rw [hsmall] at horder
        cases horder
      · rw [if_neg hsmall]
        have horder := Bool.not_eq_true _ ▸ hsmall
        cases C.ed25519FromBytes bytes with
        | none => exact ⟨fun h => (by cases h), fun h => (by cases h.2.2)⟩
        | some vk' =>
          rw [Except.ok.injEq, Option.some.injEq]
          exact ⟨fun h => ⟨not_not.mp hlen, ⟨point, rfl, horder⟩, h⟩, fun h => h.2.2⟩

theorem isOk_iff {ε α : Type} {r : Except ε α} : r.isOk = true ↔ ∃ a, r = .ok a := by
  cases r with
  | error e => exact ⟨fun h => (by cases h), fun h => (by cases h.choose_spec)⟩
  | ok a => exact ⟨fun _ => ⟨a, rfl⟩, fun _ => rfl⟩

/-- A key whose own octets resolve is admissible. -/
theorem ed25519VerifyingKeyIsAdmissible_iff {vk : C.Ed25519VerifyingKey} :
    ed25519VerifyingKeyIsAdmissible C.toCrypto vk = true ↔
      ∃ point, decodeCanonicalEdwardsPoint C.toCrypto (C.ed25519AsBytes vk) = some point ∧
        C.isSmallOrder point = false := by
  rw [ed25519VerifyingKeyIsAdmissible]
  cases decodeCanonicalEdwardsPoint C.toCrypto (C.ed25519AsBytes vk) with
  | none => exact ⟨fun h => (by cases h), fun h => (by cases h.choose_spec.1)⟩
  | some point =>
    simp only [Bool.not_eq_true', Option.some.injEq, exists_eq_left']

end

namespace Reference

/-- The stand-in libraries with octets as keys. -/
def keyCrypto : KeyCrypto where
  toCrypto := { crypto with
    Ed25519VerifyingKey := Bytes
    ed25519AsBytes := id
    P256VerifyingKey := Bytes
    p256Verify := fun _ _ _ => true }
  ed25519FromBytes := some
  p256FromSec1Bytes := some

theorem keyCrypto_lawful : keyCrypto.Lawful where
  total _ := ⟨_, rfl⟩
  asBytes h := (Option.some.inj h).symm

end Reference

end Verification
end YamlSigil
