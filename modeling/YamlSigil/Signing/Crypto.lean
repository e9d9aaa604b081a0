/-
The signing side of the curve libraries, and that what they sign they accept.

`SigningCrypto.Lawful` is about the libraries: the signatures they make have the
canonical form and satisfy the verification equations under the key that belongs
to the signing key.  That the checks wrapped around the libraries accept such
signatures is proved from it.
-/
import YamlSigil.Verification.Crypto

namespace YamlSigil
namespace Signing

open YamlSigil.Core
open Verification

structure SigningCrypto extends Crypto where
  Ed25519SigningKey : Type
  P256SigningKey : Type
  /-- A nonzero scalar. -/
  Nonce : Type
  ed25519Sign : Ed25519SigningKey → Bytes → Octets64
  ed25519PublicKey : Ed25519SigningKey → Ed25519VerifyingKey
  sha256 : Bytes → Bytes
  /-- Fails when a component of the signature is zero. -/
  signPrehashed : P256SigningKey → Nonce → Bytes → Option P256Signature
  p256SignatureToBytes : P256Signature → Octets64
  p256PublicKey : P256SigningKey → P256VerifyingKey

/-- An Ed25519 signature in canonical form that satisfies the equation. -/
structure Ed25519Equation (C : Crypto) (vk : C.Ed25519VerifyingKey) (payload signature : Bytes)
    (r a : C.EdwardsPoint) (s : C.Scalar) : Prop where
  r_canonical : decodeCanonicalEdwardsPoint C (signature.take 32) = some r
  s_canonical : C.scalarFromCanonicalBytes (signature.drop 32) = some s
  a_canonical : decodeCanonicalEdwardsPoint C (C.ed25519AsBytes vk) = some a
  a_order : C.isSmallOrder a = false
  equation : C.isIdentity (C.mulByCofactor (C.sub (C.sub (C.smul s C.basepoint) r)
    (C.smul (ed25519Challenge C (signature.take 32) (C.ed25519AsBytes vk) payload) a))) = true

/-- The schemes accept their own signatures, in the 64-octet form. -/
structure SigningCrypto.Lawful (C : SigningCrypto) : Prop where
  ed25519 : ∀ sk payload, ∃ r a s, Ed25519Equation C.toCrypto (C.ed25519PublicKey sk) payload
    (C.ed25519Sign sk payload) r a s
  p256 : ∀ {sk nonce payload sig}, C.signPrehashed sk nonce (C.sha256 payload) = some sig →
    C.p256SignatureFromSlice (C.p256SignatureToBytes sig) = some sig ∧
      C.p256Verify (C.p256PublicKey sk) payload sig = true

theorem parseEd25519Signature_of_equation {C : Crypto} {vk : C.Ed25519VerifyingKey}
    {payload : Bytes} {signature : Octets64} {r a : C.EdwardsPoint} {s : C.Scalar}
    (h : Ed25519Equation C vk payload signature r a s) :
    parseEd25519Signature C signature = some ⟨signature.val.take 32, r, s⟩ := by
  rw [parseEd25519Signature, if_neg (not_not.mpr signature.property)]
  simp only [h.r_canonical, h.s_canonical, Option.bind_eq_bind, Option.bind_some]

theorem verifyEd25519_of_equation {C : Crypto} {vk : C.Ed25519VerifyingKey} {payload : Bytes}
    {signature : Octets64} {r a : C.EdwardsPoint} {s : C.Scalar}
    (h : Ed25519Equation C vk payload signature r a s) :
    verifyEd25519 C vk payload signature = true := by
  rw [verifyEd25519, parseEd25519Signature_of_equation h]
  simp only [h.a_canonical, h.a_order]
  exact h.equation

theorem ed25519_accepts {C : SigningCrypto} (hC : C.Lawful) (sk : C.Ed25519SigningKey)
    (payload : Bytes) :
    Ed25519VerificationKey.verifySignature (C.ed25519PublicKey sk) payload
      (C.ed25519Sign sk payload) = .verified := by
  obtain ⟨r, a, s, h⟩ := hC.ed25519 sk payload
  show (if verifyEd25519 C.toCrypto (C.ed25519PublicKey sk) payload (C.ed25519Sign sk payload) then
    KeyVerificationOutcome.verified else .signatureMismatch) = .verified
  exact if_pos (verifyEd25519_of_equation h)

theorem p256_accepts {C : SigningCrypto} (hC : C.Lawful) {sk : C.P256SigningKey} {nonce : C.Nonce}
    {payload : Bytes} {sig : C.P256Signature}
    (h : C.signPrehashed sk nonce (C.sha256 payload) = some sig) :
    P256VerificationKey.verifySignature (C.p256PublicKey sk) payload (C.p256SignatureToBytes sig) =
      .verified := by
  obtain ⟨hparse, hverify⟩ := hC.p256 h
  have hok : verifyEcdsaP256Sha256 C.toCrypto (C.p256PublicKey sk) payload
      (C.p256SignatureToBytes sig) = .ok () := by
    rw [verifyEcdsaP256Sha256, hparse]
    exact if_pos hverify
  exact p256_verifySignature_eq_verified_iff.mpr hok

namespace Reference

/-- The stand-in libraries with the signing key of their one key. -/
def crypto : SigningCrypto where
  toCrypto := Verification.Reference.crypto
  Ed25519SigningKey := Unit
  P256SigningKey := Unit
  Nonce := Unit
  ed25519Sign _ _ := Verification.rfc8032Test1Signature
  ed25519PublicKey _ := ()
  sha256 bytes := bytes
  signPrehashed _ _ _ := none
  p256SignatureToBytes signature := signature
  p256PublicKey _ := ()

theorem decodeCanonicalEdwardsPoint_eq (b : Bytes) :
    decodeCanonicalEdwardsPoint crypto.toCrypto b = some b := by
  show (if b = b then some b else none) = some b
  exact if_pos rfl

theorem crypto_lawful : crypto.Lawful where
  ed25519 _ _ := ⟨_, _, _, ⟨decodeCanonicalEdwardsPoint_eq _, rfl,
    decodeCanonicalEdwardsPoint_eq _, rfl, rfl⟩⟩
  p256 h := by cases h

/-- The stand-in libraries with the key that signs a letter. -/
def letterCrypto : SigningCrypto :=
  { crypto with
    toCrypto := Verification.Reference.letterCrypto
    ed25519Sign := fun _ _ => Verification.Reference.letterSignature
    ed25519PublicKey := fun _ => () }

theorem letterCrypto_lawful : letterCrypto.Lawful where
  ed25519 _ _ := ⟨_, _, _, ⟨decodeCanonicalEdwardsPoint_eq _, rfl,
    decodeCanonicalEdwardsPoint_eq _, rfl, rfl⟩⟩
  p256 h := by cases h

end Reference

end Signing
end YamlSigil
