/-
The suites that qualify a verification provider.

A provider is a party that keeps state and hands out handles.  Qualification binds
fixed public keys, asks the handles about fixed signatures, and goes back to the
first handle after each later bind, since a provider with one current key answers
well as long as nobody looks back.
-/
import YamlSigil.Control.Suite
import YamlSigil.Verification.Provider

namespace YamlSigil
namespace Verification

open Control YamlSigil.Core

/-- What is asked of a provider: an algorithm and a public key to bind, or a handle
with a message and a signature. -/
abbrev ProviderCall (H : Type) := HandleCall (AlgorithmId × Bytes) (Bytes × Octets64) H

/-- A provider whose replies may depend on all that was asked before. -/
abbrev StatefulProvider (H S : Type) :=
  Keyholder (AlgorithmId × Bytes) (Bytes × Octets64) ProviderVerificationOutcome H S

abbrev Asking (H : Type) :=
  Holding (AlgorithmId × Bytes) (Bytes × Octets64) ProviderVerificationOutcome H

abbrev Qualifying (H : Type) :=
  Checked (AlgorithmId × Bytes) (Bytes × Octets64) ProviderVerificationOutcome H
    ProviderQualificationErrorKind

def qualificationStatus (algorithm : AlgorithmId) :
    Except ProviderQualificationErrorKind Unit → ProviderQualificationStatus
  | .ok () => .qualified
  | .error kind => .rejected ⟨kind, algorithm⟩

def expectProviderResult (outcome expected : ProviderVerificationOutcome) :
    Except ProviderQualificationErrorKind Unit :=
  if outcome = expected then .ok ()
  else
    match outcome with
    | .providerFailure => .error .providerFailure
    | .verified => .error .invalidSignatureAccepted
    | .signatureMismatch => .error .validSignatureRejected

theorem expectProviderResult_eq_ok_iff {outcome expected : ProviderVerificationOutcome} :
    expectProviderResult outcome expected = .ok () ↔ outcome = expected := by
  cases outcome <;> cases expected <;> decide

/-! ## Fixed keys, messages and signatures -/

def ed25519MixedRMessage : Bytes := asBytes "YamlSigil Ed25519 mixed R qualification".toList

def ed25519MixedRPublicKey : Bytes := [
  0xB8, 0x62, 0x40, 0x9F, 0xB5, 0xC4, 0xC4, 0x12, 0x3D, 0xF2, 0xAB, 0xF7, 0x46, 0x2B, 0x88, 0xF0,
  0x41, 0xAD, 0x36, 0xDD, 0x68, 0x64, 0xCE, 0x87, 0x2F, 0xD5, 0x47, 0x2B, 0xE3, 0x63, 0xC5, 0xB1]

def ed25519MixedRSignature : Octets64 := ⟨[
  0xC8, 0x91, 0xDD, 0x2F, 0xC0, 0xCA, 0x87, 0xA7, 0x46, 0x01, 0x93, 0x89, 0x5E, 0x04, 0x6A, 0x91,
  0x4C, 0x11, 0xB6, 0x6F, 0xDF, 0xFA, 0x8E, 0x6B, 0x7C, 0x3B, 0xA8, 0x31, 0x38, 0x49, 0x9C, 0x70,
  0x60, 0xE4, 0x42, 0xF8, 0xCD, 0xCF, 0xDA, 0x4B, 0xCF, 0x5F, 0xF4, 0x18, 0x62, 0x71, 0xE1, 0x69,
  0x96, 0x2E, 0x40, 0xAB, 0x92, 0x36, 0x45, 0x62, 0x76, 0x0B, 0x99, 0xEC, 0x91, 0x99, 0x67, 0x0E],
  rfl⟩

def ed25519MixedAMessage : Bytes := asBytes "YamlSigil Ed25519 mixed A qualification".toList

def ed25519MixedAPublicKey : Bytes := [
  0xE9, 0xB2, 0xFE, 0x98, 0x15, 0x87, 0xEF, 0xAE, 0x64, 0x78, 0xF4, 0x8B, 0xA1, 0xFA, 0x60, 0xCE,
  0xC6, 0x12, 0x6D, 0x0E, 0x26, 0xDD, 0xE7, 0x2A, 0x0A, 0x24, 0xF6, 0x40, 0xDC, 0xD7, 0x83, 0xE5]

def ed25519MixedASignature : Octets64 := ⟨[
  0x13, 0x37, 0x03, 0x6A, 0xC3, 0x2D, 0x8F, 0x30, 0xD4, 0x58, 0x9C, 0x3C, 0x1C, 0x59, 0x58, 0x12,
  0xCE, 0x0F, 0xFF, 0x40, 0xE3, 0x7C, 0x6F, 0x5A, 0x97, 0xAB, 0x21, 0x3F, 0x31, 0x82, 0x90, 0xAD,
  0x4F, 0x77, 0x53, 0x17, 0x4A, 0x7F, 0x11, 0xE9, 0x72, 0x16, 0x75, 0x31, 0xF9, 0x64, 0xED, 0x73,
  0x10, 0x1F, 0x0A, 0xDF, 0xEC, 0xF8, 0x2E, 0xB5, 0x5F, 0xB5, 0x19, 0xE4, 0xD9, 0xA7, 0x7E, 0x07],
  rfl⟩

def p256QualificationPublicKey : Bytes := [
  0x04, 0x1E, 0x18, 0x53, 0x2F, 0xD4, 0x75, 0x4C, 0x02, 0xF3, 0x04, 0x1D, 0x9C, 0x75, 0xCE, 0xB3,
  0x3B, 0x83, 0xFF, 0xD8, 0x1A, 0xC7, 0xCE, 0x4F, 0xE8, 0x82, 0xCC, 0xB1, 0xC9, 0x8B, 0xC5, 0x89,
  0x6E, 0xA4, 0x6C, 0x31, 0x1C, 0x4E, 0x2F, 0xF4, 0x0D, 0xD9, 0x6A, 0x36, 0x53, 0xE6, 0xE4, 0x54,
  0x45, 0xD3, 0x2D, 0xFE, 0x48, 0x6E, 0xCE, 0xD7, 0x5C, 0x7A, 0x90, 0xC6, 0xA1, 0x88, 0x81, 0xC0,
  0xA3]

def p256QualificationLowSignature : Octets64 := ⟨[
  0xB6, 0xC6, 0x64, 0x31, 0x44, 0xA6, 0x2C, 0x53, 0x5D, 0x06, 0xA8, 0x0D, 0xC8, 0x54, 0x36, 0xF8,
  0xD6, 0x07, 0x99, 0x77, 0x8E, 0xC2, 0xEF, 0x85, 0x27, 0xAE, 0x22, 0xBE, 0xE8, 0x4C, 0xC9, 0x91,
  0x32, 0xAA, 0xD3, 0x55, 0x2C, 0x8A, 0x59, 0x6A, 0x73, 0x1D, 0x9D, 0x02, 0xB7, 0xA9, 0xCD, 0x14,
  0xB5, 0x6B, 0x3F, 0x0C, 0x7B, 0xD5, 0xE8, 0xC9, 0xEC, 0x08, 0xCC, 0x60, 0x3C, 0x75, 0xA8, 0xF1],
  rfl⟩

def p256QualificationHighSignature : Octets64 := ⟨[
  0xB6, 0xC6, 0x64, 0x31, 0x44, 0xA6, 0x2C, 0x53, 0x5D, 0x06, 0xA8, 0x0D, 0xC8, 0x54, 0x36, 0xF8,
  0xD6, 0x07, 0x99, 0x77, 0x8E, 0xC2, 0xEF, 0x85, 0x27, 0xAE, 0x22, 0xBE, 0xE8, 0x4C, 0xC9, 0x91,
  0xCD, 0x55, 0x2C, 0xA9, 0xD3, 0x75, 0xA6, 0x96, 0x8C, 0xE2, 0x62, 0xFD, 0x48, 0x56, 0x32, 0xEB,
  0x07, 0x7B, 0xBB, 0xA1, 0x2B, 0x41, 0xB5, 0xBB, 0x07, 0xB0, 0xFE, 0x62, 0xBF, 0xED, 0x7C, 0x60],
  rfl⟩

def p256AlternatePublicKey : Bytes := [
  0x04, 0x15, 0x73, 0x18, 0x65, 0xC4, 0x45, 0x0F, 0x07, 0xDA, 0x2E, 0x52, 0xEC, 0xE8, 0x33, 0x3A,
  0x92, 0xE6, 0x17, 0xFA, 0x3C, 0x13, 0xCC, 0x05, 0xA7, 0xC2, 0x88, 0x6A, 0x55, 0x8A, 0xDA, 0xD4,
  0x08, 0xDE, 0x94, 0x8A, 0xF1, 0x4B, 0x54, 0xA5, 0xB0, 0xCF, 0xB4, 0xC8, 0x13, 0x8B, 0x5A, 0xFE,
  0x83, 0xA6, 0xA2, 0x72, 0x98, 0x54, 0x21, 0x54, 0x8A, 0xBA, 0xA4, 0xB6, 0x73, 0x64, 0x5A, 0x5C,
  0x3E]

def p256AlternateSignature : Octets64 := ⟨[
  0x46, 0x76, 0xD6, 0xB5, 0x1E, 0x9E, 0x5A, 0x5B, 0x29, 0xA5, 0x3C, 0x1F, 0x9F, 0xD4, 0x37, 0xE1,
  0x7E, 0x6B, 0x6E, 0x40, 0xA3, 0xC7, 0xFD, 0xB7, 0xA9, 0x28, 0x92, 0xE0, 0x3D, 0x1A, 0xC6, 0x05,
  0x33, 0xFB, 0xD2, 0x05, 0xB4, 0x7C, 0xFD, 0xE1, 0xF5, 0xAE, 0xA8, 0x35, 0xD5, 0x8A, 0x7D, 0xC2,
  0xC6, 0x4C, 0xC5, 0xC2, 0xF6, 0x54, 0xB8, 0xDB, 0x0C, 0xDD, 0x68, 0x49, 0x82, 0x77, 0x7D, 0xCB],
  rfl⟩

/-- `MESSAGE` of the P-256 suite. -/
def p256QualificationMessage : Bytes := asBytes "YamlSigil P-256 SHA-256 qualification".toList

/-! ## The synchronous suites -/

section
variable {H : Type}

def bindProvider (algorithm : AlgorithmId) (publicKey : Bytes) : Qualifying H H :=
  Checked.bindKey .keyBindingFailed (algorithm, publicKey)

def verifyProvider (verifier : H) (message : Bytes) (signature : Octets64) :
    Qualifying H ProviderVerificationOutcome :=
  Checked.judge verifier (message, signature)

def qualifyEd25519Provider : Qualifying H Unit := do
  let standard ← bindProvider .ed25519 rfc8032Test1PublicKey
  expectProviderResult (← verifyProvider standard [] rfc8032Test1Signature) .verified
  expectProviderResult (← verifyProvider standard (asBytes "not empty".toList)
    rfc8032Test1Signature) .signatureMismatch
  for (publicKey, message, signature) in
      [(ed25519MixedRPublicKey, ed25519MixedRMessage, ed25519MixedRSignature),
        (ed25519MixedAPublicKey, ed25519MixedAMessage, ed25519MixedASignature)] do
    let verifier ← bindProvider .ed25519 publicKey
    expectProviderResult (← verifyProvider verifier message signature) .verified
    expectProviderResult (← verifyProvider standard [] rfc8032Test1Signature) .verified
    expectProviderResult (← verifyProvider verifier [] rfc8032Test1Signature) .signatureMismatch
    expectProviderResult (← verifyProvider standard message signature) .signatureMismatch
    expectProviderResult (← verifyProvider verifier message signature) .verified

def qualifyP256Provider : Qualifying H Unit := do
  let message := p256QualificationMessage
  let different := asBytes "different".toList
  let verifier ← bindProvider .ecdsaP256Sha256 p256QualificationPublicKey
  expectProviderResult (← verifyProvider verifier message p256QualificationLowSignature) .verified
  expectProviderResult (← verifyProvider verifier message p256QualificationHighSignature)
    .verified
  expectProviderResult (← verifyProvider verifier different p256QualificationLowSignature)
    .signatureMismatch
  let alternate ← bindProvider .ecdsaP256Sha256 p256AlternatePublicKey
  expectProviderResult (← verifyProvider alternate message p256AlternateSignature) .verified
  for signature in [p256QualificationLowSignature, p256QualificationHighSignature] do
    expectProviderResult (← verifyProvider verifier message signature) .verified
    expectProviderResult (← verifyProvider alternate message signature) .signatureMismatch
  expectProviderResult (← verifyProvider verifier message p256AlternateSignature)
    .signatureMismatch
  expectProviderResult (← verifyProvider alternate different p256AlternateSignature)
    .signatureMismatch
  expectProviderResult (← verifyProvider alternate message p256AlternateSignature) .verified

/-- The evidence that a qualified provider keeps. -/
structure QualifiedSlots where
  ed25519 : ProviderQualificationStatus
  ecdsaP256Sha256 : ProviderQualificationStatus
deriving Repr, DecidableEq

def QualifiedSlots.status (slots : QualifiedSlots) : AlgorithmId → ProviderQualificationStatus
  | .ed25519 => slots.ed25519
  | .ecdsaP256Sha256 => slots.ecdsaP256Sha256

def qualify : Asking H QualifiedSlots := do
  let ed25519 := qualificationStatus .ed25519 (← qualifyEd25519Provider.run)
  let ecdsaP256Sha256 := qualificationStatus .ecdsaP256Sha256 (← qualifyP256Provider.run)
  return ⟨ed25519, ecdsaP256Sha256⟩

/-- A public key and the handle it was bound to. -/
structure HeldKey (C : KeyCrypto) (H : Type) where
  algorithm : AlgorithmId
  canonicalPublicKey : Bytes
  verifier : H
  admissible : providerPublicKeyIsAdmissible C algorithm canonicalPublicKey = true

/-- What the reply of a provider to a bind leads to. -/
def heldKey {C : KeyCrypto} {algorithm : AlgorithmId} {publicKey : Bytes}
    (h : providerPublicKeyIsAdmissible C algorithm publicKey = true) :
    Option H → Asking H (Except ProviderKeyBindingError (HeldKey C H))
  | none => .done (.error (bindingError algorithm .providerBindingFailed))
  | some verifier => .done (.ok ⟨algorithm, publicKey, verifier, h⟩)

def QualifiedSlots.bind (C : KeyCrypto) (slots : QualifiedSlots) (algorithm : AlgorithmId)
    (canonicalPublicKey : Bytes) : Asking H (Except ProviderKeyBindingError (HeldKey C H)) :=
  match h : validatePublicKey C algorithm canonicalPublicKey with
  | .error e => .done (.error e)
  | .ok () =>
    if !(slots.status algorithm).isQualified then
      .done (.error (bindingError algorithm .algorithmNotQualified))
    else
      .ask (HandleCall.bind (algorithm, canonicalPublicKey))
        (heldKey (admissible_of_validatePublicKey h))

end

/-! ## The awaited suites -/

namespace Awaited

section
variable {H : Type}

/-- A boxed handle; awaiting the future of the factory asks the provider once. -/
def bindVerifier (algorithm : AlgorithmId) (publicKey : Bytes) : Qualifying H H :=
  Checked.bindKey .keyBindingFailed (algorithm, publicKey)

def verifyErased (verifier : H) (message : Bytes) (signature : Octets64) :
    Qualifying H ProviderVerificationOutcome :=
  Checked.judge verifier (message, signature)

def qualifyEd25519 : Qualifying H Unit := do
  let standard ← bindVerifier .ed25519 rfc8032Test1PublicKey
  expectProviderResult (← verifyErased standard [] rfc8032Test1Signature) .verified
  expectProviderResult (← verifyErased standard (asBytes "not empty".toList)
    rfc8032Test1Signature) .signatureMismatch
  for (key, message, signature) in
      [(ed25519MixedRPublicKey, ed25519MixedRMessage, ed25519MixedRSignature),
        (ed25519MixedAPublicKey, ed25519MixedAMessage, ed25519MixedASignature)] do
    let verifier ← bindVerifier .ed25519 key
    expectProviderResult (← verifyErased verifier message signature) .verified
    expectProviderResult (← verifyErased standard [] rfc8032Test1Signature) .verified
    expectProviderResult (← verifyErased verifier [] rfc8032Test1Signature) .signatureMismatch
    expectProviderResult (← verifyErased standard message signature) .signatureMismatch
    expectProviderResult (← verifyErased verifier message signature) .verified

def qualifyP256 : Qualifying H Unit := do
  let message := p256QualificationMessage
  let different := asBytes "different".toList
  let verifier ← bindVerifier .ecdsaP256Sha256 p256QualificationPublicKey
  expectProviderResult (← verifyErased verifier message p256QualificationLowSignature) .verified
  expectProviderResult (← verifyErased verifier message p256QualificationHighSignature) .verified
  expectProviderResult (← verifyErased verifier different p256QualificationLowSignature)
    .signatureMismatch
  let alternate ← bindVerifier .ecdsaP256Sha256 p256AlternatePublicKey
  expectProviderResult (← verifyErased alternate message p256AlternateSignature) .verified
  for signature in [p256QualificationLowSignature, p256QualificationHighSignature] do
    expectProviderResult (← verifyErased verifier message signature) .verified
    expectProviderResult (← verifyErased alternate message signature) .signatureMismatch
  expectProviderResult (← verifyErased verifier message p256AlternateSignature) .signatureMismatch
  expectProviderResult (← verifyErased alternate different p256AlternateSignature)
    .signatureMismatch
  expectProviderResult (← verifyErased alternate message p256AlternateSignature) .verified

def qualify : Asking H QualifiedSlots := do
  let ed25519 := qualificationStatus .ed25519 (← qualifyEd25519.run)
  let ecdsaP256Sha256 := qualificationStatus .ecdsaP256Sha256 (← qualifyP256.run)
  return ⟨ed25519, ecdsaP256Sha256⟩

def bindKey (C : KeyCrypto) (algorithm : AlgorithmId) (publicKey : Bytes) :
    Asking H (Except ProviderKeyBindingError (HeldKey C H)) :=
  match h : validatePublicKey C algorithm publicKey with
  | .error e => .done (.error e)
  | .ok () =>
    .ask (HandleCall.bind (algorithm, publicKey)) (heldKey (admissible_of_validatePublicKey h))

/-- The key is validated here and again where it is bound. -/
def bind (C : KeyCrypto) (slots : QualifiedSlots) (algorithm : AlgorithmId) (publicKey : Bytes) :
    Asking H (Except ProviderKeyBindingError (HeldKey C H)) :=
  match validatePublicKey C algorithm publicKey with
  | .error e => .done (.error e)
  | .ok () =>
    if !(slots.status algorithm).isQualified then
      .done (.error (bindingError algorithm .algorithmNotQualified))
    else bindKey C algorithm publicKey

end

end Awaited

end Verification
end YamlSigil
