/-
Signature checks, over the curve libraries as a parameter.

The verifier is generic in its key types.  A key says whether it is admissible
and how it answers for a payload and 64 signature octets; the keys of the curve
libraries are instances, with the checks the crate wraps around the libraries.
-/
import YamlSigil.Core.Basic

namespace YamlSigil
namespace Verification

open YamlSigil.Core

/-- Exactly 64 octets, `[u8; 64]`. -/
abbrev Octets64 := { b : Bytes // b.length = 64 }

/-- `<&[u8; 64]>::try_from`. -/
def octets64 (b : Bytes) : Option Octets64 := if h : b.length = 64 then some ⟨b, h⟩ else none

theorem octets64_val (s : Octets64) : octets64 s.val = some s := dif_pos s.property

theorem octets64_eq_some_iff {b : Bytes} {s : Octets64} : octets64 b = some s ↔ b = s.val := by
  constructor
  · intro h
    rw [octets64] at h
    by_cases hlen : b.length = 64
    · rw [dif_pos hlen] at h
      rw [← Option.some.inj h]
    · rw [dif_neg hlen] at h
      cases h
  · intro h
    rw [h]
    exact octets64_val s

/-- The edwards25519, hash and P-256 libraries, as far as verification calls them. -/
structure Crypto where
  EdwardsPoint : Type
  Scalar : Type
  decompress : Bytes → Option EdwardsPoint
  compress : EdwardsPoint → Bytes
  isSmallOrder : EdwardsPoint → Bool
  mulByCofactor : EdwardsPoint → EdwardsPoint
  isIdentity : EdwardsPoint → Bool
  basepoint : EdwardsPoint
  smul : Scalar → EdwardsPoint → EdwardsPoint
  sub : EdwardsPoint → EdwardsPoint → EdwardsPoint
  scalarFromCanonicalBytes : Bytes → Option Scalar
  scalarFromBytesModOrderWide : Bytes → Scalar
  sha512 : Bytes → Bytes
  Ed25519VerifyingKey : Type
  ed25519AsBytes : Ed25519VerifyingKey → Bytes
  P256Signature : Type
  P256VerifyingKey : Type
  p256SignatureFromSlice : Bytes → Option P256Signature
  p256Verify : P256VerifyingKey → Bytes → P256Signature → Bool

section
variable (C : Crypto)

/-! ## Ed25519 -/

structure ParsedEd25519Signature where
  rBytes : Bytes
  r : C.EdwardsPoint
  s : C.Scalar

/-- The point whose compressed form is exactly these octets. -/
def decodeCanonicalEdwardsPoint (bytes : Bytes) : Option C.EdwardsPoint :=
  match C.decompress bytes with
  | none => none
  | some point => if C.compress point = bytes then some point else none

/-- The canonical `R || S` form. -/
def parseEd25519Signature (sigBytes : Bytes) : Option (ParsedEd25519Signature C) :=
  if sigBytes.length ≠ 64 then none
  else do
    let rBytes := sigBytes.take 32
    let r ← decodeCanonicalEdwardsPoint C rBytes
    let s ← C.scalarFromCanonicalBytes (sigBytes.drop 32)
    some { rBytes, r, s }

def ed25519Challenge (rBytes aBytes payload : Bytes) : C.Scalar :=
  C.scalarFromBytesModOrderWide (C.sha512 (rBytes ++ aBytes ++ payload))

/-- The cofactored equation; `true` is the source's `Ok`. -/
def verifyEd25519 (vk : C.Ed25519VerifyingKey) (payload sigBytes : Bytes) : Bool :=
  match parseEd25519Signature C sigBytes with
  | none => false
  | some signature =>
    match decodeCanonicalEdwardsPoint C (C.ed25519AsBytes vk) with
    | none => false
    | some a =>
      if C.isSmallOrder a then false
      else
        let k := ed25519Challenge C signature.rBytes (C.ed25519AsBytes vk) payload
        let equation := C.sub (C.sub (C.smul signature.s C.basepoint) signature.r) (C.smul k a)
        C.isIdentity (C.mulByCofactor equation)

def ed25519VerifyingKeyIsAdmissible (vk : C.Ed25519VerifyingKey) : Bool :=
  match decodeCanonicalEdwardsPoint C (C.ed25519AsBytes vk) with
  | none => false
  | some point => !C.isSmallOrder point

def ed25519SignatureIsCanonical (sigBytes : Bytes) : Bool :=
  (parseEd25519Signature C sigBytes).isSome

/-! ## ECDSA P-256 -/

inductive EcdsaVerifyError where
  | malformedSignature
  | equationFailure
deriving Repr, DecidableEq

def ecdsaP256SignatureIsWellFormed (sigBytes : Bytes) : Bool :=
  (C.p256SignatureFromSlice sigBytes).isSome

def verifyEcdsaP256Sha256 (vk : C.P256VerifyingKey) (payload sigBytes : Bytes) :
    Except EcdsaVerifyError Unit :=
  match C.p256SignatureFromSlice sigBytes with
  | none => .error .malformedSignature
  | some sig => if C.p256Verify vk payload sig then .ok () else .error .equationFailure

end

/-! ## Keys -/

inductive KeyVerificationOutcome where
  | verified
  | malformedSignature
  | signatureMismatch
  | providerFailure
deriving Repr, DecidableEq

class Ed25519VerificationKey (κ : Type) where
  isAdmissible : κ → Bool
  verifySignature : κ → Bytes → Octets64 → KeyVerificationOutcome

class P256VerificationKey (κ : Type) where
  isAdmissible : κ → Bool
  verifySignature : κ → Bytes → Octets64 → KeyVerificationOutcome

instance (C : Crypto) : Ed25519VerificationKey C.Ed25519VerifyingKey where
  isAdmissible vk := ed25519VerifyingKeyIsAdmissible C vk
  verifySignature vk payload signature :=
    if verifyEd25519 C vk payload signature then .verified else .signatureMismatch

instance (C : Crypto) : P256VerificationKey C.P256VerifyingKey where
  isAdmissible _ := true
  verifySignature vk payload signature :=
    match verifyEcdsaP256Sha256 C vk payload signature with
    | .ok () => .verified
    | .error .malformedSignature => .malformedSignature
    | .error .equationFailure => .signatureMismatch

/-- What a signature that the native Ed25519 key accepts looks like. -/
theorem ed25519_canonical_of_verified {C : Crypto} {vk : C.Ed25519VerifyingKey}
    {payload : Bytes} {s : Octets64}
    (h : Ed25519VerificationKey.verifySignature vk payload s = .verified) :
    ed25519SignatureIsCanonical C s = true ∧ ed25519VerifyingKeyIsAdmissible C vk = true := by
  have hv : verifyEd25519 C vk payload s = true := by
    by_cases hv : verifyEd25519 C vk payload s = true
    · exact hv
    · have h : (if verifyEd25519 C vk payload s then KeyVerificationOutcome.verified
        else .signatureMismatch) = .verified := h
      rw [if_neg hv] at h
      cases h
  unfold verifyEd25519 at hv
  unfold ed25519SignatureIsCanonical ed25519VerifyingKeyIsAdmissible
  cases hp : parseEd25519Signature C s with
  | none =>
    rw [hp] at hv
    cases hv
  | some p =>
    rw [hp] at hv
    refine ⟨rfl, ?_⟩
    cases ha : decodeCanonicalEdwardsPoint C (C.ed25519AsBytes vk) with
    | none =>
      simp only [ha] at hv
      cases hv
    | some a =>
      simp only [ha] at hv
      by_cases hs : C.isSmallOrder a = true
      · rw [if_pos hs] at hv
        cases hv
      · simp only [hs]
        rfl

theorem p256_verifySignature_eq_verified_iff {C : Crypto} {vk : C.P256VerifyingKey}
    {payload : Bytes} {s : Octets64} :
    P256VerificationKey.verifySignature vk payload s = .verified ↔
      verifyEcdsaP256Sha256 C vk payload s = .ok () := by
  simp only [P256VerificationKey.verifySignature]
  cases verifyEcdsaP256Sha256 C vk payload s with
  | ok u => exact iff_of_true rfl rfl
  | error e => cases e <;> exact ⟨fun h => (by cases h), fun h => (by cases h)⟩

theorem p256_wellFormed_of_verified {C : Crypto} {vk : C.P256VerifyingKey} {payload : Bytes}
    {s : Octets64} (h : P256VerificationKey.verifySignature vk payload s = .verified) :
    ecdsaP256SignatureIsWellFormed C s = true := by
  unfold ecdsaP256SignatureIsWellFormed
  cases hs : C.p256SignatureFromSlice s with
  | some sig => rfl
  | none =>
    have hok := p256_verifySignature_eq_verified_iff.mp h
    rw [verifyEcdsaP256Sha256, hs] at hok
    cases hok

/-- The public key and the signature of the empty message in the first test of
RFC 8032. -/
def rfc8032Test1PublicKey : Bytes := [
  0xD7, 0x5A, 0x98, 0x01, 0x82, 0xB1, 0x0A, 0xB7, 0xD5, 0x4B, 0xFE, 0xD3, 0xC9, 0x64, 0x07, 0x3A,
  0x0E, 0xE1, 0x72, 0xF3, 0xDA, 0xA6, 0x23, 0x25, 0xAF, 0x02, 0x1A, 0x68, 0xF7, 0x07, 0x51, 0x1A]

def rfc8032Test1Signature : Octets64 := ⟨[
  0xE5, 0x56, 0x43, 0x00, 0xC3, 0x60, 0xAC, 0x72, 0x90, 0x86, 0xE2, 0xCC, 0x80, 0x6E, 0x82, 0x8A,
  0x84, 0x87, 0x7F, 0x1E, 0xB8, 0xE5, 0xD9, 0x74, 0xD8, 0x73, 0xE0, 0x65, 0x22, 0x49, 0x01, 0x55,
  0x5F, 0xB8, 0x82, 0x15, 0x90, 0xA3, 0x3B, 0xAC, 0xC6, 0x1E, 0x39, 0x70, 0x1C, 0xF9, 0xB4, 0x6B,
  0xD2, 0x5B, 0xF5, 0xF0, 0x59, 0x5B, 0xBE, 0x24, 0x65, 0x51, 0x41, 0x43, 0x8E, 0x7A, 0x10, 0x0B],
  rfl⟩

namespace Reference

/-- A stand-in for the libraries that has the one key of this test and answers
for its signature as they do. -/
def crypto : Crypto where
  EdwardsPoint := Bytes
  Scalar := Bytes
  decompress := some
  compress point := point
  isSmallOrder _ := false
  mulByCofactor point := point
  isIdentity _ := true
  basepoint := []
  smul _ point := point
  sub point _ := point
  scalarFromCanonicalBytes := some
  scalarFromBytesModOrderWide scalar := scalar
  sha512 bytes := bytes
  Ed25519VerifyingKey := Unit
  ed25519AsBytes _ := rfc8032Test1PublicKey
  P256Signature := Octets64
  P256VerifyingKey := Unit
  p256SignatureFromSlice := octets64
  p256Verify _ _ _ := true

/-- The empty payload with that signature, in the protobuf form. -/
def rfc8032Wire : Bytes :=
  [0x0A, 0x00, 0x12, 0x44, 0x08, 0x01, 0x1A, 0x40] ++ rfc8032Test1Signature.val

/-- The public key of the second test of RFC 8032, and its signature of one letter in a line. -/
def letterPublicKey : Bytes := [
  0x3D, 0x40, 0x17, 0xC3, 0xE8, 0x43, 0x89, 0x5A, 0x92, 0xB7, 0x0A, 0xA7, 0x4D, 0x1B, 0x7E, 0xBC,
  0x9C, 0x98, 0x2C, 0xCF, 0x2E, 0xC4, 0x96, 0x8C, 0xC0, 0xCD, 0x55, 0xF1, 0x2A, 0xF4, 0x66, 0x0C]

def letterSignature : Octets64 := ⟨[
  0xDC, 0x9D, 0x40, 0x23, 0xAF, 0xF0, 0x1A, 0x3F, 0xCC, 0xB3, 0x82, 0xF6, 0xE8, 0xE6, 0x75, 0xE5,
  0xF3, 0xFF, 0x11, 0x32, 0xF1, 0x89, 0xE8, 0x2C, 0xFD, 0xF0, 0x31, 0x94, 0x71, 0xF4, 0xB2, 0xC1,
  0xB3, 0x2B, 0x6F, 0x6E, 0x21, 0x88, 0x9B, 0x35, 0x38, 0x95, 0x3E, 0x38, 0xB9, 0x70, 0x6A, 0x4D,
  0x2A, 0x7E, 0xA1, 0xEB, 0x3D, 0x48, 0x82, 0x66, 0xBA, 0x39, 0xD4, 0x49, 0x56, 0x6A, 0x9A, 0x01],
  rfl⟩

/-- The stand-in for the libraries with this key. -/
def letterCrypto : Crypto := { crypto with ed25519AsBytes := fun _ => letterPublicKey }

/-- The letter with that signature, in the YAML form. -/
def letterArtifact : Bytes := asBytes
  ("r\n---\nschema: YamlSigilSignature.v1alpha1\n".toList ++
    "alg: ED25519_PUREEDDSA_RAW_RS64_CANONICAL\nkeyid: \"release-2026\"\n".toList ++
    "signature: 3J1AI6_wGj_Ms4L26OZ15fP_ETLxiegs_fAxlHH0ssGzK29uIYibNTiVPji5cGpN".toList ++
    "Kn6h6z1Igma6OdRJVmqaAQ\n".toList)

end Reference

end Verification
end YamlSigil
