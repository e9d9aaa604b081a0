/-
Public keys and signatures of signing providers.

The signing crate resolves keys, parses signatures and evaluates the equations
in code of its own.  Over the same libraries it agrees with the verification
crate: on which octets are a key, on the form of a signature, and on what a key
accepts.
-/
import YamlSigil.Signing.Sign
import YamlSigil.Verification.Keys
import YamlSigil.Verification.Soundness

namespace YamlSigil
namespace Signing

open YamlSigil.Core
open Verification (KeyCrypto Octets64 resolveEd25519VerifyingKey resolveP256VerifyingKey)

/-! ## Public keys -/

inductive ProviderPublicKey (C : KeyCrypto) where
  | ed25519 (bytes : Bytes) (point : C.EdwardsPoint)
  | ecdsaP256Sha256 (key : C.P256VerifyingKey)

def ProviderPublicKey.algorithm {C : KeyCrypto} : ProviderPublicKey C → AlgorithmId
  | .ed25519 _ _ => .ed25519
  | .ecdsaP256Sha256 _ => .ecdsaP256Sha256

section
variable (C : KeyCrypto)

def resolveProviderPublicKey (algorithm : AlgorithmId) (bytes : Bytes) :
    Option (ProviderPublicKey C) :=
  match algorithm with
  | .ed25519 =>
    if bytes.length ≠ 32 then none
    else
      match C.decompress bytes with
      | none => none
      | some point =>
        if C.compress point ≠ bytes ∨ C.isSmallOrder point = true then none
        else some (.ed25519 bytes point)
  | .ecdsaP256Sha256 =>
    if bytes.length ≠ 65 ∨ bytes.head? ≠ some 0x04 then none
    else (C.p256FromSec1Bytes bytes).map .ecdsaP256Sha256

/-! ## Signatures -/

/-- The octets of `R`, the point `R`, and `S`. -/
def parseEd25519Signature (signature : Octets64) : Option (Bytes × C.EdwardsPoint × C.Scalar) :=
  let rBytes := signature.val.take 32
  match C.decompress rBytes with
  | none => none
  | some r =>
    if C.compress r ≠ rBytes then none
    else (C.scalarFromCanonicalBytes (signature.val.drop 32)).map fun s => (rBytes, r, s)

def providerSignatureIsStructurallyValid (algorithm : AlgorithmId) (signature : Octets64) : Bool :=
  match algorithm with
  | .ed25519 => (parseEd25519Signature C signature).isSome
  | .ecdsaP256Sha256 => (C.p256SignatureFromSlice signature).isSome

variable {C} in
def verifyProviderSignature (publicKey : ProviderPublicKey C) (message : Bytes)
    (signature : Octets64) : Bool :=
  match publicKey with
  | .ed25519 bytes point =>
    match parseEd25519Signature C signature with
    | none => false
    | some (rBytes, r, s) =>
      let challenge := C.scalarFromBytesModOrderWide (C.sha512 (rBytes ++ bytes ++ message))
      C.isIdentity (C.mulByCofactor
        (C.sub (C.sub (C.smul s C.basepoint) r) (C.smul challenge point)))
  | .ecdsaP256Sha256 key =>
    match C.p256SignatureFromSlice signature with
    | none => false
    | some signature => C.p256Verify key message signature

end

/-! ## Bound keys -/

inductive ProviderSigningKeyErrorKind where
  | invalidPublicKey
deriving Repr, DecidableEq

structure ProviderSigningKeyError where
  kind : ProviderSigningKeyErrorKind
  algorithm : AlgorithmId
deriving Repr, DecidableEq

/-- A public key whose outputs are verified.  The awaited key is one with a
handle beside it; only a builder makes either. -/
structure ProviderSigningKey (C : KeyCrypto) where
  publicKey : ProviderPublicKey C
  resolved : ∃ algorithm bytes, resolveProviderPublicKey C algorithm bytes = some publicKey

/-- A public key whose outputs are checked for their form. -/
structure UnqualifiedProviderSigningKey (C : KeyCrypto) where
  publicKey : ProviderPublicKey C
  resolved : ∃ algorithm bytes, resolveProviderPublicKey C algorithm bytes = some publicKey

class BoundKey (C : KeyCrypto) (κ : Type) where
  selfVerify : Bool
  publicKey : κ → ProviderPublicKey C

instance (C : KeyCrypto) : BoundKey C (ProviderSigningKey C) where
  selfVerify := true
  publicKey key := key.publicKey

instance (C : KeyCrypto) : BoundKey C (UnqualifiedProviderSigningKey C) where
  selfVerify := false
  publicKey key := key.publicKey

/-- Octets of the wrong number are not copied. -/
def boundedPublicKeyCopy (algorithm : AlgorithmId) (publicKeyBytes : Bytes) : Bytes :=
  let expectedLen :=
    match algorithm with
    | .ed25519 => 32
    | .ecdsaP256Sha256 => 65
  if publicKeyBytes.length = expectedLen then publicKeyBytes else []

structure ProviderSigningKeyBuilder where
  algorithm : AlgorithmId
  publicKeyBytes : Bytes

namespace ProviderSigningKeyBuilder

/-- The constructors `ed25519` and `ecdsa_p256_sha256`, by their algorithm. -/
def new (algorithm : AlgorithmId) (publicKeyBytes : Bytes) : ProviderSigningKeyBuilder where
  algorithm := algorithm
  publicKeyBytes := boundedPublicKeyCopy algorithm publicKeyBytes

def ed25519 (publicKeyBytes : Bytes) : ProviderSigningKeyBuilder := new .ed25519 publicKeyBytes

def ecdsaP256Sha256 (publicKeyBytes : Bytes) : ProviderSigningKeyBuilder :=
  new .ecdsaP256Sha256 publicKeyBytes

variable (C : KeyCrypto) (b : ProviderSigningKeyBuilder)

def build : Except ProviderSigningKeyError (ProviderSigningKey C) :=
  match h : resolveProviderPublicKey C b.algorithm b.publicKeyBytes with
  | none => .error ⟨.invalidPublicKey, b.algorithm⟩
  | some publicKey => .ok ⟨publicKey, b.algorithm, b.publicKeyBytes, h⟩

def buildUnqualified : Except ProviderSigningKeyError (UnqualifiedProviderSigningKey C) :=
  match h : resolveProviderPublicKey C b.algorithm b.publicKeyBytes with
  | none => .error ⟨.invalidPublicKey, b.algorithm⟩
  | some publicKey => .ok ⟨publicKey, b.algorithm, b.publicKeyBytes, h⟩

end ProviderSigningKeyBuilder

/-! ## The two crates agree -/

section
variable {C : KeyCrypto}

theorem decodeCanonicalEdwardsPoint_eq_some_iff {bytes : Bytes} {point : C.EdwardsPoint} :
    Verification.decodeCanonicalEdwardsPoint C.toCrypto bytes = some point ↔
      C.decompress bytes = some point ∧ C.compress point = bytes := by
  unfold Verification.decodeCanonicalEdwardsPoint
  cases C.decompress bytes with
  | none => exact ⟨fun h => (by cases h), fun h => (by cases h.1)⟩
  | some p =>
    simp only
    by_cases hp : C.compress p = bytes
    · rw [if_pos hp]
      refine ⟨fun h => ⟨h, ?_⟩, fun h => h.1⟩
      rw [← Option.some.inj h]
      exact hp
    · rw [if_neg hp]
      refine ⟨fun h => (by cases h), fun h => ?_⟩
      rw [Option.some.inj h.1] at hp
      exact absurd h.2 hp

/-- Both parsers look for the same parts. -/
theorem parseEd25519Signature_eq (signature : Octets64) :
    Verification.parseEd25519Signature C.toCrypto signature =
      (parseEd25519Signature C signature).map fun p => ⟨p.1, p.2.1, p.2.2⟩ := by
  unfold Verification.parseEd25519Signature parseEd25519Signature
    Verification.decodeCanonicalEdwardsPoint
  rw [if_neg (not_not.mpr signature.property)]
  simp only
  cases C.decompress (signature.val.take 32) with
  | none => rfl
  | some r =>
    simp only
    by_cases hr : C.compress r = signature.val.take 32
    · rw [if_pos hr, if_neg (not_not.mpr hr)]
      cases C.scalarFromCanonicalBytes (signature.val.drop 32) <;> rfl
    · rw [if_neg hr, if_pos hr]
      rfl

theorem structurallyValid_eq (algorithm : AlgorithmId) (signature : Octets64) :
    providerSignatureIsStructurallyValid C algorithm signature =
      Verification.signatureIsWellFormed C.toCrypto algorithm signature := by
  cases algorithm with
  | ed25519 =>
    show (parseEd25519Signature C signature).isSome =
      (Verification.parseEd25519Signature C.toCrypto signature).isSome
    rw [parseEd25519Signature_eq, Option.isSome_map]
  | ecdsaP256Sha256 => rfl

theorem resolve_ed25519_eq_some_iff {bytes : Bytes} {key : ProviderPublicKey C} :
    resolveProviderPublicKey C .ed25519 bytes = some key ↔ bytes.length = 32 ∧
      ∃ point, Verification.decodeCanonicalEdwardsPoint C.toCrypto bytes = some point ∧
        C.isSmallOrder point = false ∧ key = .ed25519 bytes point := by
  rw [resolveProviderPublicKey]
  by_cases hlen : bytes.length ≠ 32
  · rw [if_pos hlen]
    exact ⟨fun h => (by cases h), fun h => absurd h.1 hlen⟩
  rw [if_neg hlen]
  constructor
  · intro h
    cases hd : C.decompress bytes with
    | none =>
      rw [hd] at h
      cases h
    | some point =>
      rw [hd] at h
      simp only at h
      by_cases hbad : C.compress point ≠ bytes ∨ C.isSmallOrder point = true
      · rw [if_pos hbad] at h
        cases h
      · rw [if_neg hbad] at h
        obtain ⟨hcanonical, horder⟩ := not_or.mp hbad
        cases h
        exact ⟨not_not.mp hlen, point,
          decodeCanonicalEdwardsPoint_eq_some_iff.mpr ⟨hd, not_not.mp hcanonical⟩,
          Bool.not_eq_true _ ▸ horder, rfl⟩
  · intro h
    obtain ⟨-, point, hpoint, horder, hkey⟩ := h
    obtain ⟨hd, hcanonical⟩ := decodeCanonicalEdwardsPoint_eq_some_iff.mp hpoint
    have hgood : ¬ (C.compress point ≠ bytes ∨ C.isSmallOrder point = true) := by
      rw [horder]
      exact not_or.mpr ⟨not_not.mpr hcanonical, Bool.false_ne_true⟩
    rw [hd, hkey]
    exact if_neg hgood

theorem resolve_p256_eq_some_iff {bytes : Bytes} {key : ProviderPublicKey C} :
    resolveProviderPublicKey C .ecdsaP256Sha256 bytes = some key ↔
      ∃ vk, resolveP256VerifyingKey C bytes = .ok vk ∧ key = .ecdsaP256Sha256 vk := by
  rw [resolveProviderPublicKey, resolveP256VerifyingKey]
  by_cases hform : bytes.length ≠ 65 ∨ bytes.head? ≠ some 0x04
  · rw [if_pos hform, if_pos hform]
    exact ⟨fun h => (by cases h), fun h => (by cases h.choose_spec.1)⟩
  · rw [if_neg hform, if_neg hform]
    cases C.p256FromSec1Bytes bytes with
    | none => exact ⟨fun h => (by cases h), fun h => (by cases h.choose_spec.1)⟩
    | some vk =>
      simp only [Option.map_some, Option.some.injEq, Except.ok.injEq, exists_eq_left']
      exact eq_comm

/-- A builder resolves the octets it was given, although it copies them only when
their number is right. -/
theorem resolve_boundedPublicKeyCopy (algorithm : AlgorithmId) (bytes : Bytes) :
    resolveProviderPublicKey C algorithm (boundedPublicKeyCopy algorithm bytes) =
      resolveProviderPublicKey C algorithm bytes := by
  cases algorithm with
  | ed25519 =>
    rw [boundedPublicKeyCopy]
    by_cases hlen : bytes.length = 32
    · rw [if_pos hlen]
    · rw [if_neg hlen, resolveProviderPublicKey, resolveProviderPublicKey, if_pos hlen]
      rfl
  | ecdsaP256Sha256 =>
    rw [boundedPublicKeyCopy]
    by_cases hlen : bytes.length = 65
    · rw [if_pos hlen]
    · have hform : bytes.length ≠ 65 ∨ bytes.head? ≠ some 0x04 := .inl hlen
      rw [if_neg hlen, resolveProviderPublicKey, resolveProviderPublicKey, if_pos hform]
      rfl

theorem resolve_of_build {algorithm : AlgorithmId} {bytes : Bytes} {key : ProviderSigningKey C}
    (h : (ProviderSigningKeyBuilder.new algorithm bytes).build C = .ok key) :
    resolveProviderPublicKey C algorithm bytes = some key.publicKey := by
  unfold ProviderSigningKeyBuilder.build at h
  split at h
  · cases h
  · next publicKey hresolve =>
    cases h
    rw [← resolve_boundedPublicKeyCopy]
    exact hresolve

theorem algorithm_of_resolve {algorithm : AlgorithmId} {bytes : Bytes}
    {key : ProviderPublicKey C} (h : resolveProviderPublicKey C algorithm bytes = some key) :
    key.algorithm = algorithm := by
  cases algorithm with
  | ed25519 =>
    obtain ⟨-, point, -, -, hkey⟩ := resolve_ed25519_eq_some_iff.mp h
    rw [hkey]
    rfl
  | ecdsaP256Sha256 =>
    obtain ⟨vk, -, hkey⟩ := resolve_p256_eq_some_iff.mp h
    rw [hkey]
    rfl

/-! ## Bound keys in the verification crate -/

/-- The key that the verification crate resolves is in the slot of the algorithm. -/
def HoldsResolved (C : KeyCrypto) (algorithm : AlgorithmId) (bytes : Bytes)
    (keys : Verification.PublicKeys C.Ed25519VerifyingKey C.P256VerifyingKey) : Prop :=
  match algorithm with
  | .ed25519 => ∃ vk, resolveEd25519VerifyingKey C bytes = .ok vk ∧ keys.ed25519 = some vk
  | .ecdsaP256Sha256 => ∃ vk, resolveP256VerifyingKey C bytes = .ok vk ∧ keys.p256 = some vk

theorem resolveEd25519VerifyingKey_of_resolve (hC : C.Lawful) {bytes : Bytes}
    {key : ProviderPublicKey C} (h : resolveProviderPublicKey C .ed25519 bytes = some key) :
    ∃ vk, resolveEd25519VerifyingKey C bytes = .ok vk := by
  obtain ⟨hlen, point, hpoint, horder, -⟩ := resolve_ed25519_eq_some_iff.mp h
  obtain ⟨vk, hvk⟩ := hC.total (decodeCanonicalEdwardsPoint_eq_some_iff.mp hpoint).1
  exact ⟨vk, Verification.resolveEd25519VerifyingKey_eq_ok_iff.mpr
    ⟨hlen, ⟨point, hpoint, horder⟩, hvk⟩⟩

/-- The verification crate has a key for the octets of every bound key. -/
theorem exists_holdsResolved (hC : C.Lawful) {algorithm : AlgorithmId} {bytes : Bytes}
    {key : ProviderPublicKey C} (h : resolveProviderPublicKey C algorithm bytes = some key) :
    ∃ keys, HoldsResolved C algorithm bytes keys := by
  cases algorithm with
  | ed25519 =>
    obtain ⟨vk, hvk⟩ := resolveEd25519VerifyingKey_of_resolve hC h
    exact ⟨⟨some vk, none⟩, vk, hvk, rfl⟩
  | ecdsaP256Sha256 =>
    obtain ⟨vk, hvk, -⟩ := resolve_p256_eq_some_iff.mp h
    exact ⟨⟨none, some vk⟩, vk, hvk, rfl⟩

/-- Both equations are about the same point, the same octets and the same
message. -/
theorem verifyProviderSignature_ed25519 (hC : C.Lawful) {bytes : Bytes}
    {key : ProviderPublicKey C} (h : resolveProviderPublicKey C .ed25519 bytes = some key)
    {vk : C.Ed25519VerifyingKey} (hvk : resolveEd25519VerifyingKey C bytes = .ok vk)
    (message : Bytes) (signature : Octets64) :
    verifyProviderSignature key message signature =
      Verification.verifyEd25519 C.toCrypto vk message signature := by
  obtain ⟨-, point, hpoint, horder, hkey⟩ := resolve_ed25519_eq_some_iff.mp h
  obtain ⟨-, -, hfrom⟩ := Verification.resolveEd25519VerifyingKey_eq_ok_iff.mp hvk
  have hbytes := hC.asBytes hfrom
  rw [hkey, verifyProviderSignature, Verification.verifyEd25519, parseEd25519Signature_eq, hbytes,
    hpoint]
  cases parseEd25519Signature C signature with
  | none => rfl
  | some p =>
    simp only [Option.map_some, horder]
    rfl

theorem verifyProviderSignature_p256 (vk : C.P256VerifyingKey) (message : Bytes)
    (signature : Octets64) :
    verifyProviderSignature (.ecdsaP256Sha256 vk) message signature = true ↔
      Verification.verifyEcdsaP256Sha256 C.toCrypto vk message signature = .ok () := by
  rw [verifyProviderSignature, Verification.verifyEcdsaP256Sha256]
  cases C.p256SignatureFromSlice signature with
  | none => exact ⟨fun h => (by cases h), fun h => (by cases h)⟩
  | some s =>
    simp only
    by_cases hv : C.p256Verify vk message s = true
    · rw [hv]
      exact ⟨fun _ => rfl, fun _ => rfl⟩
    · rw [if_neg hv]
      exact ⟨fun h => absurd h hv, fun h => (by cases h)⟩

theorem ed25519_verifySignature_eq_verified_iff {vk : C.Ed25519VerifyingKey} {message : Bytes}
    {signature : Octets64} :
    Verification.Ed25519VerificationKey.verifySignature vk message signature = .verified ↔
      Verification.verifyEd25519 C.toCrypto vk message signature = true := by
  show (if Verification.verifyEd25519 C.toCrypto vk message signature then
    Verification.KeyVerificationOutcome.verified else .signatureMismatch) = .verified ↔ _
  by_cases h : Verification.verifyEd25519 C.toCrypto vk message signature = true
  · rw [if_pos h]
    exact ⟨fun _ => h, fun _ => rfl⟩
  · rw [if_neg h]
    exact ⟨fun hf => (by cases hf), fun ht => absurd ht h⟩

/-- The check of the signing crate is the one that the key of the verification
crate makes. -/
theorem keyAccepts_iff (hC : C.Lawful) {algorithm : AlgorithmId} {bytes : Bytes}
    {key : ProviderPublicKey C} (h : resolveProviderPublicKey C algorithm bytes = some key)
    {keys : Verification.PublicKeys C.Ed25519VerifyingKey C.P256VerifyingKey}
    (hkeys : HoldsResolved C algorithm bytes keys) (message : Bytes) (signature : Octets64) :
    Verification.KeyAccepts keys message signature algorithm ↔
      verifyProviderSignature key message signature = true := by
  cases algorithm with
  | ed25519 =>
    obtain ⟨vk, hvk, hslot⟩ := hkeys
    have heq := verifyProviderSignature_ed25519 hC h hvk message signature
    have hverified : Verification.Ed25519VerificationKey.verifySignature vk message signature =
        .verified ↔ verifyProviderSignature key message signature = true := by
      rw [heq]
      exact ed25519_verifySignature_eq_verified_iff
    constructor
    · intro haccepts
      cases haccepts with
      | ed25519 hslot' hadmissible hverify =>
        rw [hslot] at hslot'
        cases hslot'
        exact hverified.mp hverify
    · intro hverify
      have hverify := hverified.mpr hverify
      exact .ed25519 hslot (Verification.ed25519_canonical_of_verified hverify).2 hverify
  | ecdsaP256Sha256 =>
    obtain ⟨vk, hvk, hslot⟩ := hkeys
    obtain ⟨vk', hvk', hkey⟩ := resolve_p256_eq_some_iff.mp h
    rw [hvk] at hvk'
    cases hvk'
    rw [hkey, verifyProviderSignature_p256,
      ← Verification.p256_verifySignature_eq_verified_iff]
    constructor
    · intro haccepts
      cases haccepts with
      | p256 hslot' hadmissible hverify =>
        rw [hslot] at hslot'
        cases hslot'
        exact hverify
    · intro hverify
      exact .p256 hslot rfl hverify

end

end Signing
end YamlSigil
