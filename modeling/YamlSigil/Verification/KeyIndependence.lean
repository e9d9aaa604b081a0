/-
Malformed signatures and the keys at hand.

Whether an artifact is malformed is decided in front of the keys, with one
exception: an ECDSA signature of 64 octets that do not form one is looked at
behind the slot of its key, so an empty slot is reported first.  A disabled
algorithm is reported in front of both.
-/
import YamlSigil.Verification.Provider
import YamlSigil.Verification.Staged

namespace YamlSigil
namespace Verification

open YamlSigil.Core Transcription

/-- A key calls no signature malformed that has passed the form check. -/
class FormChecked (C : Crypto) (Ed25519 P256 : Type) [Ed25519VerificationKey Ed25519]
    [P256VerificationKey P256] : Prop where
  ed25519 : ∀ (vk : Ed25519) (payload : Bytes) (s : Octets64),
    Ed25519VerificationKey.verifySignature vk payload s ≠ .malformedSignature
  p256 : ∀ (vk : P256) (payload : Bytes) (s : Octets64),
    ecdsaP256SignatureIsWellFormed C s = true →
      P256VerificationKey.verifySignature vk payload s ≠ .malformedSignature

instance (C : Crypto) : FormChecked C C.Ed25519VerifyingKey C.P256VerifyingKey where
  ed25519 vk payload s := by
    simp only [Ed25519VerificationKey.verifySignature]
    by_cases h : verifyEd25519 C vk payload s = true
    · rw [if_pos h]
      decide
    · rw [if_neg h]
      decide
  p256 vk payload s hform := by
    simp only [P256VerificationKey.verifySignature, verifyEcdsaP256Sha256]
    rw [ecdsaP256SignatureIsWellFormed] at hform
    cases hs : C.p256SignatureFromSlice s with
    | none =>
      rw [hs] at hform
      cases hform
    | some sig =>
      simp only
      by_cases h : C.p256Verify vk payload sig = true
      · rw [if_pos h]
        decide
      · rw [if_neg h]
        decide

theorem providerOutcome_ne_malformed (o : ProviderVerificationOutcome) :
    providerOutcome o ≠ .malformedSignature := by
  cases o <;> decide

instance (C : KeyCrypto) :
    FormChecked C.toCrypto (ProviderVerifyingKey C) (ProviderVerifyingKey C) where
  ed25519 _ _ _ := providerOutcome_ne_malformed _
  p256 _ _ _ _ := providerOutcome_ne_malformed _

/-! ## The check -/

theorem stateFromOutcome_ne_malformed {o : KeyVerificationOutcome} (h : o ≠ .malformedSignature)
    (payload : Bytes) (alg : AlgorithmId) :
    verificationStateFromOutcome o payload alg ≠ .ok .malformedAttemptedSigned := by
  cases o with
  | malformedSignature => exact absurd rfl h
  | verified =>
    intro hstate
    cases hstate
  | signatureMismatch =>
    intro hstate
    cases hstate
  | providerFailure =>
    intro hstate
    cases hstate

section
variable {C : Crypto} {Ed25519 P256 : Type} [Ed25519VerificationKey Ed25519]
  [P256VerificationKey P256] [FormChecked C Ed25519 P256] {keys : PublicKeys Ed25519 P256}
  {options : VerifierOptions} {payload : Bytes} {s : Octets64} {alg : AlgorithmId}

omit [FormChecked C Ed25519 P256] in
theorem checkOctets64_of_disabled (h : options.enables alg = false) :
    checkOctets64 C payload s keys options alg = .ok (.signedButAlgorithmUnsupported alg) := by
  cases alg with
  | ed25519 =>
    have h : options.verifyEd25519 = false := h
    rw [checkOctets64, h]
    rfl
  | ecdsaP256Sha256 =>
    have h : options.verifyEcdsaP256Sha256 = false := h
    rw [checkOctets64, h]
    rfl

omit [FormChecked C Ed25519 P256] in
/-- An enabled signature without its form: only P-256 looks for a key first. -/
theorem checkOctets64_of_not_wellFormed (henabled : options.enables alg = true)
    (hform : signatureIsWellFormed C alg s = false) :
    checkOctets64 C payload s keys options alg =
      if alg = .ecdsaP256Sha256 ∧ keys.p256.isNone then .error .keyResolutionFailure
      else .ok .malformedAttemptedSigned := by
  cases alg with
  | ed25519 =>
    have henabled : options.verifyEd25519 = true := henabled
    have hform : ed25519SignatureIsCanonical C s = false := hform
    rw [checkOctets64, henabled, hform]
    rfl
  | ecdsaP256Sha256 =>
    have henabled : options.verifyEcdsaP256Sha256 = true := henabled
    have hform : ecdsaP256SignatureIsWellFormed C s = false := hform
    rw [checkOctets64, henabled, hform]
    cases keys.p256 <;> rfl

theorem checkOctets64_ne_malformed (hform : signatureIsWellFormed C alg s = true) :
    checkOctets64 C payload s keys options alg ≠ .ok .malformedAttemptedSigned := by
  by_cases henabled : options.enables alg = true
  · cases alg with
    | ed25519 =>
      have henabled : options.verifyEd25519 = true := henabled
      have hform : ed25519SignatureIsCanonical C s = true := hform
      rw [checkOctets64, henabled, hform]
      cases hk : keys.ed25519 with
      | none =>
        intro h
        cases h
      | some vk =>
        simp only [Bool.not_true, Bool.false_eq_true, if_false]
        by_cases hadm : (!Ed25519VerificationKey.isAdmissible vk) = true
        · rw [if_pos hadm]
          intro h
          cases h
        · rw [if_neg hadm]
          exact stateFromOutcome_ne_malformed (FormChecked.ed25519 C P256 vk payload s) _ _
    | ecdsaP256Sha256 =>
      have henabled : options.verifyEcdsaP256Sha256 = true := henabled
      have hform : ecdsaP256SignatureIsWellFormed C s = true := hform
      rw [checkOctets64, henabled, hform]
      cases hk : keys.p256 with
      | none =>
        intro h
        cases h
      | some vk =>
        simp only [Bool.not_true, Bool.false_eq_true, if_false]
        by_cases hadm : (!P256VerificationKey.isAdmissible vk) = true
        · rw [if_pos hadm]
          intro h
          cases h
        · rw [if_neg hadm]
          exact stateFromOutcome_ne_malformed (FormChecked.p256 Ed25519 vk payload s hform) _ _
  · rw [checkOctets64_of_disabled (Bool.eq_false_iff.mpr henabled)]
    intro h
    cases h

end

/-! ## The verdict -/

/-- The metadata that pre-verification extracts. -/
def Extracts (K : Backend) (form : ArtifactForm) (bytes : Bytes) (sig : UnverifiedSignature) :
    Prop :=
  ∃ pre, preVerify K bytes form false = some pre ∧ pre.unverifiedSignature = some sig

theorem Extracts.content {K : Backend} {form : ArtifactForm} {bytes : Bytes}
    {sig : UnverifiedSignature} (h : Extracts K form bytes sig) :
    ∃ s, signedContent K form bytes = some s ∧
      sig = ⟨s.fields.alg, s.fields.keyid, s.fields.signature⟩ := by
  obtain ⟨pre, hpre, hsig⟩ := h
  have hspec := preVerify_spec K bytes form
  rw [hpre] at hspec
  generalize signedContent K form bytes = content at hspec
  cases hspec with
  | content s => exact ⟨s, rfl, (Option.some.inj hsig).symm⟩
  | structural => cases hsig
  | metadata => cases hsig

theorem extracts_of_content {K : Backend} {form : ArtifactForm} {bytes : Bytes}
    {s : SignedContent} (h : signedContent K form bytes = some s) :
    Extracts K form bytes ⟨s.fields.alg, s.fields.keyid, s.fields.signature⟩ := by
  obtain ⟨pre, hpre⟩ := exists_preVerify K bytes form
  have hspec := preVerify_spec K bytes form
  rw [h, hpre] at hspec
  cases hspec with
  | content s => exact ⟨_, hpre, rfl⟩

/-- An enabled ECDSA signature of 64 octets that do not form one. -/
structure UnformedP256 (C : Crypto) (options : VerifierOptions) (sig : UnverifiedSignature) :
    Prop where
  algorithm : sig.algorithm = .ecdsaP256Sha256
  enabled : options.verifyEcdsaP256Sha256 = true
  length : sig.signatureOctets.length = 64
  unformed : ecdsaP256SignatureIsWellFormed C sig.signatureOctets = false

section
variable {C : Crypto} {K : Backend} {Ed25519 P256 : Type} [Ed25519VerificationKey Ed25519]
  [P256VerificationKey P256] {keys : PublicKeys Ed25519 P256} {options : VerifierOptions}
  {form : ArtifactForm} {bytes : Bytes}

theorem algorithmParameters_of_verify {state : VerifierState}
    (h : verify C K bytes form keys options = some (.ok state)) :
    options.algorithmParameters = [] := by
  rw [verify_eq_verdict] at h
  by_cases hparams : options.algorithmParameters ≠ []
  · rw [if_pos hparams] at h
    cases h
  · exact not_not.mp hparams

theorem verify_of_parameters (hparams : options.algorithmParameters = []) :
    verify C K bytes form keys options =
      some (verdict C keys options (signedContent K form bytes)) := by
  rw [verify_eq_verdict, if_neg (not_not.mpr hparams)]

/-- What makes an artifact malformed under some keys. -/
inductive MalformedContent (C : Crypto) (options : VerifierOptions) : Option SignedContent → Prop
  | noContent : MalformedContent C options none
  | length {s : SignedContent} : s.fields.signature.length ≠ 64 →
      MalformedContent C options (some s)
  | unformed {s : SignedContent} {o : Octets64} : s.fields.signature = o.val →
      options.enables s.fields.alg = true → signatureIsWellFormed C s.fields.alg o = false →
      MalformedContent C options (some s)

theorem malformedContent_of_verdict [FormChecked C Ed25519 P256] {content : Option SignedContent}
    (h : verdict C keys options content = .ok .malformedAttemptedSigned) :
    MalformedContent C options content := by
  cases content with
  | none => exact .noContent
  | some s =>
    rw [verdict] at h
    cases ho : octets64 s.fields.signature with
    | none =>
      refine .length fun hlen => ?_
      rw [octets64, dif_pos hlen] at ho
      cases ho
    | some o =>
      rw [ho] at h
      have h : checkOctets64 C s.payload o keys options s.fields.alg = _ := h
      refine .unformed (octets64_eq_some_iff.mp ho) ?_ ?_
      · by_cases henabled : options.enables s.fields.alg = true
        · exact henabled
        · rw [checkOctets64_of_disabled (Bool.eq_false_iff.mpr henabled)] at h
          cases h
      · by_cases hform : signatureIsWellFormed C s.fields.alg o = true
        · exact absurd h (checkOctets64_ne_malformed hform)
        · exact Bool.eq_false_iff.mpr hform

theorem verdict_octets64 {s : SignedContent} {o : Octets64} (h : s.fields.signature = o.val) :
    verdict C keys options (some s) =
      checkOctets64 C s.payload o keys options s.fields.alg := by
  rw [verdict, octets64_eq_some_iff.mpr h]

/-- Malformed content under other keys. -/
theorem verdict_of_malformedContent (keys : PublicKeys Ed25519 P256)
    {content : Option SignedContent} (h : MalformedContent C options content) :
    (verdict C keys options content = .ok .malformedAttemptedSigned ∧
      ¬ (keys.p256 = none ∧ ∃ s, content = some s ∧
        UnformedP256 C options ⟨s.fields.alg, s.fields.keyid, s.fields.signature⟩)) ∨
    (verdict C keys options content = .error .keyResolutionFailure ∧
      keys.p256 = none ∧ ∃ s, content = some s ∧
        UnformedP256 C options ⟨s.fields.alg, s.fields.keyid, s.fields.signature⟩) := by
  cases h with
  | noContent =>
    refine .inl ⟨rfl, fun h => ?_⟩
    obtain ⟨-, s, hs, -⟩ := h
    cases hs
  | @length s hlen =>
    have ho : octets64 s.fields.signature = none := dif_neg hlen
    refine .inl ⟨by rw [verdict, ho], fun h => ?_⟩
    obtain ⟨-, s', hs, hp⟩ := h
    cases hs
    exact hlen hp.length
  | @unformed s o hoctets henabled hform =>
    rw [verdict_octets64 hoctets, checkOctets64_of_not_wellFormed henabled hform]
    by_cases hkey : s.fields.alg = .ecdsaP256Sha256 ∧ keys.p256.isNone = true
    · obtain ⟨halg, hnone⟩ := hkey
      rw [if_pos ⟨halg, hnone⟩]
      rw [halg] at henabled hform
      refine .inr ⟨rfl, Option.isNone_iff_eq_none.mp hnone, s, rfl, halg, henabled, ?_, ?_⟩
      · exact (congrArg List.length hoctets).trans o.property
      · exact (congrArg (ecdsaP256SignatureIsWellFormed C) hoctets).trans hform
    · rw [if_neg hkey]
      refine .inl ⟨rfl, fun h => hkey ?_⟩
      obtain ⟨hnone, s', hs, hp⟩ := h
      cases hs
      exact ⟨hp.algorithm, Option.isNone_iff_eq_none.mpr hnone⟩

end

/-- Main result on key independence.  An artifact that is malformed under some
keys is malformed under all others, but for an ECDSA signature without its form:
it needs a key in its slot, admissible or not, to be looked at.  A disabled
algorithm is reported whatever the keys. -/
theorem malformed_independent_of_keys (C : Crypto) (K : Backend)
    {Ed25519 P256 Ed25519' P256' : Type}
    [Ed25519VerificationKey Ed25519] [P256VerificationKey P256] [FormChecked C Ed25519 P256]
    [Ed25519VerificationKey Ed25519'] [P256VerificationKey P256'] (form : ArtifactForm)
    (bytes : Bytes) (options : VerifierOptions) :
    (∀ (keys : PublicKeys Ed25519 P256) (keys' : PublicKeys Ed25519' P256'),
      verify C K bytes form keys options = some (.ok .malformedAttemptedSigned) →
      (¬ (keys'.p256 = none ∧ ∃ sig, Extracts K form bytes sig ∧ UnformedP256 C options sig) →
        verify C K bytes form keys' options = some (.ok .malformedAttemptedSigned)) ∧
      (keys'.p256 = none ∧ (∃ sig, Extracts K form bytes sig ∧ UnformedP256 C options sig) →
        verify C K bytes form keys' options = some (.error .keyResolutionFailure))) ∧
    ∀ sig, Extracts K form bytes sig → sig.signatureOctets.length = 64 →
      options.enables sig.algorithm = false → options.algorithmParameters = [] →
      ∀ keys : PublicKeys Ed25519 P256, verify C K bytes form keys options =
        some (.ok (.signedButAlgorithmUnsupported sig.algorithm)) := by
  constructor
  · intro keys keys' h
    have hparams := algorithmParameters_of_verify h
    rw [verify_of_parameters hparams, Option.some.injEq] at h
    rw [verify_of_parameters hparams]
    have hmalformed := malformedContent_of_verdict h
    rcases verdict_of_malformedContent keys' hmalformed with ⟨hv, hno⟩ | ⟨hv, hyes⟩
    · refine ⟨fun _ => congrArg some hv, fun hcase => absurd ?_ hno⟩
      obtain ⟨hnone, sig, hsig, hp⟩ := hcase
      obtain ⟨s, hs, hsig⟩ := hsig.content
      subst hsig
      exact ⟨hnone, s, hs, hp⟩
    · refine ⟨fun hcase => absurd ?_ hcase, fun _ => congrArg some hv⟩
      obtain ⟨hnone, s, hs, hp⟩ := hyes
      exact ⟨hnone, _, extracts_of_content hs, hp⟩
  · intro sig hsig hlen hdisabled hparams keys
    obtain ⟨s, hs, hsig⟩ := hsig.content
    subst hsig
    rw [verify_of_parameters hparams, hs,
      verdict_octets64 (o := ⟨s.fields.signature, hlen⟩) rfl,
      checkOctets64_of_disabled hdisabled]

namespace Reference

/-- The stand-in libraries with the one rule of ECDSA signatures that zeros break, and
two P-256 keys: one accepts every signature and the other none. -/
def nonzeroCrypto : Crypto :=
  { crypto with
    P256VerifyingKey := Bool
    p256SignatureFromSlice := fun b => if b = List.replicate 64 0 then none else octets64 b
    p256Verify := fun key _ _ => key }

/-- An ECDSA signature of zeros for the empty payload. -/
def zeroWire : Bytes :=
  [0x0A, 0x00, 0x12, 0x44, 0x08, 0x02, 0x1A, 0x40] ++ List.replicate 64 0

def p256Keys (key : Option Bool) :
    PublicKeys nonzeroCrypto.Ed25519VerifyingKey nonzeroCrypto.P256VerifyingKey where
  ed25519 := none
  p256 := key

/-- The other P-256 key, beside an Ed25519 key. -/
def otherKeys :
    PublicKeys nonzeroCrypto.Ed25519VerifyingKey nonzeroCrypto.P256VerifyingKey where
  ed25519 := some ()
  p256 := some false

theorem verify_zeroWire_with_key :
    verify nonzeroCrypto Core.Reference.backend zeroWire .proto (p256Keys (some true))
      ⟨true, true, []⟩ = some (.ok .malformedAttemptedSigned) := by
  decide +kernel

theorem verify_zeroWire_without_key :
    verify nonzeroCrypto Core.Reference.backend zeroWire .proto (p256Keys none)
      ⟨true, true, []⟩ = some (.error .keyResolutionFailure) := by
  decide +kernel

end Reference

/-- Zeros are malformed for a verifier with a P-256 key only. -/
theorem malformed_depends_on_p256_slot :
    ¬ ∀ (C : Crypto) (K : Backend) (form : ArtifactForm) (bytes : Bytes)
      (options : VerifierOptions)
      (keys keys' : PublicKeys C.Ed25519VerifyingKey C.P256VerifyingKey),
      verify C K bytes form keys options = some (.ok .malformedAttemptedSigned) →
      verify C K bytes form keys' options = some (.ok .malformedAttemptedSigned) := by
  intro hclaim
  have h := hclaim _ _ _ _ _ _ (Reference.p256Keys none) Reference.verify_zeroWire_with_key
  rw [Reference.verify_zeroWire_without_key] at h
  cases h

/-- Zeros are malformed under the other keys too, whose P-256 slot holds another key. -/
theorem malformed_independent_of_keys_zeros :
    ¬ (Reference.otherKeys.p256 = none ∧ ∃ sig,
        Extracts Core.Reference.backend .proto Reference.zeroWire sig ∧
          UnformedP256 Reference.nonzeroCrypto ⟨true, true, []⟩ sig) ∧
      verify Reference.nonzeroCrypto Core.Reference.backend Reference.zeroWire .proto
        Reference.otherKeys ⟨true, true, []⟩ = some (.ok .malformedAttemptedSigned) := by
  have hcase : ¬ (Reference.otherKeys.p256 = none ∧ ∃ sig,
      Extracts Core.Reference.backend .proto Reference.zeroWire sig ∧
        UnformedP256 Reference.nonzeroCrypto ⟨true, true, []⟩ sig) := fun h => by cases h.1
  exact ⟨hcase, ((malformed_independent_of_keys Reference.nonzeroCrypto Core.Reference.backend
    .proto Reference.zeroWire ⟨true, true, []⟩).1 (Reference.p256Keys (some true))
    Reference.otherKeys Reference.verify_zeroWire_with_key).1 hcase⟩

end Verification
end YamlSigil
