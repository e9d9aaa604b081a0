/-
What a provider signs, the verifier verifies.

A provider may answer with anything.  The check of its output asks, with the
equations of the signing crate, for what the verification crate asks of the
artifact, so that no answer brings an artifact out which the bound key refuses.
-/
import YamlSigil.Signing.ProviderProgram

namespace YamlSigil
namespace Signing

open Control YamlSigil.Core
open Verification (KeyCrypto Octets64 PublicKeys VerifierOptions KeyAccepts Accepted
  signatureIsWellFormed verify)

section
variable {C : KeyCrypto} {κ : Type} [BoundKey C κ]

/-- The output check changes no signature. -/
theorem checkedOutput_eq_ok_iff {key : κ} {payload : Bytes} {signature : Octets64}
    {answer : Except SignError Octets64} :
    checkedOutput C key payload answer = .ok signature ↔ answer = .ok signature ∧
      providerSignatureIsStructurallyValid C (publicKeyOf C key).algorithm signature = true ∧
      (BoundKey.selfVerify C κ = true →
        verifyProviderSignature (publicKeyOf C key) payload signature = true) := by
  cases answer with
  | error e => exact ⟨fun h => (by cases h), fun h => (by cases h.1)⟩
  | ok signature' =>
    rw [checkedOutput]
    constructor
    · intro h
      split at h
      · cases h
      · next hpass =>
        cases h
        simp only [Bool.or_eq_true, Bool.not_eq_true', Bool.and_eq_true, not_or, not_and,
          Bool.not_eq_false] at hpass
        exact ⟨rfl, hpass⟩
    · intro h
      obtain ⟨heq, hpass⟩ := h
      cases heq
      refine if_neg ?_
      simp only [Bool.or_eq_true, Bool.not_eq_true', Bool.and_eq_true, not_or, not_and,
        Bool.not_eq_false]
      exact hpass

theorem algorithm_of_algorithmGuard {req : SignRequest κ κ} {required : Option AlgorithmId}
    (h : algorithmGuard C req required = .ok ()) :
    (publicKeyOf C req.boundKey).algorithm = req.algorithm := by
  rw [algorithmGuard] at h
  split at h
  · cases h
  · next hguard => exact not_not.mp (not_or.mp hguard).1

end

/-! ## Bound keys that verify -/

section
variable {C : KeyCrypto} {K : Backend} {algorithm : AlgorithmId} {bytes : Bytes}
  {req : SignRequest (ProviderSigningKey C) (ProviderSigningKey C)}

variable (C K algorithm bytes req) in
/-- What holds against every provider.  `answered` is what a provider answers for
a payload, `Returns` that the operation returns a success. -/
structure Safe {A : Type} (answered : (Bytes → A) → Bytes → Except SignError Octets64)
    (Returns : (Bytes → A) → SignSuccess → Prop) : Prop where
  verified : ∀ answer s, Returns answer s → ∀ keys, HoldsResolved C algorithm bytes keys →
    ∀ options : VerifierOptions, options.enables req.algorithm = true →
    verify C.toCrypto K s.artifact req.outputForm.artifactForm keys options =
      if options.algorithmParameters ≠ [] then some (.error .invalidAlgorithmParameters)
      else some (.ok (.verified (signedPayload req.payload s.modifiedPayload) req.algorithm))
  rejected : ∀ answer prepared, prepareSigningPayload req = .ok prepared →
    ∀ keys, HoldsResolved C algorithm bytes keys →
    (∀ signature, answered answer prepared.payload = .ok signature →
      signatureIsWellFormed C.toCrypto req.algorithm signature = false ∨
        ¬ KeyAccepts keys prepared.payload signature req.algorithm) →
    ∀ s, ¬ Returns answer s

/-- An operation is safe when each of its successes is one of a safe operation. -/
theorem Safe.of_imp {A : Type} {answered : (Bytes → A) → Bytes → Except SignError Octets64}
    {Returns Returns' : (Bytes → A) → SignSuccess → Prop}
    (h : Safe C K algorithm bytes req answered Returns)
    (himp : ∀ answer s, Returns' answer s → Returns answer s) :
    Safe C K algorithm bytes req answered Returns' where
  verified answer s hreturns := h.verified answer s (himp answer s hreturns)
  rejected answer prepared hprepared keys hkeys hbad s hreturns :=
    h.rejected answer prepared hprepared keys hkeys hbad s (himp answer s hreturns)

/-- The signature behind a success, and what the verification crate says of it. -/
theorem accepted_of_success (hC : C.Lawful)
    (hkey : resolveProviderPublicKey C algorithm bytes = some req.boundKey.publicKey)
    {limits : Option ArtifactResourceLimits} {required : Option AlgorithmId}
    {answered : Bytes → Except SignError Octets64} {s : SignSuccess}
    (h : (signingProgram req K limits (algorithmGuard C req required)).run
      (fun payload => checkedOutput C req.boundKey payload (answered payload)) =
        some (.ok (.ok (.success s)))) :
    ∃ prepared signature, validateInvocation req = .ok () ∧
      prepareSigningPayload req = .ok prepared ∧ answered prepared.payload = .ok signature ∧
      finishSigning K req prepared signature none = some (.ok (.success s)) ∧
      signatureIsWellFormed C.toCrypto req.algorithm signature = true ∧
      ∀ keys, HoldsResolved C algorithm bytes keys →
        KeyAccepts keys prepared.payload signature req.algorithm := by
  obtain ⟨prepared, signature, hadmitted, -, hchecked, hfinish⟩ := signed_of_success h
  obtain ⟨hanswered, hstructure, hverify⟩ := checkedOutput_eq_ok_iff.mp hchecked
  have halg := algorithm_of_algorithmGuard hadmitted.guard
  have hsame : algorithm = req.algorithm := (algorithm_of_resolve hkey).symm.trans halg
  refine ⟨prepared, signature, hadmitted.validated, hadmitted.prepared, hanswered,
    finishSigning_of_limits hfinish, ?_, fun keys hkeys => ?_⟩
  · rw [halg, structurallyValid_eq] at hstructure
    exact hstructure
  · rw [← hsame]
    exact (keyAccepts_iff hC hkey hkeys prepared.payload signature).mpr (hverify rfl)

theorem safe_through (hC : C.Lawful) (hK : K.Lawful)
    (hkey : resolveProviderPublicKey C algorithm bytes = some req.boundKey.publicKey)
    (limits : Option ArtifactResourceLimits) (required : Option AlgorithmId) {A : Type}
    (question : Bytes → Bytes) (read : A → Except SignError Octets64) :
    Safe C K algorithm bytes req (fun answer payload => read (answer (question payload)))
      fun answer s => ((signingProgram req K limits (algorithmGuard C req required)).through
        question fun payload a => checkedOutput C req.boundKey payload (read a)).run answer =
          some (.ok (.ok (.success s))) where
  verified answer s h keys hkeys options henabled := by
    rw [Ask.run_through] at h
    obtain ⟨prepared, signature, hvalid, hprepared, -, hfinish, hform, haccepts⟩ :=
      accepted_of_success hC hkey h
    obtain ⟨hemits, hmodified⟩ := finishSigning_spec hK hfinish
    have hpayload := (prepareSigningPayload_spec hprepared).2
    rw [← hmodified] at hpayload
    rw [← hpayload] at hemits
    have haccepts := haccepts keys hkeys
    rw [← hpayload] at haccepts
    exact verify_of_accepted hK hvalid hemits ⟨henabled, hform, haccepts⟩
  rejected answer prepared hprepared keys hkeys hbad s h := by
    rw [Ask.run_through] at h
    obtain ⟨prepared', signature, -, hprepared', hanswered, -, hform, haccepts⟩ :=
      accepted_of_success hC hkey h
    cases hprepared.symm.trans hprepared'
    rcases hbad signature hanswered with hbad | hbad
    · cases hform.symm.trans hbad
    · exact hbad (haccepts keys hkeys)

/-- Main result on providers: with a built key and any provider, what comes out of
signing verifies under the key that the verification crate resolves, and nothing
comes out for an answer that this key refuses. -/
theorem provider_sign_then_verify (hC : C.Lawful) (hK : K.Lawful) (sha256 : Bytes → Bytes)
    (hbuild : (ProviderSigningKeyBuilder.new algorithm bytes).build C = .ok req.boundKey) :
    (∃ keys, HoldsResolved C algorithm bytes keys) ∧
    (∀ limits : Option ArtifactResourceLimits,
      Safe C K algorithm bytes req (fun answer payload => answer payload)
        (fun answer s => (signWithProviderInner C K req limits none Ask.once).run answer =
          some (.ok (.ok (.success s)))) ∧
      Safe C K algorithm bytes req (fun answer payload => answer (sha256 payload))
        (fun answer s => (signWithProviderInner C K req limits (some .ecdsaP256Sha256)
          (p256DigestCallback sha256 Ask.once)).run answer = some (.ok (.ok (.success s)))) ∧
      Safe C K algorithm bytes req (fun answer payload => ofAwaited (answer payload))
        (fun answer s => (Awaited.signInner C K req limits).run answer =
          some (.ok (.ok (.success s))))) ∧
    Safe C K algorithm bytes req (fun answer payload => answer payload)
      (fun answer s => (signWithProvider C K req Ask.once).run answer = some (.success s)) ∧
    Safe C K algorithm bytes req (fun answer payload => answer (sha256 payload))
      (fun answer s => (signWithP256DigestProvider C K sha256 req Ask.once).run answer =
        some (.success s)) ∧
    Safe C K algorithm bytes req (fun answer payload => ofAwaited (answer payload))
      (fun answer s => (Awaited.signWithAsyncProvider C K req).run answer =
        some (.success s)) := by
  have hkey := resolve_of_build hbuild
  have hmessage : ∀ limits, Safe C K algorithm bytes req (fun answer payload => answer payload)
      (fun answer s => (signWithProviderInner C K req limits none Ask.once).run answer =
        some (.ok (.ok (.success s)))) := by
    intro limits
    rw [signWithProviderInner_message]
    exact safe_through hC hK hkey limits none id id
  have hdigest : ∀ limits, Safe C K algorithm bytes req
      (fun answer payload => answer (sha256 payload))
      (fun answer s => (signWithProviderInner C K req limits (some .ecdsaP256Sha256)
        (p256DigestCallback sha256 Ask.once)).run answer = some (.ok (.ok (.success s)))) := by
    intro limits
    rw [signWithProviderInner_digest]
    exact safe_through hC hK hkey limits (some .ecdsaP256Sha256) sha256 id
  have hawaited : ∀ limits, Safe C K algorithm bytes req
      (fun answer payload => ofAwaited (answer payload))
      (fun answer s => (Awaited.signInner C K req limits).run answer =
        some (.ok (.ok (.success s)))) := by
    intro limits
    rw [signInner_eq]
    exact safe_through hC hK hkey limits none id ofAwaited
  exact ⟨exists_holdsResolved hC hkey,
    fun limits => ⟨hmessage limits, hdigest limits, hawaited limits⟩,
    (hmessage none).of_imp fun _ _ h => run_unbounded_eq_success_iff.mp h,
    (hdigest none).of_imp fun _ _ h => run_unbounded_eq_success_iff.mp h,
    (hawaited none).of_imp fun _ _ h => run_unbounded_eq_success_iff.mp h⟩

end

/-- A letter without its line feed, signed by a provider in the YAML form. -/
theorem provider_sign_then_verify_letter :
    verify Verification.Reference.keyCrypto.toCrypto Core.Reference.backend
      Verification.Reference.letterArtifact .yaml
        (⟨some Verification.Reference.letterPublicKey, none⟩ :
          PublicKeys Verification.Reference.keyCrypto.Ed25519VerifyingKey
            Verification.Reference.keyCrypto.P256VerifyingKey)
        ⟨true, false, []⟩ = some (.ok (.verified [0x72, 0x0A] .ed25519)) := by
  have hbuild : (ProviderSigningKeyBuilder.new .ed25519
      Verification.Reference.letterPublicKey).build Verification.Reference.keyCrypto =
        .ok Reference.providerRequest.boundKey := rfl
  have henabled : VerifierOptions.enables ⟨true, false, []⟩ .ed25519 = true := rfl
  exact (provider_sign_then_verify Verification.Reference.keyCrypto_lawful
    Core.Reference.backend_lawful id hbuild).2.2.1.verified _ _ Reference.signWithProvider_letter
      _ ⟨_, rfl, rfl⟩ _ henabled

end Signing
end YamlSigil
