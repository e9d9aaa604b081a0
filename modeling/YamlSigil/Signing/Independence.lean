/-
What a verdict does not depend on.

Two runs of the verifier are compared.  They agree when the slot and the flag of
the artifact's algorithm do, whatever is in the other slot; and they agree on two
artifacts that differ in nothing but an acceptable key identifier.
-/
import YamlSigil.Signing.SignThenVerify
import YamlSigil.Verification.Staged

namespace YamlSigil
namespace Signing

open YamlSigil.Core Transcription
open Verification

/-! ## The other algorithm -/

/-- The algorithm in the metadata that pre-verification extracts. -/
def ExtractedAlgorithm (K : Backend) (form : ArtifactForm) (bytes : Bytes) (alg : AlgorithmId) :
    Prop :=
  ∃ pre sig, preVerify K bytes form false = some pre ∧ pre.unverifiedSignature = some sig ∧
    sig.algorithm = alg

/-- The same key, or none, in the slot of an algorithm. -/
def AgreeOn {Ed25519 P256 : Type} (keys keys' : PublicKeys Ed25519 P256) : AlgorithmId → Prop
  | .ed25519 => keys.ed25519 = keys'.ed25519
  | .ecdsaP256Sha256 => keys.p256 = keys'.p256

theorem ExtractedAlgorithm.content {K : Backend} {form : ArtifactForm} {bytes : Bytes}
    {alg : AlgorithmId} (h : ExtractedAlgorithm K form bytes alg) {s : SignedContent}
    (hs : signedContent K form bytes = some s) : s.fields.alg = alg := by
  obtain ⟨pre, sig, hpre, hsig, halg⟩ := h
  have hspec := preVerify_spec K bytes form
  rw [hs, hpre] at hspec
  cases hspec with
  | content s =>
    have hsig : (⟨s.fields.alg, s.fields.keyid, s.fields.signature⟩ : UnverifiedSignature) = sig :=
      Option.some.inj hsig
    rw [← halg, ← hsig]

section
variable {C : Crypto} {Ed25519 P256 : Type} [Ed25519VerificationKey Ed25519]
  [P256VerificationKey P256] {keys keys' : PublicKeys Ed25519 P256}
  {options options' : VerifierOptions}

/-- A check looks at one slot and one flag. -/
theorem checkOctets64_eq_of_agreeOn {alg : AlgorithmId} (hkeys : AgreeOn keys keys' alg)
    (hoptions : options.enables alg = options'.enables alg) (payload : Bytes) (s : Octets64) :
    checkOctets64 C payload s keys options alg = checkOctets64 C payload s keys' options' alg := by
  cases alg with
  | ed25519 =>
    have hkeys : keys.ed25519 = keys'.ed25519 := hkeys
    have hoptions : options.verifyEd25519 = options'.verifyEd25519 := hoptions
    rw [checkOctets64, checkOctets64, hkeys, hoptions]
  | ecdsaP256Sha256 =>
    have hkeys : keys.p256 = keys'.p256 := hkeys
    have hoptions : options.verifyEcdsaP256Sha256 = options'.verifyEcdsaP256Sha256 := hoptions
    rw [checkOctets64, checkOctets64, hkeys, hoptions]

theorem verify_eq_of_agreeOn {K : Backend} {bytes : Bytes} {form : ArtifactForm}
    {alg : AlgorithmId} (halg : ExtractedAlgorithm K form bytes alg)
    (hkeys : AgreeOn keys keys' alg) (hoptions : options.enables alg = options'.enables alg)
    (hparams : options.algorithmParameters = []) (hparams' : options'.algorithmParameters = []) :
    verify C K bytes form keys options = verify C K bytes form keys' options' := by
  rw [verify_eq_verdict, verify_eq_verdict, if_neg (not_not.mpr hparams),
    if_neg (not_not.mpr hparams')]
  refine congrArg some (verdict_congr fun c hc s _ => ?_)
  rw [halg.content hc]
  exact checkOctets64_eq_of_agreeOn hkeys hoptions c.payload s

/-! ## The key identifier -/

/-- The verdict on content with an acceptable key identifier does not mention it. -/
theorem verdict_ofFields_eq {payload : Bytes} {f f' : SignatureFields} (hk : KeyidOk f.keyid)
    (hk' : KeyidOk f'.keyid) (halg : f.alg = f'.alg) (hsignature : f.signature = f'.signature) :
    verdict C keys options (SignedContent.ofFields payload f) =
      verdict C keys options (SignedContent.ofFields payload f') := by
  rw [ofFields_of_keyidOk hk, ofFields_of_keyidOk hk', verdict, verdict, halg, hsignature]

/-- Two artifacts that say the same, apart from the key identifier. -/
theorem verify_eq_of_carrierSays {K : Backend} {form : ArtifactForm} {a a' p c c' : Bytes}
    {f f' : SignatureFields} (hd : Decomposes form a p c) (hd' : Decomposes form a' p c')
    (hf : CarrierSays K form c f) (hf' : CarrierSays K form c' f') (hk : KeyidOk f.keyid)
    (hk' : KeyidOk f'.keyid) (halg : f.alg = f'.alg) (hsignature : f.signature = f'.signature) :
    verify C K a form keys options = verify C K a' form keys options := by
  rw [verify_eq_verdict, verify_eq_verdict,
    signedContent_of_components (components_eq_some_iff.mpr hd),
    signedContent_of_components (components_eq_some_iff.mpr hd'),
    carrierFields_eq_some_iff.mpr hf, carrierFields_eq_some_iff.mpr hf', Option.bind_some,
    Option.bind_some, verdict_ofFields_eq hk hk' halg hsignature]

theorem verify_eq_of_emitted {K : Backend} (hK : K.Lawful) {form : ArtifactForm} {a a' p : Bytes}
    {f f' : SignatureFields} (h : Emits K form p f a) (h' : Emits K form p f' a')
    (hk : KeyidOk f.keyid) (hk' : KeyidOk f'.keyid) (halg : f.alg = f'.alg)
    (hsignature : f.signature = f'.signature) :
    verify C K a form keys options = verify C K a' form keys options := by
  rw [verify_eq_verdict, verify_eq_verdict, verdict_emitted hK h, verdict_emitted hK h',
    verdict_ofFields_eq hk hk' halg hsignature]

end

section
variable {K : Backend} {Ed25519 P256 : Type} (req : SignRequest Ed25519 P256)

/-- Whether the YAML form takes a payload is up to the payload. -/
theorem emitYamlArtifact_cases (hK : K.Lawful) (payload sigBytes : Bytes) :
    (PayloadStream payload ∧ emitYamlArtifact K payload req sigBytes =
      some (.ok (payload ++ (marker .lf ++ asBytes ((req.fields sigBytes).yamlText K))))) ∨
    (¬ PayloadStream payload ∧ emitYamlArtifact K payload req sigBytes =
      some (.error (.yamlSerialize "compose failed".toList))) := by
  rw [emitYamlArtifact, serializeYamlSignatureCarrier_eq hK]
  simp only
  by_cases hp : PayloadStream payload
  · rw [composeYaml_eq_success_iff.mpr ⟨hp, not_hasMarker_yamlText hK.base64 _, rfl⟩]
    exact .inl ⟨hp, rfl⟩
  · refine .inr ⟨hp, ?_⟩
    rw [compose_yaml, composeAfterInvocationValidation]
    cases hv : validatePayloadStream payload with
    | ok u => exact absurd (validatePayloadStream_eq_ok_iff.mp hv) hp
    | error e => rfl

theorem emitArtifact_error_eq (hK : K.Lawful) (req' : SignRequest Ed25519 P256)
    (hyaml : req.outputForm = .yaml) (hyaml' : req'.outputForm = .yaml) {payload sigBytes : Bytes}
    {e : SignError} (h : emitArtifact K payload req sigBytes = some (.error e)) :
    emitArtifact K payload req' sigBytes = some (.error e) := by
  rw [emitArtifact, hyaml] at h
  rw [emitArtifact, hyaml']
  have h : emitYamlArtifact K payload req sigBytes = some (.error e) := h
  rcases emitYamlArtifact_cases req hK payload sigBytes with ⟨hp, hok⟩ | ⟨hp, herror⟩
  · rw [hok] at h
    cases h
  · rcases emitYamlArtifact_cases req' hK payload sigBytes with ⟨hp', hok⟩ | ⟨hp', herror'⟩
    · exact absurd hp' hp
    · exact herror'.trans (herror.symm.trans h)

end

/-- Main result on independence: the verdict looks at the slot and the flag of
the artifact's own algorithm only, and not at its key identifier, in artifacts
of any origin and in the ones the signer makes. -/
theorem verdict_independent {K : Backend} (hK : K.Lawful) (C : Crypto) {Ed25519 P256 : Type}
    [Ed25519VerificationKey Ed25519] [P256VerificationKey P256] :
    (∀ form bytes alg, ExtractedAlgorithm K form bytes alg →
      ∀ (keys keys' : PublicKeys Ed25519 P256) (options options' : VerifierOptions),
        AgreeOn keys keys' alg → options.enables alg = options'.enables alg →
        options.algorithmParameters = [] → options'.algorithmParameters = [] →
        verify C K bytes form keys options = verify C K bytes form keys' options') ∧
    (∀ form a a' p c c' f f', Decomposes form a p c → Decomposes form a' p c' →
      CarrierSays K form c f → CarrierSays K form c' f' → KeyidOk f.keyid → KeyidOk f'.keyid →
      f.alg = f'.alg → f.signature = f'.signature →
      ∀ (keys : PublicKeys Ed25519 P256) (options : VerifierOptions),
        verify C K a form keys options = verify C K a' form keys options) ∧
    ∀ (payload : Bytes) (req : SignRequest Ed25519 P256) (sigBytes : Bytes)
      (keyid keyid' : Option Text), KeyidOk keyid → KeyidOk keyid' →
      (∀ a a', emitArtifact K payload { req with keyid := keyid } sigBytes = some (.ok a) →
        emitArtifact K payload { req with keyid := keyid' } sigBytes = some (.ok a') →
        ∀ (keys : PublicKeys Ed25519 P256) (options : VerifierOptions),
          verify C K a req.outputForm.artifactForm keys options =
            verify C K a' req.outputForm.artifactForm keys options) ∧
      ∀ e, req.outputForm = .yaml →
        emitArtifact K payload { req with keyid := keyid } sigBytes = some (.error e) →
        emitArtifact K payload { req with keyid := keyid' } sigBytes = some (.error e) := by
  refine ⟨fun form bytes alg halg keys keys' options options' hkeys hoptions hparams hparams' =>
    verify_eq_of_agreeOn halg hkeys hoptions hparams hparams',
    fun form a a' p c c' f f' hd hd' hf hf' hk hk' halg hsignature keys options =>
    verify_eq_of_carrierSays hd hd' hf hf' hk hk' halg hsignature,
    fun payload req sigBytes keyid keyid' hk hk' => ⟨fun a a' h h' keys options => ?_,
    fun e hyaml h => emitArtifact_error_eq { req with keyid := keyid } hK
      { req with keyid := keyid' } hyaml hyaml h⟩⟩
  have hemits := emitArtifact_spec hK h
  have hemits' := emitArtifact_spec hK h'
  exact verify_eq_of_emitted hK hemits hemits' hk hk' rfl rfl

def Reference.bothKeys : PublicKeys Verification.Reference.crypto.Ed25519VerifyingKey
    Verification.Reference.crypto.P256VerifyingKey where
  ed25519 := some ()
  p256 := some ()

/-- Another P-256 key and flag make no difference to an Ed25519 signature. -/
theorem verdict_independent_rfc8032 :
    verify Verification.Reference.crypto Core.Reference.backend
        Verification.Reference.rfc8032Wire .proto Verification.Reference.publicKeys
        ⟨true, false, []⟩ =
      verify Verification.Reference.crypto Core.Reference.backend
        Verification.Reference.rfc8032Wire .proto
        Reference.bothKeys ⟨true, true, []⟩ := by
  have hpre : preVerify Core.Reference.backend Verification.Reference.rfc8032Wire .proto false =
      some ⟨.ok, .proto, some [],
        some ⟨.ed25519, none, Verification.rfc8032Test1Signature.val⟩, []⟩ := by
    decide +kernel
  exact (verdict_independent Core.Reference.backend_lawful Verification.Reference.crypto).1 .proto
    Verification.Reference.rfc8032Wire .ed25519 ⟨_, _, hpre, rfl, rfl⟩
    Verification.Reference.publicKeys Reference.bothKeys
    ⟨true, false, []⟩ ⟨true, true, []⟩ rfl rfl rfl rfl

end Signing
end YamlSigil
