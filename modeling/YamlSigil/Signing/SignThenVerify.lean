/-
What the signer signs, the verifier verifies.

Each step of the signer has one lemma: what validation leaves of the request,
which octets are prepared, that the key accepts the signature, and that the
artifact is made from these octets and this signature.  The last theorem joins
them with the verdict on emitted artifacts.
-/
import YamlSigil.Signing.Emission

namespace YamlSigil
namespace Signing

open Format YamlSigil.Core Transcription
open Verification

/-- The same form on the verifier's side. -/
def OutputForm.artifactForm : OutputForm → ArtifactForm
  | .yaml => .yaml
  | .protobuf => .proto

/-! ## Validation -/

section
variable {Ed25519 P256 : Type} {req : SignRequest Ed25519 P256}

theorem keyid_length_of_validated (h : validateInvocationParameters req = .ok ()) {k : Text}
    (hk : req.keyid = some k) : 1 ≤ (asBytes k).length ∧ (asBytes k).length ≤ 1024 := by
  rw [validateInvocationParameters] at h
  split at h
  · cases h
  · split at h
    · cases h
    · split at h
      · cases h
      · rw [hk] at h
        simp only at h
        split at h
        · cases h
        · omega

theorem keyid_content_of_validated (h : validateKeyidContent req = .ok ()) {k : Text}
    (hk : req.keyid = some k) : k.contains '\r' = false ∧ k.contains '\n' = false := by
  rw [validateKeyidContent, hk] at h
  split at h
  · cases h
  · next hno =>
    have hno : ¬ (k.contains '\r' || k.contains '\n') = true := hno
    rw [Bool.not_eq_true, Bool.or_eq_false_iff] at hno
    exact hno

theorem keyidOk_of_validated (h : validateInvocation req = .ok ()) : KeyidOk req.keyid := by
  rw [validateInvocation] at h
  cases hparams : validateInvocationParameters req with
  | error e =>
    rw [hparams] at h
    cases h
  | ok u =>
    rw [hparams] at h
    cases hcontent : validateKeyidContent req with
    | error e =>
      rw [hcontent] at h
      cases h
    | ok u' =>
      intro k hk
      obtain ⟨hpos, hle⟩ := keyid_length_of_validated hparams hk
      obtain ⟨hcr, hlf⟩ := keyid_content_of_validated hcontent hk
      simp only [keyidIsValid, Bool.and_eq_true, decide_eq_true_eq, Bool.not_eq_true']
      exact ⟨⟨⟨hpos, hle⟩, hcr⟩, hlf⟩

/-! ## Preparation -/

/-- Normalization changes at most the end, and only a non-empty payload without
a terminator when it is told to. -/
theorem normalizeYamlPayload_cases {payload out : Bytes} {append : Bool}
    (h : normalizeYamlPayload payload append = .ok out) :
    out = payload ∨ (out = payload ++ [0x0A] ∧ payload ≠ [] ∧ ¬ [0x0A] <:+ payload ∧
      append = true) := by
  rw [normalizeYamlPayload] at h
  split at h
  · cases h
  · split at h
    · cases h
    · split at h
      · next hempty =>
        cases h
        exact .inl (List.isEmpty_iff.mp hempty).symm
      · next hne =>
        split at h
        · cases h
          exact .inl rfl
        · next hterminated =>
          split at h
          · next happend =>
            cases h
            exact .inr ⟨rfl, fun hnil => hne (List.isEmpty_iff.mpr hnil),
              fun hsuffix => hterminated (List.isSuffixOf_iff_suffix.mpr hsuffix), happend⟩
          · cases h

/-- The octets that the answer of the signer names. -/
def signedPayload (requested modified : Bytes) : Bytes :=
  if modified ≠ [] then modified else requested

theorem signedPayload_of_prepared {requested payload : Bytes}
    (h : payload = requested ∨ payload = requested ++ [0x0A]) :
    signedPayload requested (if requested = payload then [] else payload) = payload := by
  rcases h with h | h
  · rw [h, if_pos rfl]
    rfl
  · have hne : requested ≠ payload := fun heq => by
      rw [← heq] at h
      exact absurd h (by simp)
    have hnil : payload ≠ [] := by
      rw [h]
      simp
    rw [if_neg hne]
    exact if_pos hnil

/-- For YAML, what is prepared is normalized and passes the check of payloads. -/
theorem prepareSigningPayload_yaml {prepared : PreparedSigningPayload}
    (hyaml : req.outputForm = .yaml) (h : prepareSigningPayload req = .ok prepared) :
    normalizeYamlPayload req.payload req.appendMissingFinalNewline = .ok prepared.payload ∧
      validatePayloadStream prepared.payload = .ok () ∧
      prepared.modifiedPayload = if req.payload = prepared.payload then [] else prepared.payload := by
  rw [prepareSigningPayload, hyaml] at h
  cases hn : normalizeYamlPayload req.payload req.appendMissingFinalNewline with
  | error e =>
    rw [hn] at h
    cases h
  | ok payload =>
    rw [hn] at h
    cases hv : validatePayloadStream payload with
    | error e =>
      simp only [bind, Except.bind, hv] at h
      cases h
    | ok u =>
      simp only [bind, Except.bind, hv] at h
      cases h
      exact ⟨rfl, hv, rfl⟩

/-- For protobuf, it is the payload of the request. -/
theorem prepareSigningPayload_protobuf (hproto : req.outputForm = .protobuf) :
    prepareSigningPayload req = .ok ⟨req.payload, []⟩ := by
  rw [prepareSigningPayload, hproto]
  exact congrArg (fun modified => Except.ok (PreparedSigningPayload.mk req.payload modified))
    (if_pos rfl)

/-- What is prepared: a payload stream for YAML, and in both forms what the
answer names. -/
theorem prepareSigningPayload_spec {prepared : PreparedSigningPayload}
    (h : prepareSigningPayload req = .ok prepared) :
    (req.outputForm = .yaml → PayloadStream prepared.payload) ∧
      signedPayload req.payload prepared.modifiedPayload = prepared.payload := by
  cases hform : req.outputForm with
  | yaml =>
    obtain ⟨hn, hv, hmodified⟩ := prepareSigningPayload_yaml hform h
    rw [hmodified]
    exact ⟨fun _ => validatePayloadStream_eq_ok_iff.mp hv,
      signedPayload_of_prepared ((normalizeYamlPayload_cases hn).imp_right And.left)⟩
  | protobuf =>
    cases (prepareSigningPayload_protobuf hform).symm.trans h
    exact ⟨fun hyaml => (by cases hyaml), rfl⟩

/-! ## Emission -/

/-- The fields a request is signed with. -/
def SignRequest.fields (req : SignRequest Ed25519 P256) (sigBytes : Bytes) : SignatureFields :=
  ⟨req.algorithm, req.keyid, sigBytes⟩

/-- The artifact of a payload and signature octets in the form of the request. -/
def emitArtifact (K : Backend) {Ed25519 P256 : Type} (payload : Bytes)
    (req : SignRequest Ed25519 P256) (sigBytes : Bytes) : Run (Except SignError Bytes) :=
  match req.outputForm with
  | .yaml => emitYamlArtifact K payload req sigBytes
  | .protobuf => emitProtoArtifact K payload req sigBytes

/-- The outcome that an emission is framed as. -/
def PreparedSigningPayload.outcome (prepared : PreparedSigningPayload) :
    Except SignError Bytes → SignOutcome
  | .error e => .signer e
  | .ok artifact => .success ⟨artifact, prepared.modifiedPayload⟩

theorem PreparedSigningPayload.outcome_eq_success_iff {prepared : PreparedSigningPayload}
    {r : Except SignError Bytes} {s : SignSuccess} :
    prepared.outcome r = .success s ↔
      r = .ok s.artifact ∧ s.modifiedPayload = prepared.modifiedPayload := by
  cases r with
  | error e => exact ⟨fun h => (by cases h), fun h => (by cases h.1)⟩
  | ok artifact =>
    constructor
    · intro h
      cases h
      exact ⟨rfl, rfl⟩
    · intro h
      obtain ⟨hartifact, hmodified⟩ := h
      cases hartifact
      rw [outcome, ← hmodified]

theorem finishSigning_unbounded (K : Backend) (req : SignRequest Ed25519 P256)
    (prepared : PreparedSigningPayload) (signature : Octets64) :
    finishSigning K req prepared signature none =
      (emitArtifact K prepared.payload req signature).map fun r => .ok (prepared.outcome r) := by
  unfold finishSigning emitArtifact
  cases req.outputForm with
  | yaml =>
    simp only
    cases emitYamlArtifact K prepared.payload req signature with
    | none => rfl
    | some r => cases r <;> rfl
  | protobuf =>
    simp only
    cases emitProtoArtifact K prepared.payload req signature with
    | none => rfl
    | some r => cases r <;> rfl

theorem finishSigning_eq_success_iff {K : Backend} {prepared : PreparedSigningPayload}
    {signature : Octets64} {s : SignSuccess} :
    finishSigning K req prepared signature none = some (.ok (.success s)) ↔
      emitArtifact K prepared.payload req signature = some (.ok s.artifact) ∧
        s.modifiedPayload = prepared.modifiedPayload := by
  rw [finishSigning_unbounded, Option.map_eq_some_iff]
  constructor
  · intro h
    obtain ⟨r, hr, hok⟩ := h
    obtain ⟨hartifact, hmodified⟩ :=
      PreparedSigningPayload.outcome_eq_success_iff.mp (Except.ok.inj hok)
    rw [hartifact] at hr
    exact ⟨hr, hmodified⟩
  · intro h
    exact ⟨_, h.1, congrArg Except.ok
      (PreparedSigningPayload.outcome_eq_success_iff.mpr ⟨rfl, h.2⟩)⟩

section
variable {K : Backend} (hK : K.Lawful)

include hK

theorem serializeYamlSignatureCarrier_eq (sigBytes : Bytes) :
    serializeYamlSignatureCarrier K req sigBytes = .ok ((req.fields sigBytes).yamlText K) := by
  have hser : serializeSignatureDocument K ⟨schemaV1alpha1, req.algorithm.asYamlStr, req.keyid,
      K.base64.encode sigBytes⟩ = .ok _ :=
    SignatureFields.serialize_toDocument hK.base64 (req.fields sigBytes)
  simp only [serializeYamlSignatureCarrier, hser]
  exact congrArg Except.ok (terminated_yamlText K (req.fields sigBytes))

theorem emitYamlArtifact_spec {p sigBytes a : Bytes}
    (h : emitYamlArtifact K p req sigBytes = some (.ok a)) :
    Emits K .yaml p (req.fields sigBytes) a := by
  rw [emitYamlArtifact, serializeYamlSignatureCarrier_eq hK] at h
  obtain ⟨outcome, hc, h⟩ := Option.bind_eq_some_iff.mp h
  cases outcome with
  | success s =>
    obtain ⟨hp, -, hs⟩ := composeYaml_eq_success_iff.mp hc
    cases h
    rw [hs]
    exact .yaml hp
  | error e => cases h
  | invocation e => cases h

omit hK in
theorem emitProtoArtifact_spec {p sigBytes a : Bytes}
    (h : emitProtoArtifact K p req sigBytes = some (.ok a)) :
    Emits K .proto p (req.fields sigBytes) a := by
  obtain ⟨c, hc, h⟩ := Option.bind_eq_some_iff.mp h
  obtain ⟨w, hw, h⟩ := Option.bind_eq_some_iff.mp h
  cases h
  exact .proto hc hw

theorem emitArtifact_spec {payload sigBytes a : Bytes}
    (h : emitArtifact K payload req sigBytes = some (.ok a)) :
    Emits K req.outputForm.artifactForm payload (req.fields sigBytes) a := by
  rw [emitArtifact] at h
  cases hform : req.outputForm with
  | yaml =>
    rw [hform] at h
    exact emitYamlArtifact_spec hK h
  | protobuf =>
    rw [hform] at h
    exact emitProtoArtifact_spec h

theorem finishSigning_spec {prepared : PreparedSigningPayload} {signature : Octets64}
    {s : SignSuccess}
    (h : finishSigning K req prepared signature none = some (.ok (.success s))) :
    Emits K req.outputForm.artifactForm prepared.payload (req.fields signature) s.artifact ∧
      s.modifiedPayload = prepared.modifiedPayload := by
  obtain ⟨hemit, hmodified⟩ := finishSigning_eq_success_iff.mp h
  exact ⟨emitArtifact_spec hK hemit, hmodified⟩

/-- Behind validation: some octets are prepared and signed, and the artifact is
made from them. -/
theorem signAfterInvocationValidation_spec {signPayload : Bytes → Except SignError Octets64}
    {s : SignSuccess}
    (h : signAfterInvocationValidation K req none signPayload = some (.ok (.success s))) :
    ∃ signature, signPayload (signedPayload req.payload s.modifiedPayload) = .ok signature ∧
      Emits K req.outputForm.artifactForm (signedPayload req.payload s.modifiedPayload)
        (req.fields signature) s.artifact := by
  rw [signAfterInvocationValidation] at h
  cases hp : prepareSigningPayload req with
  | error e =>
    rw [hp] at h
    cases h
  | ok prepared =>
    rw [hp] at h
    simp only at h
    cases hs : signPayload prepared.payload with
    | error e =>
      rw [hs] at h
      cases h
    | ok signature =>
      rw [hs] at h
      obtain ⟨hemits, hmod⟩ := finishSigning_spec hK h
      have hpayload := (prepareSigningPayload_spec hp).2
      rw [← hmod] at hpayload
      rw [hpayload]
      exact ⟨signature, hs, hemits⟩

end

end

/-- Whoever made the signature: over the octets that the answer names, the
verifier accepts the artifact when it accepts the signature. -/
theorem verify_of_accepted {C : Crypto} {Ed25519 P256 Ed25519Key P256Key : Type}
    [Ed25519VerificationKey Ed25519] [P256VerificationKey P256] {K : Backend} (hK : K.Lawful)
    {req : SignRequest Ed25519Key P256Key} (hvalid : validateInvocation req = .ok ())
    {signature : Octets64} {s : SignSuccess}
    (hemits : Emits K req.outputForm.artifactForm (signedPayload req.payload s.modifiedPayload)
      (req.fields signature) s.artifact)
    {keys : PublicKeys Ed25519 P256} {options : VerifierOptions}
    (haccepted : Accepted C keys options (signedPayload req.payload s.modifiedPayload) signature
      req.algorithm) :
    verify C K s.artifact req.outputForm.artifactForm keys options =
      if options.algorithmParameters ≠ [] then some (.error .invalidAlgorithmParameters)
      else some (.ok (.verified (signedPayload req.payload s.modifiedPayload) req.algorithm)) := by
  have hkeyid : KeyidOk (req.fields signature).keyid := keyidOk_of_validated hvalid
  have hverdict : verdict C keys options
      (signedContent K req.outputForm.artifactForm s.artifact) =
        .ok (.verified (signedPayload req.payload s.modifiedPayload) req.algorithm) := by
    rw [verdict_emitted hK hemits, ofFields_of_keyidOk hkeyid]
    exact verdict_eq_verified_iff.mpr ⟨_, signature, rfl, rfl, rfl, rfl, haccepted⟩
  rw [verify_eq_verdict, hverdict]

/-! ## The signature -/

section
variable {C : SigningCrypto} {K : Backend}

/-- The public key of the signing key is in its slot. -/
def HoldsPublicKey (keys : PublicKeys C.Ed25519VerifyingKey C.P256VerifyingKey) :
    SigningKey C.Ed25519SigningKey C.P256SigningKey → Prop
  | .ed25519 sk => keys.ed25519 = some (C.ed25519PublicKey sk)
  | .ecdsaP256Sha256 sk => keys.p256 = some (C.p256PublicKey sk)

/-- The loop returns a signature made with one of the draws. -/
theorem signP256WithRng_spec {payload : Bytes} {sk : C.P256SigningKey} {draws : List C.Nonce}
    {signature : Octets64} (h : signP256WithRng C payload sk draws = .ok signature) :
    ∃ nonce ∈ draws, ∃ sig, C.signPrehashed sk nonce (C.sha256 payload) = some sig ∧
      signature = C.p256SignatureToBytes sig := by
  induction draws with
  | nil => cases h
  | cons nonce draws ih =>
    rw [signP256WithRng] at h
    cases hs : C.signPrehashed sk nonce (C.sha256 payload) with
    | some sig =>
      rw [hs] at h
      cases h
      exact ⟨nonce, List.mem_cons_self .., sig, hs, rfl⟩
    | none =>
      rw [hs] at h
      obtain ⟨nonce', hmem, hsig⟩ := ih h
      exact ⟨nonce', List.mem_cons_of_mem _ hmem, hsig⟩

/-- The matching public key accepts the signature that was made. -/
theorem accepted_of_signDigest (hC : C.Lawful) {draws : List C.Nonce} {payload : Bytes}
    {algorithm : AlgorithmId} {key : SigningKey C.Ed25519SigningKey C.P256SigningKey}
    {signature : Octets64} (h : signDigest C draws payload algorithm key = .ok signature)
    {keys : PublicKeys C.Ed25519VerifyingKey C.P256VerifyingKey} (hkeys : HoldsPublicKey keys key)
    {options : VerifierOptions} (henabled : options.enables algorithm = true) :
    Accepted C.toCrypto keys options payload signature algorithm := by
  cases algorithm with
  | ed25519 =>
    cases key with
    | ecdsaP256Sha256 sk => cases h
    | ed25519 sk =>
      cases h
      have hverified := ed25519_accepts hC sk payload
      obtain ⟨hcanonical, hadmissible⟩ := ed25519_canonical_of_verified hverified
      exact ⟨henabled, hcanonical, .ed25519 hkeys hadmissible hverified⟩
  | ecdsaP256Sha256 =>
    cases key with
    | ed25519 sk => cases h
    | ecdsaP256Sha256 sk =>
      obtain ⟨nonce, -, sig, hsig, hbytes⟩ := signP256WithRng_spec h
      have hverified := p256_accepts hC hsig
      rw [hbytes]
      exact ⟨henabled, p256_wellFormed_of_verified hverified, .p256 hkeys rfl hverified⟩

/-- Main result on signing: the artifact of a successful signature verifies
under the matching key, with the payload the signer's answer names. -/
theorem sign_then_verify (hC : C.Lawful) (hK : K.Lawful) {draws : List C.Nonce}
    {req : SignRequest C.Ed25519SigningKey C.P256SigningKey} {s : SignSuccess}
    (hsign : sign C K draws req = some (.success s))
    {keys : PublicKeys C.Ed25519VerifyingKey C.P256VerifyingKey}
    (hkeys : HoldsPublicKey keys req.key) {options : VerifierOptions}
    (henabled : options.enables req.algorithm = true) :
    verify C.toCrypto K s.artifact req.outputForm.artifactForm keys options =
      if options.algorithmParameters ≠ [] then some (.error .invalidAlgorithmParameters)
      else some (.ok (.verified
        (if s.modifiedPayload ≠ [] then s.modifiedPayload else req.payload) req.algorithm)) := by
  rw [sign, signInner] at hsign
  cases hvalid : validateInvocation req with
  | error e =>
    rw [hvalid] at hsign
    cases hsign
  | ok u =>
    rw [hvalid] at hsign
    obtain ⟨r, hr, hsign⟩ := Option.bind_eq_some_iff.mp hsign
    rw [expectOk_eq_some_iff.mp hsign] at hr
    obtain ⟨signature, hdigest, hemits⟩ := signAfterInvocationValidation_spec hK hr
    exact verify_of_accepted hK hvalid hemits (accepted_of_signDigest hC hdigest hkeys henabled)

end

namespace Reference

def letterKeys :
    PublicKeys letterCrypto.Ed25519VerifyingKey letterCrypto.P256VerifyingKey where
  ed25519 := some ()
  p256 := none

def letterRequest :
    SignRequest letterCrypto.Ed25519SigningKey letterCrypto.P256SigningKey where
  payload := [0x72]
  algorithm := .ed25519
  key := .ed25519 ()
  keyid := some "release-2026".toList
  appendMissingFinalNewline := true
  outputForm := .yaml
  algorithmParameters := []

theorem sign_letterRequest : sign letterCrypto Core.Reference.backend [] letterRequest =
    some (.success ⟨Verification.Reference.letterArtifact, [0x72, 0x0A]⟩) := by
  decide +kernel

end Reference

/-- A letter without its line feed, signed in the YAML form. -/
theorem sign_then_verify_letter :
    verify Reference.letterCrypto.toCrypto Core.Reference.backend
      Verification.Reference.letterArtifact .yaml Reference.letterKeys ⟨true, false, []⟩ =
        some (.ok (.verified [0x72, 0x0A] .ed25519)) := by
  have hkeys : HoldsPublicKey Reference.letterKeys Reference.letterRequest.key := rfl
  have henabled : VerifierOptions.enables ⟨true, false, []⟩ .ed25519 = true := rfl
  exact sign_then_verify Reference.letterCrypto_lawful Core.Reference.backend_lawful
    Reference.sign_letterRequest hkeys henabled

end Signing
end YamlSigil
