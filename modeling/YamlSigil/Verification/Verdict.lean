/-
What the verifier decides, and from what.

Both forms of an artifact say the same kind of thing, a payload and signature
fields with an acceptable key identifier: `SignedContent`.  The verifier is a
function of what the artifact says (`verify_eq_verdict`), so two artifacts that
say the same get the same verdict, and the payload it returns is the payload it
checked.
-/
import YamlSigil.Transcription.YamlEnvelope
import YamlSigil.Verification.Verifier

namespace YamlSigil
namespace Verification

open Format YamlSigil.Core Transcription
open Pb (OuterConformance)

/-! ## What an artifact says -/

def KeyidOk (keyid : Option Text) : Prop := ∀ k ∈ keyid, keyidIsValid k = true

theorem not_any_keyid_iff {keyid : Option Text} :
    ¬ (keyid.any fun k => !keyidIsValid k) = true ↔ KeyidOk keyid := by
  cases keyid with
  | none => exact ⟨fun _ k hk => (by cases hk), fun _ h => (by cases h)⟩
  | some k =>
    show ¬ (!keyidIsValid k) = true ↔ ∀ k' ∈ some k, keyidIsValid k' = true
    rw [Bool.not_eq_true', Bool.not_eq_false]
    constructor
    · intro h k' hk'
      rw [← Option.some.inj hk']
      exact h
    · intro h
      exact h k rfl

instance (keyid : Option Text) : Decidable (KeyidOk keyid) :=
  decidable_of_iff _ not_any_keyid_iff

structure SignedContent where
  payload : Bytes
  fields : SignatureFields
  keyid_ok : KeyidOk fields.keyid

/-- The payload and the carrier. -/
def components (form : ArtifactForm) (bytes : Bytes) : Option (Bytes × Bytes) :=
  match form with
  | .yaml =>
    match decomposeArtifact bytes with
    | .signed r => some (slice bytes r.payload, slice bytes r.signatureCarrier)
    | .unsigned | .malformed => none
  | .proto =>
    match decomposeProtoOuter bytes .signatureStrict with
    | .ok payload carrier => some (payload, carrier)
    | .malformed => none

section
variable (K : Backend)

def yamlFields (carrier : Bytes) : Option SignatureFields :=
  match parseSignatureDocument K carrier with
  | .ok doc => SignatureFields.ofDocument K.base64 doc
  | .error _ => none

def protoFields (carrier : Bytes) : Option SignatureFields :=
  match viewSignatureCarrier K.buffa carrier with
  | .ok v => (AlgorithmId.fromI32 v.algWire).map fun alg => ⟨alg, v.keyid, v.signature⟩
  | .error _ => none

def carrierFields (form : ArtifactForm) (carrier : Bytes) : Option SignatureFields :=
  match form with
  | .yaml => yamlFields K carrier
  | .proto => protoFields K carrier

def SignedContent.ofFields (payload : Bytes) (fields : SignatureFields) : Option SignedContent :=
  if h : KeyidOk fields.keyid then some ⟨payload, fields, h⟩ else none

def signedContent (form : ArtifactForm) (bytes : Bytes) : Option SignedContent := do
  let (payload, carrier) ← components form bytes
  let fields ← carrierFields K form carrier
  SignedContent.ofFields payload fields

end

theorem signedContent_of_components {K : Backend} {form : ArtifactForm} {a p c : Bytes}
    (h : components form a = some (p, c)) :
    signedContent K form a = (carrierFields K form c).bind fun f => SignedContent.ofFields p f := by
  rw [signedContent, h]
  rfl

/-- The response that hands content on. -/
def SignedContent.response (form : ArtifactForm) (s : SignedContent) : PreVerifyResponse where
  outcome := .ok
  form := form
  unverifiedPayloadBytes := some s.payload
  unverifiedSignature := some ⟨s.fields.alg, s.fields.keyid, s.fields.signature⟩
  parserObservations := []

theorem ofFields_of_keyidOk {p : Bytes} {f : SignatureFields} (h : KeyidOk f.keyid) :
    SignedContent.ofFields p f = some ⟨p, f, h⟩ := dif_pos h

theorem ofFields_of_not_keyidOk {p : Bytes} {f : SignatureFields} (h : ¬ KeyidOk f.keyid) :
    SignedContent.ofFields p f = none := dif_neg h

/-! ## Metadata -/

/-- What metadata extraction returns for the fields it reads. -/
def metadataOf (f : Option SignatureFields) : Except PreVerifyOutcome UnverifiedSignature :=
  match f with
  | none => .error .metadataParseFailure
  | some f =>
    if KeyidOk f.keyid then .ok ⟨f.alg, f.keyid, f.signature⟩ else .error .metadataParseFailure

theorem extractYamlMetadata_eq (K : Backend) (carrier : Bytes) :
    extractYamlMetadata K carrier = metadataOf (yamlFields K carrier) := by
  rw [extractYamlMetadata, yamlFields]
  cases parseSignatureDocument K carrier with
  | error e => rfl
  | ok doc =>
    simp only
    rw [SignatureDocument.validateSchema, SignatureFields.ofDocument]
    by_cases hschema : doc.schema = schemaV1alpha1
    · rw [if_neg (not_not.mpr hschema), if_pos hschema]
      simp only
      cases AlgorithmId.fromYamlStr doc.alg with
      | none => rfl
      | some alg =>
        simp only [Option.bind_eq_bind, Option.bind_some]
        by_cases hk : KeyidOk doc.keyid
        · rw [if_neg (not_any_keyid_iff.mpr hk)]
          cases K.base64.decode doc.signature with
          | none => rfl
          | some octets => exact (if_pos hk).symm
        · rw [if_pos (not_not.mp fun h => hk (not_any_keyid_iff.mp h))]
          cases K.base64.decode doc.signature with
          | none => rfl
          | some octets => exact (if_neg hk).symm
    · rw [if_pos hschema, if_neg hschema]
      rfl

theorem wireValue_pos (a : AlgorithmId) : ¬ a.wireValue ≤ 0 := by
  cases a <;> decide

theorem extractProtoMetadata_eq (K : Backend) (carrier : Bytes) :
    extractProtoMetadata K carrier = metadataOf (protoFields K carrier) := by
  rw [extractProtoMetadata, protoFields]
  cases viewSignatureCarrier K.buffa carrier with
  | error e => rfl
  | ok v =>
    simp only
    cases halg : AlgorithmId.fromI32 v.algWire with
    | none =>
      by_cases hpos : v.algWire ≤ 0
      · rw [if_pos hpos]
        rfl
      · rw [if_neg hpos]
        rfl
    | some alg =>
      have hpos : ¬ v.algWire ≤ 0 := by
        rw [AlgorithmId.wireValue_of_fromI32 halg]
        exact wireValue_pos alg
      rw [if_neg hpos]
      simp only
      by_cases hk : KeyidOk v.keyid
      · rw [if_neg (not_any_keyid_iff.mpr hk)]
        exact (if_pos hk).symm
      · rw [if_pos (not_not.mp fun h => hk (not_any_keyid_iff.mp h))]
        exact (if_neg hk).symm

/-! ## Pre-verification reads the content -/

/-- Pre-verification hands the content on, or rejects with an outcome that is
final. -/
inductive PreVerifies (form : ArtifactForm) : Option SignedContent → Run PreVerifyResponse → Prop
  | content (s : SignedContent) : PreVerifies form (some s) (some (s.response form))
  | structural : PreVerifies form none (some (.reject .structuralFailure form))
  | metadata : PreVerifies form none (some (.reject .metadataParseFailure form))

theorem preVerifies_metadataOf {form : ArtifactForm} (p : Bytes) (f : Option SignatureFields) :
    PreVerifies form (f.bind fun f => SignedContent.ofFields p f)
      (match metadataOf f with
        | .ok sig => some {
            outcome := .ok
            form := form
            unverifiedPayloadBytes := some p
            unverifiedSignature := some sig
            parserObservations := [] }
        | .error o => some (.reject o form)) := by
  cases f with
  | none => exact .metadata
  | some f =>
    rw [Option.bind_some, metadataOf]
    by_cases hk : KeyidOk f.keyid
    · simp only [hk, if_true]
      rw [ofFields_of_keyidOk hk]
      exact .content ⟨p, f, hk⟩
    · simp only [hk, if_false]
      rw [ofFields_of_not_keyidOk hk]
      exact .metadata

theorem preVerifyYaml_spec (K : Backend) (artifact : Bytes) :
    PreVerifies .yaml (signedContent K .yaml artifact) (preVerifyYaml K artifact false) := by
  rw [preVerifyYaml, signedContent, components, decompose_yaml]
  cases hd : decomposeArtifact artifact with
  | unsigned =>
    rw [decomposeYaml, hd]
    exact .structural
  | malformed =>
    rw [decomposeYaml, hd]
    exact .structural
  | signed r =>
    have hok : decomposeYaml artifact = .structural ⟨.ok, some (slice artifact r.payload),
        some (slice artifact r.signatureCarrier), none⟩ := by
      rw [decomposeYaml, hd]
    obtain ⟨v, -, hp, hc⟩ := decomposeYaml_eq_ok_iff.mp hok
    -- the payload of an envelope passes the check it is put through again
    have hvalid : validatePayloadStream (slice artifact r.payload) = .ok () := by
      rw [← hp]
      exact validatePayloadStream_eq_ok_iff.mpr v.payload_stream
    rw [hok]
    simp only [preverifyOutcomeFromDecompose, ne_eq, not_true_eq_false, if_false,
      Option.bind_eq_bind, Option.bind_some, expect_some, hvalid]
    rw [extractYamlMetadata_eq]
    exact preVerifies_metadataOf (slice artifact r.payload)
      (yamlFields K (slice artifact r.signatureCarrier))

theorem preVerifyProto_spec (K : Backend) (wire : Bytes) :
    PreVerifies .proto (signedContent K .proto wire) (preVerifyProto K wire) := by
  rw [preVerifyProto, signedContent, components, decompose_protobuf, decomposeProto,
    defaultOuterConformance]
  cases decomposeProtoOuter wire .signatureStrict with
  | malformed => exact .structural
  | ok p c =>
    simp only [ne_eq, not_true_eq_false, if_false, Option.bind_eq_bind, Option.bind_some,
      expect_some]
    rw [extractProtoMetadata_eq]
    exact preVerifies_metadataOf p (protoFields K c)

/-! ## The check on 64 octets -/

section
variable (C : Crypto) {Ed25519 P256 : Type} [Ed25519VerificationKey Ed25519]
  [P256VerificationKey P256]

/-- The signature check, from the enabled test on. -/
def checkOctets64 (payload : Bytes) (signature : Octets64) (keys : PublicKeys Ed25519 P256)
    (options : VerifierOptions) : AlgorithmId → Except InvocationError VerifierState
  | .ed25519 =>
    if !options.verifyEd25519 then .ok (.signedButAlgorithmUnsupported .ed25519)
    else if !ed25519SignatureIsCanonical C signature then .ok .malformedAttemptedSigned
    else
      match keys.ed25519 with
      | none => .error .keyResolutionFailure
      | some vk =>
        if !Ed25519VerificationKey.isAdmissible vk then .error .keyResolutionFailure
        else verificationStateFromOutcome
          (Ed25519VerificationKey.verifySignature vk payload signature) payload .ed25519
  | .ecdsaP256Sha256 =>
    if !options.verifyEcdsaP256Sha256 then .ok (.signedButAlgorithmUnsupported .ecdsaP256Sha256)
    else
      match keys.p256 with
      | none => .error .keyResolutionFailure
      | some vk =>
        if !ecdsaP256SignatureIsWellFormed C signature then .ok .malformedAttemptedSigned
        else if !P256VerificationKey.isAdmissible vk then .error .keyResolutionFailure
        else verificationStateFromOutcome
          (P256VerificationKey.verifySignature vk payload signature) payload .ecdsaP256Sha256

/-- The verdict on what an artifact says. -/
def verdict (keys : PublicKeys Ed25519 P256) (options : VerifierOptions)
    (content : Option SignedContent) : Except InvocationError VerifierState :=
  match content with
  | none => .ok .malformedAttemptedSigned
  | some s =>
    match octets64 s.fields.signature with
    | none => .ok .malformedAttemptedSigned
    | some signature => checkOctets64 C s.payload signature keys options s.fields.alg

variable {C} {keys : PublicKeys Ed25519 P256} {options : VerifierOptions}

theorem verifyExtractedSignature_of_length_ne {sig : Bytes} (h : sig.length ≠ 64) (payload : Bytes)
    (alg : AlgorithmId) : verifyExtractedSignature C payload alg.wireValue sig keys options =
      some (.ok .malformedAttemptedSigned) := by
  rw [verifyExtractedSignature, prepareSignatureVerification, if_neg (wireValue_pos alg),
    AlgorithmId.fromI32_wireValue]
  simp only
  by_cases he : sig.isEmpty = true
  · rw [if_pos he]
    rfl
  · rw [if_neg he, if_pos h]
    rfl

theorem verifyExtractedSignature_octets64 (payload : Bytes) (alg : AlgorithmId) (s : Octets64) :
    verifyExtractedSignature C payload alg.wireValue s keys options =
      some (checkOctets64 C payload s keys options alg) := by
  have hne : ¬ s.val.isEmpty = true := by
    rw [List.isEmpty_iff]
    intro hnil
    have := s.property
    rw [hnil] at this
    exact absurd this (by decide)
  rw [verifyExtractedSignature, prepareSignatureVerification, if_neg (wireValue_pos alg),
    AlgorithmId.fromI32_wireValue]
  simp only
  rw [if_neg hne, if_neg (not_not.mpr s.property), octets64_val]
  cases alg with
  | ed25519 =>
    rw [checkOctets64]
    simp only
    by_cases he : (!options.verifyEd25519) = true
    · rw [if_pos he, if_pos he]
      rfl
    · rw [if_neg he, if_neg he]
      by_cases hc : (!ed25519SignatureIsCanonical C s.val) = true
      · rw [if_pos hc, if_pos hc]
        rfl
      · rw [if_neg hc, if_neg hc]
        cases keys.ed25519 with
        | none => rfl
        | some vk =>
          simp only
          by_cases ha : (!Ed25519VerificationKey.isAdmissible vk) = true
          · rw [if_pos ha, if_pos ha]
            rfl
          · rw [if_neg ha, if_neg ha]
            rfl
  | ecdsaP256Sha256 =>
    rw [checkOctets64]
    simp only
    by_cases he : (!options.verifyEcdsaP256Sha256) = true
    · rw [if_pos he, if_pos he]
      rfl
    · rw [if_neg he, if_neg he]
      cases keys.p256 with
      | none => rfl
      | some vk =>
        simp only
        by_cases hc : (!ecdsaP256SignatureIsWellFormed C s.val) = true
        · rw [if_pos hc, if_pos hc]
          rfl
        · rw [if_neg hc, if_neg hc]
          by_cases ha : (!P256VerificationKey.isAdmissible vk) = true
          · rw [if_pos ha, if_pos ha]
            rfl
          · rw [if_neg ha, if_neg ha]
            rfl

theorem verifyExtractedSignature_eq_verdict (s : SignedContent) :
    verifyExtractedSignature C s.payload s.fields.alg.wireValue s.fields.signature keys options =
      some (verdict C keys options (some s)) := by
  rw [verdict]
  cases ho : octets64 s.fields.signature with
  | none =>
    have hlen : s.fields.signature.length ≠ 64 := fun h => by
      rw [octets64, dif_pos h] at ho
      cases ho
    exact verifyExtractedSignature_of_length_ne hlen s.payload s.fields.alg
  | some o =>
    rw [octets64_eq_some_iff.mp ho]
    exact verifyExtractedSignature_octets64 s.payload s.fields.alg o

theorem stateFromPreVerify_spec {form : ArtifactForm} {content : Option SignedContent}
    {pre : Run PreVerifyResponse} (h : PreVerifies form content pre) :
    (pre.bind fun pre => stateFromPreVerify pre (verifyFromPreVerify C form · keys options)) =
      some (verdict C keys options content) := by
  cases h with
  | content s =>
    rw [Option.bind_some]
    show verifyFromPreVerify C form (s.response form) keys options = _
    have hgo : ¬ ((s.response form).form ≠ form ∨ (s.response form).outcome ≠ .ok) :=
      not_or.mpr ⟨not_not.mpr rfl, not_not.mpr rfl⟩
    rw [verifyFromPreVerify, if_neg hgo]
    exact verifyExtractedSignature_eq_verdict s
  | structural => rfl
  | metadata => rfl

/-- The verifier does not panic, and its result is the verdict on what the
artifact says. -/
theorem verify_eq_verdict (K : Backend) (bytes : Bytes) (form : ArtifactForm) :
    verify C K bytes form keys options =
      if options.algorithmParameters ≠ [] then some (.error .invalidAlgorithmParameters)
      else some (verdict C keys options (signedContent K form bytes)) := by
  have hform : ¬ form ∉ supportedForms := by
    cases form <;> decide
  rw [verify, verifyWithMetadata, if_neg hform]
  by_cases hp : options.algorithmParameters ≠ []
  · rw [if_pos hp, if_pos hp]
    rfl
  · rw [if_neg hp, if_neg hp]
    cases form with
    | yaml =>
      have hs : _ = some (verdict C keys options _) :=
        stateFromPreVerify_spec (preVerifyYaml_spec K bytes)
      obtain ⟨pre, hpre, hs⟩ := Option.bind_eq_some_iff.mp hs
      simp only [verifyYaml, hpre, Option.bind_eq_bind, Option.bind_some]
      rw [show stateFromPreVerify pre (verifyFromPreVerifyYaml C · keys options) = _ from hs]
      cases verdict C keys options (signedContent K .yaml bytes) with
      | error e => rfl
      | ok state => rfl
    | proto =>
      have hs : _ = some (verdict C keys options _) :=
        stateFromPreVerify_spec (preVerifyProto_spec K bytes)
      obtain ⟨pre, hpre, hs⟩ := Option.bind_eq_some_iff.mp hs
      simp only [verifyProto, hpre, Option.bind_eq_bind, Option.bind_some]
      rw [show stateFromPreVerify pre (verifyFromPreVerifyProto C · keys options) = _ from hs]
      cases verdict C keys options (signedContent K .proto bytes) with
      | error e => rfl
      | ok state => rfl

end

end Verification
end YamlSigil
