/-
The schema gate never changes a verdict.

What the verifier reads from a carrier meets the schema: an octet count bounds a
code point count, and a text that decodes is grouped as the pattern wants it.  So a
document that the gate refuses gives no metadata.
-/
import YamlSigil.Wasm.Verify

namespace YamlSigil
namespace Wasm

open Format YamlSigil.Core Transcription Verification

/-! ## Accepted documents -/

theorem keyid_of_keyidIsValid {keyid : Text} (h : keyidIsValid keyid = true) :
    keyid.length ≤ 1024 ∧ Regex.Matches keyidPattern keyid := by
  simp only [keyidIsValid, Bool.and_eq_true, decide_eq_true_eq, Bool.not_eq_true',
    List.contains_eq_mem, decide_eq_false_iff_not] at h
  obtain ⟨⟨⟨hpos, hle⟩, hcr⟩, hlf⟩ := h
  have hclass : ∀ c ∈ keyid, notLineBreak c = true := by
    intro c hc
    rw [notLineBreak, Bool.and_eq_true, bne_iff_ne, bne_iff_ne]
    exact ⟨fun h => hcr (h ▸ hc), fun h => hlf (h ▸ hc)⟩
  have hlen : keyid.length ≤ (asBytes keyid).length := Utf8.length_encode_ge keyid
  refine ⟨by omega, ?_⟩
  cases keyid with
  | nil => exact absurd hpos (by decide)
  | cons c t =>
    exact .seq (s := [c]) (.cls (hclass c (List.mem_cons_self ..)))
      (Regex.matches_star_cls fun d hd => hclass d (List.mem_cons_of_mem c hd))

/-- What the verifier accepts meets the schema. -/
theorem meetsSchema_of_ofDocument {S : Base64} (hS : S.Lawful) {doc : SignatureDocument}
    {f : SignatureFields} (hf : SignatureFields.ofDocument S doc = some f)
    (hk : KeyidOk f.keyid) : MeetsSchema doc := by
  have hdoc := (SignatureFields.ofDocument_eq_some_iff hS).mp hf
  subst hdoc
  exact ⟨rfl, ⟨f.alg, rfl⟩, fun k hmem => keyid_of_keyidIsValid (hk k hmem),
    matches_signaturePattern hS (hS.decode_encode f.signature)⟩

section
variable {K : Backend} {J : JsonSchema} (hB : K.base64.Lawful) (hJ : J.Implements)

theorem not_meetsSchema_of_error (hJ : J.Implements) {doc : SignatureDocument} {e : CoreError}
    (h : signatureDocumentValidatesTierASchema J doc = .error e) : ¬ MeetsSchema doc := by
  intro hmeets
  rw [signatureDocumentValidatesTierASchema,
    (hJ tierASchema doc.toValue).mpr (tierASchema_validates_iff.mpr hmeets)] at h
  cases h

include hB hJ

/-- A document the schema refuses gives no metadata. -/
theorem metadata_of_schema_error {carrier : Bytes} {doc : SignatureDocument} {e : CoreError}
    (hdoc : parseSignatureDocument K carrier = .ok doc)
    (h : signatureDocumentValidatesTierASchema J doc = .error e) :
    extractYamlMetadata K carrier = .error .metadataParseFailure := by
  have hnot := not_meetsSchema_of_error hJ h
  rw [extractYamlMetadata_eq, yamlFields, hdoc]
  simp only
  cases hf : SignatureFields.ofDocument K.base64 doc with
  | none => rfl
  | some f =>
    by_cases hk : KeyidOk f.keyid
    · exact absurd (meetsSchema_of_ofDocument hB hf hk) hnot
    · rw [metadataOf]
      exact if_neg hk

end

/-! ## The gate -/

section
variable {K : Backend} {J : JsonSchema}

theorem exists_of_schemaValidationRejects {artifact : Bytes} {form : ArtifactForm}
    (h : schemaValidationRejects K J artifact form = true) :
    form = .yaml ∧ ∃ p carrier doc e, components .yaml artifact = some (p, carrier) ∧
      parseSignatureDocument K carrier = .ok doc ∧
      signatureDocumentValidatesTierASchema J doc = .error e := by
  rw [schemaValidationRejects] at h
  by_cases hform : form ≠ .yaml
  · rw [if_pos hform] at h
    cases h
  rw [if_neg hform, decompose_yaml, decomposeYaml] at h
  refine ⟨not_not.mp hform, ?_⟩
  rw [components]
  cases hd : decomposeArtifact artifact with
  | unsigned =>
    rw [hd] at h
    cases h
  | malformed =>
    rw [hd] at h
    cases h
  | signed r =>
    rw [hd] at h
    have hok : ¬ (DecomposeOutcome.ok ≠ .ok) := not_not.mpr rfl
    simp only [if_neg hok] at h
    cases hdoc : parseSignatureDocument K (slice artifact r.signatureCarrier) with
    | error e =>
      rw [hdoc] at h
      cases h
    | ok doc =>
      simp only [hdoc] at h
      cases hv : signatureDocumentValidatesTierASchema J doc with
      | ok u =>
        rw [hv] at h
        cases h
      | error e => exact ⟨_, _, doc, e, rfl, hdoc, hv⟩

variable (hB : K.base64.Lawful) (hJ : J.Implements)

include hB hJ

theorem signedContent_of_schemaValidationRejects {artifact : Bytes} {form : ArtifactForm}
    (h : schemaValidationRejects K J artifact form = true) :
    signedContent K form artifact = none := by
  obtain ⟨hform, p, carrier, doc, e, hc, hdoc, hv⟩ := exists_of_schemaValidationRejects h
  subst hform
  have hnot := not_meetsSchema_of_error hJ hv
  rw [signedContent_of_components hc]
  show (yamlFields K carrier).bind _ = none
  rw [yamlFields, hdoc]
  simp only
  cases hf : SignatureFields.ofDocument K.base64 doc with
  | none => rfl
  | some f =>
    rw [Option.bind_some]
    exact ofFields_of_not_keyidOk fun hk => hnot (meetsSchema_of_ofDocument hB hf hk)

theorem verify_of_schemaValidationRejects {C : Crypto} {Ed25519 P256 : Type}
    [Ed25519VerificationKey Ed25519] [P256VerificationKey P256] {artifact : Bytes}
    {form : ArtifactForm} (h : schemaValidationRejects K J artifact form = true)
    (keys : PublicKeys Ed25519 P256) (options : VerifierOptions) :
    verify C K artifact form keys options =
      if options.algorithmParameters ≠ [] then some (.error .invalidAlgorithmParameters)
      else some (.ok .malformedAttemptedSigned) := by
  rw [verify_eq_verdict, signedContent_of_schemaValidationRejects hB hJ h]
  rfl

omit hB hJ in
theorem length_of_toVec {input : ByteInput} {bytes : Bytes} (h : input.toVec = .ok bytes) :
    bytes.length = input.length := by
  rw [ByteInput.toVec] at h
  cases hc : input.copied with
  | none =>
    rw [hc] at h
    cases h
  | some b =>
    rw [hc] at h
    cases h
    exact input.copied_length bytes hc

omit hB hJ in
theorem not_exceeded_of_withAdmittedInput {limits : ArtifactResourceLimits} {n : Nat}
    (h : withAdmittedInput limits n = .ok ()) : ¬ limits.Exceeded n := by
  intro hex
  obtain ⟨maximum, hmax, hlt⟩ := hex
  rw [withAdmittedInput, hmax, Option.any_some, if_pos (decide_eq_true hlt)] at h
  cases h

theorem verifyResolved_gate {C : KeyCrypto} {artifact : Bytes} {form : ArtifactForm}
    {keys : PublicKeys C.Ed25519VerifyingKey C.P256VerifyingKey} {options : VerifierOptions}
    {limits : Option ArtifactResourceLimits} (hparams : options.algorithmParameters = [])
    (hadmitted : ∀ l ∈ limits, withAdmittedInput l artifact.length = .ok ()) :
    verifyResolved K J C true artifact form keys options limits =
      verifyResolved K J C false artifact form keys options limits := by
  by_cases hrejects : schemaValidationRejects K J artifact form = true
  · have hverify := verify_of_schemaValidationRejects hB hJ (C := C.toCrypto) hrejects keys options
    rw [if_neg (not_not.mpr hparams)] at hverify
    have hungated : verifyResolved K J C false artifact form keys options limits =
        some (.state "malformed_attempted_signed".toList none) := by
      unfold verifyResolved
      rw [Bool.false_and, if_neg Bool.false_ne_true]
      cases limits with
      | none =>
        simp only [hverify, Option.bind_eq_bind, Option.bind_some]
        rfl
      | some l =>
        have hsize := ArtifactResourceLimits.checkInputSize_of_not_exceeded (resourceForm form)
          (not_exceeded_of_withAdmittedInput (hadmitted l rfl))
        simp only [verifyWithResourceLimits, hsize, hverify, Option.map_some, Option.bind_eq_bind,
          Option.bind_some]
        rfl
    rw [hungated]
    unfold verifyResolved
    rw [Bool.true_and, if_pos hrejects]
  · unfold verifyResolved
    rw [Bool.true_and, if_neg hrejects, Bool.false_and, if_neg Bool.false_ne_true]

theorem verifyImpl_gate (C : KeyCrypto) (artifact : Uint8Array)
    (formSelector algorithmSelector : Text) (verifyingKey : Uint8Array)
    (limits : Option ArtifactResourceLimits) :
    verifyImpl K J C true artifact formSelector algorithmSelector verifyingKey limits =
      verifyImpl K J C false artifact formSelector algorithmSelector verifyingKey limits := by
  unfold verifyImpl
  cases ByteInput.new artifact with
  | error e => rfl
  | ok artifact =>
    simp only
    cases hadmitted : limits.elim (.ok ()) fun limits =>
        withAdmittedInput limits artifact.length with
    | error e => rfl
    | ok u =>
      simp only
      cases artifactForm formSelector with
      | none => rfl
      | some form =>
        simp only
        cases algorithm algorithmSelector with
        | none => rfl
        | some selectedAlgorithm =>
          simp only
          cases ByteInput.new verifyingKey with
          | error e => rfl
          | ok verifyingKey =>
            simp only
            by_cases hlen : verifyingKey.length ≠ expectedKeyLength selectedAlgorithm
            · rw [if_pos hlen, if_pos hlen]
            rw [if_neg hlen, if_neg hlen]
            cases hvec : artifact.toVec with
            | error e => rfl
            | ok bytes =>
              simp only
              cases verifyingKey.toVec with
              | error e => rfl
              | ok keyBytes =>
                simp only
                cases resolveKeys C keyBytes selectedAlgorithm with
                | error e => rfl
                | ok keys =>
                  refine verifyResolved_gate hB hJ rfl fun l hl => ?_
                  rw [Option.mem_def.mp hl] at hadmitted
                  rw [length_of_toVec hvec]
                  exact hadmitted

/-- Main result on the schema gate: what it refuses the verifier finds malformed, so
a build with the gate answers as one without it. -/
theorem schema_gate_keeps_verdict :
    (∀ carrier doc e, parseSignatureDocument K carrier = .ok doc →
      signatureDocumentValidatesTierASchema J doc = .error e →
      extractYamlMetadata K carrier = .error .metadataParseFailure) ∧
    (∀ (C : KeyCrypto) artifact form
      (keys : PublicKeys C.Ed25519VerifyingKey C.P256VerifyingKey) (options : VerifierOptions),
      schemaValidationRejects K J artifact form = true →
        verify C.toCrypto K artifact form keys options =
          if options.algorithmParameters ≠ [] then some (.error .invalidAlgorithmParameters)
          else some (.ok .malformedAttemptedSigned)) ∧
    ∀ (C : KeyCrypto) artifact formSelector algorithmSelector verifyingKey limits,
      verifyImpl K J C true artifact formSelector algorithmSelector verifyingKey limits =
        verifyImpl K J C false artifact formSelector algorithmSelector verifyingKey limits := by
  exact ⟨fun carrier doc e hdoc h => metadata_of_schema_error hB hJ hdoc h,
    fun C artifact form keys options hrejects =>
      verify_of_schemaValidationRejects hB hJ hrejects keys options, verifyImpl_gate hB hJ⟩

end

/-- A view that stays attached. -/
def attached (bytes : Bytes) : Uint8Array :=
  some ⟨bytes.length, some bytes, fun _ h => by rw [Option.some.inj h]⟩

/-- A carrier whose signature has five letters, which the pattern does not match. -/
def ungroupedArtifact : Bytes :=
  asBytes ("a: 1\n---\nschema: YamlSigilSignature.v1alpha1\n" ++
    "alg: ED25519_PUREEDDSA_RAW_RS64_CANONICAL\nsignature: Zm9vY\n").toList

example : schemaValidationRejects Core.Reference.backend Core.Reference.jsonSchema ungroupedArtifact
    .yaml = true := by decide +kernel

theorem schema_gate_keeps_verdict_ungrouped :
    let verifyUngrouped := fun gate => verifyImpl Core.Reference.backend Core.Reference.jsonSchema
      Verification.Reference.keyCrypto gate (attached ungroupedArtifact) "yaml".toList ed25519Name
      (attached Verification.rfc8032Test1PublicKey) none
    verifyUngrouped true = verifyUngrouped false :=
  (schema_gate_keeps_verdict Core.Reference.base64_lawful Core.Reference.jsonSchema_implements).2.2
    Verification.Reference.keyCrypto _ _ _ _ none

end Wasm
end YamlSigil
