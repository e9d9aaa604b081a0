/-
Transcoding between the two forms.

Both directions decompose the artifact, read the signature fields from its
carrier and emit an artifact of the other form.  What is emitted, and when, is
stated once for each direction (`signedYamlStreamToProtoWire_eq_ok_iff` and
`protoWireToSignedYamlStream_eq_ok_iff`).
-/
import YamlSigil.Signing.Emission

namespace YamlSigil
namespace Signing

open Format YamlSigil.Core Transcription
open Verification

inductive TranscodeError where
  | notSignedYamlStream
  | payloadInvariant
  | invalidSignatureBase64
  | unknownYamlAlg
  | unsupportedWireAlg
  | schemaMismatch
  | core (e : CoreError)
  | yamlSerialize (detail : Text)
deriving Repr, DecidableEq

/-! ## The operations -/

/-- Payload and carrier of an answer of the transcriber. -/
def structuralComponents (response : DecomposeResponse) : Except TranscodeError (Bytes × Bytes) :=
  match response with
  | .invocation _ => .error .notSignedYamlStream
  | .structural structural =>
    if structural.outcome ≠ .ok then .error .notSignedYamlStream
    else
      match structural.payload, structural.signatureCarrier with
      | some payload, some carrier => .ok (payload, carrier)
      | _, _ => .error .notSignedYamlStream

def yamlDecompose (yamlArtifact : Bytes) : Except TranscodeError (Bytes × Bytes) :=
  structuralComponents (decompose ⟨yamlArtifact, .yaml, none⟩)

def protoDecompose (wire : Bytes) : Except TranscodeError (Bytes × Bytes) :=
  structuralComponents (decompose ⟨wire, .protobuf, some .signatureStrict⟩)

section
variable (K : Backend)

def yamlToProtoComponents (yamlArtifact : Bytes) :
    Run (Except TranscodeError (Bytes × Bytes)) :=
  match yamlDecompose yamlArtifact with
  | .error e => some (.error e)
  | .ok (payload, carrier) =>
    match validatePayloadStream payload with
    | .error _ => some (.error .payloadInvariant)
    | .ok () =>
      match parseSignatureDocument K carrier with
      | .error e => some (.error (.core e))
      | .ok doc =>
        match doc.validateSchema with
        | .error _ => some (.error .schemaMismatch)
        | .ok () =>
          match K.base64.decode doc.signature with
          | none => some (.error .invalidSignatureBase64)
          | some sigOctets =>
            match AlgorithmId.fromYamlStr doc.alg with
            | none => some (.error .unknownYamlAlg)
            | some algId => do
              let innerCarrier ←
                encodeInnerSignatureCarrier K.buffa algId sigOctets doc.keyid
              some (.ok (payload, innerCarrier))

/-- Convert a signed YAML artifact into protobuf wire octets. -/
def signedYamlStreamToProtoWire (yamlArtifact : Bytes) : Run (Except TranscodeError Bytes) := do
  match ← yamlToProtoComponents K yamlArtifact with
  | .error e => some (.error e)
  | .ok (payload, innerCarrier) => do
    let wire ← composeProtoOuter payload innerCarrier
    some (.ok wire)

def protoToYamlComponents (wire : Bytes) : Except TranscodeError (Bytes × Text) :=
  match protoDecompose wire with
  | .error e => .error e
  | .ok (payload, carrier) =>
    match validatePayloadStream payload with
    | .error _ => .error .payloadInvariant
    | .ok () =>
      match viewSignatureCarrier K.buffa carrier with
      | .error e => .error (.core e)
      | .ok view =>
        match AlgorithmId.fromI32 view.algWire with
        | none => .error .unsupportedWireAlg
        | some alg =>
          let doc : SignatureDocument := {
            schema := schemaV1alpha1
            alg := alg.asYamlStr
            keyid := view.keyid
            signature := K.base64.encode view.signature }
          match serializeSignatureDocument K doc with
          | .error e => .error (.yamlSerialize e.toText)
          | .ok body => .ok (payload, if ['\n'].isSuffixOf body then body else body ++ ['\n'])

/-- Convert protobuf wire octets into a signed YAML artifact. -/
def protoWireToSignedYamlStream (wire : Bytes) : Run (Except TranscodeError Bytes) :=
  match protoToYamlComponents K wire with
  | .error e => some (.error e)
  | .ok (payload, body) => do
    match ← compose ⟨payload, asBytes body, .yaml⟩ with
    | .success s => some (.ok s.artifact)
    | .invocation _ | .error _ => some (.error .notSignedYamlStream)

end

/-! ## Decomposition -/

theorem yamlDecompose_eq_ok_iff {a p c : Bytes} :
    yamlDecompose a = .ok (p, c) ↔ components .yaml a = some (p, c) := by
  rw [yamlDecompose, components, decompose_yaml, decomposeYaml]
  cases decomposeArtifact a with
  | unsigned => exact ⟨fun h => (by cases h), fun h => (by cases h)⟩
  | malformed => exact ⟨fun h => (by cases h), fun h => (by cases h)⟩
  | signed r =>
    show Except.ok (slice a r.payload, slice a r.signatureCarrier) = .ok (p, c) ↔ _
    rw [Except.ok.injEq, Option.some.injEq]

theorem protoDecompose_eq_ok_iff {w p c : Bytes} :
    protoDecompose w = .ok (p, c) ↔ components .proto w = some (p, c) := by
  rw [protoDecompose, components, decompose_protobuf, decomposeProto]
  cases decomposeProtoOuter w .signatureStrict with
  | malformed => exact ⟨fun h => (by cases h), fun h => (by cases h)⟩
  | ok p' c' =>
    show Except.ok (p', c') = .ok (p, c) ↔ _
    rw [Except.ok.injEq, Option.some.injEq]

/-- The payload of a YAML artifact is a payload stream. -/
theorem payloadStream_of_components {a p c : Bytes} (h : components .yaml a = some (p, c)) :
    PayloadStream p := by
  cases components_eq_some_iff.mp h with
  | yaml hclean hm hc =>
    obtain ⟨v, -, hp, -⟩ := exists_envelope hclean hm hc
    rw [← hp]
    exact v.payload_stream

/-! ## From YAML to protobuf -/

section
variable {K : Backend} (hK : K.Lawful)

include hK

theorem yamlToProtoComponents_eq_ok_iff {a p c : Bytes} :
    yamlToProtoComponents K a = some (.ok (p, c)) ↔
      ∃ carrier f, components .yaml a = some (p, carrier) ∧ yamlFields K carrier = some f ∧
        encodeInnerSignatureCarrier K.buffa f.alg f.signature f.keyid = some c := by
  rw [yamlToProtoComponents]
  constructor
  · intro h
    cases hd : yamlDecompose a with
    | error e =>
      rw [hd] at h
      cases h
    | ok parts =>
      obtain ⟨payload, carrier⟩ := parts
      have hcomp := yamlDecompose_eq_ok_iff.mp hd
      have hvalid := validatePayloadStream_eq_ok_iff.mpr (payloadStream_of_components hcomp)
      simp only [hd, hvalid] at h
      cases hdoc : parseSignatureDocument K carrier with
      | error e =>
        rw [hdoc] at h
        cases h
      | ok doc =>
        simp only [hdoc] at h
        by_cases hschema : doc.schema = schemaV1alpha1
        · have hok : doc.validateSchema = .ok () := if_neg (not_not.mpr hschema)
          simp only [hok] at h
          cases hsig : K.base64.decode doc.signature with
          | none =>
            rw [hsig] at h
            cases h
          | some octets =>
            simp only [hsig] at h
            cases halg : AlgorithmId.fromYamlStr doc.alg with
            | none =>
              rw [halg] at h
              cases h
            | some alg =>
              simp only [halg] at h
              obtain ⟨inner, hinner, h⟩ := Option.bind_eq_some_iff.mp h
              cases h
              have hsays := CarrierSays.yaml hdoc hschema halg hsig
              exact ⟨carrier, _, hcomp, carrierFields_eq_some_iff.mpr hsays, hinner⟩
        · have herr : doc.validateSchema = .error .schemaMismatch := if_pos hschema
          rw [herr] at h
          cases h
  · intro h
    rcases h with ⟨carrier, f, hcomp, hf, hc⟩
    have hvalid := validatePayloadStream_eq_ok_iff.mpr (payloadStream_of_components hcomp)
    have hdoc := (yamlFields_eq_some_iff hK).mp hf
    have hschema : (f.toDocument K.base64).validateSchema = .ok () := if_neg (not_not.mpr rfl)
    have hsig : K.base64.decode (f.toDocument K.base64).signature = some f.signature :=
      hK.base64.decode_encode f.signature
    have halg : AlgorithmId.fromYamlStr (f.toDocument K.base64).alg = some f.alg :=
      AlgorithmId.fromYamlStr_asYamlStr f.alg
    have hc : encodeInnerSignatureCarrier K.buffa f.alg f.signature (f.toDocument K.base64).keyid =
      some c := hc
    simp only [yamlDecompose_eq_ok_iff.mpr hcomp, hvalid, hdoc, hschema, hsig, halg, hc]
    rfl

/-- YAML to protobuf: the fields are read, and emitted again. -/
theorem signedYamlStreamToProtoWire_eq_ok_iff {a w : Bytes} :
    signedYamlStreamToProtoWire K a = some (.ok w) ↔
      ∃ p carrier f, components .yaml a = some (p, carrier) ∧ yamlFields K carrier = some f ∧
        Emits K .proto p f w := by
  rw [signedYamlStreamToProtoWire]
  constructor
  · intro h
    obtain ⟨r, hr, h⟩ := Option.bind_eq_some_iff.mp h
    cases r with
    | error e => cases h
    | ok parts =>
      obtain ⟨p, c⟩ := parts
      obtain ⟨carrier, f, hcomp, hf, hc⟩ := (yamlToProtoComponents_eq_ok_iff hK).mp hr
      obtain ⟨wire, hw, h⟩ := Option.bind_eq_some_iff.mp h
      cases h
      exact ⟨p, carrier, f, hcomp, hf, .proto hc hw⟩
  · intro h
    rcases h with ⟨p, carrier, f, hcomp, hf, hemits⟩
    cases hemits with
    | proto hc hw =>
      rw [(yamlToProtoComponents_eq_ok_iff hK).mpr ⟨carrier, f, hcomp, hf, hc⟩]
      simp only [Option.bind_eq_bind, Option.bind_some, hw]

end

/-! ## From protobuf to YAML -/

section
variable {K : Backend} (hK : K.Lawful)

include hK

theorem serialize_view (f : SignatureFields) (p : Bytes) :
    (match serializeSignatureDocument K (f.toDocument K.base64) with
      | .error e => Except.error (TranscodeError.yamlSerialize e.toText)
      | .ok body => .ok (p, if ['\n'].isSuffixOf body then body else body ++ ['\n'])) =
        .ok (p, f.yamlText K) := by
  rw [SignatureFields.serialize_toDocument hK.base64 f]
  exact congrArg (fun body => Except.ok (p, body)) (terminated_yamlText K f)

theorem protoToYamlComponents_eq_ok_iff {w p : Bytes} {body : Text} :
    protoToYamlComponents K w = .ok (p, body) ↔
      ∃ carrier f, components .proto w = some (p, carrier) ∧ PayloadStream p ∧
        protoFields K carrier = some f ∧ body = f.yamlText K := by
  rw [protoToYamlComponents]
  cases hd : protoDecompose w with
  | error e =>
    refine ⟨fun h => (by cases h), fun h => ?_⟩
    rcases h with ⟨carrier, f, hcomp, _⟩
    rw [protoDecompose_eq_ok_iff.mpr hcomp] at hd
    cases hd
  | ok parts =>
    obtain ⟨payload, carrier⟩ := parts
    have hcomp := protoDecompose_eq_ok_iff.mp hd
    simp only
    constructor
    · intro h
      cases hvalid : validatePayloadStream payload with
      | error e =>
        rw [hvalid] at h
        cases h
      | ok u =>
        simp only [hvalid] at h
        cases hview : viewSignatureCarrier K.buffa carrier with
        | error e =>
          rw [hview] at h
          cases h
        | ok view =>
          simp only [hview] at h
          cases halg : AlgorithmId.fromI32 view.algWire with
          | none =>
            rw [halg] at h
            cases h
          | some alg =>
            simp only [halg] at h
            have hser := h.symm.trans
              (serialize_view hK ⟨alg, view.keyid, view.signature⟩ payload)
            cases hser
            exact ⟨carrier, _, hcomp, validatePayloadStream_eq_ok_iff.mp hvalid,
              carrierFields_eq_some_iff.mpr (.proto hview halg), rfl⟩
    · intro h
      rcases h with ⟨carrier', f, hcomp', hp, hf, hbody⟩
      rw [hcomp] at hcomp'
      cases hcomp'
      subst hbody
      cases carrierFields_eq_some_iff.mp (show carrierFields K .proto carrier = some f from hf) with
      | proto hview halg =>
        simp only [validatePayloadStream_eq_ok_iff.mpr hp, hview, halg]
        exact serialize_view hK ⟨_, _, _⟩ _

/-- Protobuf to YAML: the fields are read, and emitted again. -/
theorem protoWireToSignedYamlStream_eq_ok_iff {w y : Bytes} :
    protoWireToSignedYamlStream K w = some (.ok y) ↔
      ∃ p carrier f, components .proto w = some (p, carrier) ∧ protoFields K carrier = some f ∧
        Emits K .yaml p f y := by
  rw [protoWireToSignedYamlStream]
  constructor
  · intro h
    cases hr : protoToYamlComponents K w with
    | error e =>
      rw [hr] at h
      cases h
    | ok parts =>
      obtain ⟨p, body⟩ := parts
      rw [hr] at h
      obtain ⟨carrier, f, hcomp, -, hf, hbody⟩ := (protoToYamlComponents_eq_ok_iff hK).mp hr
      obtain ⟨outcome, hc, h⟩ := Option.bind_eq_some_iff.mp h
      cases outcome with
      | success s =>
        obtain ⟨hp, -, hs⟩ := composeYaml_eq_success_iff.mp hc
        cases h
        subst hs hbody
        exact ⟨p, carrier, f, hcomp, hf, .yaml hp⟩
      | error e => cases h
      | invocation e => cases h
  · intro h
    rcases h with ⟨p, carrier, f, hcomp, hf, hemits⟩
    cases hemits with
    | yaml hp =>
      rw [(protoToYamlComponents_eq_ok_iff hK).mpr ⟨carrier, f, hcomp, hp, hf, rfl⟩]
      simp only
      rw [composeYaml_eq_success_iff.mpr ⟨hp, not_hasMarker_yamlText hK.base64 f, rfl⟩]
      rfl

end

end Signing
end YamlSigil
