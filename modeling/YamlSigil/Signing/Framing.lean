/-
The octets that are signed are the octets that are framed.

Behind the signature nothing can fail any more: the payload has passed the check
that the composer repeats, the carrier is emitted for any fields and holds no
marker line, and a carrier of an acceptable key identifier and 64 octets fits
every message.
-/
import YamlSigil.Signing.Independence
import YamlSigil.Signing.TranscodeRoundTrip

namespace YamlSigil
namespace Signing

open YamlSigil.Core Transcription
open Verification (Octets64 keyidIsValid KeyidOk)

/-- A payload that is prepared for YAML output. -/
structure YamlPrepared {Ed25519 P256 : Type} (req : SignRequest Ed25519 P256)
    (prepared : PreparedSigningPayload) : Prop where
  payload : prepared.payload = req.payload ∨
    (prepared.payload = req.payload ++ [0x0A] ∧ req.payload ≠ [] ∧ ¬ [0x0A] <:+ req.payload ∧
      req.appendMissingFinalNewline = true)
  valid : validatePayloadStream prepared.payload = .ok ()
  modified : prepared.modifiedPayload = [] ↔ prepared.payload = req.payload

section
variable {Ed25519 P256 : Type} {req : SignRequest Ed25519 P256} {prepared : PreparedSigningPayload}

theorem yamlPrepared_of_prepared (hyaml : req.outputForm = .yaml)
    (h : prepareSigningPayload req = .ok prepared) : YamlPrepared req prepared := by
  obtain ⟨hn, hv, hmodified⟩ := prepareSigningPayload_yaml hyaml h
  have hcases := normalizeYamlPayload_cases hn
  refine ⟨hcases, hv, ?_⟩
  rw [hmodified]
  by_cases heq : req.payload = prepared.payload
  · rw [if_pos heq]
    exact ⟨fun _ => heq.symm, fun _ => rfl⟩
  · rw [if_neg heq]
    refine ⟨fun hnil => ?_, fun h => absurd h.symm heq⟩
    rcases hcases with hsame | ⟨happended, -⟩
    · exact hsame
    · rw [hnil] at happended
      exact absurd happended (by simp)

section
variable {K : Backend} (hK : K.Lawful) {signPayload : Bytes → Except SignError Octets64}
  {signature : Octets64}

include hK

/-- With a signature at hand the YAML form is emitted. -/
theorem emitYamlArtifact_framed (req : SignRequest Ed25519 P256) {payload : Bytes}
    (hp : PayloadStream payload) (sigBytes : Bytes) :
    ∃ artifact carrier, emitYamlArtifact K payload req sigBytes = some (.ok artifact) ∧
      LastMarker artifact payload .lf carrier := by
  rcases emitYamlArtifact_cases req hK payload sigBytes with ⟨-, hemit⟩ | ⟨hno, -⟩
  · exact ⟨_, _, hemit,
      (MarkerAt.mk rfl hp.terminated).last_iff.mpr (not_hasMarker_yamlText hK.base64 _)⟩
  · exact absurd hp hno

omit hK in
theorem signAfterInvocationValidation_signed (hprepared : prepareSigningPayload req = .ok prepared)
    (hsigned : signPayload prepared.payload = .ok signature) :
    signAfterInvocationValidation K req none signPayload =
      (emitArtifact K prepared.payload req signature).map fun r => .ok (prepared.outcome r) := by
  rw [signAfterInvocationValidation, hprepared]
  simp only
  rw [hsigned]
  exact finishSigning_unbounded K req prepared signature

theorem signing_yaml_framed (hyaml : req.outputForm = .yaml)
    (hprepared : prepareSigningPayload req = .ok prepared)
    (hsigned : signPayload prepared.payload = .ok signature) :
    ∃ artifact carrier, signAfterInvocationValidation K req none signPayload =
        some (.ok (.success ⟨artifact, prepared.modifiedPayload⟩)) ∧
      LastMarker artifact prepared.payload .lf carrier := by
  have hstream := (prepareSigningPayload_spec hprepared).1 hyaml
  obtain ⟨artifact, carrier, hemit, hlast⟩ := emitYamlArtifact_framed hK req hstream signature
  refine ⟨artifact, carrier, ?_, hlast⟩
  rw [signAfterInvocationValidation_signed hprepared hsigned, emitArtifact, hyaml]
  show (emitYamlArtifact K prepared.payload req signature).map _ = _
  rw [hemit]
  rfl

omit hK in
theorem keyidLength_of_validated (hvalid : validateInvocation req = .ok ()) (sigBytes : Bytes) :
    SignatureFields.keyidLength (req.fields sigBytes).keyid ≤ 1024 :=
  keyidLength_le_of_keyidOk (keyidOk_of_validated hvalid)

/-- The protobuf form of an addressable payload is emitted. -/
theorem emitProtoArtifact_framed (hvalid : validateInvocation req = .ok ()) {payload : Bytes}
    (hp : payload.length < 2 ^ 63) (signature : Octets64) :
    ∃ artifact, emitProtoArtifact K payload req signature = some (.ok artifact) := by
  have hkeyid := keyidLength_of_validated hvalid signature.val
  have hsig : (req.fields signature).signature.length = 64 := signature.property
  cases emits_wireOf hK hp (f := req.fields signature) (by omega) with
  | proto hc hw =>
    refine ⟨wireOf payload (req.fields signature), ?_⟩
    show (encodeInnerSignatureCarrier K.buffa req.algorithm signature req.keyid).bind _ = _
    rw [show encodeInnerSignatureCarrier K.buffa req.algorithm signature req.keyid = some _ from hc]
    show (composeProtoOuter payload _).bind _ = _
    rw [hw]
    rfl

end

theorem decompose_of_emitProtoArtifact {K : Backend} {payload sigBytes a : Bytes}
    (h : emitProtoArtifact K payload req sigBytes = some (.ok a)) :
    ∃ carrier, decomposeProtoOuter a .strict = .ok payload carrier := by
  cases emitProtoArtifact_spec h with
  | proto hc hw => exact ⟨_, decomposeProtoOuter_of_composeProtoOuter hw .strict⟩

end

/-- Main result on framing.  For YAML, the prepared payload is the requested one or
the requested one with its missing terminator, it is valid, and once it is signed
the artifact is returned, with the signed octets in front of its last marker.  For
protobuf, the requested payload is signed and framed as it is. -/
theorem signs_what_it_frames {K : Backend} (hK : K.Lawful) {Ed25519 P256 : Type}
    {req : SignRequest Ed25519 P256} (hvalid : validateInvocation req = .ok ()) :
    (req.outputForm = .yaml → ∀ prepared, prepareSigningPayload req = .ok prepared →
      YamlPrepared req prepared ∧
      ∀ (signPayload : Bytes → Except SignError Octets64) (signature : Octets64),
        signPayload prepared.payload = .ok signature →
        ∃ artifact carrier, signAfterInvocationValidation K req none signPayload =
            some (.ok (.success ⟨artifact, prepared.modifiedPayload⟩)) ∧
          LastMarker artifact prepared.payload .lf carrier) ∧
    (req.outputForm = .protobuf → prepareSigningPayload req = .ok ⟨req.payload, []⟩ ∧
      ∀ (signPayload : Bytes → Except SignError Octets64) (signature : Octets64),
        signPayload req.payload = .ok signature →
        (∀ r, signAfterInvocationValidation K req none signPayload = some r →
          ∃ artifact carrier, r = .ok (.success ⟨artifact, []⟩) ∧
            decomposeProtoOuter artifact .strict = .ok req.payload carrier) ∧
        (req.payload.length < 2 ^ 63 →
          (signAfterInvocationValidation K req none signPayload).isSome = true)) := by
  constructor
  · intro hyaml prepared hprepared
    exact ⟨yamlPrepared_of_prepared hyaml hprepared, fun signPayload signature hsigned =>
      signing_yaml_framed hK hyaml hprepared hsigned⟩
  · intro hproto
    have hprepared := prepareSigningPayload_protobuf hproto
    refine ⟨hprepared, fun signPayload signature hsigned => ?_⟩
    rw [signAfterInvocationValidation_signed hprepared hsigned, emitArtifact, hproto]
    constructor
    · intro r hr
      obtain ⟨emitted, hemitted, hr⟩ := Option.map_eq_some_iff.mp hr
      have hemitted : emitProtoArtifact K req.payload req signature = some emitted := hemitted
      obtain ⟨c, hc, hrest⟩ := Option.bind_eq_some_iff.mp hemitted
      obtain ⟨w, hw, hok⟩ := Option.bind_eq_some_iff.mp hrest
      cases hok
      obtain ⟨carrier, hd⟩ := decompose_of_emitProtoArtifact hemitted
      exact ⟨w, carrier, hr.symm, hd⟩
    · intro hp
      obtain ⟨artifact, hemit⟩ := emitProtoArtifact_framed hK hvalid hp signature
      show ((emitProtoArtifact K req.payload req signature).map _).isSome = true
      rw [hemit]
      rfl

/-- A payload without its final line feed, which is appended. -/
theorem signs_what_it_frames_appended :
    @YamlPrepared Unit Unit {
        payload := [0x61]
        algorithm := .ed25519
        key := .ed25519 ()
        keyid := none
        appendMissingFinalNewline := true
        outputForm := .yaml
        algorithmParameters := [] } ⟨[0x61, 0x0A], [0x61, 0x0A]⟩ :=
  ((signs_what_it_frames Core.Reference.backend_lawful rfl).1 rfl _ (by decide)).1

end Signing
end YamlSigil
