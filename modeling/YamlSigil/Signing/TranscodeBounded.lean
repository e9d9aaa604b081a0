/-
Transcoding under a size policy.

Source and destination are checked on their own, the source before it is looked
at and the destination before it is written.  The main result covers every
bounded operation on artifacts that signs nothing: it returns what the unbounded
one returns unless a size is over a ceiling.
-/
import YamlSigil.Signing.Transcode
import YamlSigil.Transcription.Bounded

namespace YamlSigil
namespace Signing

open Format YamlSigil.Core Transcription
open Verification
open Pb (EncodeErrorKind RawOuter LawfulFacade Filters)

/-! ## The operations -/

section
variable (K : Backend)

def signedYamlStreamToProtoWireWithResourceLimits (yamlArtifact : Bytes)
    (limits : ArtifactResourceLimits) :
    Run (Except ArtifactResourceError (Except EncodeErrorKind (Except TranscodeError Bytes))) :=
  match limits.checkInputSize .yaml yamlArtifact with
  | .error e => some (.error e)
  | .ok _ => do
    match ← yamlToProtoComponents K yamlArtifact with
    | .error e => some (.ok (.ok (.error e)))
    | .ok (payload, innerCarrier) =>
      match composeProtoOuterWithResourceLimits K.buffa payload innerCarrier limits with
      | .error e => some (.error e)
      | .ok (.error e) => some (.ok (.error e))
      | .ok (.ok artifact) => some (.ok (.ok (.ok artifact)))

def protoWireToSignedYamlStreamWithResourceLimits (wire : Bytes)
    (limits : ArtifactResourceLimits) :
    Run (Except ArtifactResourceError (Except TranscodeError Bytes)) :=
  match limits.checkInputSize .protobuf wire with
  | .error e => some (.error e)
  | .ok _ =>
    match protoToYamlComponents K wire with
    | .error e => some (.ok (.error e))
    | .ok (payload, body) =>
      match (checkedAdd payload.length 4).bind (checkedAdd · (asBytes body).length) with
      | none => some (.error (limits.sizeComputationOverflow .yaml))
      | some encodedSize =>
        match limits.checkOutputSize .yaml encodedSize with
        | .error e => some (.error e)
        | .ok _ => do
          match ← compose ⟨payload, asBytes body, .yaml⟩ with
          | .success s => some (.ok (.ok s.artifact))
          | .invocation _ | .error _ => some (.ok (.error .notSignedYamlStream))

end

section
variable (K : Backend) (limits : ArtifactResourceLimits)

/-! ## From YAML to protobuf -/

theorem toProto_of_exceeded {a : Bytes} (h : limits.Exceeded a.length) :
    ∃ e, signedYamlStreamToProtoWireWithResourceLimits K a limits = some (.error e) := by
  obtain ⟨e, he, -⟩ := ArtifactResourceLimits.checkInputSize_of_exceeded .yaml h
  rw [signedYamlStreamToProtoWireWithResourceLimits, he]
  exact ⟨e, rfl⟩

/-- Behind the source check, in terms of the unbounded result. -/
theorem toProto_of_not_exceeded {a : Bytes} (h : ¬ limits.Exceeded a.length) :
    (∀ e, signedYamlStreamToProtoWire K a = some (.error e) →
      signedYamlStreamToProtoWireWithResourceLimits K a limits = some (.ok (.ok (.error e)))) ∧
    ∀ w, signedYamlStreamToProtoWire K a = some (.ok w) →
      Filters K.buffa limits True w.length (some (.ok w))
        (signedYamlStreamToProtoWireWithResourceLimits K a limits) := by
  rw [signedYamlStreamToProtoWireWithResourceLimits, signedYamlStreamToProtoWire,
    ArtifactResourceLimits.checkInputSize_of_not_exceeded .yaml h]
  cases yamlToProtoComponents K a with
  | none => exact ⟨fun e he => (by cases he), fun w hw => (by cases hw)⟩
  | some parts =>
    cases parts with
    | error e =>
      refine ⟨fun e' he => ?_, fun w hw => (by cases hw)⟩
      cases he
      rfl
    | ok parts =>
      obtain ⟨p, c⟩ := parts
      simp only [Option.bind_eq_bind, Option.bind_some]
      have hspec := Pb.composeRawOuterWithResourceLimits_spec K.buffa limits p c
      refine ⟨fun e he => ?_, fun w hw => ?_⟩
      · obtain ⟨wire, -, hwire⟩ := Option.bind_eq_some_iff.mp he
        cases hwire
      · obtain ⟨wire, hwire, hw⟩ := Option.bind_eq_some_iff.mp hw
        cases hw
        obtain ⟨hoctets, -⟩ := Pb.composeRawOuter_eq_some_iff.mp hwire
        rw [← hoctets] at hspec
        have hbounded : composeProtoOuterWithResourceLimits K.buffa p c limits =
          Pb.composeRawOuterWithResourceLimits K.buffa p c limits := rfl
        have hfilters := (hspec.map (Except.ok : Bytes → Except TranscodeError Bytes)).filters
        rw [hbounded]
        generalize Pb.composeRawOuterWithResourceLimits K.buffa p c limits = r at hfilters
        cases r with
        | error e => exact hfilters
        | ok r => cases r <;> exact hfilters

/-! ## From protobuf to YAML -/

theorem toYaml_of_exceeded {w : Bytes} (h : limits.Exceeded w.length) :
    ∃ e, protoWireToSignedYamlStreamWithResourceLimits K w limits = some (.error e) := by
  obtain ⟨e, he, -⟩ := ArtifactResourceLimits.checkInputSize_of_exceeded .protobuf h
  rw [protoWireToSignedYamlStreamWithResourceLimits, he]
  exact ⟨e, rfl⟩

variable {K}

/-- Components that are read are composed. -/
theorem compose_components (hK : K.Lawful) {w p : Bytes} {body : Text}
    (h : protoToYamlComponents K w = .ok (p, body)) :
    compose ⟨p, asBytes body, .yaml⟩ =
      some (.success ⟨p ++ (marker .lf ++ asBytes body), .yaml⟩) := by
  obtain ⟨carrier, f, -, hp, -, hbody⟩ := (protoToYamlComponents_eq_ok_iff hK).mp h
  rw [hbody]
  exact composeYaml_eq_success_iff.mpr ⟨hp, not_hasMarker_yamlText hK.base64 f, rfl⟩

theorem toYaml_of_not_exceeded (hK : K.Lawful) {w : Bytes} (h : ¬ limits.Exceeded w.length) :
    (∀ e, protoWireToSignedYamlStream K w = some (.error e) →
      protoWireToSignedYamlStreamWithResourceLimits K w limits = some (.ok (.error e))) ∧
    ∀ y, protoWireToSignedYamlStream K w = some (.ok y) →
      (limits.ceiling < y.length →
        ∃ e, protoWireToSignedYamlStreamWithResourceLimits K w limits = some (.error e)) ∧
      (y.length ≤ limits.ceiling →
        protoWireToSignedYamlStreamWithResourceLimits K w limits = some (.ok (.ok y))) := by
  rw [protoWireToSignedYamlStreamWithResourceLimits, protoWireToSignedYamlStream,
    ArtifactResourceLimits.checkInputSize_of_not_exceeded .protobuf h]
  cases hparts : protoToYamlComponents K w with
  | error e =>
    refine ⟨fun e' he => ?_, fun y hy => (by cases hy)⟩
    cases he
    rfl
  | ok parts =>
    obtain ⟨p, body⟩ := parts
    simp only
    rw [compose_components hK hparts]
    refine ⟨fun e he => (by cases he), fun y hy => ?_⟩
    have hy : y = p ++ (marker .lf ++ asBytes body) := by
      cases hy
      rfl
    have hlen : y.length = p.length + 4 + (asBytes body).length := by
      rw [hy, List.length_append, List.length_append, Nat.add_assoc]
      rfl
    have hsum : (checkedAdd p.length 4).bind (checkedAdd · (asBytes body).length) =
        usizeOf y.length := by
      rw [hlen]
      exact bind_checkedAdd _ _
    refine ⟨fun hlt => ?_, fun hle => ?_⟩
    · rcases Nat.lt_or_ge y.length (2 ^ 64) with hsmall | hge
      · obtain ⟨e, he, -⟩ := ArtifactResourceLimits.checkOutputSize_of_exceeded .yaml
          (ArtifactResourceLimits.exceeded_of_lt hlt hsmall)
        rw [usizeOf_of_lt hsmall] at hsum
        simp only [hsum, he]
        exact ⟨e, rfl⟩
      · rw [usizeOf_of_le hge] at hsum
        simp only [hsum]
        exact ⟨_, rfl⟩
    · have hcheck := ArtifactResourceLimits.checkOutputSize_of_not_exceeded .yaml
        (ArtifactResourceLimits.not_exceeded_of_le hle)
      rw [usizeOf_of_lt (ArtifactResourceLimits.lt_of_le_ceiling hle)] at hsum
      simp only [hsum, hcheck]
      rw [hy]
      rfl

/-! ## Bounded against unbounded -/

variable (K)

/-- The transcription crate's formula, the core crate's counting sink and the
emitted vector have the same length. -/
theorem projected_eq_emitted {p c w : Bytes} (h : composeProtoOuter p c = some w) :
    (∃ payloadLen carrierLen, Pb.u64TryFrom p.length = some payloadLen ∧
        Pb.u64TryFrom c.length = some carrierLen ∧
        protoOuterSize payloadLen carrierLen = some w.length) ∧
      Pb.rawFacadeEncodedLen (⟨p, c⟩ : RawOuter) = .ok w.length := by
  obtain ⟨hw, hlt⟩ := Pb.composeRawOuter_eq_some_iff.mp h
  have hlen := length_rawOuter p c
  have hp := le_lenFieldSize p.length
  have hc := le_lenFieldSize c.length
  rw [← hw] at hlen
  obtain ⟨vp, hvp, hvpn⟩ := u64TryFrom_of_lt (show p.length < 2 ^ 64 by omega)
  obtain ⟨vc, hvc, hvcn⟩ := u64TryFrom_of_lt (show c.length < 2 ^ 64 by omega)
  refine ⟨⟨vp, vc, hvp, hvc, ?_⟩, ?_⟩
  · rw [protoOuterSize_eq, hvpn, hvcn, ← hlen, usizeOf_of_lt hlt]
  · have hoctets : LawfulFacade.octets (⟨p, c⟩ : RawOuter) = w := hw.symm
    rw [Pb.rawFacadeEncodedLen_eq, hoctets, if_pos hlt]

/-- From YAML to protobuf, when the unbounded operation returns. -/
theorem toProto_spec {a : Bytes} {u : Except TranscodeError Bytes}
    (h : signedYamlStreamToProtoWire K a = some u) :
    ((∃ e, signedYamlStreamToProtoWireWithResourceLimits K a limits = some (.error e)) ↔
      limits.Exceeded a.length ∨ ∃ w, u = .ok w ∧ limits.ceiling < w.length) ∧
    (signedYamlStreamToProtoWireWithResourceLimits K a limits =
        some (.ok (.error .messageTooLarge)) ↔
      ¬ limits.Exceeded a.length ∧ ∃ w, u = .ok w ∧ w.length ≤ limits.ceiling ∧
        K.buffa.maxMessageBytes.toNat < w.length) ∧
    (¬ limits.Exceeded a.length →
      (∀ w, u = .ok w →
        w.length ≤ limits.ceiling ∧ w.length ≤ K.buffa.maxMessageBytes.toNat) →
      signedYamlStreamToProtoWireWithResourceLimits K a limits = some (.ok (.ok u))) := by
  by_cases hex : limits.Exceeded a.length
  · obtain ⟨e, he⟩ := toProto_of_exceeded K limits hex
    rw [he]
    exact ⟨⟨fun _ => .inl hex, fun _ => ⟨e, rfl⟩⟩,
      ⟨fun h => (by cases h), fun h => absurd hex h.1⟩, fun h => absurd hex h⟩
  obtain ⟨herror, hok⟩ := toProto_of_not_exceeded K limits hex
  cases u with
  | error e =>
    rw [herror e h]
    refine ⟨⟨fun he => ?_, fun he => ?_⟩, ⟨fun he => (by cases he), fun he => ?_⟩,
      fun _ _ => rfl⟩
    · obtain ⟨_, he⟩ := he
      cases he
    · rcases he with he | ⟨w, hw, -⟩
      · exact absurd he hex
      · cases hw
    · obtain ⟨-, w, hw, -⟩ := he
      cases hw
  | ok w =>
    have hfilters := hok w h
    refine ⟨⟨fun he => .inr ⟨w, rfl, hfilters.resource.mp he⟩, fun he => ?_⟩,
      ⟨fun he => ?_, fun he => ?_⟩, fun _ hw => hfilters.admitted (hw w rfl).1 fun _ => (hw w rfl).2⟩
    · rcases he with he | ⟨w', hw, hlt⟩
      · exact absurd he hex
      · cases hw
        exact hfilters.resource.mpr hlt
    · obtain ⟨hle, -, hmax⟩ := hfilters.format.mp he
      exact ⟨hex, w, rfl, hle, hmax⟩
    · obtain ⟨-, w', hw, hle, hmax⟩ := he
      cases hw
      exact hfilters.format.mpr ⟨hle, trivial, hmax⟩

/-- From protobuf to YAML. -/
theorem toYaml_spec (hK : K.Lawful) {w : Bytes} {u : Except TranscodeError Bytes}
    (h : protoWireToSignedYamlStream K w = some u) :
    ((∃ e, protoWireToSignedYamlStreamWithResourceLimits K w limits = some (.error e)) ↔
      limits.Exceeded w.length ∨ ∃ y, u = .ok y ∧ limits.ceiling < y.length) ∧
    (¬ limits.Exceeded w.length → (∀ y, u = .ok y → y.length ≤ limits.ceiling) →
      protoWireToSignedYamlStreamWithResourceLimits K w limits = some (.ok u)) := by
  by_cases hex : limits.Exceeded w.length
  · exact ⟨⟨fun _ => .inl hex, fun _ => toYaml_of_exceeded K limits hex⟩, fun h => absurd hex h⟩
  obtain ⟨herror, hok⟩ := toYaml_of_not_exceeded limits hK hex
  cases u with
  | error e =>
    rw [herror e h]
    refine ⟨⟨fun he => ?_, fun he => ?_⟩, fun _ _ => rfl⟩
    · obtain ⟨_, he⟩ := he
      cases he
    · rcases he with he | ⟨y, hy, -⟩
      · exact absurd he hex
      · cases hy
  | ok y =>
    obtain ⟨hlarge, hsmall⟩ := hok y h
    refine ⟨⟨fun he => .inr ⟨y, rfl, ?_⟩, fun he => ?_⟩, fun _ hy => hsmall (hy y rfl)⟩
    · obtain ⟨e, he⟩ := he
      rcases Nat.lt_or_ge limits.ceiling y.length with hlt | hle
      · exact hlt
      · rw [hsmall hle] at he
        cases he
    · rcases he with he | ⟨y', hy, hlt⟩
      · exact absurd he hex
      · cases hy
        exact hlarge hlt

end

/-- Main result on sizes: composing under a policy projects the emitted length,
which the policy and then the format filter, and so does each direction of
transcoding, behind the check of its source. -/
theorem bounded_operations_filter {K : Backend} (hK : K.Lawful) (limits : ArtifactResourceLimits) :
    (∀ req s, compose req = some (.success s) → s.artifact.length = composedLength req) ∧
    (∀ p c w, composeProtoOuter p c = some w →
      (∃ payloadLen carrierLen, Pb.u64TryFrom p.length = some payloadLen ∧
        Pb.u64TryFrom c.length = some carrierLen ∧
        protoOuterSize payloadLen carrierLen = some w.length) ∧
      Pb.rawFacadeEncodedLen (⟨p, c⟩ : RawOuter) = .ok w.length) ∧
    (∀ req, Filters K.buffa limits (req.form = .protobuf) (composedLength req) (compose req)
      (composeWithResourceLimits K.buffa req limits)) ∧
    (∀ a u, signedYamlStreamToProtoWire K a = some u →
      ((∃ e, signedYamlStreamToProtoWireWithResourceLimits K a limits = some (.error e)) ↔
        limits.Exceeded a.length ∨ ∃ w, u = .ok w ∧ limits.ceiling < w.length) ∧
      (signedYamlStreamToProtoWireWithResourceLimits K a limits =
          some (.ok (.error .messageTooLarge)) ↔
        ¬ limits.Exceeded a.length ∧ ∃ w, u = .ok w ∧ w.length ≤ limits.ceiling ∧
          K.buffa.maxMessageBytes.toNat < w.length) ∧
      (¬ limits.Exceeded a.length →
        (∀ w, u = .ok w →
          w.length ≤ limits.ceiling ∧ w.length ≤ K.buffa.maxMessageBytes.toNat) →
        signedYamlStreamToProtoWireWithResourceLimits K a limits = some (.ok (.ok u)))) ∧
    ∀ w u, protoWireToSignedYamlStream K w = some u →
      ((∃ e, protoWireToSignedYamlStreamWithResourceLimits K w limits = some (.error e)) ↔
        limits.Exceeded w.length ∨ ∃ y, u = .ok y ∧ limits.ceiling < y.length) ∧
      (¬ limits.Exceeded w.length → (∀ y, u = .ok y → y.length ≤ limits.ceiling) →
        protoWireToSignedYamlStreamWithResourceLimits K w limits = some (.ok u)) :=
  ⟨fun _ _ h => length_of_compose h, fun _ _ _ h => projected_eq_emitted h,
    fun req => composeWithResourceLimits_spec K.buffa req limits,
    fun _ _ h => toProto_spec K limits h, fun _ _ h => toYaml_spec K limits hK h⟩

/-- Two octets of payload and one of carrier under a ceiling of seven octets. -/
theorem bounded_operations_filter_seven :
    composeWithResourceLimits Core.Reference.backend.buffa ⟨[0x61, 0x0A], [0x62], .protobuf⟩
      ⟨some ⟨7, by decide⟩⟩ = some (.ok (.ok (.success
        ⟨[0x0A, 0x02, 0x61, 0x0A, 0x12, 0x01, 0x62], .protobuf⟩))) := by
  have hcompose : compose ⟨[0x61, 0x0A], [0x62], .protobuf⟩ = some (.success
      ⟨[0x0A, 0x02, 0x61, 0x0A, 0x12, 0x01, 0x62], .protobuf⟩) := by decide +kernel
  have hfilters := (bounded_operations_filter Core.Reference.backend_lawful
    ⟨some ⟨7, by decide⟩⟩).2.2.1 ⟨[0x61, 0x0A], [0x62], .protobuf⟩
  rw [hfilters.admitted (by decide +kernel) (by decide +kernel), hcompose]
  rfl

end Signing
end YamlSigil
