/-
Composing under a size policy.

The size of the artifact is projected from the lengths of its parts, before the
parts are looked at.  The projection is the length of what the composer emits,
so the policy filters outputs and does nothing else.
-/
import YamlSigil.Transcription.YamlEnvelope

namespace YamlSigil
namespace Transcription

open Format YamlSigil.Core
open Pb (Buffa RawOuter EncodeErrorKind Admission Filters filters_of_outcomes)

/-! ## The operations -/

def varintLen (value : UInt64) : Nat := Varint.countOctets value

/-- The size of a wire with two fields of these lengths, when it fits. -/
def protoOuterSize (payloadLen carrierLen : UInt64) : Option Nat := do
  let payloadField ← (checkedAdd 1 (varintLen payloadLen)).bind (checkedAdd · payloadLen.toNat)
  let carrierField ← (checkedAdd 1 (varintLen carrierLen)).bind (checkedAdd · carrierLen.toNat)
  checkedAdd payloadField carrierField

section
variable (B : Buffa)

def checkedProtoOuterSizeFromLengths (payloadLen carrierLen : UInt64)
    (limits : ArtifactResourceLimits) :
    Except ArtifactResourceError (Except EncodeErrorKind Nat) :=
  match protoOuterSize payloadLen carrierLen with
  | none => .error (limits.sizeComputationOverflow .protobuf)
  | some encodedSize =>
    (limits.checkOutputSize .protobuf encodedSize).map fun _ =>
      Pb.checkEncodedMessageSize B encodedSize

def checkedProtoOuterSize (payloadLen carrierLen : Nat) (limits : ArtifactResourceLimits) :
    Except ArtifactResourceError (Except EncodeErrorKind Nat) :=
  match Pb.u64TryFrom payloadLen, Pb.u64TryFrom carrierLen with
  | some payloadLen, some carrierLen =>
    checkedProtoOuterSizeFromLengths B payloadLen carrierLen limits
  | _, _ => .error (limits.sizeComputationOverflow .protobuf)

def checkComposeOutputSize (req : ComposeRequest) (limits : ArtifactResourceLimits) :
    Except ArtifactResourceError (Except EncodeErrorKind Nat) :=
  match req.form with
  | .yaml =>
    match (checkedAdd req.payload.length 4).bind (checkedAdd · req.signatureCarrier.length) with
    | none => .error (limits.sizeComputationOverflow .yaml)
    | some encodedSize =>
      (limits.checkOutputSize .yaml encodedSize).map fun _ => .ok encodedSize
  | .protobuf => checkedProtoOuterSize B req.payload.length req.signatureCarrier.length limits

/-- Check the projected size, then compose. -/
def composeWithResourceLimits (req : ComposeRequest) (limits : ArtifactResourceLimits) :
    Run (Except ArtifactResourceError (Except EncodeErrorKind ComposeOutcome)) :=
  match validateComposeInvocation req with
  | .error e => some (.ok (.ok (.invocation e)))
  | .ok () =>
    match checkComposeOutputSize B req limits with
    | .error e => some (.error e)
    | .ok (.error e) => some (.ok (.error e))
    | .ok (.ok _) => do
      let outcome ← composeAfterInvocationValidation req
      some (.ok (.ok outcome))

end

/-! ## The projection -/

/-- The number of octets that composing a request yields. -/
def composedLength (req : ComposeRequest) : Nat :=
  match req.form with
  | .yaml => req.payload.length + 4 + req.signatureCarrier.length
  | .protobuf => (RawOuter.octets ⟨req.payload, req.signatureCarrier⟩).length

theorem length_rawOuter (p c : Bytes) :
    (RawOuter.octets ⟨p, c⟩).length = Wire.lenFieldSize p.length + Wire.lenFieldSize c.length := by
  rw [RawOuter.octets, List.length_append]
  show (Wire.lenField 1 p).length + (Wire.lenField 2 c).length = _
  rw [Wire.length_lenField (by decide), Wire.length_lenField (by decide)]

theorem checkedLenField (n : UInt64) :
    (checkedAdd 1 (varintLen n)).bind (checkedAdd · n.toNat) =
      usizeOf (Wire.lenFieldSize n.toNat) := by
  rw [checkedAdd_eq, bind_checkedAdd, varintLen, ← Varint.length_encode_toNat, Wire.lenFieldSize]

/-- The projection is the length of the octets. -/
theorem protoOuterSize_eq (payloadLen carrierLen : UInt64) :
    protoOuterSize payloadLen carrierLen =
      usizeOf (Wire.lenFieldSize payloadLen.toNat + Wire.lenFieldSize carrierLen.toNat) := by
  show ((checkedAdd 1 _).bind _).bind (fun x => ((checkedAdd 1 _).bind _).bind fun y => _) = _
  rw [checkedLenField, checkedLenField]
  exact bind_bind_checkedAdd _ _

theorem u64TryFrom_of_lt {n : Nat} (h : n < 2 ^ 64) :
    ∃ v : UInt64, Pb.u64TryFrom n = some v ∧ v.toNat = n := by
  refine ⟨UInt64.ofNat n, if_pos h, ?_⟩
  rw [UInt64.toNat_ofNat']
  omega

theorem le_lenFieldSize (n : Nat) : n ≤ Wire.lenFieldSize n := by
  rw [Wire.lenFieldSize]
  omega

theorem checkedProtoOuterSize_spec (B : Buffa) (limits : ArtifactResourceLimits) (p c : Bytes) :
    Admission B limits (RawOuter.octets ⟨p, c⟩).length (RawOuter.octets ⟨p, c⟩).length
      (checkedProtoOuterSize B p.length c.length limits) := by
  have hlen := length_rawOuter p c
  have hp := le_lenFieldSize p.length
  have hc := le_lenFieldSize c.length
  rcases Nat.lt_or_ge (RawOuter.octets ⟨p, c⟩).length (2 ^ 64) with hlt | hge
  · obtain ⟨vp, hvp, hvpn⟩ := u64TryFrom_of_lt (show p.length < 2 ^ 64 by omega)
    obtain ⟨vc, hvc, hvcn⟩ := u64TryFrom_of_lt (show c.length < 2 ^ 64 by omega)
    have hsize : protoOuterSize vp vc = some (RawOuter.octets ⟨p, c⟩).length := by
      rw [protoOuterSize_eq, hvpn, hvcn, ← hlen, usizeOf_of_lt hlt]
    rw [checkedProtoOuterSize, hvp, hvc]
    simp only
    rw [checkedProtoOuterSizeFromLengths, hsize]
    exact Pb.admission_checkOutputSize B limits hlt
  · have herr : checkedProtoOuterSize B p.length c.length limits =
        .error (limits.sizeComputationOverflow .protobuf) := by
      rw [checkedProtoOuterSize]
      cases hvp : Pb.u64TryFrom p.length with
      | none => rfl
      | some vp =>
        cases hvc : Pb.u64TryFrom c.length with
        | none => rfl
        | some vc =>
          simp only
          rw [checkedProtoOuterSizeFromLengths, protoOuterSize_eq, Pb.toNat_of_u64TryFrom hvp,
            Pb.toNat_of_u64TryFrom hvc, ← hlen, usizeOf_of_le hge]
    rw [herr]
    exact Pb.admission_overflow B limits _ hge

/-! ## The policy filters -/

/-- Composing emits the projected number of octets. -/
theorem length_of_compose {req : ComposeRequest} {s : ComposeSuccess}
    (h : compose req = some (.success s)) : s.artifact.length = composedLength req := by
  obtain ⟨p, c, form⟩ := req
  cases form with
  | yaml =>
    obtain ⟨-, -, hs⟩ := composeYaml_eq_success_iff.mp h
    rw [hs]
    show (p ++ (marker .lf ++ c)).length = p.length + 4 + c.length
    rw [List.length_append, List.length_append, Nat.add_assoc]
    rfl
  | protobuf =>
    rw [compose_protobuf] at h
    obtain ⟨w, hw, hs⟩ := Option.map_eq_some_iff.mp h
    cases hs
    exact congrArg List.length (Pb.composeRawOuter_eq_some_iff.mp hw).1

/-- A size in YAML form is checked against the policy alone. -/
theorem filters_of_checkOutputSize (B : Buffa) {limits : ArtifactResourceLimits} {α : Type}
    {n : Nat} {a : α} {r : Except ArtifactResourceError (Except EncodeErrorKind α)}
    (hoverflow : 2 ^ 64 ≤ n → r = .error (limits.sizeComputationOverflow .yaml))
    (hcheck : n < 2 ^ 64 → r = (limits.checkOutputSize .yaml n).map fun _ => .ok a) :
    Filters B limits False n (some a) (some r) := by
  rcases Nat.lt_or_ge n (2 ^ 64) with hlt | hge
  · rw [hcheck hlt]
    refine filters_of_outcomes (fun h => ?_) (fun _ hwire => hwire.elim) fun h _ => ?_
    · obtain ⟨e, he, hkind, -⟩ := ArtifactResourceLimits.checkOutputSize_of_exceeded .yaml
        (ArtifactResourceLimits.exceeded_of_lt h hlt)
      rw [he]
      exact ⟨e, rfl, fun _ => hkind⟩
    · rw [ArtifactResourceLimits.checkOutputSize_of_not_exceeded .yaml
        (ArtifactResourceLimits.not_exceeded_of_le h)]
      rfl
  · rw [hoverflow hge]
    refine filters_of_outcomes (fun _ => ⟨_, rfl, fun hlt => ?_⟩) (fun _ hwire => hwire.elim)
      fun h _ => ?_
    · exact absurd hlt (Nat.not_lt.mpr hge)
    · exact absurd (ArtifactResourceLimits.lt_of_le_ceiling h) (Nat.not_lt.mpr hge)

/-- The check projects the size, and the policy and the format filter it. -/
theorem checkComposeOutputSize_spec (B : Buffa) (req : ComposeRequest)
    (limits : ArtifactResourceLimits) :
    Filters B limits (req.form = .protobuf) (composedLength req) (some (composedLength req))
      (some (checkComposeOutputSize B req limits)) := by
  obtain ⟨p, c, form⟩ := req
  cases form with
  | yaml =>
    have hsum : (checkedAdd p.length 4).bind (checkedAdd · c.length) =
        usizeOf (composedLength ⟨p, c, .yaml⟩) := bind_checkedAdd _ _
    refine (filters_of_checkOutputSize B (fun hge => ?_) fun hlt => ?_).of_wire
      (iff_of_false id fun h => (by cases h))
    · rw [usizeOf_of_le hge] at hsum
      simp only [checkComposeOutputSize, hsum]
    · rw [usizeOf_of_lt hlt] at hsum
      simp only [checkComposeOutputSize, hsum]
  | protobuf =>
    exact (checkedProtoOuterSize_spec B limits p c).filters.of_wire (iff_of_true trivial rfl)

/-- A request is filtered by its projected size, and otherwise composed. -/
theorem composeWithResourceLimits_spec (B : Buffa) (req : ComposeRequest)
    (limits : ArtifactResourceLimits) :
    Filters B limits (req.form = .protobuf) (composedLength req) (compose req)
      (composeWithResourceLimits B req limits) := by
  have hsize := checkComposeOutputSize_spec B req limits
  have hvalid : validateComposeInvocation req = .ok () := by
    obtain ⟨p, c, form⟩ := req
    cases form <;> rfl
  rw [composeWithResourceLimits, compose, hvalid]
  simp only
  refine filters_of_outcomes (fun h => ?_) (fun hle hform hmax => ?_) fun hle hmax => ?_
  · obtain ⟨e, he⟩ := hsize.resource.mpr h
    have hkind := hsize.kind he
    rw [Option.some.inj he]
    exact ⟨e, rfl, hkind⟩
  · rw [Option.some.inj (hsize.format.mpr ⟨hle, hform, hmax⟩)]
  · rw [Option.some.inj (hsize.admitted hle hmax)]
    simp only
    cases composeAfterInvocationValidation req with
    | none => rfl
    | some outcome => rfl

end Transcription
end YamlSigil
