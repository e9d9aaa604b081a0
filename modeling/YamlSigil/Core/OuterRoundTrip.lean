/-
Outer envelopes are read back.

The raw composer writes both fields always, the facade leaves out an empty
payload.  Either way the records are an optional payload field and one signature
field, which is all the strict scan asks for.
-/
import YamlSigil.Core.ProtoOuter

namespace YamlSigil
namespace Core

open Format Wire
open Pb (OuterConformance RawOuter Buffa LawfulFacade)

/-- The payload field, or nothing for an empty payload. -/
inductive PayloadRecords (p : Bytes) : List Record → Prop
  | field : PayloadRecords p [⟨1, .len p⟩]
  | omitted : p = [] → PayloadRecords p []

theorem decomposeRawOuter_of_payloadRecords {wire p c : Bytes} {ps : List Record}
    (hps : PayloadRecords p ps) (hw : Records wire (ps ++ [⟨2, .len c⟩])) :
    Pb.decomposeRawOuter wire .strict = .ok p c := by
  apply Pb.decomposeRawOuter_eq_ok_iff.mpr
  cases hps with
  | field =>
    refine ⟨_, hw, ⟨?_, Nat.le_refl 1, rfl⟩, rfl, rfl⟩
    intro r hr
    rcases List.mem_append.mp hr with hr | hr
    · rw [List.mem_singleton.mp hr]
      exact ⟨⟨p, rfl⟩, .inl rfl⟩
    · rw [List.mem_singleton.mp hr]
      exact ⟨⟨c, rfl⟩, .inr rfl⟩
  | omitted hp =>
    refine ⟨_, hw, ⟨?_, Nat.zero_le 1, rfl⟩, hp, rfl⟩
    intro r hr
    rw [List.mem_singleton.mp hr]
    exact ⟨⟨c, rfl⟩, .inr rfl⟩

/-! ## The raw composer -/

theorem decomposeRawOuter_octets {p c : Bytes}
    (h : (RawOuter.octets ⟨p, c⟩).length < 2 ^ 64) :
    Pb.decomposeRawOuter (RawOuter.octets ⟨p, c⟩) .strict = .ok p c := by
  obtain ⟨hp, hc⟩ := LawfulFacade.fits_of_lt (a := RawOuter.mk p c) h
  exact decomposeRawOuter_of_payloadRecords .field
    ((Records.single (isRecord_lenField (by decide) hp)).append
      (Records.single (isRecord_lenField (by decide) hc)))

theorem decomposeProtoOuter_of_composeProtoOuter {p c wire : Bytes}
    (h : composeProtoOuter p c = some wire) (mode : OuterConformance) :
    decomposeProtoOuter wire mode = .ok p c := by
  obtain ⟨hw, hlen⟩ := Pb.composeRawOuter_eq_some_iff.mp h
  subst hw
  exact decomposeProtoOuter_eq_ok_iff.mpr
    (Pb.decomposeRawOuter_of_strict (decomposeRawOuter_octets hlen) mode)

theorem length_lenField_le {field : Nat} {b : Bytes} (hf : field < 16)
    (hb : b.length < 2 ^ 64) : (lenField field b).length ≤ b.length + 11 := by
  have htag : (tag field 2).length ≤ 1 := Varint.length_encode_le (k := 0) (by omega)
  have hlen : (Varint.encode b.length).length ≤ 10 := (Varint.isVarint_encode hb).length_le
  unfold lenField
  rw [List.length_append, List.length_append]
  omega

/-- The composer panics at most for a wire of `2 ^ 64` octets or more. -/
theorem isSome_composeProtoOuter {p c : Bytes} (h : p.length + c.length + 22 < 2 ^ 64) :
    (composeProtoOuter p c).isSome = true := by
  have hp : (lenField 1 p).length ≤ p.length + 11 := length_lenField_le (by decide) (by omega)
  have hc : (lenField 2 c).length ≤ c.length + 11 := length_lenField_le (by decide) (by omega)
  have hlen : (RawOuter.octets ⟨p, c⟩).length < 2 ^ 64 := by
    unfold RawOuter.octets
    rw [List.length_append]
    show (lenField 1 p).length + (lenField 2 c).length < 2 ^ 64
    omega
  unfold composeProtoOuter
  rw [Pb.composeRawOuter_eq, if_pos hlen]
  rfl

/-! ## The facade -/

theorem UnknownFields.eq_nil_of_isEmpty {u : Pb.UnknownFields} (h : u.isEmpty = true) :
    u.fields = [] := List.isEmpty_iff.mp h

theorem records_payloadOctets {p : Bytes} (hp : p.length < 2 ^ 64) :
    ∃ ps, PayloadRecords p ps ∧ Records (Pb.SignedYamlArtifact.payloadOctets p) ps := by
  unfold Pb.SignedYamlArtifact.payloadOctets
  by_cases hne : p = []
  · refine ⟨[], .omitted hne, ?_⟩
    rw [if_neg (not_not.mpr hne)]
    exact .nil
  · refine ⟨_, .field, ?_⟩
    rw [if_pos hne]
    exact .single (isRecord_lenField (by decide) hp)

/-- The strict scan takes an encoded artifact apart into its payload and the
encoding of its signature. -/
theorem decomposeProtoOuter_of_encodeToVec {B : Buffa} {m : Pb.SignedYamlArtifact}
    {s : Pb.YamlSigilSignature} {wire : Bytes} (hs : m.signature = some s)
    (hu : m.hasUnknownFields = false) (h : m.encodeToVec B = .ok wire) :
    ∃ c, s.encodeToVec B = .ok c ∧ decomposeProtoOuter wire .strict = .ok m.payload c := by
  have hmax := B.maxMessageBytes.toNat_lt
  obtain ⟨hw, hle⟩ := Pb.encodeFacadeToVec_eq_ok_iff.mp h
  have hlt : (LawfulFacade.octets m).length < 2 ^ 64 := by
    rw [← hw]
    omega
  obtain ⟨hp, hc⟩ := LawfulFacade.fits_of_lt hlt
  have hclt := hc s hs
  have hunknown : m.unknownFields.fields = [] := by
    simp only [Pb.SignedYamlArtifact.hasUnknownFields, Bool.or_eq_false_iff,
      Bool.not_eq_false'] at hu
    exact UnknownFields.eq_nil_of_isEmpty hu.1
  have hoctets : wire = Pb.SignedYamlArtifact.payloadOctets m.payload ++ lenField 2 s.octets := by
    rw [hw]
    show Pb.SignedYamlArtifact.octets m = _
    unfold Pb.SignedYamlArtifact.octets
    rw [hs, hunknown, List.flatten_nil, List.append_nil]
    rfl
  refine ⟨s.octets, Pb.encodeFacadeToVec_eq_ok_iff.mpr ⟨rfl, ?_⟩, ?_⟩
  · have := Pb.length_le_lenField 2 s.octets
    rw [hoctets, List.length_append] at hle
    omega
  · obtain ⟨ps, hps, hrec⟩ := records_payloadOctets hp
    apply decomposeProtoOuter_eq_ok_iff.mpr
    rw [hoctets]
    exact decomposeRawOuter_of_payloadRecords hps
      (hrec.append (.single (isRecord_lenField (by decide) hclt)))

/-- Main result of this file: both encoders are undone by the scanner, whatever
the payload, the carrier and their lengths.  The composer's panic is out of
reach of two addressable slices. -/
theorem outer_round_trip :
    (∀ p c wire mode, composeProtoOuter p c = some wire →
      decomposeProtoOuter wire mode = .ok p c) ∧
    (∀ p c : Bytes, p.length + c.length + 22 < 2 ^ 64 → (composeProtoOuter p c).isSome = true) ∧
    ∀ (B : Buffa) (m : Pb.SignedYamlArtifact) (s : Pb.YamlSigilSignature) (wire : Bytes),
      m.signature = some s → m.hasUnknownFields = false → m.encodeToVec B = .ok wire →
      ∃ c, s.encodeToVec B = .ok c ∧ decomposeProtoOuter wire .strict = .ok m.payload c :=
  ⟨fun _ _ _ mode h => decomposeProtoOuter_of_composeProtoOuter h mode,
    fun _ _ h => isSome_composeProtoOuter h,
    fun _ _ _ _ hs hu h => decomposeProtoOuter_of_encodeToVec hs hu h⟩

/-- An empty payload is left out by the facade and written by the composer. -/
theorem outer_round_trip_empty_payload :
    decomposeProtoOuter [0x0A, 0x00, 0x12, 0x01, 0x61] .strict = .ok [] [0x61] ∧
      ∃ c, decomposeProtoOuter [0x12, 0x02, 0x08, 0x01] .strict = .ok [] c := by
  have hcompose : composeProtoOuter [] [0x61] = some [0x0A, 0x00, 0x12, 0x01, 0x61] := by
    decide +kernel
  have hencode : Pb.SignedYamlArtifact.encodeToVec Pb.Proto3.buffa
      { signature := some { algorithmWireValue := 1 } } = .ok [0x12, 0x02, 0x08, 0x01] := by
    decide +kernel
  obtain ⟨c, -, hc⟩ := outer_round_trip.2.2 Pb.Proto3.buffa _ _ _ rfl rfl hencode
  exact ⟨outer_round_trip.1 _ _ _ .strict hcompose, c, hc⟩

end Core
end YamlSigil
