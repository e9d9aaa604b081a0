/-
The protobuf outer envelope for the transcription operations, and the views of
the signature fields.

The envelope is composed and taken apart as octets; the signature carrier is
decoded only by `decodeSignatureCarrier`.
-/
import YamlSigil.Core.Pb.Bounded
import YamlSigil.Core.Pb.OuterGrammar
import YamlSigil.Core.Pb.Proto3

namespace YamlSigil
namespace Core

open Format Wire
open Pb (OuterConformance RawOuter Buffa)

inductive ProtoOuterDecomposeOutcome where
  | malformed
  | ok (payload signatureCarrier : Bytes)
deriving Repr, DecidableEq

def composeProtoOuter (payload signatureCarrier : Bytes) : Run Bytes :=
  Pb.composeRawOuter payload signatureCarrier

def composeProtoOuterWithResourceLimits (B : Buffa) (payload signatureCarrier : Bytes)
    (limits : ArtifactResourceLimits) :
    Except ArtifactResourceError (Except Pb.EncodeErrorKind Bytes) :=
  Pb.composeRawOuterWithResourceLimits B payload signatureCarrier limits

def decomposeProtoOuter (wire : Bytes) (mode : OuterConformance) : ProtoOuterDecomposeOutcome :=
  match Pb.decomposeRawOuter wire mode with
  | .malformed => .malformed
  | .ok payload signatureCarrier => .ok payload signatureCarrier

/-- Decode the signature message from the opaque carrier. -/
def decodeSignatureCarrier (B : Buffa) (carrier : Bytes) :
    Except CoreError Pb.YamlSigilSignature :=
  match Pb.YamlSigilSignature.decode B carrier with
  | .ok m => .ok m
  | .error e => .error (.protobufDecode e.toText)

structure ProtoArtifactView where
  payload : Bytes
  algWire : Int32
  signature : Bytes
  keyid : Option Text
deriving Repr, DecidableEq

def viewSignatureCarrier (B : Buffa) (carrier : Bytes) : Except CoreError ProtoArtifactView :=
  match decodeSignatureCarrier B carrier with
  | .error e => .error e
  | .ok sig => .ok {
      payload := []
      algWire := sig.algorithmWireValue
      signature := sig.signature
      keyid := sig.keyid }

theorem decomposeProtoOuter_eq_ok_iff {wire p c : Bytes} {mode : OuterConformance} :
    decomposeProtoOuter wire mode = .ok p c ↔ Pb.decomposeRawOuter wire mode = .ok p c := by
  unfold decomposeProtoOuter
  cases Pb.decomposeRawOuter wire mode with
  | malformed => exact ⟨fun h => (by cases h), fun h => (by cases h)⟩
  | ok p' c' =>
    simp only [ProtoOuterDecomposeOutcome.ok.injEq, Pb.RawOuterDecomposeOutcome.ok.injEq]

theorem decodeSignatureCarrier_eq_ok_iff {B : Buffa} {c : Bytes} {m : Pb.YamlSigilSignature} :
    decodeSignatureCarrier B c = .ok m ↔ Pb.YamlSigilSignature.decode B c = .ok m := by
  unfold decodeSignatureCarrier
  cases Pb.YamlSigilSignature.decode B c with
  | error e => exact ⟨fun h => (by cases h), fun h => (by cases h)⟩
  | ok m' => simp only [Except.ok.injEq]

theorem viewSignatureCarrier_eq_ok_iff {B : Buffa} {c : Bytes} {v : ProtoArtifactView} :
    viewSignatureCarrier B c = .ok v ↔
      ∃ m, Pb.YamlSigilSignature.decode B c = .ok m ∧
        v = ⟨[], m.algorithmWireValue, m.signature, m.keyid⟩ := by
  unfold viewSignatureCarrier
  cases hd : decodeSignatureCarrier B c with
  | error e =>
    refine ⟨fun h => (by cases h), fun h => ?_⟩
    rcases h with ⟨m, hm, _⟩
    rw [decodeSignatureCarrier_eq_ok_iff.mpr hm] at hd
    cases hd
  | ok m =>
    have hm := decodeSignatureCarrier_eq_ok_iff.mp hd
    rw [hm]
    constructor
    · intro h
      exact ⟨m, rfl, (Except.ok.inj h).symm⟩
    · intro h
      rcases h with ⟨m', hm', hv⟩
      rw [hv, Except.ok.inj hm']

/-! ## The scanner against the message decoder -/

/-- In an accepted wire there is one signature field, and it is the carrier. -/
theorem records_of_decomposeRawOuter {wire p c : Bytes} {mode : OuterConformance}
    (h : Pb.decomposeRawOuter wire mode = .ok p c) :
    ∃ rs, Records wire rs ∧ p = (bodies 1 rs).getLast?.getD [] ∧ bodies 2 rs = [c] := by
  obtain ⟨rs, hrs, hg, hp, hc⟩ := Pb.decomposeRawOuter_eq_ok_iff.mp h
  obtain ⟨-, hone⟩ := Pb.outerGrammar_iff.mp hg
  obtain ⟨b, hb⟩ := List.length_eq_one_iff.mp hone
  unfold Pb.outerCarrier at hc
  rw [hb] at hc
  have hc : c = b := hc
  exact ⟨rs, hrs, hp, by rw [hb, hc]⟩

theorem length_payload_le {wire p c : Bytes} {mode : OuterConformance}
    (h : decomposeProtoOuter wire mode = .ok p c) : p.length ≤ wire.length := by
  obtain ⟨rs, hrs, hp, -⟩ := records_of_decomposeRawOuter (decomposeProtoOuter_eq_ok_iff.mp h)
  cases hlast : (bodies 1 rs).getLast? with
  | none =>
    rw [hp, hlast]
    exact Nat.zero_le _
  | some b =>
    rw [hp, hlast]
    exact hrs.length_body_le (List.mem_of_getLast? hlast)

end Core
end YamlSigil
