/-
The proto3 reading of the two messages, and what is assumed of the library.

A message is merged from its records one by one: the last value of a scalar
field wins, a message field is merged into the value it already has, a record of
an unknown field is kept, and a known field with another wire type is an error.
`FollowsProto3` says that the generated decoders read group-free wires this way.
-/
import YamlSigil.Core.Pb.Encode

namespace YamlSigil
namespace Core
namespace Pb

open Format Wire

namespace Proto3

def pushUnknown (u : UnknownFields) (r : Record) : UnknownFields := ⟨u.fields ++ [r.encode]⟩

/-- An enum number is the low 32 bits of its varint. -/
def enumNumber (v : Nat) : Int32 := (UInt32.ofNat v).toInt32

def mergeSignatureField (m : GeneratedYamlSigilSignature) (r : Record) :
    Option GeneratedYamlSigilSignature :=
  if r.field = 1 then
    match r.value with
    | .varint v => some { m with alg := enumNumber v }
    | .i64 _ | .len _ | .i32 _ => none
  else if r.field = 2 then
    match r.value with
    | .len b => (fromUtf8 b).map fun keyid => { m with keyid := some keyid }
    | .varint _ | .i64 _ | .i32 _ => none
  else if r.field = 3 then
    match r.value with
    | .len b => some { m with signature := b }
    | .varint _ | .i64 _ | .i32 _ => none
  else some { m with unknownFields := pushUnknown m.unknownFields r }

def mergeSignature (m : GeneratedYamlSigilSignature) (wire : Bytes) :
    Option GeneratedYamlSigilSignature :=
  (split wire).bind fun rs => rs.foldlM mergeSignatureField m

def decodeSignature (wire : Bytes) : Option GeneratedYamlSigilSignature := mergeSignature {} wire

/-- Merge one occurrence of the nested message. -/
def mergeNested (s : Option GeneratedYamlSigilSignature) (b : Bytes) :
    Option (Option GeneratedYamlSigilSignature) :=
  (mergeSignature (s.getD {}) b).map some

def mergeArtifactField (m : GeneratedSignedYamlArtifact) (r : Record) :
    Option GeneratedSignedYamlArtifact :=
  if r.field = 1 then
    match r.value with
    | .len b => some { m with payload := b }
    | .varint _ | .i64 _ | .i32 _ => none
  else if r.field = 2 then
    match r.value with
    | .len b => (mergeNested m.signature b).map fun s => { m with signature := s }
    | .varint _ | .i64 _ | .i32 _ => none
  else some { m with unknownFields := pushUnknown m.unknownFields r }

def decodeArtifact (wire : Bytes) : Option GeneratedSignedYamlArtifact :=
  (split wire).bind fun rs => rs.foldlM mergeArtifactField {}

end Proto3

/-- The library reads wires without groups as proto3 does.  A signature message
without unknown fields touches none of its other safeguards. -/
structure Buffa.FollowsProto3 (B : Buffa) : Prop where
  ceiling : B.maxMessageBytes = 0x7FFFFFFF
  artifact : ∀ {wire rs g}, Records wire rs → B.decodeArtifact wire = .ok g →
    Proto3.decodeArtifact wire = some g
  signature : ∀ {wire rs g}, Records wire rs → B.decodeSignature wire = .ok g →
    Proto3.decodeSignature wire = some g
  accepts : ∀ {wire g}, Proto3.decodeSignature wire = some g → g.unknownFields = {} →
    wire.length ≤ B.maxMessageBytes.toNat → B.decodeSignature wire = .ok g

namespace Proto3

/-- The proto3 decoders as a library. -/
def buffa : Buffa where
  maxMessageBytes := 0x7FFFFFFF
  decodeArtifact wire :=
    match decodeArtifact wire with
    | some g => .ok g
    | none => .error .unclassified
  decodeSignature wire :=
    match decodeSignature wire with
    | some g => .ok g
    | none => .error .unclassified

theorem buffa_followsProto3 : buffa.FollowsProto3 where
  ceiling := rfl
  artifact := by
    intro wire rs g _ h
    show decodeArtifact wire = some g
    have h : (match decodeArtifact wire with
      | some g => Except.ok g
      | none => .error BuffaError.unclassified) = .ok g := h
    cases hd : decodeArtifact wire with
    | none =>
      rw [hd] at h
      cases h
    | some g' =>
      rw [hd] at h
      rw [Except.ok.inj h]
  signature := by
    intro wire rs g _ h
    show decodeSignature wire = some g
    have h : (match decodeSignature wire with
      | some g => Except.ok g
      | none => .error BuffaError.unclassified) = .ok g := h
    cases hd : decodeSignature wire with
    | none =>
      rw [hd] at h
      cases h
    | some g' =>
      rw [hd] at h
      rw [Except.ok.inj h]
  accepts := by
    intro wire g h _ _
    show (match decodeSignature wire with
      | some g => Except.ok g
      | none => .error BuffaError.unclassified) = .ok g
    rw [h]

/-! ## The artifact message -/

theorem enumNumber_toNat (n : Int32) : enumNumber n.toInt64.toUInt64.toNat = n := by
  unfold enumNumber
  rw [UInt32.ofNat_uInt64ToNat]
  apply Int32.toBitVec_inj.mp
  rw [UInt32.toBitVec_toInt32, UInt64.toBitVec_toUInt32, Int64.toBitVec_toUInt64,
    Int32.toBitVec_toInt64]
  ext i hi
  simp [hi, BitVec.getLsbD_signExtend]
  omega

def algorithmRecords (n : Int32) : List Record :=
  if n ≠ 0 then [⟨1, .varint n.toInt64.toUInt64.toNat⟩] else []

def keyidRecords : Option Text → List Record
  | some keyid => [⟨2, .len (asBytes keyid)⟩]
  | none => []

def signatureRecords (signature : Bytes) : List Record :=
  if signature ≠ [] then [⟨3, .len signature⟩] else []

/-- The records the facade writes for a message without unknown fields. -/
def facadeRecords (m : YamlSigilSignature) : List Record :=
  algorithmRecords m.algorithmWireValue ++ keyidRecords m.keyid ++ signatureRecords m.signature

theorem records_ite {p : Prop} [Decidable p] {b : Bytes} {r : Record} (h : IsRecord b r) :
    Records (if p then b else []) (if p then [r] else []) := by
  by_cases hp : p
  · rw [if_pos hp, if_pos hp]
    exact .single h
  · rw [if_neg hp, if_neg hp]
    exact .nil

theorem records_octets {m : YamlSigilSignature} (hu : m.unknownFields = {})
    (hlen : m.octets.length < 2 ^ 64) : Records m.octets (facadeRecords m) := by
  obtain ⟨hk, hs⟩ := LawfulFacade.fits_of_lt (a := m) hlen
  have halg : Records (YamlSigilSignature.algorithmOctets m.algorithmWireValue)
      (algorithmRecords m.algorithmWireValue) :=
    records_ite (isRecord_varintField (by decide) (UInt64.toNat_lt _))
  have hkeyid : Records (YamlSigilSignature.keyidOctets m.keyid) (keyidRecords m.keyid) := by
    cases hkid : m.keyid with
    | none => exact .nil
    | some keyid => exact .single (isRecord_lenField (by decide) (hk keyid hkid))
  have hsig : Records (YamlSigilSignature.signatureOctets m.signature)
      (signatureRecords m.signature) :=
    records_ite (isRecord_lenField (by decide) hs)
  unfold YamlSigilSignature.octets
  rw [hu, List.flatten_nil, List.append_nil]
  exact (halg.append hkeyid).append hsig

theorem merge_algorithmRecords (n : Int32) :
    (algorithmRecords n).foldlM mergeSignatureField {} = some { alg := n } := by
  unfold algorithmRecords
  by_cases hn : n = 0
  · subst hn
    rfl
  · rw [if_pos hn]
    show some (GeneratedYamlSigilSignature.mk (enumNumber n.toInt64.toUInt64.toNat) none [] {}) = _
    rw [enumNumber_toNat]

theorem merge_keyidRecords (n : Int32) (keyid : Option Text) :
    (keyidRecords keyid).foldlM mergeSignatureField { alg := n } = some { alg := n, keyid } := by
  cases keyid with
  | none => rfl
  | some keyid =>
    show ((Utf8.decode (asBytes keyid)).map _).bind _ = _
    rw [Utf8.decode_encode]
    rfl

theorem merge_signatureRecords (n : Int32) (keyid : Option Text) (signature : Bytes) :
    (signatureRecords signature).foldlM mergeSignatureField { alg := n, keyid } =
      some { alg := n, keyid, signature } := by
  unfold signatureRecords
  by_cases hs : signature = []
  · subst hs
    rfl
  · rw [if_pos hs]
    rfl

theorem merge_facadeRecords (m : YamlSigilSignature) :
    (facadeRecords m).foldlM mergeSignatureField {} =
      some ⟨m.algorithmWireValue, m.keyid, m.signature, {}⟩ := by
  unfold facadeRecords
  rw [List.foldlM_append, List.foldlM_append, merge_algorithmRecords]
  show ((List.foldlM mergeSignatureField _ _).bind _) = _
  rw [merge_keyidRecords]
  exact merge_signatureRecords _ _ _

/-- What the facade writes, proto3 reads back. -/
theorem decodeSignature_octets {m : YamlSigilSignature} (hu : m.unknownFields = {})
    (hlen : m.octets.length < 2 ^ 64) :
    decodeSignature m.octets = some ⟨m.algorithmWireValue, m.keyid, m.signature, {}⟩ := by
  unfold decodeSignature mergeSignature
  rw [split_eq_some_iff.mpr (records_octets hu hlen), Option.bind_some]
  exact merge_facadeRecords m

end Proto3

/-- Encoding and decoding a signature message without unknown fields. -/
theorem YamlSigilSignature.decode_of_encodeToVec {B : Buffa} (hB : B.FollowsProto3)
    {m : YamlSigilSignature} {wire : Bytes} (hu : m.unknownFields = {})
    (h : m.encodeToVec B = .ok wire) : YamlSigilSignature.decode B wire = .ok m := by
  have hmax := B.maxMessageBytes.toNat_lt
  obtain ⟨hw, hle⟩ := encodeFacadeToVec_eq_ok_iff.mp h
  have hw : wire = m.octets := hw
  subst hw
  have hdec := hB.accepts (Proto3.decodeSignature_octets hu (by omega)) rfl hle
  unfold YamlSigilSignature.decode
  rw [hdec]
  obtain ⟨n, keyid, signature, unknown⟩ := m
  subst hu
  rfl

end Pb
end Core
end YamlSigil
