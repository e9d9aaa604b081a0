/-
Signing under a size policy.

A request is sized before anything is signed: the protobuf form exactly, the
YAML form from below, since its signature scalar may need quotes.  The formulas
are the source's own and do not run the emitters; that they agree with what the
emitters write is proved here.
-/
import YamlSigil.Signing.SignThenVerify
import YamlSigil.Transcription.Bounded

namespace YamlSigil
namespace Signing

open Format YamlSigil.Core Transcription
open Pb (Buffa EncodeErrorKind Admission Filters filters_of_outcomes)
open Verification (Octets64)

/-! ## Sizes -/

def fixedSignatureBytes : Nat := 64

def varintLen (value : UInt64) : Nat := Varint.countOctets value

/-- `usize::checked_mul`. -/
def checkedMul (a b : Nat) : Option Nat := usizeOf (a * b)

section
variable {Ed25519 P256 : Type} (req : SignRequest Ed25519 P256)

def validateInvocationShape : Except SignInvocationError Unit := do
  validateInvocationParameters req
  validateKeyAlgorithm req

/-- The line feed that signing will append. -/
def projectedLf : Nat :=
  if !req.payload.isEmpty && !([0x0A].isSuffixOf req.payload) &&
      req.appendMissingFinalNewline then 1
  else 0

/-- Two bits and 64 octets in letters of six bits. -/
def minimumSignatureTextLen : Option Nat := do
  let bits ← checkedMul fixedSignatureBytes 4
  let rounded ← checkedAdd bits 2
  some (rounded / 3)

/-- The carrier with no character of the key identifier escaped, and with the
signature plain. -/
def minimumCarrierLen : Option Nat := do
  let minimumSignatureTextLen ← minimumSignatureTextLen
  let size ← checkedAdd (asBytes "schema: ".toList).length (asBytes schemaV1alpha1).length
  let size ← checkedAdd size 1
  let size ← checkedAdd size (asBytes "alg: ".toList).length
  let size ← checkedAdd size (asBytes req.algorithm.asYamlStr).length
  let size ← checkedAdd size 1
  let size ←
    match req.keyid with
    | none => some size
    | some keyid => do
      let size ← checkedAdd size (asBytes "keyid: ".toList).length
      let size ← checkedAdd size 2
      let size ← checkedAdd size (asBytes keyid).length
      checkedAdd size 1
  let size ← checkedAdd size (asBytes "signature: ".toList).length
  let size ← checkedAdd size minimumSignatureTextLen
  checkedAdd size 1

def minimumArtifactLen : Option Nat := do
  let minimumCarrierLen ← minimumCarrierLen req
  let size ← checkedAdd req.payload.length (projectedLf req)
  let size ← checkedAdd size 4
  checkedAdd size minimumCarrierLen

def checkedYamlSigningLowerBound (limits : ArtifactResourceLimits) :
    Except ArtifactResourceError Nat :=
  match minimumArtifactLen req with
  | none => .error (limits.sizeComputationOverflow .yaml)
  | some minimumArtifactLen => limits.checkOutputSizeLowerBound .yaml minimumArtifactLen

end

/-- `u64` sizes are numbers below `2 ^ 64`. -/
def checkedLenFieldSize (valueLen : Nat) : Option Nat :=
  (checkedAdd 1 (varintLen (UInt64.ofNat valueLen))).bind (checkedAdd · valueLen)

/-- The wire of a payload, a key identifier and 64 signature octets.  The
algorithm takes two octets. -/
def protoSigningSize (payloadLen : Nat) (keyidLen : Option Nat) : Option Nat := do
  let carrierLen ←
    match keyidLen with
    | none => some 2
    | some keyidLen => (checkedLenFieldSize keyidLen).bind (checkedAdd 2)
  let carrierLen ← (checkedLenFieldSize fixedSignatureBytes).bind (checkedAdd carrierLen)
  let payloadSize ← checkedLenFieldSize payloadLen
  let carrierSize ← checkedLenFieldSize carrierLen
  checkedAdd payloadSize carrierSize

section
variable (B : Buffa)

def checkedProtoSigningSizeFromLengths (payloadLen : Nat) (keyidLen : Option Nat)
    (limits : ArtifactResourceLimits) :
    Except ArtifactResourceError (Except EncodeErrorKind Nat) :=
  match protoSigningSize payloadLen keyidLen with
  | none => .error (limits.sizeComputationOverflow .protobuf)
  | some encodedSize =>
    (limits.checkOutputSize .protobuf encodedSize).map fun _ =>
      Pb.checkEncodedMessageSize B encodedSize

/-- `u64::try_from` of the length of an optional text. -/
def keyidLenTryFrom : Option Text → Option (Option Nat)
  | none => some none
  | some keyid => (usizeOf (asBytes keyid).length).map some

variable {Ed25519 P256 : Type} (req : SignRequest Ed25519 P256) (limits : ArtifactResourceLimits)

def checkedProtoSigningSize : Except ArtifactResourceError (Except EncodeErrorKind Nat) :=
  match usizeOf req.payload.length, keyidLenTryFrom req.keyid with
  | some payloadLen, some keyidLen =>
    checkedProtoSigningSizeFromLengths B payloadLen keyidLen limits
  | _, _ => .error (limits.sizeComputationOverflow .protobuf)

def preflightSigningOutput : Except ArtifactResourceError (Except EncodeErrorKind Nat) :=
  match req.outputForm with
  | .yaml => (checkedYamlSigningLowerBound req limits).map .ok
  | .protobuf => checkedProtoSigningSize B req limits

end

/-! ## Signing with the built-in keys -/

section
variable (C : SigningCrypto) (K : Backend) (draws : List C.Nonce)

/-- The size is checked between the shape and the content of the request. -/
def signWithResourceLimits (req : SignRequest C.Ed25519SigningKey C.P256SigningKey)
    (limits : ArtifactResourceLimits) :
    Run (Except ArtifactResourceError (Except EncodeErrorKind SignOutcome)) :=
  match validateInvocationShape req with
  | .error e => some (.ok (.ok (.invocation e)))
  | .ok () =>
    match preflightSigningOutput K.buffa req limits with
    | .error e => some (.error e)
    | .ok (.error e) => some (.ok (.error e))
    | .ok (.ok _) =>
      match validateKeyidContent req with
      | .error e => some (.ok (.ok (.invocation e)))
      | .ok () =>
        (signAfterInvocationValidation K req (some limits) fun payload =>
          signDigest C draws payload req.algorithm req.key).map fun r => r.map .ok

end

/-! ## The YAML size from below -/

/-- One more summand in a chain of checked additions. -/
theorem bind_bind_usizeOf {α : Type} (a b : Nat) (next : Nat → Option α) :
    ((usizeOf a).bind fun x => (usizeOf (x + b)).bind next) = (usizeOf (a + b)).bind next := by
  rw [← bind_checkedAdd a b]
  cases usizeOf a with
  | none => rfl
  | some x => rfl

theorem eq_of_usizeOf {n m : Nat} (h : usizeOf n = some m) : n = m := by
  rcases Nat.lt_or_ge n (2 ^ 64) with hlt | hge
  · rw [usizeOf_of_lt hlt] at h
    exact Option.some.inj h
  · rw [usizeOf_of_le hge] at h
    cases h

theorem bind_usizeOf (a b : Nat) : ((usizeOf a).bind fun x => usizeOf (x + b)) = usizeOf (a + b) :=
  bind_checkedAdd a b

theorem minimumSignatureTextLen_eq : minimumSignatureTextLen = some 86 := by
  decide

theorem length_asBytes_keys : (asBytes "schema: ".toList).length = 8 ∧
    (asBytes schemaV1alpha1).length = 27 ∧ (asBytes "alg: ".toList).length = 5 ∧
    (asBytes "keyid: ".toList).length = 7 ∧ (asBytes "signature: ".toList).length = 11 := by
  decide

section
variable {Ed25519 P256 : Type} (req : SignRequest Ed25519 P256)

def minimumKeyidLine : Option Text → Nat
  | none => 0
  | some keyid => (asBytes keyid).length + 10

/-- The octets of the carrier's lines. -/
def minimumCarrierLength : Nat :=
  42 + (asBytes req.algorithm.asYamlStr).length + minimumKeyidLine req.keyid + 98

theorem minimumCarrierLen_eq : minimumCarrierLen req = usizeOf (minimumCarrierLength req) := by
  obtain ⟨hschema, hname, halg, hkeyid, hsignature⟩ := length_asBytes_keys
  rw [minimumCarrierLen, minimumCarrierLength, minimumSignatureTextLen_eq]
  cases req.keyid with
  | none =>
    simp only [Option.bind_eq_bind, Option.bind_some, checkedAdd_eq, bind_usizeOf,
      Nat.add_assoc, hschema, hname, halg, hsignature, minimumKeyidLine]
    exact congrArg usizeOf (by omega)
  | some keyid =>
    simp only [Option.bind_eq_bind, Option.bind_some, checkedAdd_eq, bind_usizeOf,
      Nat.add_assoc, hschema, hname, halg, hkeyid, hsignature, minimumKeyidLine]
    exact congrArg usizeOf (by omega)

def minimumLength : Nat := req.payload.length + projectedLf req + 4 + minimumCarrierLength req

theorem minimumArtifactLen_eq : minimumArtifactLen req = usizeOf (minimumLength req) := by
  rw [minimumArtifactLen, minimumCarrierLen_eq, minimumLength,
    Nat.add_comm _ (minimumCarrierLength req), ← bind_bind_checkedAdd]
  simp only [Option.bind_eq_bind, checkedAdd_eq, bind_bind_usizeOf]
  congr 1
  funext carrier
  congr 1
  funext size
  rw [Nat.add_comm]

variable {req} {K : Backend} (hK : K.Lawful)

/-- A plain or quoted signature is at least as long as its letters. -/
theorem length_le_signatureScalar (K : Backend) (value : Text) :
    (asBytes value).length ≤ (asBytes (SignatureFields.signatureScalar K value)).length := by
  rw [SignatureFields.signatureScalar]
  by_cases hp : plainYamlScalarRoundTripsAsString K value = true
  · rw [if_pos hp]
  · rw [if_neg hp]
    have := length_le_quoteYamlString value
    omega

theorem minimumKeyidLine_le (keyid : Option Text) :
    minimumKeyidLine keyid ≤
      ((SignatureFields.keyidLines keyid).map fun l => (asBytes l).length + 1).sum := by
  cases keyid with
  | none => exact Nat.zero_le _
  | some keyid =>
    have hkey : (asBytes "keyid".toList).length = 5 := by decide
    have hquote := length_le_quoteYamlString keyid
    show (asBytes keyid).length + 10 ≤
      (asBytes (Yaml.entryLine "keyid".toList (quoteYamlString keyid))).length + 1 + 0
    rw [SignatureFields.length_asBytes_entryLine, hkey]
    omega

include hK

theorem minimumCarrierLength_le {signature : Bytes} (hlen : signature.length = 64) :
    minimumCarrierLength req ≤ (asBytes ((req.fields signature).yamlText K)).length := by
  have h1 : (asBytes "schema".toList).length = 6 := by decide
  have h2 : (asBytes schemaV1alpha1).length = 27 := by decide
  have h3 : (asBytes "alg".toList).length = 3 := by decide
  have h4 : (asBytes "signature".toList).length = 9 := by decide
  have hkeyid := minimumKeyidLine_le req.keyid
  have hletters := SignatureFields.length_asBytes_encode hK.base64 signature
  have hscalar := length_le_signatureScalar K (K.base64.encode signature)
  rw [hlen] at hletters
  rw [SignatureFields.yamlText, SignatureFields.lines, SignatureFields.length_asBytes_unlines,
    List.map_append, List.map_append, List.sum_append, List.sum_append]
  simp only [List.map_cons, List.map_nil, List.sum_cons, List.sum_nil,
    SignatureFields.length_asBytes_entryLine, h1, h2, h3, h4]
  rw [minimumCarrierLength]
  show _ ≤ 6 + 2 + 27 + 1 + (3 + 2 + (asBytes req.algorithm.asYamlStr).length + 1 + 0) +
    (((SignatureFields.keyidLines req.keyid).map fun l => (asBytes l).length + 1).sum +
      (9 + 2 + (asBytes (SignatureFields.signatureScalar K (K.base64.encode signature))).length + 1 +
        0))
  omega

omit hK in
theorem length_normalizeYamlPayload {payload out : Bytes} {append : Bool}
    (h : normalizeYamlPayload payload append = .ok out) :
    out.length = payload.length +
      if !payload.isEmpty && !([0x0A].isSuffixOf payload) && append then 1 else 0 := by
  rw [normalizeYamlPayload] at h
  split at h
  · cases h
  · split at h
    · cases h
    · split at h
      · next hempty =>
        cases h
        rw [List.isEmpty_iff.mp hempty]
        rfl
      · next hempty =>
        split at h
        · next hlf =>
          cases h
          simp [hlf]
        · next hlf =>
          split at h
          · next happend =>
            cases h
            simp [hempty, hlf, happend]
          · cases h

omit hK in
/-- The prepared octets have the projected number. -/
theorem length_prepared {prepared : PreparedSigningPayload}
    (h : prepareSigningPayload req = .ok prepared) (hyaml : req.outputForm = .yaml) :
    prepared.payload.length = req.payload.length + projectedLf req := by
  rw [projectedLf]
  exact length_normalizeYamlPayload (prepareSigningPayload_yaml hyaml h).1

/-- The lower bound is one. -/
theorem minimumLength_le {prepared : PreparedSigningPayload} {signature : Octets64} {a : Bytes}
    (hyaml : req.outputForm = .yaml) (hprepared : prepareSigningPayload req = .ok prepared)
    (h : emitYamlArtifact K prepared.payload req signature = some (.ok a)) :
    minimumLength req ≤ a.length := by
  have hcarrier : minimumCarrierLength req ≤
      (asBytes ((req.fields signature).yamlText K)).length :=
    minimumCarrierLength_le hK signature.property
  have hpayload := length_prepared hprepared hyaml
  cases emitYamlArtifact_spec hK h with
  | yaml hp =>
    have hmarker : (marker .lf).length = 4 := rfl
    rw [List.length_append, List.length_append, hmarker, hpayload, minimumLength]
    omega

end

/-! ## The protobuf size -/

theorem checkedLenFieldSize_eq (n : Nat) : checkedLenFieldSize n = usizeOf (Wire.lenFieldSize n) := by
  rw [checkedLenFieldSize]
  rcases Nat.lt_or_ge n (2 ^ 64) with hlt | hge
  · have hn : (UInt64.ofNat n).toNat = n := by
      rw [UInt64.toNat_ofNat']
      omega
    have hfield := checkedLenField (UInt64.ofNat n)
    rw [hn] at hfield
    exact hfield
  · have hle := le_lenFieldSize n
    rw [checkedAdd_eq, bind_checkedAdd, usizeOf_of_le (by omega), usizeOf_of_le (by omega)]

def keyidFieldSize : Option Nat → Nat
  | none => 0
  | some keyidLen => Wire.lenFieldSize keyidLen

def signatureMessageSize (keyidLen : Option Nat) : Nat :=
  2 + keyidFieldSize keyidLen + Wire.lenFieldSize fixedSignatureBytes

theorem checkedLenFieldSize_signature :
    checkedLenFieldSize fixedSignatureBytes = some (Wire.lenFieldSize fixedSignatureBytes) := by
  rw [checkedLenFieldSize_eq]
  apply usizeOf_of_lt
  rw [Wire.lenFieldSize, Varint.encode_of_lt (by decide)]
  decide

/-- The two fields of the outer message, when the carrier has `n` octets. -/
theorem bind_outerFields (payloadLen n : Nat) :
    ((usizeOf n).bind fun carrierLen => (checkedLenFieldSize payloadLen).bind fun payloadSize =>
      (checkedLenFieldSize carrierLen).bind fun carrierSize =>
        checkedAdd payloadSize carrierSize) =
      usizeOf (Wire.lenFieldSize payloadLen + Wire.lenFieldSize n) := by
  rcases Nat.lt_or_ge n (2 ^ 64) with hlt | hge
  · rw [usizeOf_of_lt hlt, Option.bind_some, checkedLenFieldSize_eq, checkedLenFieldSize_eq,
      bind_bind_checkedAdd]
  · have hle := le_lenFieldSize n
    have hover : 2 ^ 64 ≤ Wire.lenFieldSize payloadLen + Wire.lenFieldSize n := by omega
    rw [usizeOf_of_le hge, usizeOf_of_le hover]
    rfl

theorem protoSigningSize_eq (payloadLen : Nat) (keyidLen : Option Nat) :
    protoSigningSize payloadLen keyidLen =
      usizeOf (Wire.lenFieldSize payloadLen +
        Wire.lenFieldSize (signatureMessageSize keyidLen)) := by
  unfold protoSigningSize
  rw [checkedLenFieldSize_signature, signatureMessageSize]
  cases keyidLen with
  | none =>
    simp only [Option.bind_eq_bind, Option.bind_some, checkedAdd_eq 2]
    exact bind_outerFields payloadLen _
  | some keyidLen =>
    have hkeyid : (checkedLenFieldSize keyidLen).bind (checkedAdd 2) =
        usizeOf (2 + Wire.lenFieldSize keyidLen) := by
      rw [checkedLenFieldSize_eq, Nat.add_comm, ← bind_checkedAdd]
      congr 1
      funext size
      rw [checkedAdd_eq, checkedAdd_eq, Nat.add_comm]
    simp only [Option.bind_eq_bind, Option.bind_some, hkeyid, checkedAdd_eq, bind_bind_usizeOf]
    exact bind_outerFields payloadLen _

section
variable {K : Backend} {Ed25519 P256 : Type} {req : SignRequest Ed25519 P256}

/-- The signature message has the projected number of octets. -/
theorem length_encodeInner {signature : Octets64} {c : Bytes}
    (h : encodeInnerSignatureCarrier K.buffa req.algorithm signature req.keyid = some c) :
    c.length = signatureMessageSize (req.keyid.map fun k => (asBytes k).length) := by
  obtain ⟨hc, -⟩ := Pb.encodeFacadeToVec_eq_ok_iff.mp (expectOk_eq_some_iff.mp h)
  have halg : ∀ alg : AlgorithmId,
      (Pb.YamlSigilSignature.algorithmOctets alg.wireValue).length = 2 := by
    intro alg
    rw [Pb.YamlSigilSignature.algorithmOctets, if_pos (by cases alg <;> decide)]
    exact Wire.length_varintField_of_lt (by decide) (by cases alg <;> decide)
  have hkeyid : (Pb.YamlSigilSignature.keyidOctets req.keyid).length =
      keyidFieldSize (req.keyid.map fun k => (asBytes k).length) := by
    cases req.keyid with
    | none => rfl
    | some keyid => exact Wire.length_lenField (by decide) _
  have hsignature : (Pb.YamlSigilSignature.signatureOctets signature.val).length =
      Wire.lenFieldSize fixedSignatureBytes := by
    have hne : signature.val ≠ [] := fun hnil => by
      have hlen := signature.property
      rw [hnil] at hlen
      cases hlen
    rw [Pb.YamlSigilSignature.signatureOctets, if_pos hne, Wire.length_lenField (by decide),
      signature.property]
    rfl
  rw [hc]
  show (Pb.YamlSigilSignature.algorithmOctets req.algorithm.wireValue ++
    Pb.YamlSigilSignature.keyidOctets req.keyid ++
    Pb.YamlSigilSignature.signatureOctets signature.val ++ []).length = _
  rw [List.append_nil, List.length_append, List.length_append, halg, hkeyid, hsignature]
  rfl

theorem protoSigningSize_of_emitted {signature : Octets64} {a : Bytes}
    (h : emitProtoArtifact K req.payload req signature = some (.ok a)) :
    protoSigningSize req.payload.length (req.keyid.map fun k => (asBytes k).length) =
      some a.length := by
  obtain ⟨c, hc, h⟩ := Option.bind_eq_some_iff.mp h
  obtain ⟨w, hw, h⟩ := Option.bind_eq_some_iff.mp h
  cases h
  obtain ⟨hoctets, hlt⟩ := Pb.composeRawOuter_eq_some_iff.mp hw
  have hlen := length_rawOuter req.payload c
  rw [← hoctets, length_encodeInner hc] at hlen
  rw [protoSigningSize_eq, ← hlen, usizeOf_of_lt hlt]

end

/-! ## The preflight -/

section
variable {Ed25519 P256 : Type} (req : SignRequest Ed25519 P256)

/-- The size that the preflight computes: exact for the protobuf form. -/
def projectedLength : Nat :=
  match req.outputForm with
  | .yaml => minimumLength req
  | .protobuf => Wire.lenFieldSize req.payload.length +
    Wire.lenFieldSize (signatureMessageSize (req.keyid.map fun k => (asBytes k).length))

variable (B : Buffa) (limits : ArtifactResourceLimits)

theorem le_signatureMessageSize (keyidLen : Nat) :
    keyidLen ≤ signatureMessageSize (some keyidLen) := by
  have hle := le_lenFieldSize keyidLen
  rw [signatureMessageSize, keyidFieldSize]
  omega

theorem keyidLenTryFrom_cases (keyid : Option Text) :
    keyidLenTryFrom keyid = some (keyid.map fun k => (asBytes k).length) ∨
      keyidLenTryFrom keyid = none ∧
        2 ^ 64 ≤ signatureMessageSize (keyid.map fun k => (asBytes k).length) := by
  cases keyid with
  | none => exact .inl rfl
  | some k =>
    rw [keyidLenTryFrom]
    rcases Nat.lt_or_ge (asBytes k).length (2 ^ 64) with hlt | hge
    · rw [usizeOf_of_lt hlt]
      exact .inl rfl
    · rw [usizeOf_of_le hge]
      have hle := le_signatureMessageSize (asBytes k).length
      exact .inr ⟨rfl, Nat.le_trans hge hle⟩

theorem checkedProtoSigningSize_spec {n : Nat} (hn : n = Wire.lenFieldSize req.payload.length +
    Wire.lenFieldSize (signatureMessageSize (req.keyid.map fun k => (asBytes k).length))) :
    Admission B limits n n (checkedProtoSigningSize B req limits) := by
  have hpayload := le_lenFieldSize req.payload.length
  have hmessage := le_lenFieldSize
    (signatureMessageSize (req.keyid.map fun k => (asBytes k).length))
  rw [checkedProtoSigningSize]
  rcases Nat.lt_or_ge req.payload.length (2 ^ 64) with hlt | hge
  · rw [usizeOf_of_lt hlt]
    rcases keyidLenTryFrom_cases req.keyid with hkeyid | ⟨hkeyid, hover⟩
    · rw [hkeyid]
      simp only
      rw [checkedProtoSigningSizeFromLengths, protoSigningSize_eq, ← hn]
      rcases Nat.lt_or_ge n (2 ^ 64) with hlt | hge
      · rw [usizeOf_of_lt hlt]
        exact Pb.admission_checkOutputSize B limits hlt
      · rw [usizeOf_of_le hge]
        exact Pb.admission_overflow B limits n hge
    · rw [hkeyid]
      exact Pb.admission_overflow B limits n (by omega)
  · rw [usizeOf_of_le hge]
    exact Pb.admission_overflow B limits n (by omega)

theorem checkedYamlSigningLowerBound_spec :
    Filters B limits False (minimumLength req) (some (minimumLength req))
      (some ((checkedYamlSigningLowerBound req limits).map .ok)) := by
  rw [checkedYamlSigningLowerBound, minimumArtifactLen_eq]
  rcases Nat.lt_or_ge (minimumLength req) (2 ^ 64) with hlt | hge
  · rw [usizeOf_of_lt hlt]
    simp only
    refine filters_of_outcomes (fun h => ?_) (fun _ hwire => hwire.elim) fun h _ => ?_
    · obtain ⟨e, he, hkind, -⟩ := ArtifactResourceLimits.checkOutputSizeLowerBound_of_exceeded .yaml
        (ArtifactResourceLimits.exceeded_of_lt h hlt)
      rw [he]
      exact ⟨e, rfl, fun _ => hkind⟩
    · rw [ArtifactResourceLimits.checkOutputSizeLowerBound_of_not_exceeded .yaml
        (ArtifactResourceLimits.not_exceeded_of_le h)]
      rfl
  · rw [usizeOf_of_le hge]
    refine filters_of_outcomes (fun _ => ⟨_, rfl, fun hlt => ?_⟩) (fun _ hwire => hwire.elim)
      fun h _ => ?_
    · exact absurd hlt (Nat.not_lt.mpr hge)
    · exact absurd (ArtifactResourceLimits.lt_of_le_ceiling h) (Nat.not_lt.mpr hge)

/-- The preflight lets pass what the policy and the format let pass. -/
theorem preflightSigningOutput_spec :
    Filters B limits (req.outputForm = .protobuf) (projectedLength req)
      (some (projectedLength req)) (some (preflightSigningOutput B req limits)) := by
  rw [preflightSigningOutput, projectedLength]
  cases req.outputForm with
  | yaml =>
    exact (checkedYamlSigningLowerBound_spec req B limits).of_wire
      (iff_of_false id fun h => (by cases h))
  | protobuf =>
    exact (checkedProtoSigningSize_spec req B limits rfl).filters.of_wire (iff_of_true trivial rfl)

end

/-! ## The exact check -/

section
variable {K : Backend} {Ed25519 P256 : Type} {req : SignRequest Ed25519 P256}
  {prepared : PreparedSigningPayload} {signature : Octets64} {s : SignSuccess}

theorem finishSigning_protobuf (hproto : req.outputForm = .protobuf)
    (limits : Option ArtifactResourceLimits) :
    finishSigning K req prepared signature limits = finishSigning K req prepared signature none := by
  unfold finishSigning
  rw [hproto]

/-- An emission under a policy is the emission with its size checked. -/
theorem emitYamlArtifactWithResourceLimits_of_emitted {payload a : Bytes}
    (limits : ArtifactResourceLimits)
    (h : emitYamlArtifact K payload req signature = some (.ok a)) :
    (2 ^ 64 ≤ a.length → emitYamlArtifactWithResourceLimits K payload req signature limits =
      some (.error (limits.sizeComputationOverflow .yaml))) ∧
    (a.length < 2 ^ 64 → emitYamlArtifactWithResourceLimits K payload req signature limits =
      some ((limits.checkOutputSize .yaml a.length).map fun _ => .ok a)) := by
  rw [emitYamlArtifact] at h
  rw [emitYamlArtifactWithResourceLimits]
  cases hbody : serializeYamlSignatureCarrier K req signature with
  | error e =>
    rw [hbody] at h
    cases h
  | ok body =>
    rw [hbody] at h
    obtain ⟨outcome, hc, h⟩ := Option.bind_eq_some_iff.mp h
    cases outcome with
    | error e => cases h
    | invocation e => cases h
    | success s =>
      cases h
      have hlen := length_of_compose hc
      have hsum : (checkedAdd payload.length 4).bind (checkedAdd · (asBytes body).length) =
          usizeOf s.artifact.length := by
        rw [hlen]
        exact bind_checkedAdd _ _
      constructor
      · intro hge
        rw [usizeOf_of_le hge] at hsum
        simp only [hsum]
      · intro hlt
        rw [usizeOf_of_lt hlt] at hsum
        simp only [hsum]
        cases limits.checkOutputSize .yaml s.artifact.length with
        | error e => rfl
        | ok n =>
          simp only [Option.bind_eq_bind, hc, Option.bind_some]
          rfl

theorem emitYamlArtifact_of_withResourceLimits {payload a : Bytes}
    {limits : ArtifactResourceLimits}
    (h : emitYamlArtifactWithResourceLimits K payload req signature limits = some (.ok (.ok a))) :
    emitYamlArtifact K payload req signature = some (.ok a) := by
  rw [emitYamlArtifactWithResourceLimits] at h
  rw [emitYamlArtifact]
  cases hbody : serializeYamlSignatureCarrier K req signature with
  | error e =>
    rw [hbody] at h
    cases h
  | ok body =>
    rw [hbody] at h
    simp only at h ⊢
    cases hsum : (checkedAdd payload.length 4).bind (checkedAdd · (asBytes body).length) with
    | none =>
      rw [hsum] at h
      cases h
    | some encodedSize =>
      rw [hsum] at h
      simp only at h
      cases hcheck : limits.checkOutputSize .yaml encodedSize with
      | error e =>
        rw [hcheck] at h
        cases h
      | ok n =>
        rw [hcheck] at h
        obtain ⟨outcome, hc, h⟩ := Option.bind_eq_some_iff.mp h
        rw [hc]
        cases outcome with
        | error e => cases h
        | invocation e => cases h
        | success s =>
          cases h
          rfl

theorem finishSigning_yaml (hyaml : req.outputForm = .yaml) (limits : ArtifactResourceLimits) :
    finishSigning K req prepared signature (some limits) =
      (emitYamlArtifactWithResourceLimits K prepared.payload req signature limits).map
        fun r => r.map prepared.outcome := by
  unfold finishSigning
  rw [hyaml]
  simp only
  cases emitYamlArtifactWithResourceLimits K prepared.payload req signature limits with
  | none => rfl
  | some r =>
    cases r with
    | error e => rfl
    | ok emitted => cases emitted <;> rfl

theorem emitArtifact_yaml (hyaml : req.outputForm = .yaml) (payload sigBytes : Bytes) :
    emitArtifact K payload req sigBytes = emitYamlArtifact K payload req sigBytes := by
  rw [emitArtifact, hyaml]

/-- Framing under a policy is framing with the size of the artifact checked. -/
theorem finishSigning_limits (hyaml : req.outputForm = .yaml) (limits : ArtifactResourceLimits)
    (h : finishSigning K req prepared signature none = some (.ok (.success s))) :
    (2 ^ 64 ≤ s.artifact.length → finishSigning K req prepared signature (some limits) =
      some (.error (limits.sizeComputationOverflow .yaml))) ∧
    (s.artifact.length < 2 ^ 64 → finishSigning K req prepared signature (some limits) =
      some ((limits.checkOutputSize .yaml s.artifact.length).map fun _ => .success s)) := by
  obtain ⟨hemit, hmodified⟩ := finishSigning_eq_success_iff.mp h
  rw [emitArtifact_yaml hyaml] at hemit
  obtain ⟨hoverflow, hcheck⟩ := emitYamlArtifactWithResourceLimits_of_emitted limits hemit
  have houtcome : prepared.outcome (.ok s.artifact) = .success s :=
    PreparedSigningPayload.outcome_eq_success_iff.mpr ⟨rfl, hmodified⟩
  rw [finishSigning_yaml hyaml]
  constructor
  · intro hge
    rw [hoverflow hge]
    rfl
  · intro hlt
    rw [hcheck hlt, ← houtcome]
    cases limits.checkOutputSize .yaml s.artifact.length <;> rfl

theorem finishSigning_filters (hyaml : req.outputForm = .yaml) (limits : ArtifactResourceLimits)
    (h : finishSigning K req prepared signature none = some (.ok (.success s))) :
    Filters K.buffa limits False s.artifact.length (some (.success s))
      ((finishSigning K req prepared signature (some limits)).map fun r => r.map .ok) := by
  obtain ⟨hoverflow, hcheck⟩ := finishSigning_limits hyaml limits h
  rcases Nat.lt_or_ge s.artifact.length (2 ^ 64) with hlt | hge
  · rw [hcheck hlt]
    refine filters_of_checkOutputSize K.buffa (fun hge => absurd hlt (Nat.not_lt.mpr hge))
      fun _ => ?_
    cases limits.checkOutputSize .yaml s.artifact.length <;> rfl
  · rw [hoverflow hge]
    exact filters_of_checkOutputSize K.buffa (fun _ => rfl) fun hlt =>
      absurd hlt (Nat.not_lt.mpr hge)

theorem finishSigning_of_limits {limits : Option ArtifactResourceLimits}
    (h : finishSigning K req prepared signature limits = some (.ok (.success s))) :
    finishSigning K req prepared signature none = some (.ok (.success s)) := by
  cases limits with
  | none => exact h
  | some limits =>
    cases hform : req.outputForm with
    | protobuf =>
      rw [finishSigning_protobuf hform] at h
      exact h
    | yaml =>
      rw [finishSigning_yaml hform] at h
      obtain ⟨emitted, hemit, hok⟩ := Option.map_eq_some_iff.mp h
      cases emitted with
      | error e => cases hok
      | ok r =>
        obtain ⟨hartifact, hmodified⟩ :=
          PreparedSigningPayload.outcome_eq_success_iff.mp (Except.ok.inj hok)
        rw [hartifact] at hemit
        refine finishSigning_eq_success_iff.mpr ⟨?_, hmodified⟩
        rw [emitArtifact_yaml hform]
        exact emitYamlArtifact_of_withResourceLimits hemit

/-- The projection against the artifact that is framed. -/
theorem projectedLength_of_finished (hK : K.Lawful)
    (hprepared : prepareSigningPayload req = .ok prepared)
    (h : finishSigning K req prepared signature none = some (.ok (.success s))) :
    projectedLength req ≤ s.artifact.length ∧
      (req.outputForm = .protobuf → projectedLength req = s.artifact.length) := by
  obtain ⟨hemit, -⟩ := finishSigning_eq_success_iff.mp h
  rw [emitArtifact] at hemit
  rw [projectedLength]
  cases hform : req.outputForm with
  | yaml =>
    rw [hform] at hemit
    exact ⟨minimumLength_le hK hform hprepared hemit, fun hproto => (by cases hproto)⟩
  | protobuf =>
    rw [hform] at hemit
    have hpayload : prepared.payload = req.payload := by
      rw [prepareSigningPayload, hform] at hprepared
      cases hprepared
      rfl
    rw [hpayload] at hemit
    have hsize := protoSigningSize_of_emitted hemit
    rw [protoSigningSize_eq] at hsize
    have heq := eq_of_usizeOf hsize
    exact ⟨Nat.le_of_eq heq, fun _ => heq⟩

end

end Signing
end YamlSigil
