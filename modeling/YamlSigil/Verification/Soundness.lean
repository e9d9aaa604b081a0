/-
When the verifier says `Verified`.

The conditions are stated on the artifact: how it comes apart, what its carrier
says, and what the key in the algorithm's slot says about the payload that is
returned.  They are necessary and sufficient.
-/
import YamlSigil.Verification.Verdict

namespace YamlSigil
namespace Verification

open Format YamlSigil.Core Transcription
open Pb (OuterConformance)

/-! ## The conditions -/

/-- The artifact splits into payload and carrier: at the last marker line, or
into the two fields of the envelope. -/
inductive Decomposes : ArtifactForm → Bytes → Bytes → Bytes → Prop
  | yaml {a p c : Bytes} {e : Eol} : CleanText a → LastMarker a p e c → c ≠ [] →
      Decomposes .yaml a p c
  | proto {w p c : Bytes} : decomposeProtoOuter w .signatureStrict = .ok p c →
      Decomposes .proto w p c

/-- The metadata of a carrier. -/
inductive CarrierSays (K : Backend) : ArtifactForm → Bytes → SignatureFields → Prop
  | yaml {c : Bytes} {doc : SignatureDocument} {alg : AlgorithmId} {octets : Bytes} :
      parseSignatureDocument K c = .ok doc → doc.schema = schemaV1alpha1 →
      AlgorithmId.fromYamlStr doc.alg = some alg → K.base64.decode doc.signature = some octets →
      CarrierSays K .yaml c ⟨alg, doc.keyid, octets⟩
  | proto {c : Bytes} {v : ProtoArtifactView} {alg : AlgorithmId} :
      viewSignatureCarrier K.buffa c = .ok v → AlgorithmId.fromI32 v.algWire = some alg →
      CarrierSays K .proto c ⟨alg, v.keyid, v.signature⟩

def VerifierOptions.enables (options : VerifierOptions) : AlgorithmId → Bool
  | .ed25519 => options.verifyEd25519
  | .ecdsaP256Sha256 => options.verifyEcdsaP256Sha256

def signatureIsWellFormed (C : Crypto) : AlgorithmId → Bytes → Bool
  | .ed25519, signature => ed25519SignatureIsCanonical C signature
  | .ecdsaP256Sha256, signature => ecdsaP256SignatureIsWellFormed C signature

section
variable {Ed25519 P256 : Type} [Ed25519VerificationKey Ed25519] [P256VerificationKey P256]

/-- The key in the slot is there and admissible, and accepts. -/
inductive KeyAccepts (keys : PublicKeys Ed25519 P256) (payload : Bytes) (signature : Octets64) :
    AlgorithmId → Prop
  | ed25519 {vk : Ed25519} : keys.ed25519 = some vk →
      Ed25519VerificationKey.isAdmissible vk = true →
      Ed25519VerificationKey.verifySignature vk payload signature = .verified →
      KeyAccepts keys payload signature .ed25519
  | p256 {vk : P256} : keys.p256 = some vk → P256VerificationKey.isAdmissible vk = true →
      P256VerificationKey.verifySignature vk payload signature = .verified →
      KeyAccepts keys payload signature .ecdsaP256Sha256

/-- All that is asked of a payload and a signature of 64 octets. -/
structure Accepted (C : Crypto) (keys : PublicKeys Ed25519 P256) (options : VerifierOptions)
    (payload : Bytes) (signature : Octets64) (algorithm : AlgorithmId) : Prop where
  enabled : options.enables algorithm = true
  well_formed : signatureIsWellFormed C algorithm signature = true
  key_accepts : KeyAccepts keys payload signature algorithm

end

/-! ## They are what the content says -/

theorem components_eq_some_iff {form : ArtifactForm} {a p c : Bytes} :
    components form a = some (p, c) ↔ Decomposes form a p c := by
  cases form with
  | yaml =>
    have hparts : components .yaml a = some (p, c) ↔
        decomposeYaml a = .structural ⟨.ok, some p, some c, none⟩ := by
      rw [components, decomposeYaml]
      cases decomposeArtifact a with
      | unsigned => exact ⟨fun h => (by cases h), fun h => (by cases h)⟩
      | malformed => exact ⟨fun h => (by cases h), fun h => (by cases h)⟩
      | signed r => simp
    rw [hparts, decomposeYaml_eq_ok_iff]
    constructor
    · intro h
      rcases h with ⟨v, ha, hp, hc⟩
      subst ha hp hc
      exact .yaml v.cleanText v.lastMarker v.carrier_ne_nil
    · intro h
      cases h with
      | yaml hclean hm hc =>
        obtain ⟨v, hv, hp, -, hc⟩ := exists_envelope hclean hm hc
        exact ⟨v, hv, hp, hc⟩
  | proto =>
    rw [components]
    constructor
    · intro h
      apply Decomposes.proto
      cases hd : decomposeProtoOuter a .signatureStrict with
      | malformed =>
        rw [hd] at h
        cases h
      | ok p' c' =>
        rw [hd] at h
        cases h
        rfl
    · intro h
      cases h with
      | proto hd => rw [hd]

theorem carrierFields_eq_some_iff {K : Backend} {form : ArtifactForm} {c : Bytes}
    {f : SignatureFields} : carrierFields K form c = some f ↔ CarrierSays K form c f := by
  cases form with
  | yaml =>
    show yamlFields K c = some f ↔ _
    rw [yamlFields]
    constructor
    · intro h
      cases hdoc : parseSignatureDocument K c with
      | error e =>
        rw [hdoc] at h
        cases h
      | ok doc =>
        rw [hdoc] at h
        have h : SignatureFields.ofDocument K.base64 doc = some f := h
        rw [SignatureFields.ofDocument] at h
        by_cases hschema : doc.schema = schemaV1alpha1
        · rw [if_pos hschema] at h
          obtain ⟨alg, halg, h⟩ := Option.bind_eq_some_iff.mp h
          obtain ⟨octets, hoctets, h⟩ := Option.bind_eq_some_iff.mp h
          cases h
          exact .yaml hdoc hschema halg hoctets
        · rw [if_neg hschema] at h
          cases h
    · intro h
      cases h with
      | yaml hdoc hschema halg hoctets =>
        rw [hdoc]
        simp only
        rw [SignatureFields.ofDocument, if_pos hschema, halg, Option.bind_eq_bind,
          Option.bind_some, hoctets]
        rfl
  | proto =>
    show protoFields K c = some f ↔ _
    rw [protoFields]
    constructor
    · intro h
      cases hv : viewSignatureCarrier K.buffa c with
      | error e =>
        rw [hv] at h
        cases h
      | ok v =>
        rw [hv] at h
        obtain ⟨alg, halg, hf⟩ := Option.map_eq_some_iff.mp h
        rw [← hf]
        exact .proto hv halg
    · intro h
      cases h with
      | proto hv halg =>
        rw [hv]
        simp only
        rw [halg]
        rfl

theorem signedContent_eq_some_iff {K : Backend} {form : ArtifactForm} {a : Bytes}
    {s : SignedContent} : signedContent K form a = some s ↔
      ∃ c, Decomposes form a s.payload c ∧ CarrierSays K form c s.fields := by
  rw [signedContent]
  constructor
  · intro h
    obtain ⟨⟨p, c⟩, hpc, h⟩ := Option.bind_eq_some_iff.mp h
    obtain ⟨f, hf, h⟩ := Option.bind_eq_some_iff.mp h
    by_cases hk : KeyidOk f.keyid
    · rw [ofFields_of_keyidOk hk] at h
      cases h
      exact ⟨c, components_eq_some_iff.mp hpc, carrierFields_eq_some_iff.mp hf⟩
    · rw [ofFields_of_not_keyidOk hk] at h
      cases h
  · intro h
    rcases h with ⟨c, hd, hs⟩
    rw [components_eq_some_iff.mpr hd]
    simp only [Option.bind_eq_bind, Option.bind_some]
    rw [carrierFields_eq_some_iff.mpr hs, Option.bind_some]
    exact ofFields_of_keyidOk s.keyid_ok

/-! ## The verdict -/

section
variable {C : Crypto} {Ed25519 P256 : Type} [Ed25519VerificationKey Ed25519]
  [P256VerificationKey P256] {keys : PublicKeys Ed25519 P256} {options : VerifierOptions}

theorem verificationStateFromOutcome_eq_verified_iff {o : KeyVerificationOutcome} {p q : Bytes}
    {a b : AlgorithmId} :
    verificationStateFromOutcome o p a = .ok (.verified q b) ↔ o = .verified ∧ p = q ∧ a = b := by
  cases o <;> simp [verificationStateFromOutcome]

theorem checkOctets64_eq_verified_iff {p q : Bytes} {s : Octets64} {a b : AlgorithmId} :
    checkOctets64 C p s keys options a = .ok (.verified q b) ↔
      Accepted C keys options p s a ∧ p = q ∧ a = b := by
  cases a with
  | ed25519 =>
    rw [checkOctets64]
    constructor
    · intro h
      by_cases he : options.verifyEd25519 = true
      · by_cases hc : ed25519SignatureIsCanonical C s = true
        · cases hk : keys.ed25519 with
          | none => simp [he, hc, hk] at h
          | some vk =>
            by_cases ha : Ed25519VerificationKey.isAdmissible vk = true
            · simp only [he, hc, hk, ha] at h
              obtain ⟨hv, hpq⟩ := verificationStateFromOutcome_eq_verified_iff.mp h
              exact ⟨⟨he, hc, .ed25519 hk ha hv⟩, hpq⟩
            · simp [he, hc, hk, ha] at h
        · simp [he, hc] at h
      · simp [he] at h
    · intro h
      rcases h with ⟨⟨he, hc, hk⟩, hpq⟩
      cases hk with
      | ed25519 hk ha hv =>
        have he : options.verifyEd25519 = true := he
        have hc : ed25519SignatureIsCanonical C s = true := hc
        simp only [he, hc, hk, ha]
        exact verificationStateFromOutcome_eq_verified_iff.mpr ⟨hv, hpq⟩
  | ecdsaP256Sha256 =>
    rw [checkOctets64]
    constructor
    · intro h
      by_cases he : options.verifyEcdsaP256Sha256 = true
      · cases hk : keys.p256 with
        | none => simp [he, hk] at h
        | some vk =>
          by_cases hc : ecdsaP256SignatureIsWellFormed C s = true
          · by_cases ha : P256VerificationKey.isAdmissible vk = true
            · simp only [he, hc, hk, ha] at h
              obtain ⟨hv, hpq⟩ := verificationStateFromOutcome_eq_verified_iff.mp h
              exact ⟨⟨he, hc, .p256 hk ha hv⟩, hpq⟩
            · simp [he, hc, hk, ha] at h
          · simp [he, hc, hk] at h
      · simp [he] at h
    · intro h
      rcases h with ⟨⟨he, hc, hk⟩, hpq⟩
      cases hk with
      | p256 hk ha hv =>
        have he : options.verifyEcdsaP256Sha256 = true := he
        have hc : ecdsaP256SignatureIsWellFormed C s = true := hc
        simp only [he, hc, hk, ha]
        exact verificationStateFromOutcome_eq_verified_iff.mpr ⟨hv, hpq⟩

theorem verdict_eq_verified_iff {content : Option SignedContent} {p : Bytes} {a : AlgorithmId} :
    verdict C keys options content = .ok (.verified p a) ↔
      ∃ s o, content = some s ∧ s.payload = p ∧ s.fields.alg = a ∧ s.fields.signature = o.val ∧
        Accepted C keys options p o a := by
  constructor
  · intro h
    cases content with
    | none => cases h
    | some s =>
      rw [verdict] at h
      cases ho : octets64 s.fields.signature with
      | none =>
        rw [ho] at h
        cases h
      | some o =>
        rw [ho] at h
        obtain ⟨hacc, hp, ha⟩ := checkOctets64_eq_verified_iff.mp h
        subst hp ha
        exact ⟨s, o, rfl, rfl, rfl, octets64_eq_some_iff.mp ho, hacc⟩
  · intro h
    rcases h with ⟨s, o, hs, hp, ha, ho, hacc⟩
    subst hs hp ha
    rw [verdict, octets64_eq_some_iff.mpr ho]
    exact checkOctets64_eq_verified_iff.mpr ⟨hacc, rfl, rfl⟩

theorem verificationStateFromOutcome_ne_unsigned (o : KeyVerificationOutcome) (p : Bytes)
    (a : AlgorithmId) : verificationStateFromOutcome o p a ≠ .ok .unsigned := by
  cases o <;> simp [verificationStateFromOutcome]

theorem checkOctets64_ne_unsigned (p : Bytes) (s : Octets64) (a : AlgorithmId) :
    checkOctets64 C p s keys options a ≠ .ok .unsigned := by
  cases a with
  | ed25519 =>
    rw [checkOctets64]
    split
    · simp
    · split
      · simp
      · split
        · simp
        · split
          · simp
          · exact verificationStateFromOutcome_ne_unsigned _ p _
  | ecdsaP256Sha256 =>
    rw [checkOctets64]
    split
    · simp
    · split
      · simp
      · split
        · simp
        · split
          · simp
          · exact verificationStateFromOutcome_ne_unsigned _ p _

theorem verdict_ne_unsigned (content : Option SignedContent) :
    verdict C keys options content ≠ .ok .unsigned := by
  cases content with
  | none => simp [verdict]
  | some s =>
    rw [verdict]
    cases octets64 s.fields.signature with
    | none => simp
    | some o => exact checkOctets64_ne_unsigned s.payload o s.fields.alg

/-- Only `Verified` hands out a payload. -/
theorem eq_verified_of_payload? {state : VerifierState} {p : Bytes}
    (h : state.payload? = some p) : ∃ a, state = .verified p a := by
  cases state with
  | verified q a =>
    cases h
    exact ⟨a, rfl⟩
  | unsigned => cases h
  | malformedAttemptedSigned => cases h
  | signedButAlgorithmUnsupported a => cases h
  | signedButFailedVerification => cases h

/-- Main result on verification: `Verified` is returned exactly for the payload
that the artifact's signature signs, under a key and an algorithm the caller
allows; no other result carries a payload, and no artifact is unsigned. -/
theorem verified_sound_and_complete (K : Backend) (bytes : Bytes) (form : ArtifactForm)
    (hparams : options.algorithmParameters = []) :
    (∀ payload algorithm,
      verify C K bytes form keys options = some (.ok (.verified payload algorithm)) ↔
        ∃ carrier fields, ∃ signature : Octets64,
          Decomposes form bytes payload carrier ∧ CarrierSays K form carrier fields ∧
          KeyidOk fields.keyid ∧ fields.alg = algorithm ∧ fields.signature = signature.val ∧
          Accepted C keys options payload signature algorithm) ∧
    ∃ r, verify C K bytes form keys options = some r ∧ r ≠ .ok .unsigned ∧
      ∀ state payload, r = .ok state → state.payload? = some payload →
        ∃ algorithm, state = .verified payload algorithm := by
  rw [verify_eq_verdict, if_neg (not_not.mpr hparams)]
  refine ⟨fun payload algorithm => ?_, _, rfl, verdict_ne_unsigned _,
    fun state payload _ hp => eq_verified_of_payload? hp⟩
  rw [Option.some.injEq, verdict_eq_verified_iff]
  constructor
  · intro h
    rcases h with ⟨s, o, hs, hp, ha, ho, hacc⟩
    subst hp
    obtain ⟨c, hd, hc⟩ := signedContent_eq_some_iff.mp hs
    exact ⟨c, s.fields, o, hd, hc, s.keyid_ok, ha, ho, hacc⟩
  · intro h
    rcases h with ⟨c, f, o, hd, hc, hk, ha, ho, hacc⟩
    exact ⟨⟨payload, f, hk⟩, o, signedContent_eq_some_iff.mpr ⟨c, hd, hc⟩, rfl, ha, ho, hacc⟩

end

/-- A signed empty payload is accepted, so it meets the conditions. -/
theorem verified_sound_and_complete_rfc8032 :
    ∃ carrier fields, ∃ signature : Octets64,
      Decomposes .proto Reference.rfc8032Wire [] carrier ∧
      CarrierSays Core.Reference.backend .proto carrier fields ∧ KeyidOk fields.keyid ∧
      fields.alg = .ed25519 ∧ fields.signature = signature.val ∧
      Accepted Reference.crypto Reference.publicKeys ⟨true, false, []⟩ [] signature .ed25519 := by
  have hverified : verify Reference.crypto Core.Reference.backend Reference.rfc8032Wire .proto
      Reference.publicKeys ⟨true, false, []⟩ = some (.ok (.verified [] .ed25519)) := by
    decide +kernel
  exact ((verified_sound_and_complete Core.Reference.backend Reference.rfc8032Wire .proto
    rfl).1 [] .ed25519).mp hverified

end Verification
end YamlSigil
