/-
No entry point panics at an expectation.

Every `expect` is discharged by a check that was made somewhere else: the
carriers that signing and transcoding build are small, since a key identifier was
validated or parsed within the budgets of the parser; an accepted decomposition
has both of its parts; octets that become a signature have been counted; and
without a size policy nothing is refused for its size.  The counter of payload
records, which overflows in builds that check for it, is not looked at here but
where the scan is modelled with its counters.
-/
import YamlSigil.Signing.Framing
import YamlSigil.Signing.ProviderProgram
import YamlSigil.Signing.TranscodeBounded
import YamlSigil.Verification.ProviderAgreement

namespace YamlSigil
namespace Signing

open Control YamlSigil.Core Transcription
open Verification

/-! ## Signing -/

theorem isSome_composeYaml (p c : Bytes) : (compose ⟨p, c, .yaml⟩).isSome = true := by
  rw [compose_yaml, composeAfterInvocationValidation]
  cases validatePayloadStream p with
  | error e => rfl
  | ok u =>
    simp only
    split <;> rfl

section
variable {Ed25519 P256 : Type} {req : SignRequest Ed25519 P256} {K : Backend} (hK : K.Lawful)
  {prepared : PreparedSigningPayload} (signature : Octets64)

include hK

theorem isSome_emitProtoArtifact (hvalid : validateInvocation req = .ok ())
    (hprepared : prepareSigningPayload req = .ok prepared) (hproto : req.outputForm = .protobuf)
    (hlen : req.payload.length < 2 ^ 63) :
    ∃ artifact, emitProtoArtifact K prepared.payload req signature = some (.ok artifact) := by
  cases (prepareSigningPayload_protobuf hproto).symm.trans hprepared
  exact emitProtoArtifact_framed hK hvalid hlen signature

theorem isSome_emitArtifact (hvalid : validateInvocation req = .ok ())
    (hprepared : prepareSigningPayload req = .ok prepared) (hlen : req.payload.length < 2 ^ 63) :
    (emitArtifact K prepared.payload req signature).isSome = true := by
  rw [emitArtifact]
  cases hform : req.outputForm with
  | yaml =>
    show (emitYamlArtifact K prepared.payload req signature).isSome = true
    rcases emitYamlArtifact_cases req hK prepared.payload signature with ⟨-, h⟩ | ⟨-, h⟩
    · rw [h]
      rfl
    · rw [h]
      rfl
  | protobuf =>
    obtain ⟨artifact, h⟩ := isSome_emitProtoArtifact hK signature hvalid hprepared hform
      hlen
    show (emitProtoArtifact K prepared.payload req signature).isSome = true
    rw [h]
    rfl

omit hK in
theorem isSome_emitYamlArtifactWithResourceLimits (K : Backend) (req : SignRequest Ed25519 P256)
    (payload sigBytes : Bytes) (limits : ArtifactResourceLimits) :
    (emitYamlArtifactWithResourceLimits K payload req sigBytes limits).isSome = true := by
  rw [emitYamlArtifactWithResourceLimits]
  cases serializeYamlSignatureCarrier K req sigBytes with
  | error e => rfl
  | ok body =>
    simp only
    cases (checkedAdd payload.length 4).bind (checkedAdd · (asBytes body).length) with
    | none => rfl
    | some n =>
      simp only
      cases limits.checkOutputSize .yaml n with
      | error e => rfl
      | ok u =>
        obtain ⟨outcome, hc⟩ :=
          Option.isSome_iff_exists.mp (isSome_composeYaml payload (asBytes body))
        simp only [hc, Option.bind_eq_bind, Option.bind_some]
        cases outcome <;> rfl

theorem finishSigning_none (hvalid : validateInvocation req = .ok ())
    (hprepared : prepareSigningPayload req = .ok prepared) (hlen : req.payload.length < 2 ^ 63) :
    ∃ outcome, finishSigning K req prepared signature none = some (.ok outcome) := by
  obtain ⟨r, hr⟩ := Option.isSome_iff_exists.mp
    (isSome_emitArtifact hK signature hvalid hprepared hlen)
  exact ⟨prepared.outcome r, by rw [finishSigning_unbounded, hr, Option.map_some]⟩

theorem isSome_finishSigning (hvalid : validateInvocation req = .ok ())
    (hprepared : prepareSigningPayload req = .ok prepared) (hlen : req.payload.length < 2 ^ 63)
    (limits : Option ArtifactResourceLimits) :
    (finishSigning K req prepared signature limits).isSome = true := by
  cases limits with
  | none =>
    obtain ⟨outcome, h⟩ := finishSigning_none hK signature hvalid hprepared hlen
    rw [h]
    rfl
  | some limits =>
    unfold finishSigning
    cases hform : req.outputForm with
    | yaml =>
      obtain ⟨r, hr⟩ := Option.isSome_iff_exists.mp (isSome_emitYamlArtifactWithResourceLimits K req
        prepared.payload signature limits)
      simp only [hr, Option.bind_eq_bind, Option.bind_some]
      cases r with
      | error e => rfl
      | ok emitted => cases emitted <;> rfl
    | protobuf =>
      obtain ⟨artifact, h⟩ := isSome_emitProtoArtifact hK signature hvalid hprepared hform
        hlen
      simp only [h]
      rfl

theorem signAfterInvocationValidation_none (hvalid : validateInvocation req = .ok ())
    (hlen : req.payload.length < 2 ^ 63) (signPayload : Bytes → Except SignError Octets64) :
    ∃ outcome, signAfterInvocationValidation K req none signPayload = some (.ok outcome) := by
  rw [signAfterInvocationValidation]
  cases hprepared : prepareSigningPayload req with
  | error e => exact ⟨_, rfl⟩
  | ok prepared =>
    simp only
    cases signPayload prepared.payload with
    | error e => exact ⟨_, rfl⟩
    | ok signature => exact finishSigning_none hK signature hvalid hprepared hlen

theorem isSome_signAfterInvocationValidation (hvalid : validateInvocation req = .ok ())
    (hlen : req.payload.length < 2 ^ 63) (signPayload : Bytes → Except SignError Octets64)
    (limits : ArtifactResourceLimits) :
    (signAfterInvocationValidation K req (some limits) signPayload).isSome = true := by
  rw [signAfterInvocationValidation]
  cases hprepared : prepareSigningPayload req with
  | error e => rfl
  | ok prepared =>
    simp only
    cases signPayload prepared.payload with
    | error e => rfl
    | ok signature => exact isSome_finishSigning hK signature hvalid hprepared hlen (some limits)

end

section
variable {C : SigningCrypto} {K : Backend} (hK : K.Lawful) (draws : List C.Nonce)
  {req : SignRequest C.Ed25519SigningKey C.P256SigningKey} (hlen : req.payload.length < 2 ^ 63)

include hK hlen

theorem isSome_sign : (sign C K draws req).isSome = true := by
  rw [sign, signInner]
  cases hvalid : validateInvocation req with
  | error e => rfl
  | ok u =>
    obtain ⟨outcome, h⟩ := signAfterInvocationValidation_none hK hvalid hlen fun payload =>
      signDigest C draws payload req.algorithm req.key
    simp only [h, Option.bind_eq_bind, Option.bind_some, expectOk_ok]
    rfl

theorem isSome_signWithResourceLimits (limits : ArtifactResourceLimits) :
    (signWithResourceLimits C K draws req limits).isSome = true := by
  rw [signWithResourceLimits]
  cases hshape : validateInvocationShape req with
  | error e => rfl
  | ok u =>
    simp only
    cases preflightSigningOutput K.buffa req limits with
    | error e => rfl
    | ok encoding =>
      cases encoding with
      | error e => rfl
      | ok n =>
        simp only
        cases hcontent : validateKeyidContent req with
        | error e => rfl
        | ok u' =>
          simp only [Option.isSome_map]
          exact isSome_signAfterInvocationValidation hK
            (validateInvocation_eq_ok_iff.mpr ⟨hshape, hcontent⟩) hlen _ limits

end

/-! ## Signing through a provider -/

/-- The results an unbounded wrapper expects: neither the size policy nor the
format has refused anything. -/
def HasOutcome (r : Run SignResult) : Prop := ∃ outcome, r = some (.ok (.ok outcome))

theorem HasOutcome.expectUnbounded {r : Run SignResult} (h : HasOutcome r) :
    (expectUnbounded r).isSome = true := by
  obtain ⟨outcome, h⟩ := h
  rw [h]
  rfl

/-- What a size policy may refuse. -/
def Sized (P : Run SignResult → Prop) : Option ArtifactResourceLimits → Prop
  | none => True
  | some _ => ∀ e : ArtifactResourceError ⊕ Pb.EncodeErrorKind,
    P (some (e.elim (fun e => .error e) fun e => .ok (.error e)))

section
variable {C : KeyCrypto} {κ : Type} [BoundKey C κ] {K : Backend} {Q A : Type}
  {req : SignRequest κ κ}
  {limits : Option ArtifactResourceLimits} {P : Run SignResult → Prop}

theorem returns_signAfterInvocationValidationAsking
    {signPayload : Bytes → Ask Q A (Except SignError Octets64)}
    (hsigner : ∀ e, P (SignResult.signer e))
    (hfinish : ∀ prepared signature, prepareSigningPayload req = .ok prepared →
      P (SignResult.framed (finishSigning K req prepared signature limits))) :
    ((signAfterInvocationValidationAsking K req limits signPayload).andThen fun r =>
      .done (SignResult.framed r)).Returns P := by
  rw [Ask.returns_andThen, signAfterInvocationValidationAsking]
  cases hprepared : prepareSigningPayload req with
  | error e => exact hsigner e
  | ok prepared =>
    simp only
    rw [Ask.returns_andThen]
    refine Ask.returns_of_forall (fun answer => ?_) _
    cases answer with
    | error e => exact hsigner e
    | ok signature => exact hfinish prepared signature hprepared

/-- The results of the synchronous operation, whatever the callback does. -/
theorem returns_signWithProviderInner {requiredAlgorithm : Option AlgorithmId}
    {callback : Bytes → Ask Q A (Except SignError Octets64)}
    (hinvocation : ∀ e, P (SignResult.invocation e)) (hsigner : ∀ e, P (SignResult.signer e))
    (hsized : Sized P limits)
    (hfinish : validateInvocation req = .ok () → ∀ prepared signature,
      prepareSigningPayload req = .ok prepared →
        P (SignResult.framed (finishSigning K req prepared signature limits))) :
    (signWithProviderInner C K req limits requiredAlgorithm callback).Returns P := by
  unfold signWithProviderInner
  cases limits with
  | none =>
    simp only [Option.isSome_none, Bool.false_eq_true, if_false]
    cases hvalid : validateInvocation req with
    | error e => exact hinvocation e
    | ok u =>
      simp only
      split
      · exact hinvocation _
      · exact returns_signAfterInvocationValidationAsking hsigner (hfinish hvalid)
  | some limits =>
    simp only [Option.isSome_some, if_true]
    cases hshape : validateInvocationShape req with
    | error e => exact hinvocation e
    | ok u =>
      simp only
      split
      · exact hinvocation _
      · cases preflightSigningOutput K.buffa req limits with
        | error e => exact hsized (.inl e)
        | ok encoding =>
          cases encoding with
          | error e => exact hsized (.inr e)
          | ok n =>
            simp only
            cases hcontent : validateKeyidContent req with
            | error e => exact hinvocation e
            | ok u' =>
              exact returns_signAfterInvocationValidationAsking hsigner
                (hfinish (validateInvocation_eq_ok_iff.mpr ⟨hshape, hcontent⟩))

variable (hK : K.Lawful) (hlen : req.payload.length < 2 ^ 63)

include hK hlen

/-- Without a policy there is always an outcome. -/
theorem hasOutcome_signWithProviderInner (requiredAlgorithm : Option AlgorithmId)
    (callback : Bytes → Ask Q A (Except SignError Octets64)) :
    (signWithProviderInner C K req none requiredAlgorithm callback).Returns HasOutcome := by
  refine returns_signWithProviderInner (fun e => ⟨_, rfl⟩) (fun e => ⟨_, rfl⟩) trivial
    fun hvalid prepared signature hprepared => ?_
  obtain ⟨outcome, h⟩ := finishSigning_none hK signature hvalid hprepared hlen
  rw [h]
  exact ⟨outcome, rfl⟩

theorem isSome_signWithProviderInner (limits : ArtifactResourceLimits)
    (requiredAlgorithm : Option AlgorithmId)
    (callback : Bytes → Ask Q A (Except SignError Octets64)) :
    (signWithProviderInner C K req (some limits) requiredAlgorithm callback).Returns
      fun r => r.isSome = true := by
  refine returns_signWithProviderInner (fun e => rfl) (fun e => rfl) (fun e => rfl)
    fun hvalid prepared signature hprepared => ?_
  rw [SignResult.framed, Option.isSome_map]
  exact isSome_finishSigning hK signature hvalid hprepared hlen (some limits)

omit hK hlen in
theorem signInner_eq_adapt (limits : Option ArtifactResourceLimits) :
    Awaited.signInner C K req limits =
      (signWithProviderInner C K req limits none Ask.once).adapt ofAwaited := by
  rw [signInner_eq, signWithProviderInner_message, Ask.adapt_through]

theorem hasOutcome_signInner : (Awaited.signInner C K req none).Returns HasOutcome := by
  rw [signInner_eq_adapt]
  exact (hasOutcome_signWithProviderInner hK hlen none Ask.once).adapt ofAwaited

theorem isSome_signInner (limits : ArtifactResourceLimits) :
    (Awaited.signInner C K req (some limits)).Returns fun r => r.isSome = true := by
  rw [signInner_eq_adapt]
  exact (isSome_signWithProviderInner hK hlen limits none Ask.once).adapt ofAwaited

end

/-- The unbounded wrappers find what they expect. -/
theorem isSome_expectUnbounded {Q A : Type} {p : Ask Q A (Run SignResult)}
    (h : p.Returns HasOutcome) :
    (p.andThen fun r => .done (expectUnbounded r)).Returns fun r => r.isSome = true := by
  rw [Ask.returns_andThen]
  exact h.mono fun r hr => hr.expectUnbounded

/-! ## Transcoding -/

section
variable {K : Backend} (hK : K.Lawful) (hN : K.noyalib.KeepsScalarBudget)

include hK hN

/-- What a parsed carrier says is small. -/
theorem sizes_of_parsed {carrier o : Bytes} {doc : SignatureDocument}
    (hdoc : parseSignatureDocument K carrier = .ok doc)
    (ho : K.base64.decode doc.signature = some o) :
    SignatureFields.keyidLength doc.keyid + o.length < 2 ^ 30 := by
  obtain ⟨-, t, -, -, hread⟩ := parseSignatureDocument_eq_ok_iff.mp hdoc
  have hbudget : ∀ s ∈ doc.scalars, (asBytes s).length ≤ 8 * 1024 := hN hread
  have hkeyid : SignatureFields.keyidLength doc.keyid ≤ 8 * 1024 := by
    cases hk : doc.keyid with
    | none => exact Nat.zero_le _
    | some k =>
      refine hbudget k (List.mem_append_right _ ?_)
      rw [hk]
      exact List.mem_singleton_self k
  have hsignature : (asBytes doc.signature).length ≤ 8 * 1024 :=
    hbudget doc.signature (List.mem_append_left _ (by simp))
  have hletters : doc.signature.length ≤ (asBytes doc.signature).length :=
    Format.Utf8.length_encode_ge doc.signature
  have hencode := hK.base64.length_encode o
  rw [hK.base64.encode_decode ho] at hencode
  omega

theorem exists_innerCarrier {carrier o : Bytes} {doc : SignatureDocument}
    (hdoc : parseSignatureDocument K carrier = .ok doc)
    (ho : K.base64.decode doc.signature = some o) (alg : AlgorithmId) {p : Bytes}
    (hp : p.length < 2 ^ 63) :
    ∃ c w, encodeInnerSignatureCarrier K.buffa alg o doc.keyid = some c ∧
      composeProtoOuter p c = some w := by
  have hsizes := sizes_of_parsed hK hN hdoc ho
  cases emits_wireOf hK hp (f := ⟨alg, doc.keyid, o⟩) hsizes with
  | proto hc hw => exact ⟨_, _, hc, hw⟩

/-- The components of an addressable artifact are found, and they compose. -/
theorem yamlToProtoComponents_cases {a : Bytes} (hlen : a.length < 2 ^ 63) :
    (∃ e, yamlToProtoComponents K a = some (.error e)) ∨
      ∃ p c w, yamlToProtoComponents K a = some (.ok (p, c)) ∧
        composeProtoOuter p c = some w := by
  rw [yamlToProtoComponents]
  cases hd : yamlDecompose a with
  | error e => exact .inl ⟨_, rfl⟩
  | ok parts =>
    obtain ⟨p, carrier⟩ := parts
    have hp := length_le_of_components (yamlDecompose_eq_ok_iff.mp hd)
    simp only
    cases validatePayloadStream p with
    | error e => exact .inl ⟨_, rfl⟩
    | ok u =>
      simp only
      cases hdoc : parseSignatureDocument K carrier with
      | error e => exact .inl ⟨_, rfl⟩
      | ok doc =>
        simp only
        cases doc.validateSchema with
        | error e => exact .inl ⟨_, rfl⟩
        | ok u' =>
          simp only
          cases ho : K.base64.decode doc.signature with
          | none => exact .inl ⟨_, rfl⟩
          | some o =>
            simp only
            cases AlgorithmId.fromYamlStr doc.alg with
            | none => exact .inl ⟨_, rfl⟩
            | some alg =>
              obtain ⟨c, w, hc, hw⟩ := exists_innerCarrier hK hN hdoc ho alg
                (show p.length < 2 ^ 63 by omega)
              refine .inr ⟨p, c, w, ?_, hw⟩
              simp only [hc, Option.bind_eq_bind, Option.bind_some]

theorem isSome_signedYamlStreamToProtoWire {a : Bytes} (hlen : a.length < 2 ^ 63) :
    (signedYamlStreamToProtoWire K a).isSome = true := by
  rw [signedYamlStreamToProtoWire]
  rcases yamlToProtoComponents_cases hK hN hlen with ⟨e, h⟩ | ⟨p, c, w, h, hw⟩
  · rw [h]
    rfl
  · simp only [h, hw, Option.bind_eq_bind, Option.bind_some]
    rfl

theorem isSome_signedYamlStreamToProtoWireWithResourceLimits {a : Bytes} (hlen : a.length < 2 ^ 63)
    (limits : ArtifactResourceLimits) :
    (signedYamlStreamToProtoWireWithResourceLimits K a limits).isSome = true := by
  rw [signedYamlStreamToProtoWireWithResourceLimits]
  cases limits.checkInputSize .yaml a with
  | error e => rfl
  | ok u =>
    simp only
    rcases yamlToProtoComponents_cases hK hN hlen with ⟨e, h⟩ | ⟨p, c, w, h, -⟩
    · rw [h]
      rfl
    · simp only [h, Option.bind_eq_bind, Option.bind_some]
      split <;> rfl

end

section
variable (K : Backend) (wire : Bytes)

theorem isSome_protoWireToSignedYamlStream :
    (protoWireToSignedYamlStream K wire).isSome = true := by
  rw [protoWireToSignedYamlStream]
  cases protoToYamlComponents K wire with
  | error e => rfl
  | ok parts =>
    obtain ⟨p, body⟩ := parts
    obtain ⟨outcome, hc⟩ := Option.isSome_iff_exists.mp (isSome_composeYaml p (asBytes body))
    simp only [hc, Option.bind_eq_bind, Option.bind_some]
    cases outcome <;> rfl

theorem isSome_protoWireToSignedYamlStreamWithResourceLimits (limits : ArtifactResourceLimits) :
    (protoWireToSignedYamlStreamWithResourceLimits K wire limits).isSome = true := by
  rw [protoWireToSignedYamlStreamWithResourceLimits]
  cases limits.checkInputSize .protobuf wire with
  | error e => rfl
  | ok u =>
    simp only
    cases protoToYamlComponents K wire with
    | error e => rfl
    | ok parts =>
      obtain ⟨p, body⟩ := parts
      simp only
      cases (checkedAdd p.length 4).bind (checkedAdd · (asBytes body).length) with
      | none => rfl
      | some n =>
        simp only
        cases limits.checkOutputSize .yaml n with
        | error e => rfl
        | ok u' =>
          obtain ⟨outcome, hc⟩ := Option.isSome_iff_exists.mp (isSome_composeYaml p (asBytes body))
          simp only [hc, Option.bind_eq_bind, Option.bind_some]
          cases outcome <;> rfl

end

/-! ## Verification -/

theorem isSome_preVerify (K : Backend) (bytes : Bytes) (form : ArtifactForm)
    (allowUnsigned : Bool) : (preVerify K bytes form allowUnsigned).isSome = true := by
  obtain ⟨pre, hpre⟩ := exists_preVerify K bytes form
  cases form with
  | yaml =>
    show (preVerifyYaml K bytes allowUnsigned).isSome = true
    by_cases hu : decomposeArtifact bytes = .unsigned
    · rw [preVerifyYaml_unsigned K hu]
      rfl
    · have hpre : preVerifyYaml K bytes false = some pre := hpre
      rw [preVerifyYaml_of_ne_unsigned K hu, hpre]
      rfl
  | proto => exact Option.isSome_iff_exists.mpr ⟨pre, hpre⟩

section
variable {C : Crypto} {Ed25519 P256 : Type} [Ed25519VerificationKey Ed25519]
  [P256VerificationKey P256] {keys : PublicKeys Ed25519 P256} {options : VerifierOptions}

theorem isSome_verifyExtractedSignature (payload sig : Bytes) (alg : AlgorithmId) :
    (verifyExtractedSignature C payload alg.wireValue sig keys options).isSome = true := by
  by_cases hlen : sig.length = 64
  · rw [verifyExtractedSignature_octets64 payload alg ⟨sig, hlen⟩]
    rfl
  · rw [verifyExtractedSignature_of_length_ne hlen payload alg]
    rfl

/-- The second stage, also for a response that no first stage has made. -/
theorem isSome_stagedVerifyFromPreVerify (pre : PreVerifyResponse) :
    (Staged.verifyFromPreVerify C pre keys options).isSome = true := by
  rw [Staged.verifyFromPreVerify_eq]
  split
  · rfl
  · rw [verifyFromPreVerify]
    split
    · rfl
    · split
      · exact isSome_verifyExtractedSignature _ _ _
      · rfl

theorem isSome_verify (K : Backend) (bytes : Bytes) (form : ArtifactForm) :
    (verify C K bytes form keys options).isSome = true := by
  rw [verify_eq_verdict]
  split <;> rfl

end

section
variable {C : KeyCrypto} (keys : ProviderPublicKeys C) (options : VerifierOptions)

theorem returns_verifyExtractedSignatureWithKeys (payload sig : Bytes) (alg : AlgorithmId) :
    (verifyExtractedSignatureWithKeys C payload alg.wireValue sig keys options).Returns
      fun r => r.isSome = true := by
  rw [verifyExtractedSignatureWithKeys]
  have hspec := prepareSignatureVerification_spec C.toCrypto keys options alg sig
  generalize prepareSignatureVerification C.toCrypto alg.wireValue sig keys options = prepared
    at hspec
  cases hspec with
  | error e => rfl
  | complete state => rfl
  | ed25519 _ _ _ _ _ => exact fun _ => rfl
  | p256 _ _ _ _ _ => exact fun _ => rfl

theorem returns_verifyFromPreVerifyWithKeys (pre : PreVerifyResponse) :
    (verifyFromPreVerifyWithKeys C pre keys options).Returns fun r => r.isSome = true := by
  rw [verifyFromPreVerifyWithKeys]
  split
  · rfl
  · split
    · exact returns_verifyExtractedSignatureWithKeys keys options _ _ _
    · rfl

theorem returns_verifyFromPreVerifyWithProvider (pre : PreVerifyResponse) :
    (verifyFromPreVerifyWithProvider C pre keys options).Returns fun r => r.isSome = true := by
  rw [verifyFromPreVerifyWithProvider]
  split
  · rfl
  · exact returns_verifyFromPreVerifyWithKeys keys options pre

theorem returns_verifyWithProvider (K : Backend) (bytes : Bytes) (form : ArtifactForm) :
    (verifyWithProvider C K bytes form keys options).Returns fun r => r.isSome = true := by
  rw [verifyWithProvider, Ask.returns_andThen, verifyWithProviderKeysAndMetadata]
  split
  · rfl
  · split
    · rfl
    · obtain ⟨pre, hpre⟩ := exists_preVerify K bytes form
      rw [hpre]
      simp only
      rw [Ask.returns_andThen]
      have hstate : ∀ {r : Run (Except InvocationError VerifierState)} {obs : List Text},
          r.isSome = true →
          ((r.map fun r => r.map fun state => VerifyResult.mk state obs).map
            fun r => r.map VerifyResult.state).isSome = true := by
        intro r obs hr
        rw [Option.isSome_map, Option.isSome_map]
        exact hr
      cases pre.outcome with
      | ok =>
        exact (returns_verifyFromPreVerifyWithKeys keys options pre).mono fun r hr => hstate hr
      | unsigned => rfl
      | structuralFailure => rfl
      | metadataParseFailure => rfl

end

/-! ## All entry points -/

/-- The entry points that return, whatever they are given: they reach no `expect` that
fails.  A slice has at most `2 ^ 63 - 1` octets; the composer is given two of them.  The
payload counter wraps, as in builds without overflow checks; `Core.Pb.Checked` says when it
overflows. -/
structure NeverPanics (K : Backend) : Prop where
  sign : ∀ (C : SigningCrypto) (draws : List C.Nonce)
    (req : SignRequest C.Ed25519SigningKey C.P256SigningKey), req.payload.length < 2 ^ 63 →
    (sign C K draws req).isSome = true ∧
      ∀ limits, (signWithResourceLimits C K draws req limits).isSome = true
  signWithProvider : ∀ (C : KeyCrypto) (κ Q A : Type) [BoundKey C κ] (req : SignRequest κ κ)
    (callback : Bytes → Ask Q A (Except SignError Octets64)) (sha256 : Bytes → Bytes),
    req.payload.length < 2 ^ 63 →
    (signWithProviderInner C K req none none callback).Returns HasOutcome ∧
    (signWithProvider C K req callback).Returns (fun r => r.isSome = true) ∧
    (signWithP256DigestProvider C K sha256 req callback).Returns (fun r => r.isSome = true) ∧
    ∀ limits,
      (signWithProviderAndResourceLimits C K req limits callback).Returns
        (fun r => r.isSome = true) ∧
      (signWithP256DigestProviderAndResourceLimits C K sha256 req limits callback).Returns
        (fun r => r.isSome = true)
  signWithAsyncProvider : ∀ (C : KeyCrypto) (κ : Type) [BoundKey C κ] (req : SignRequest κ κ),
    req.payload.length < 2 ^ 63 →
    (Awaited.signInner C K req none).Returns HasOutcome ∧
    (Awaited.signWithAsyncProvider C K req).Returns (fun r => r.isSome = true) ∧
    ∀ limits, (Awaited.signWithAsyncProviderAndResourceLimits C K req limits).Returns
      (fun r => r.isSome = true)
  signedYamlStreamToProtoWire : ∀ a : Bytes, a.length < 2 ^ 63 →
    (signedYamlStreamToProtoWire K a).isSome = true ∧
      ∀ limits, (signedYamlStreamToProtoWireWithResourceLimits K a limits).isSome = true
  protoWireToSignedYamlStream : ∀ w : Bytes, (protoWireToSignedYamlStream K w).isSome = true ∧
    ∀ limits, (protoWireToSignedYamlStreamWithResourceLimits K w limits).isSome = true
  compose : ∀ p c : Bytes, (compose ⟨p, c, .yaml⟩).isSome = true ∧
    (p.length + c.length + 22 < 2 ^ 64 → (compose ⟨p, c, .protobuf⟩).isSome = true)
  preVerify : ∀ bytes form allowUnsigned, (preVerify K bytes form allowUnsigned).isSome = true
  verify : ∀ (C : Crypto) (Ed25519 P256 : Type) [Ed25519VerificationKey Ed25519]
    [P256VerificationKey P256] (keys : PublicKeys Ed25519 P256) options,
    (∀ bytes form, (verify C K bytes form keys options).isSome = true) ∧
      ∀ pre, (Staged.verifyFromPreVerify C pre keys options).isSome = true
  verifyWithProvider : ∀ (C : KeyCrypto) (keys : ProviderPublicKeys C) options,
    (∀ bytes form, (verifyWithProvider C K bytes form keys options).Returns
        (fun r => r.isSome = true) ∧
      (Awaited.verifyWithAsyncProvider C K bytes form keys options).Returns
        (fun r => r.isSome = true)) ∧
      ∀ pre, (verifyFromPreVerifyWithProvider C pre keys options).Returns
          (fun r => r.isSome = true) ∧
        (Awaited.verifyFromPre C pre keys options).Returns (fun r => r.isSome = true)

/-- Main result on panics: no entry point reaches an expectation that fails. -/
theorem no_panic {K : Backend} (hK : K.Lawful) (hN : K.noyalib.KeepsScalarBudget) :
    NeverPanics K where
  sign _ draws _ hlen :=
    ⟨isSome_sign hK draws hlen, isSome_signWithResourceLimits hK draws hlen⟩
  signWithProvider _ _ _ _ _ _ callback sha256 hlen :=
    ⟨hasOutcome_signWithProviderInner hK hlen none callback,
      isSome_expectUnbounded (hasOutcome_signWithProviderInner hK hlen none callback),
      isSome_expectUnbounded (hasOutcome_signWithProviderInner hK hlen _
        (p256DigestCallback sha256 callback)),
      fun limits => ⟨isSome_signWithProviderInner hK hlen limits none callback,
        isSome_signWithProviderInner hK hlen limits _ (p256DigestCallback sha256 callback)⟩⟩
  signWithAsyncProvider _ _ _ _ hlen :=
    ⟨hasOutcome_signInner hK hlen, isSome_expectUnbounded (hasOutcome_signInner hK hlen),
      isSome_signInner hK hlen⟩
  signedYamlStreamToProtoWire _ hlen :=
    ⟨isSome_signedYamlStreamToProtoWire hK hN hlen,
      isSome_signedYamlStreamToProtoWireWithResourceLimits hK hN hlen⟩
  protoWireToSignedYamlStream w :=
    ⟨isSome_protoWireToSignedYamlStream K w,
      isSome_protoWireToSignedYamlStreamWithResourceLimits K w⟩
  compose p c := by
    refine ⟨isSome_composeYaml p c, fun hlen => ?_⟩
    obtain ⟨w, hw⟩ := Option.isSome_iff_exists.mp (isSome_composeProtoOuter hlen)
    show ((composeProtoOuter p c).bind _).isSome = true
    rw [hw]
    rfl
  preVerify bytes form allowUnsigned := isSome_preVerify K bytes form allowUnsigned
  verify _ _ _ _ _ _ _ := ⟨isSome_verify K, isSome_stagedVerifyFromPreVerify⟩
  verifyWithProvider C keys options := by
    refine ⟨fun bytes form => ?_, fun pre => ?_⟩
    · rw [verifyWithAsyncProvider_eq]
      exact ⟨returns_verifyWithProvider keys options K bytes form,
        returns_verifyWithProvider keys options K bytes form⟩
    · rw [verifyFromPre_eq]
      exact ⟨returns_verifyFromPreVerifyWithProvider keys options pre,
        returns_verifyFromPreVerifyWithProvider keys options pre⟩

theorem no_panic_reference : NeverPanics Core.Reference.backend :=
  no_panic Core.Reference.backend_lawful Core.Reference.noyalib_keepsScalarBudget

end Signing
end YamlSigil
