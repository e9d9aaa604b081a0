/-
All paths of the verifier agree.

The key types differ: the built-in path has keys of the curve libraries, the
provider paths have octets and a handle.  `Binds` says that they stand for the
same keys; then the checks on 64 octets agree, and everything before them does
not look at the keys.
-/
import YamlSigil.Verification.Provider

namespace YamlSigil
namespace Verification

open Control YamlSigil.Core

/-! ## A provider program runs as the generic verifier does -/

section
variable {C : KeyCrypto} {keys : ProviderPublicKeys C} {options : VerifierOptions}

theorem run_verifyExtractedSignatureWithKeys (payload sigOctets : Bytes) (wireAlg : Int32) :
    (verifyExtractedSignatureWithKeys C payload wireAlg sigOctets keys options).run
        VerifierCall.answer =
      verifyExtractedSignature C.toCrypto payload wireAlg sigOctets keys options := by
  rw [verifyExtractedSignatureWithKeys, verifyExtractedSignature]
  cases prepareSignatureVerification C.toCrypto wireAlg sigOctets keys options with
  | none => rfl
  | some r =>
    cases r with
    | error e => rfl
    | ok prepared => cases prepared <;> rfl

theorem run_verifyFromPreVerifyWithKeys (pre : PreVerifyResponse) :
    (verifyFromPreVerifyWithKeys C pre keys options).run VerifierCall.answer =
      verifyFromPreVerify C.toCrypto pre.form pre keys options := by
  rw [verifyFromPreVerifyWithKeys, verifyFromPreVerify]
  by_cases hok : pre.outcome ≠ .ok
  · rw [if_pos hok, if_pos (.inr hok)]
    rfl
  · rw [if_neg hok, if_neg (not_or.mpr ⟨not_not.mpr rfl, hok⟩)]
    cases pre.unverifiedPayloadBytes with
    | none => rfl
    | some payload =>
      cases pre.unverifiedSignature with
      | none => rfl
      | some sig => exact run_verifyExtractedSignatureWithKeys payload sig.signatureOctets _

theorem run_verifyFromPreVerifyWithProvider (pre : PreVerifyResponse) :
    (verifyFromPreVerifyWithProvider C pre keys options).run VerifierCall.answer =
      Staged.verifyFromPreVerify C.toCrypto pre keys options := by
  rw [verifyFromPreVerifyWithProvider, Staged.verifyFromPreVerify_eq]
  by_cases hparams : options.algorithmParameters ≠ []
  · rw [if_pos hparams, if_pos hparams]
    rfl
  · rw [if_neg hparams, if_neg hparams]
    exact run_verifyFromPreVerifyWithKeys pre

variable (K : Backend)

theorem form_of_preVerify {bytes : Bytes} {form : ArtifactForm} {pre : PreVerifyResponse}
    (h : preVerify K bytes form false = some pre) : pre.form = form := by
  have hspec := preVerify_spec K bytes form
  rw [h] at hspec
  generalize signedContent K form bytes = content at hspec
  cases hspec with
  | content s => rfl
  | structural => rfl
  | metadata => rfl

/-- The two forms give the state of the second stage and the observations of
the first. -/
theorem verifyWithMetadata_eq {Ed25519 P256 : Type} [Ed25519VerificationKey Ed25519]
    [P256VerificationKey P256] {C : Crypto} {keys : PublicKeys Ed25519 P256} {bytes : Bytes}
    {form : ArtifactForm} {pre : PreVerifyResponse} (hparams : ¬ options.algorithmParameters ≠ [])
    (hpre : preVerify K bytes form false = some pre) (observations : Bool) :
    verifyWithMetadata C K bytes form keys options observations =
      (stateFromPreVerify pre (verifyFromPreVerify C form · keys options)).map fun r =>
        r.map fun state => ⟨state, if observations then pre.parserObservations else []⟩ := by
  have hform : ¬ form ∉ supportedForms := by
    cases form <;> decide
  rw [verifyWithMetadata, if_neg hform, if_neg hparams]
  cases form with
  | yaml =>
    have hpre : preVerifyYaml K bytes false = some pre := hpre
    simp only [verifyYaml, hpre, Option.bind_eq_bind, Option.bind_some]
    have hnext : (verifyFromPreVerifyYaml C · keys options) =
        (verifyFromPreVerify C .yaml · keys options) := rfl
    rw [hnext]
    cases stateFromPreVerify pre (verifyFromPreVerify C .yaml · keys options) with
    | none => rfl
    | some r => cases r <;> rfl
  | proto =>
    have hpre : preVerifyProto K bytes = some pre := hpre
    simp only [verifyProto, hpre, Option.bind_eq_bind, Option.bind_some]
    have hnext : (verifyFromPreVerifyProto C · keys options) =
        (verifyFromPreVerify C .proto · keys options) := rfl
    rw [hnext]
    cases stateFromPreVerify pre (verifyFromPreVerify C .proto · keys options) with
    | none => rfl
    | some r => cases r <;> rfl

/-- The program chooses by the outcome what the generic verifier chooses. -/
theorem run_verifyWithProviderKeysAndMetadata (bytes : Bytes) (form : ArtifactForm)
    (observations : Bool) :
    (verifyWithProviderKeysAndMetadata C K bytes form keys options observations).run
        VerifierCall.answer =
      verifyWithMetadata C.toCrypto K bytes form keys options observations := by
  have hform : ¬ form ∉ supportedForms := by
    cases form <;> decide
  rw [verifyWithProviderKeysAndMetadata, if_neg hform]
  by_cases hparams : options.algorithmParameters ≠ []
  · rw [if_pos hparams, verifyWithMetadata, if_neg hform, if_pos hparams]
    rfl
  obtain ⟨pre, hpre⟩ := exists_preVerify K bytes form
  rw [if_neg hparams, hpre, verifyWithMetadata_eq K hparams hpre]
  simp only [Ask.run_andThen, Ask.run_done]
  have hrun : (verifyFromPreVerifyWithKeys C pre keys options).run VerifierCall.answer = _ :=
    run_verifyFromPreVerifyWithKeys pre
  rw [form_of_preVerify K hpre] at hrun
  rw [stateFromPreVerify]
  cases pre.outcome with
  | ok =>
    simp only
    rw [hrun]
  | unsigned => rfl
  | structuralFailure => rfl
  | metadataParseFailure => rfl

theorem verify_eq_metadata {Ed25519 P256 : Type} [Ed25519VerificationKey Ed25519]
    [P256VerificationKey P256] {C : Crypto} {keys : PublicKeys Ed25519 P256} (bytes : Bytes)
    (form : ArtifactForm) : verify C K bytes form keys options =
      (verifyWithMetadata C K bytes form keys options false).map fun r =>
        r.map VerifyResult.state := by
  rw [verify]
  cases verifyWithMetadata C K bytes form keys options false with
  | none => rfl
  | some r => cases r <;> rfl

theorem run_verifyWithProvider (bytes : Bytes) (form : ArtifactForm) :
    (verifyWithProvider C K bytes form keys options).run VerifierCall.answer =
      verify C.toCrypto K bytes form keys options := by
  rw [verifyWithProvider, Ask.run_andThen, Ask.run_done, run_verifyWithProviderKeysAndMetadata,
    verify_eq_metadata]

end

/-! ## Bound keys that stand for built-in keys -/

/-- A handle that says of every signature what a built-in check says. -/
def AnswersFor (check : Bytes → Octets64 → KeyVerificationOutcome) (verifier : ProviderVerifier) :
    Prop :=
  ∀ payload signature, verifier payload signature =
    if check payload signature = .verified then .verified else .signatureMismatch

/-- A slot of the provider that stands for a slot of the built-in keys: the key
was bound to octets of the built-in one. -/
inductive BoundSlot (C : KeyCrypto) {κ : Type} (algorithm : AlgorithmId)
    (octets : κ → Bytes → Prop) (check : κ → Bytes → Octets64 → KeyVerificationOutcome) :
    Option κ → Option (ProviderVerifyingKey C) → Prop
  | absent : BoundSlot C algorithm octets check none none
  | bound {vk : κ} {publicKey : Bytes} {key : ProviderVerifyingKey C} : octets vk publicKey →
      BoundTo C algorithm publicKey key → AnswersFor (check vk) key.verifier →
      BoundSlot C algorithm octets check (some vk) (some key)

structure Binds (C : KeyCrypto) (keys : PublicKeys C.Ed25519VerifyingKey C.P256VerifyingKey)
    (bound : ProviderPublicKeys C) : Prop where
  ed25519 : BoundSlot C .ed25519 (fun vk publicKey => C.ed25519AsBytes vk = publicKey)
    Ed25519VerificationKey.verifySignature keys.ed25519 bound.ed25519
  p256 : BoundSlot C .ecdsaP256Sha256
    (fun vk publicKey => resolveP256VerifyingKey C publicKey = .ok vk)
    P256VerificationKey.verifySignature keys.p256 bound.p256

section
variable {C : KeyCrypto}

/-- A built-in Ed25519 key whose octets were bound passes the check of the
built-in path. -/
theorem ed25519_isAdmissible_of_resolves {vk : C.Ed25519VerifyingKey}
    (h : providerPublicKeyIsAdmissible C .ed25519 (C.ed25519AsBytes vk) = true) :
    Ed25519VerificationKey.isAdmissible vk = true := by
  obtain ⟨vk', hvk'⟩ := isOk_iff.mp h
  obtain ⟨-, hpoint, -⟩ := resolveEd25519VerifyingKey_eq_ok_iff.mp hvk'
  exact ed25519VerifyingKeyIsAdmissible_iff.mpr hpoint

theorem bound_isAdmissible {algorithm : AlgorithmId} {publicKey : Bytes}
    {key : ProviderVerifyingKey C} (h : BoundTo C algorithm publicKey key) :
    (algorithm = .ed25519 → Ed25519VerificationKey.isAdmissible key = true) ∧
      (algorithm = .ecdsaP256Sha256 → P256VerificationKey.isAdmissible key = true) := by
  obtain ⟨halg, hkey⟩ := h.fields
  have hadm := h.resolves
  constructor
  · intro hed
    subst hed
    have hadm : (key.algorithm == .ed25519 &&
        providerPublicKeyIsAdmissible C .ed25519 key.canonicalPublicKey) = true := by
      rw [halg, hkey, hadm]
      rfl
    exact hadm
  · intro hp256
    subst hp256
    have hadm : (key.algorithm == .ecdsaP256Sha256 &&
        providerPublicKeyIsAdmissible C .ecdsaP256Sha256 key.canonicalPublicKey) = true := by
      rw [halg, hkey, hadm]
      rfl
    exact hadm

/-- The outcome of a faithful handle is the built-in one, which is an acceptance
or a mismatch. -/
theorem providerOutcome_of_answersFor {check : Bytes → Octets64 → KeyVerificationOutcome}
    {verifier : ProviderVerifier} (h : AnswersFor check verifier) {payload : Bytes}
    {signature : Octets64} (hcheck : check payload signature = .verified ∨
      check payload signature = .signatureMismatch) :
    providerOutcome (verifier payload signature) = check payload signature := by
  rw [h]
  rcases hcheck with hcheck | hcheck
  · rw [hcheck, if_pos rfl]
    rfl
  · rw [hcheck, if_neg (by decide)]
    rfl

theorem ed25519_verifySignature_cases (vk : C.Ed25519VerifyingKey) (payload : Bytes)
    (signature : Octets64) :
    Ed25519VerificationKey.verifySignature vk payload signature = .verified ∨
      Ed25519VerificationKey.verifySignature vk payload signature = .signatureMismatch := by
  by_cases h : verifyEd25519 C.toCrypto vk payload signature = true
  · exact .inl (if_pos h)
  · exact .inr (if_neg h)

/-- A built-in P-256 key calls a signature malformed that has no form. -/
theorem p256_verifySignature_cases (vk : C.P256VerifyingKey) (payload : Bytes)
    {signature : Octets64} (hform : ecdsaP256SignatureIsWellFormed C.toCrypto signature = true) :
    P256VerificationKey.verifySignature vk payload signature = .verified ∨
      P256VerificationKey.verifySignature vk payload signature = .signatureMismatch := by
  simp only [P256VerificationKey.verifySignature, verifyEcdsaP256Sha256]
  rw [ecdsaP256SignatureIsWellFormed] at hform
  cases hs : C.p256SignatureFromSlice signature with
  | none =>
    rw [hs] at hform
    cases hform
  | some s =>
    simp only
    by_cases hv : C.p256Verify vk payload s = true
    · rw [if_pos hv]
      exact .inl rfl
    · rw [if_neg hv]
      exact .inr rfl

variable {keys : PublicKeys C.Ed25519VerifyingKey C.P256VerifyingKey}
  {bound : ProviderPublicKeys C} {options : VerifierOptions}

theorem checkOctets64_eq_of_binds (h : Binds C keys bound) (payload : Bytes) (s : Octets64)
    (alg : AlgorithmId) : checkOctets64 C.toCrypto payload s keys options alg =
      checkOctets64 C.toCrypto payload s bound options alg := by
  cases alg with
  | ed25519 =>
    rw [checkOctets64, checkOctets64]
    have hslot := h.ed25519
    generalize keys.ed25519 = slot at hslot
    generalize bound.ed25519 = slot' at hslot
    cases hslot with
    | absent => rfl
    | @bound vk publicKey key hoctets hbound hanswers =>
      subst hoctets
      have hvk := ed25519_isAdmissible_of_resolves hbound.resolves
      have hkey := (bound_isAdmissible hbound).1 rfl
      have houtcome : Ed25519VerificationKey.verifySignature key payload s =
          Ed25519VerificationKey.verifySignature vk payload s :=
        providerOutcome_of_answersFor hanswers (ed25519_verifySignature_cases vk payload s)
      simp only [hvk, hkey, houtcome]
  | ecdsaP256Sha256 =>
    rw [checkOctets64, checkOctets64]
    have hslot := h.p256
    generalize keys.p256 = slot at hslot
    generalize bound.p256 = slot' at hslot
    cases hslot with
    | absent => rfl
    | @bound vk publicKey key hoctets hbound hanswers =>
      by_cases hform : ecdsaP256SignatureIsWellFormed C.toCrypto s = true
      · have hvk : P256VerificationKey.isAdmissible vk = true := rfl
        have hkey := (bound_isAdmissible hbound).2 rfl
        have houtcome : P256VerificationKey.verifySignature key payload s =
            P256VerificationKey.verifySignature vk payload s :=
          providerOutcome_of_answersFor hanswers (p256_verifySignature_cases vk payload hform)
        simp only [hvk, hkey, houtcome]
      · have hform : (!ecdsaP256SignatureIsWellFormed C.toCrypto s) = true := by
          rw [Bool.not_eq_true', ← Bool.not_eq_true]
          exact hform
        simp only [hform, if_true]

theorem verifyFromPreVerify_eq_of_binds (h : Binds C keys bound) (form : ArtifactForm)
    (pre : PreVerifyResponse) : verifyFromPreVerify C.toCrypto form pre keys options =
      verifyFromPreVerify C.toCrypto form pre bound options := by
  rw [verifyFromPreVerify, verifyFromPreVerify]
  cases pre.unverifiedPayloadBytes with
  | none => rfl
  | some payload =>
    cases pre.unverifiedSignature with
    | none => rfl
    | some sig =>
      simp only
      rw [verifyExtractedSignature_congr fun s _ =>
        checkOctets64_eq_of_binds h payload s sig.algorithm]

variable (K : Backend)

theorem verifyWithMetadata_eq_of_binds (h : Binds C keys bound) (bytes : Bytes)
    (form : ArtifactForm) (observations : Bool) :
    verifyWithMetadata C.toCrypto K bytes form keys options observations =
      verifyWithMetadata C.toCrypto K bytes form bound options observations := by
  by_cases hparams : options.algorithmParameters ≠ []
  · rw [verifyWithMetadata, verifyWithMetadata, if_pos hparams, if_pos hparams]
  · obtain ⟨pre, hpre⟩ := exists_preVerify K bytes form
    rw [verifyWithMetadata_eq K hparams hpre, verifyWithMetadata_eq K hparams hpre]
    simp only [verifyFromPreVerify_eq_of_binds h]

end

/-! ## What an artifact lets be asked -/

section
variable {C : KeyCrypto} (K : Backend) (keys : ProviderPublicKeys C) (options : VerifierOptions)
  (bytes : Bytes) (form : ArtifactForm)

/-- The question is about what the artifact says, and its pre-verification lets
it be asked. -/
structure ArtifactMayAsk (call : VerifierCall C) (alg : AlgorithmId) : Prop where
  response : ∃ pre, preVerify K bytes form false = some pre ∧ MayAsk C keys options pre call alg
  content : ∃ carrier fields, Decomposes form bytes call.payload carrier ∧
    CarrierSays K form carrier fields ∧ KeyidOk fields.keyid ∧ fields.alg = alg ∧
    fields.signature = call.signature.val

variable {K keys options bytes form}

theorem artifactMayAsk_of_mayAsk {pre : PreVerifyResponse}
    (hpre : preVerify K bytes form false = some pre) {call : VerifierCall C} {alg : AlgorithmId}
    (h : MayAsk C keys options pre call alg) : ArtifactMayAsk K keys options bytes form call alg := by
  refine ⟨⟨pre, hpre, h⟩, ?_⟩
  have hspec := preVerify_spec K bytes form
  rw [hpre] at hspec
  cases hcontent : signedContent K form bytes with
  | none =>
    rw [hcontent] at hspec
    have hok := h.outcome
    cases hspec <;> cases hok
  | some s =>
    rw [hcontent] at hspec
    cases hspec with
    | content s =>
      obtain ⟨carrier, hdecomposes, hsays⟩ := signedContent_eq_some_iff.mp hcontent
      have hpayload : s.payload = call.payload := Option.some.inj h.payload
      obtain ⟨sig, hsig, halg, hoctets⟩ := h.signature
      have hsig : (⟨s.fields.alg, s.fields.keyid, s.fields.signature⟩ : UnverifiedSignature) = sig :=
        Option.some.inj hsig
      rw [← hsig] at halg hoctets
      exact ⟨carrier, s.fields, hpayload ▸ hdecomposes, hsays, s.keyid_ok, halg, hoctets⟩

variable (K keys options bytes form)

theorem asksOnce_verifyWithProviderKeysAndMetadata (observations : Bool) : ∃ view,
    AsksOnce (ArtifactMayAsk K keys options bytes form) view
      (verifyWithProviderKeysAndMetadata C K bytes form keys options observations) := by
  have hform : ¬ form ∉ supportedForms := by
    cases form <;> decide
  rw [verifyWithProviderKeysAndMetadata, if_neg hform]
  by_cases hparams : options.algorithmParameters ≠ []
  · rw [if_pos hparams]
    exact ⟨fun state => ⟨state, []⟩, .done _⟩
  obtain ⟨pre, hpre⟩ := exists_preVerify K bytes form
  rw [if_neg hparams, hpre]
  refine ⟨fun state => ⟨state, if observations then pre.parserObservations else []⟩, ?_⟩
  simp only
  cases pre.outcome with
  | ok =>
    have hasks : AsksOnce (MayAsk C keys options pre) id _ :=
      asksOnce_verifyFromPreVerifyWithProvider pre
    rw [verifyFromPreVerifyWithProvider, if_neg hparams] at hasks
    exact (hasks.mono fun call alg => artifactMayAsk_of_mayAsk hpre).map fun state =>
      (⟨state, if observations then pre.parserObservations else []⟩ : VerifyResult)
  | unsigned => exact .done _
  | structuralFailure => exact .done _
  | metadataParseFailure => exact .done _

theorem asksOnce_verifyWithProvider : ∃ view,
    AsksOnce (ArtifactMayAsk K keys options bytes form) view
      (verifyWithProvider C K bytes form keys options) := by
  obtain ⟨view, hasks⟩ :=
    asksOnce_verifyWithProviderKeysAndMetadata K keys options bytes form false
  exact ⟨_, hasks.map VerifyResult.state⟩

end

/-- What holds of a program against every party: one question at most, a
permitted one, and a failure of the party is an error. -/
def OneSafeCall {C : KeyCrypto} {α : Type} (permit : VerifierCall C → AlgorithmId → Prop)
    (program : Verifying C (Run (Except InvocationError α))) : Prop :=
  ∀ answer, (program.calls answer).length ≤ 1 ∧ ∀ call ∈ program.calls answer,
    (∃ alg, permit call alg) ∧ (answer call = .providerFailure →
      program.run answer = some (.error .keyResolutionFailure))

/-- Main result on providers: with handles that answer as the built-in checks do,
all paths return what the built-in ones return; with any handles, the awaited
operations are the synchronous ones, and a handle is asked once at most, about
what the artifact says and after every other check. -/
theorem provider_paths_agree (C : KeyCrypto) (K : Backend) (options : VerifierOptions) :
    (∀ keys bound, Binds C keys bound →
      (∀ bytes form,
        (verifyWithProvider C K bytes form bound options).run VerifierCall.answer =
          verify C.toCrypto K bytes form keys options ∧
        (Awaited.verifyWithAsyncProvider C K bytes form bound options).run VerifierCall.answer =
          verify C.toCrypto K bytes form keys options) ∧
      (∀ bytes form observations,
        (verifyWithProviderKeysAndMetadata C K bytes form bound options observations).run
            VerifierCall.answer =
          verifyWithMetadata C.toCrypto K bytes form keys options observations ∧
        (Awaited.verifyMetadata C K bytes form bound options observations).run
            VerifierCall.answer =
          verifyWithMetadata C.toCrypto K bytes form keys options observations) ∧
      ∀ pre,
        (verifyFromPreVerifyWithProvider C pre bound options).run VerifierCall.answer =
          Staged.verifyFromPreVerify C.toCrypto pre keys options ∧
        (Awaited.verifyFromPre C pre bound options).run VerifierCall.answer =
          Staged.verifyFromPreVerify C.toCrypto pre keys options) ∧
    ∀ keys : ProviderPublicKeys C,
      (∀ bytes form,
        Awaited.verifyWithAsyncProvider C K bytes form keys options =
          verifyWithProvider C K bytes form keys options ∧
        OneSafeCall (ArtifactMayAsk K keys options bytes form)
          (verifyWithProvider C K bytes form keys options)) ∧
      (∀ bytes form observations,
        Awaited.verifyMetadata C K bytes form keys options observations =
          verifyWithProviderKeysAndMetadata C K bytes form keys options observations ∧
        OneSafeCall (ArtifactMayAsk K keys options bytes form)
          (verifyWithProviderKeysAndMetadata C K bytes form keys options observations)) ∧
      ∀ pre,
        Awaited.verifyFromPre C pre keys options =
          verifyFromPreVerifyWithProvider C pre keys options ∧
        OneSafeCall (MayAsk C keys options pre)
          (verifyFromPreVerifyWithProvider C pre keys options) := by
  refine ⟨fun keys bound hbinds => ⟨fun bytes form => ?_, fun bytes form observations => ?_,
    fun pre => ?_⟩, fun keys => ⟨fun bytes form => ?_, fun bytes form observations => ?_,
    fun pre => ?_⟩⟩
  · rw [verifyWithAsyncProvider_eq, run_verifyWithProvider, verify_eq_metadata,
      ← verifyWithMetadata_eq_of_binds K hbinds, ← verify_eq_metadata]
    exact ⟨rfl, rfl⟩
  · rw [verifyMetadata_eq, run_verifyWithProviderKeysAndMetadata,
      verifyWithMetadata_eq_of_binds K hbinds]
    exact ⟨rfl, rfl⟩
  · rw [verifyFromPre_eq, run_verifyFromPreVerifyWithProvider, Staged.verifyFromPreVerify_eq,
      Staged.verifyFromPreVerify_eq, verifyFromPreVerify_eq_of_binds hbinds]
    exact ⟨rfl, rfl⟩
  · obtain ⟨view, hasks⟩ := asksOnce_verifyWithProvider K keys options bytes form
    exact ⟨verifyWithAsyncProvider_eq K bytes form, hasks.calls⟩
  · obtain ⟨view, hasks⟩ :=
      asksOnce_verifyWithProviderKeysAndMetadata K keys options bytes form observations
    exact ⟨verifyMetadata_eq K bytes form observations, hasks.calls⟩
  · exact ⟨verifyFromPre_eq pre, (asksOnce_verifyFromPreVerifyWithProvider pre).calls⟩

namespace Reference

def nativeKey : keyCrypto.Ed25519VerifyingKey := rfc8032Test1PublicKey

def nativeKeys : PublicKeys keyCrypto.Ed25519VerifyingKey keyCrypto.P256VerifyingKey where
  ed25519 := some nativeKey
  p256 := none

/-- A provider that answers with the built-in check. -/
def verifierFactory : ProviderVerifierFactory where
  bind
    | .ed25519, publicKey => some fun payload signature =>
      if verifyEd25519 keyCrypto.toCrypto publicKey payload signature then .verified
      else .signatureMismatch
    | .ecdsaP256Sha256, _ => none

def boundKey : ProviderVerifyingKey keyCrypto where
  algorithm := .ed25519
  canonicalPublicKey := rfc8032Test1PublicKey
  verifier payload signature :=
    if verifyEd25519 keyCrypto.toCrypto rfc8032Test1PublicKey payload signature then .verified
    else .signatureMismatch
  admissible := rfl

def boundKeys : ProviderPublicKeys keyCrypto where
  ed25519 := some boundKey
  p256 := none

theorem bindKey_rfc8032 :
    verifierFactory.bindKey keyCrypto .ed25519 rfc8032Test1PublicKey = .ok boundKey := rfl

theorem answersFor_boundKey : AnswersFor (Ed25519VerificationKey.verifySignature nativeKey)
    boundKey.verifier := by
  intro payload signature
  show (if verifyEd25519 keyCrypto.toCrypto nativeKey payload signature then _ else _) =
    if (if verifyEd25519 keyCrypto.toCrypto nativeKey payload signature then _ else _) =
      KeyVerificationOutcome.verified then _ else _
  by_cases h : verifyEd25519 keyCrypto.toCrypto nativeKey payload signature = true
  · rw [if_pos h, if_pos h, if_pos rfl]
  · rw [if_neg h, if_neg h, if_neg (by decide)]

theorem binds : Binds keyCrypto nativeKeys boundKeys where
  ed25519 := .bound rfl (.unqualified bindKey_rfc8032) answersFor_boundKey
  p256 := .absent

end Reference

theorem provider_paths_agree_rfc8032 :
    (Awaited.verifyWithAsyncProvider Reference.keyCrypto Core.Reference.backend
        Reference.rfc8032Wire .proto Reference.boundKeys ⟨true, false, []⟩).run
        VerifierCall.answer =
      verify Reference.keyCrypto.toCrypto Core.Reference.backend Reference.rfc8032Wire .proto
        Reference.nativeKeys ⟨true, false, []⟩ :=
  (((provider_paths_agree Reference.keyCrypto Core.Reference.backend ⟨true, false, []⟩).1
    Reference.nativeKeys Reference.boundKeys Reference.binds).1 Reference.rfc8032Wire .proto).2

end Verification
end YamlSigil
