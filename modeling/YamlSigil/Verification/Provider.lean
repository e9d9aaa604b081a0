/-
Verification with keys that a provider holds.

A bound key has the octets of the public key and a handle to its provider.  The
synchronous and the awaited operation put the same question to the handle, which
is the one step that both of them leave to somebody else: `Verifying` programs.
-/
import YamlSigil.Control.Ask
import YamlSigil.Verification.Keys
import YamlSigil.Verification.Soundness
import YamlSigil.Verification.Staged

namespace YamlSigil
namespace Verification

open Control YamlSigil.Core

/-! ## Bound keys -/

inductive ProviderVerificationOutcome where
  | verified
  | signatureMismatch
  | providerFailure
deriving Repr, DecidableEq

/-- What a handle answers for a message and a signature. -/
abbrev ProviderVerifier := Bytes → Octets64 → ProviderVerificationOutcome

def providerOutcome : ProviderVerificationOutcome → KeyVerificationOutcome
  | .verified => .verified
  | .signatureMismatch => .signatureMismatch
  | .providerFailure => .providerFailure

/-- A public key and its handle.  The synchronous and the awaited keys, qualified
or not, have the same fields; only binding makes one. -/
structure ProviderVerifyingKey (C : KeyCrypto) where
  algorithm : AlgorithmId
  canonicalPublicKey : Bytes
  verifier : ProviderVerifier
  admissible : providerPublicKeyIsAdmissible C algorithm canonicalPublicKey = true

abbrev ProviderPublicKeys (C : KeyCrypto) :=
  PublicKeys (ProviderVerifyingKey C) (ProviderVerifyingKey C)

instance (C : KeyCrypto) : Ed25519VerificationKey (ProviderVerifyingKey C) where
  isAdmissible key :=
    key.algorithm == .ed25519 && providerPublicKeyIsAdmissible C .ed25519 key.canonicalPublicKey
  verifySignature key payload signature := providerOutcome (key.verifier payload signature)

instance (C : KeyCrypto) : P256VerificationKey (ProviderVerifyingKey C) where
  isAdmissible key :=
    key.algorithm == .ecdsaP256Sha256 &&
      providerPublicKeyIsAdmissible C .ecdsaP256Sha256 key.canonicalPublicKey
  verifySignature key payload signature := providerOutcome (key.verifier payload signature)

/-! ## Binding -/

inductive ProviderKeyBindingErrorKind where
  | invalidPublicKey
  | algorithmNotQualified
  | providerBindingFailed
deriving Repr, DecidableEq

structure ProviderKeyBindingError where
  kind : ProviderKeyBindingErrorKind
  algorithm : AlgorithmId
deriving Repr, DecidableEq

inductive ProviderQualificationErrorKind where
  | keyBindingFailed
  | validSignatureRejected
  | invalidSignatureAccepted
  | providerFailure
deriving Repr, DecidableEq

structure ProviderQualificationError where
  kind : ProviderQualificationErrorKind
  algorithm : AlgorithmId
deriving Repr, DecidableEq

inductive ProviderQualificationStatus where
  | qualified
  | rejected (error : ProviderQualificationError)
deriving Repr, DecidableEq

def ProviderQualificationStatus.isQualified : ProviderQualificationStatus → Bool
  | .qualified => true
  | .rejected _ => false

/-- A factory makes the handle of a key, or fails. -/
structure ProviderVerifierFactory where
  bind : AlgorithmId → Bytes → Option ProviderVerifier

structure QualifiedVerificationProvider where
  provider : ProviderVerifierFactory
  ed25519 : ProviderQualificationStatus
  ecdsaP256Sha256 : ProviderQualificationStatus

def QualifiedVerificationProvider.status (p : QualifiedVerificationProvider) :
    AlgorithmId → ProviderQualificationStatus
  | .ed25519 => p.ed25519
  | .ecdsaP256Sha256 => p.ecdsaP256Sha256

def bindingError (algorithm : AlgorithmId) (kind : ProviderKeyBindingErrorKind) :
    ProviderKeyBindingError := ⟨kind, algorithm⟩

section
variable (C : KeyCrypto)

def validatePublicKey (algorithm : AlgorithmId) (canonicalPublicKey : Bytes) :
    Except ProviderKeyBindingError Unit :=
  if providerPublicKeyIsAdmissible C algorithm canonicalPublicKey then .ok ()
  else .error (bindingError algorithm .invalidPublicKey)

variable {C}

theorem admissible_of_validatePublicKey {algorithm : AlgorithmId} {publicKey : Bytes}
    (h : validatePublicKey C algorithm publicKey = .ok ()) :
    providerPublicKeyIsAdmissible C algorithm publicKey = true := by
  rw [validatePublicKey] at h
  by_cases hadm : providerPublicKeyIsAdmissible C algorithm publicKey = true
  · exact hadm
  · rw [if_neg hadm] at h
    cases h

variable (C)

/-- Bind without asking for qualification; the awaited binding is the same. -/
def ProviderVerifierFactory.bindKey (provider : ProviderVerifierFactory) (algorithm : AlgorithmId)
    (publicKey : Bytes) : Except ProviderKeyBindingError (ProviderVerifyingKey C) :=
  match h : validatePublicKey C algorithm publicKey with
  | .error e => .error e
  | .ok () =>
    match provider.bind algorithm publicKey with
    | none => .error (bindingError algorithm .providerBindingFailed)
    | some verifier => .ok ⟨algorithm, publicKey, verifier, admissible_of_validatePublicKey h⟩

/-- `bind` of the synchronous provider. -/
def QualifiedVerificationProvider.bind (p : QualifiedVerificationProvider)
    (algorithm : AlgorithmId) (canonicalPublicKey : Bytes) :
    Except ProviderKeyBindingError (ProviderVerifyingKey C) :=
  match h : validatePublicKey C algorithm canonicalPublicKey with
  | .error e => .error e
  | .ok () =>
    if !(p.status algorithm).isQualified then
      .error (bindingError algorithm .algorithmNotQualified)
    else
      match p.provider.bind algorithm canonicalPublicKey with
      | none => .error (bindingError algorithm .providerBindingFailed)
      | some verifier =>
        .ok ⟨algorithm, canonicalPublicKey, verifier, admissible_of_validatePublicKey h⟩

/-- `bind` of the awaited provider, which validates the key a second time. -/
def QualifiedVerificationProvider.bindAwaited (p : QualifiedVerificationProvider)
    (algorithm : AlgorithmId) (publicKey : Bytes) :
    Except ProviderKeyBindingError (ProviderVerifyingKey C) :=
  match validatePublicKey C algorithm publicKey with
  | .error e => .error e
  | .ok () =>
    if !(p.status algorithm).isQualified then
      .error (bindingError algorithm .algorithmNotQualified)
    else p.provider.bindKey C algorithm publicKey

/-- A key that some provider bound, by any of the operations. -/
inductive BoundTo (algorithm : AlgorithmId) (publicKey : Bytes) : ProviderVerifyingKey C → Prop
  | unqualified {provider : ProviderVerifierFactory} {key} :
      provider.bindKey C algorithm publicKey = .ok key → BoundTo algorithm publicKey key
  | qualified {provider : QualifiedVerificationProvider} {key} :
      provider.bind C algorithm publicKey = .ok key → BoundTo algorithm publicKey key
  | awaited {provider : QualifiedVerificationProvider} {key} :
      provider.bindAwaited C algorithm publicKey = .ok key → BoundTo algorithm publicKey key

variable {C}

theorem bindKey_spec {provider : ProviderVerifierFactory} {algorithm : AlgorithmId}
    {publicKey : Bytes} {key : ProviderVerifyingKey C}
    (h : provider.bindKey C algorithm publicKey = .ok key) :
    key.algorithm = algorithm ∧ key.canonicalPublicKey = publicKey := by
  unfold ProviderVerifierFactory.bindKey at h
  split at h
  · cases h
  · split at h
    · cases h
    · cases h
      exact ⟨rfl, rfl⟩

theorem bind_spec {provider : QualifiedVerificationProvider} {algorithm : AlgorithmId}
    {publicKey : Bytes} {key : ProviderVerifyingKey C}
    (h : provider.bind C algorithm publicKey = .ok key) :
    key.algorithm = algorithm ∧ key.canonicalPublicKey = publicKey := by
  unfold QualifiedVerificationProvider.bind at h
  split at h
  · cases h
  · split at h
    · cases h
    · split at h
      · cases h
      · cases h
        exact ⟨rfl, rfl⟩

/-- A bound key has the algorithm and the octets it was bound for. -/
theorem BoundTo.fields {algorithm : AlgorithmId} {publicKey : Bytes}
    {key : ProviderVerifyingKey C} (h : BoundTo C algorithm publicKey key) :
    key.algorithm = algorithm ∧ key.canonicalPublicKey = publicKey := by
  cases h with
  | unqualified h => exact bindKey_spec h
  | qualified h => exact bind_spec h
  | awaited h =>
    unfold QualifiedVerificationProvider.bindAwaited at h
    split at h
    · cases h
    · split at h
      · cases h
      · exact bindKey_spec h

theorem BoundTo.resolves {algorithm : AlgorithmId} {publicKey : Bytes}
    {key : ProviderVerifyingKey C} (h : BoundTo C algorithm publicKey key) :
    providerPublicKeyIsAdmissible C algorithm publicKey = true := by
  obtain ⟨halg, hkey⟩ := h.fields
  rw [← halg, ← hkey]
  exact key.admissible

end

/-! ## The operations -/

/-- A question to the handle of a bound key. -/
structure VerifierCall (C : KeyCrypto) where
  key : ProviderVerifyingKey C
  payload : Bytes
  signature : Octets64

/-- Verification with one step that a handle takes. -/
abbrev Verifying (C : KeyCrypto) (α : Type) := Ask (VerifierCall C) ProviderVerificationOutcome α

/-- Every handle answers for itself. -/
def VerifierCall.answer {C : KeyCrypto} (call : VerifierCall C) : ProviderVerificationOutcome :=
  call.key.verifier call.payload call.signature

section
variable (C : KeyCrypto)

/-- `verify_extracted_signature_with_keys` with bound keys. -/
def verifyExtractedSignatureWithKeys (payload : Bytes) (wireAlg : Int32) (sigOctets : Bytes)
    (keys : ProviderPublicKeys C) (options : VerifierOptions) :
    Verifying C (Run (Except InvocationError VerifierState)) :=
  match prepareSignatureVerification C.toCrypto wireAlg sigOctets keys options with
  | none => .done none
  | some (.error e) => .done (some (.error e))
  | some (.ok (.complete state)) => .done (some (.ok state))
  | some (.ok (.ed25519 key signature)) => .ask ⟨key, payload, signature⟩ fun outcome =>
      .done (some (verificationStateFromOutcome (providerOutcome outcome) payload .ed25519))
  | some (.ok (.p256 key signature)) => .ask ⟨key, payload, signature⟩ fun outcome =>
      .done (some (verificationStateFromOutcome (providerOutcome outcome) payload
        .ecdsaP256Sha256))

def verifyFromPreVerifyWithKeys (pre : PreVerifyResponse) (keys : ProviderPublicKeys C)
    (options : VerifierOptions) : Verifying C (Run (Except InvocationError VerifierState)) :=
  if pre.outcome ≠ .ok then .done (some (.error .invalidPreVerifyResult))
  else
    match pre.unverifiedPayloadBytes, pre.unverifiedSignature with
    | some payload, some signature =>
      verifyExtractedSignatureWithKeys C payload signature.algorithm.wireValue
        signature.signatureOctets keys options
    | _, _ => .done (some (.error .invalidPreVerifyResult))

def verifyFromPreVerifyWithProvider (pre : PreVerifyResponse) (keys : ProviderPublicKeys C)
    (options : VerifierOptions) : Verifying C (Run (Except InvocationError VerifierState)) :=
  if options.algorithmParameters ≠ [] then .done (some (.error .invalidAlgorithmParameters))
  else verifyFromPreVerifyWithKeys C pre keys options

variable (K : Backend)

def verifyWithProviderKeysAndMetadata (inputBytes : Bytes) (form : ArtifactForm)
    (keys : ProviderPublicKeys C) (options : VerifierOptions) (includeParserObservations : Bool) :
    Verifying C (Run (Except InvocationError VerifyResult)) :=
  if form ∉ supportedForms then .done (some (.error .invalidOrUnsupportedForm))
  else if options.algorithmParameters ≠ [] then
    .done (some (.error .invalidAlgorithmParameters))
  else
    match preVerify K inputBytes form false with
    | none => .done none
    | some pre =>
      let parserObservations := if includeParserObservations then pre.parserObservations else []
      let state :=
        match pre.outcome with
        | .ok => verifyFromPreVerifyWithKeys C pre keys options
        | .unsigned => .done (some (.ok .unsigned))
        | .structuralFailure | .metadataParseFailure =>
          .done (some (.ok .malformedAttemptedSigned))
      state.andThen fun state =>
        .done (state.map fun r => r.map fun state => ⟨state, parserObservations⟩)

def verifyWithProvider (inputBytes : Bytes) (form : ArtifactForm) (keys : ProviderPublicKeys C)
    (options : VerifierOptions) : Verifying C (Run (Except InvocationError VerifierState)) :=
  (verifyWithProviderKeysAndMetadata C K inputBytes form keys options false).andThen fun result =>
    .done (result.map fun r => r.map VerifyResult.state)

end

/-! The awaited operations repeat the steps. -/

namespace Awaited

section
variable (C : KeyCrypto)

/-- `verify_from_pre`: the state names the algorithm of the response. -/
def verifyFromPre (pre : PreVerifyResponse) (keys : ProviderPublicKeys C)
    (options : VerifierOptions) : Verifying C (Run (Except InvocationError VerifierState)) :=
  if options.algorithmParameters ≠ [] then .done (some (.error .invalidAlgorithmParameters))
  else if pre.outcome ≠ .ok then .done (some (.error .invalidPreVerifyResult))
  else
    match pre.unverifiedPayloadBytes, pre.unverifiedSignature with
    | some payload, some signature =>
      match prepareSignatureVerification C.toCrypto signature.algorithm.wireValue
          signature.signatureOctets keys options with
      | none => .done none
      | some (.error e) => .done (some (.error e))
      | some (.ok (.complete state)) => .done (some (.ok state))
      | some (.ok (.ed25519 key octets)) | some (.ok (.p256 key octets)) =>
        .ask ⟨key, payload, octets⟩ fun outcome =>
          .done (some (verificationStateFromOutcome (providerOutcome outcome) payload
            signature.algorithm))
    | _, _ => .done (some (.error .invalidPreVerifyResult))

variable (K : Backend)

def verifyMetadata (input : Bytes) (form : ArtifactForm) (keys : ProviderPublicKeys C)
    (options : VerifierOptions) (includeParserObservations : Bool) :
    Verifying C (Run (Except InvocationError VerifyResult)) :=
  if form ∉ supportedForms then .done (some (.error .invalidOrUnsupportedForm))
  else if options.algorithmParameters ≠ [] then
    .done (some (.error .invalidAlgorithmParameters))
  else
    match preVerify K input form false with
    | none => .done none
    | some pre =>
      let state :=
        match pre.outcome with
        | .ok => verifyFromPre C pre keys options
        | .unsigned => .done (some (.ok .unsigned))
        | .structuralFailure | .metadataParseFailure =>
          .done (some (.ok .malformedAttemptedSigned))
      state.andThen fun state => .done (state.map fun r => r.map fun state =>
        ⟨state, if includeParserObservations then pre.parserObservations else []⟩)

def verifyWithAsyncProvider (input : Bytes) (form : ArtifactForm) (keys : ProviderPublicKeys C)
    (options : VerifierOptions) : Verifying C (Run (Except InvocationError VerifierState)) :=
  (verifyMetadata C K input form keys options false).andThen fun result =>
    .done (result.map fun r => r.map VerifyResult.state)

end

end Awaited

/-! ## The awaited operations are the synchronous ones -/

section
variable {C : KeyCrypto} {keys : ProviderPublicKeys C} {options : VerifierOptions}

/-- What the preparation of a signature check leads to. -/
inductive Prepared {Ed25519 P256 : Type} [Ed25519VerificationKey Ed25519]
    [P256VerificationKey P256] (C : Crypto) (keys : PublicKeys Ed25519 P256)
    (options : VerifierOptions) (sigOctets : Bytes) :
    AlgorithmId → Run (Except InvocationError (PreparedVerification Ed25519 P256)) → Prop
  | error {alg} (e : InvocationError) : Prepared C keys options sigOctets alg (some (.error e))
  | complete {alg} (state : VerifierState) :
      Prepared C keys options sigOctets alg (some (.ok (.complete state)))
  | ed25519 {key} {signature : Octets64} : sigOctets = signature.val →
      options.verifyEd25519 = true → ed25519SignatureIsCanonical C signature = true →
      keys.ed25519 = some key → Ed25519VerificationKey.isAdmissible key = true →
      Prepared C keys options sigOctets .ed25519 (some (.ok (.ed25519 key signature)))
  | p256 {key} {signature : Octets64} : sigOctets = signature.val →
      options.verifyEcdsaP256Sha256 = true → ecdsaP256SignatureIsWellFormed C signature = true →
      keys.p256 = some key → P256VerificationKey.isAdmissible key = true →
      Prepared C keys options sigOctets .ecdsaP256Sha256 (some (.ok (.p256 key signature)))

theorem prepareSignatureVerification_spec {Ed25519 P256 : Type} [Ed25519VerificationKey Ed25519]
    [P256VerificationKey P256] (C : Crypto) (keys : PublicKeys Ed25519 P256)
    (options : VerifierOptions) (alg : AlgorithmId) (sigOctets : Bytes) :
    Prepared C keys options sigOctets alg
      (prepareSignatureVerification C alg.wireValue sigOctets keys options) := by
  rw [prepareSignatureVerification, if_neg (wireValue_pos alg), AlgorithmId.fromI32_wireValue]
  simp only
  by_cases hempty : sigOctets.isEmpty = true
  · rw [if_pos hempty]
    exact .complete _
  rw [if_neg hempty]
  by_cases hlen : sigOctets.length ≠ 64
  · rw [if_pos hlen]
    exact .complete _
  rw [if_neg hlen]
  have hoctets : octets64 sigOctets = some ⟨sigOctets, not_not.mp hlen⟩ := dif_pos _
  rw [hoctets]
  cases alg with
  | ed25519 =>
    simp only
    by_cases henabled : (!options.verifyEd25519) = true
    · rw [if_pos henabled]
      exact .complete _
    rw [if_neg henabled]
    by_cases hcanonical : (!ed25519SignatureIsCanonical C sigOctets) = true
    · rw [if_pos hcanonical]
      exact .complete _
    rw [if_neg hcanonical]
    cases hkey : keys.ed25519 with
    | none => exact .error _
    | some key =>
      simp only
      by_cases hadm : (!Ed25519VerificationKey.isAdmissible key) = true
      · rw [if_pos hadm]
        exact .error _
      · rw [if_neg hadm]
        rw [Bool.not_eq_true', Bool.not_eq_false] at henabled hcanonical hadm
        exact .ed25519 rfl henabled hcanonical hkey hadm
  | ecdsaP256Sha256 =>
    simp only
    by_cases henabled : (!options.verifyEcdsaP256Sha256) = true
    · rw [if_pos henabled]
      exact .complete _
    rw [if_neg henabled]
    cases hkey : keys.p256 with
    | none => exact .error _
    | some key =>
      simp only
      by_cases hform : (!ecdsaP256SignatureIsWellFormed C sigOctets) = true
      · rw [if_pos hform]
        exact .complete _
      rw [if_neg hform]
      by_cases hadm : (!P256VerificationKey.isAdmissible key) = true
      · rw [if_pos hadm]
        exact .error _
      · rw [if_neg hadm]
        rw [Bool.not_eq_true', Bool.not_eq_false] at henabled hform hadm
        exact .p256 rfl henabled hform hkey hadm

/-- The slot that is asked is the one of the algorithm in the response. -/
theorem verifyFromPre_eq (pre : PreVerifyResponse) :
    Awaited.verifyFromPre C pre keys options = verifyFromPreVerifyWithProvider C pre keys options := by
  rw [Awaited.verifyFromPre, verifyFromPreVerifyWithProvider, verifyFromPreVerifyWithKeys]
  by_cases hparams : options.algorithmParameters ≠ []
  · rw [if_pos hparams, if_pos hparams]
  rw [if_neg hparams, if_neg hparams]
  by_cases hok : pre.outcome ≠ .ok
  · rw [if_pos hok, if_pos hok]
  rw [if_neg hok, if_neg hok]
  cases pre.unverifiedPayloadBytes with
  | none => rfl
  | some payload =>
    cases pre.unverifiedSignature with
    | none => rfl
    | some signature =>
      simp only
      rw [verifyExtractedSignatureWithKeys]
      have hprepared := prepareSignatureVerification_spec C.toCrypto keys options
        signature.algorithm signature.signatureOctets
      generalize prepareSignatureVerification C.toCrypto signature.algorithm.wireValue
        signature.signatureOctets keys options = prepared at hprepared
      generalize signature.algorithm = alg at hprepared
      cases hprepared <;> rfl

variable (K : Backend)

theorem verifyMetadata_eq (bytes : Bytes) (form : ArtifactForm) (observations : Bool) :
    Awaited.verifyMetadata C K bytes form keys options observations =
      verifyWithProviderKeysAndMetadata C K bytes form keys options observations := by
  rw [Awaited.verifyMetadata, verifyWithProviderKeysAndMetadata]
  by_cases hform : form ∉ supportedForms
  · rw [if_pos hform, if_pos hform]
  rw [if_neg hform, if_neg hform]
  by_cases hparams : options.algorithmParameters ≠ []
  · rw [if_pos hparams, if_pos hparams]
  rw [if_neg hparams, if_neg hparams]
  cases preVerify K bytes form false with
  | none => rfl
  | some pre =>
    simp only
    rw [verifyFromPre_eq, verifyFromPreVerifyWithProvider, if_neg hparams]

theorem verifyWithAsyncProvider_eq (bytes : Bytes) (form : ArtifactForm) :
    Awaited.verifyWithAsyncProvider C K bytes form keys options =
      verifyWithProvider C K bytes form keys options := by
  rw [Awaited.verifyWithAsyncProvider, verifyMetadata_eq]
  rfl

end

/-! ## What is asked -/

section
variable (C : KeyCrypto) (keys : ProviderPublicKeys C) (options : VerifierOptions)

/-- The key in the slot of an algorithm. -/
def ProviderPublicKeys.slot {C : KeyCrypto} (keys : ProviderPublicKeys C) :
    AlgorithmId → Option (ProviderVerifyingKey C)
  | .ed25519 => keys.ed25519
  | .ecdsaP256Sha256 => keys.p256

/-- All checks on a response have passed when its handle is asked. -/
structure MayAsk (pre : PreVerifyResponse) (call : VerifierCall C) (alg : AlgorithmId) : Prop where
  params : options.algorithmParameters = []
  outcome : pre.outcome = .ok
  payload : pre.unverifiedPayloadBytes = some call.payload
  signature : ∃ sig, pre.unverifiedSignature = some sig ∧ sig.algorithm = alg ∧
    sig.signatureOctets = call.signature.val
  enabled : options.enables alg = true
  well_formed : signatureIsWellFormed C.toCrypto alg call.signature = true
  key : keys.slot alg = some call.key
  key_algorithm : call.key.algorithm = alg

/-- A program that asks at most once, and only what `permit` permits. -/
inductive AsksOnce {C : KeyCrypto} {α : Type} (permit : VerifierCall C → AlgorithmId → Prop)
    (view : VerifierState → α) : Verifying C (Run (Except InvocationError α)) → Prop
  | done (r : Run (Except InvocationError α)) : AsksOnce permit view (.done r)
  | ask (call : VerifierCall C) (alg : AlgorithmId) : permit call alg →
      AsksOnce permit view (.ask call fun outcome => .done (some
        ((verificationStateFromOutcome (providerOutcome outcome) call.payload alg).map view)))

variable {C keys options}

/-- A failure of the provider is never a state. -/
theorem AsksOnce.calls {α : Type} {permit : VerifierCall C → AlgorithmId → Prop}
    {view : VerifierState → α} {p : Verifying C (Run (Except InvocationError α))}
    (h : AsksOnce permit view p) (answer : VerifierCall C → ProviderVerificationOutcome) :
    (p.calls answer).length ≤ 1 ∧ ∀ call ∈ p.calls answer, (∃ alg, permit call alg) ∧
      (answer call = .providerFailure → p.run answer = some (.error .keyResolutionFailure)) := by
  cases h with
  | done r => exact ⟨Nat.zero_le 1, fun call hcall => (by cases hcall)⟩
  | ask call alg hpermit =>
    refine ⟨Nat.le_refl 1, fun call' hcall => ?_⟩
    have hcall : call' = call := List.mem_singleton.mp hcall
    subst hcall
    refine ⟨⟨alg, hpermit⟩, fun hanswer => ?_⟩
    rw [Ask.run_ask, Ask.run_done, hanswer]
    rfl

theorem AsksOnce.mono {α : Type} {permit permit' : VerifierCall C → AlgorithmId → Prop}
    {view : VerifierState → α} {p : Verifying C (Run (Except InvocationError α))}
    (h : AsksOnce permit view p) (hpermit : ∀ call alg, permit call alg → permit' call alg) :
    AsksOnce permit' view p := by
  cases h with
  | done r => exact .done r
  | ask call alg hcall => exact .ask call alg (hpermit call alg hcall)

theorem AsksOnce.map {α β : Type} {permit : VerifierCall C → AlgorithmId → Prop}
    {view : VerifierState → α} {p : Verifying C (Run (Except InvocationError α))}
    (h : AsksOnce permit view p) (f : α → β) :
    AsksOnce permit (fun state => f (view state))
      (p.andThen fun r => .done (r.map fun r => r.map f)) := by
  cases h with
  | done r => exact .done _
  | ask call alg hcall =>
    have hmap : ∀ r : Except InvocationError VerifierState, (r.map view).map f =
        r.map fun state => f (view state) := by
      intro r
      cases r <;> rfl
    rw [Ask.andThen_ask]
    simp only [Ask.andThen_done, Option.map_some, hmap]
    exact .ask call alg hcall

theorem isAdmissible_algorithm {key : ProviderVerifyingKey C} :
    (Ed25519VerificationKey.isAdmissible key = true → key.algorithm = .ed25519) ∧
      (P256VerificationKey.isAdmissible key = true → key.algorithm = .ecdsaP256Sha256) := by
  constructor
  · intro h
    have h : (key.algorithm == .ed25519 && _) = true := h
    rw [Bool.and_eq_true, beq_iff_eq] at h
    exact h.1
  · intro h
    have h : (key.algorithm == .ecdsaP256Sha256 && _) = true := h
    rw [Bool.and_eq_true, beq_iff_eq] at h
    exact h.1

theorem asksOnce_id {permit : VerifierCall C → AlgorithmId → Prop} {call : VerifierCall C}
    {alg : AlgorithmId} (h : permit call alg) :
    AsksOnce permit id (.ask call fun outcome => .done (some
      (verificationStateFromOutcome (providerOutcome outcome) call.payload alg))) := by
  have hid : ∀ r : Except InvocationError VerifierState, r.map id = r := by
    intro r
    cases r <;> rfl
  have hasks : AsksOnce permit id _ := .ask call alg h
  simp only [hid] at hasks
  exact hasks

theorem asksOnce_verifyFromPreVerifyWithProvider (pre : PreVerifyResponse) :
    AsksOnce (MayAsk C keys options pre) id (verifyFromPreVerifyWithProvider C pre keys options) := by
  rw [verifyFromPreVerifyWithProvider, verifyFromPreVerifyWithKeys]
  by_cases hparams : options.algorithmParameters ≠ []
  · rw [if_pos hparams]
    exact .done _
  rw [if_neg hparams]
  by_cases hok : pre.outcome ≠ .ok
  · rw [if_pos hok]
    exact .done _
  rw [if_neg hok]
  cases hpayload : pre.unverifiedPayloadBytes with
  | none => exact .done _
  | some payload =>
    cases hsig : pre.unverifiedSignature with
    | none => exact .done _
    | some sig =>
      simp only
      rw [verifyExtractedSignatureWithKeys]
      have hprepared := prepareSignatureVerification_spec C.toCrypto keys options sig.algorithm
        sig.signatureOctets
      generalize prepareSignatureVerification C.toCrypto sig.algorithm.wireValue
        sig.signatureOctets keys options = prepared at hprepared
      generalize halg : sig.algorithm = alg at hprepared
      have hask : ∀ key (signature : Octets64), sig.signatureOctets = signature.val →
          options.enables alg = true → signatureIsWellFormed C.toCrypto alg signature = true →
          keys.slot alg = some key → key.algorithm = alg →
          MayAsk C keys options pre ⟨key, payload, signature⟩ alg :=
        fun _ _ hoctets henabled hform hslot hkey =>
          ⟨not_not.mp hparams, not_not.mp hok, hpayload, ⟨sig, hsig, halg, hoctets⟩, henabled,
            hform, hslot, hkey⟩
      cases hprepared with
      | error e => exact .done _
      | complete state => exact .done _
      | @ed25519 key signature hoctets henabled hform hslot hadm =>
        exact asksOnce_id (hask key signature hoctets henabled hform hslot
          (isAdmissible_algorithm.1 hadm))
      | @p256 key signature hoctets henabled hform hslot hadm =>
        exact asksOnce_id (hask key signature hoctets henabled hform hslot
          (isAdmissible_algorithm.2 hadm))

end

end Verification
end YamlSigil
