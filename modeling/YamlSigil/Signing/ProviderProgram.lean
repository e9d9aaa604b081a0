/-
One program for all signing operations.

The synchronous operations and the awaited ones are one program, which
`signingProgram` spells with all of its checks in front of the question
(`checkRequest`), behind an interpreter that checks what is answered.  What is
asked, and when, is read off that program.
-/
import YamlSigil.Signing.Provider

namespace YamlSigil
namespace Signing

open Control YamlSigil.Core
open Pb (Buffa)
open Verification (KeyCrypto Octets64)

/-! ## One program -/

section
variable {Ed25519 P256 : Type} (req : SignRequest Ed25519 P256)

def prepareRequest : Except (Run SignResult) PreparedSigningPayload :=
  match prepareSigningPayload req with
  | .error e => .error (SignResult.signer e)
  | .ok prepared => .ok prepared

/-- All checks in front of the question, in the order that decides between them.
`guard` is what an operation checks between shape and size. -/
def checkRequest (B : Buffa) (limits : Option ArtifactResourceLimits)
    (guard : Except SignInvocationError Unit) : Except (Run SignResult) PreparedSigningPayload :=
  match if limits.isSome then validateInvocationShape req else validateInvocation req with
  | .error e => .error (SignResult.invocation e)
  | .ok () =>
    match guard with
    | .error e => .error (SignResult.invocation e)
    | .ok () =>
      match limits with
      | none => prepareRequest req
      | some limits =>
        match preflightSigningOutput B req limits with
        | .error e => .error (some (.error e))
        | .ok (.error e) => .error (some (.ok (.error e)))
        | .ok (.ok _) =>
          match validateKeyidContent req with
          | .error e => .error (SignResult.invocation e)
          | .ok () => prepareRequest req

/-- The result for an answer. -/
def finish (K : Backend) (limits : Option ArtifactResourceLimits)
    (prepared : PreparedSigningPayload) : Except SignError Octets64 → Run SignResult
  | .error e => SignResult.signer e
  | .ok signature => SignResult.framed (finishSigning K req prepared signature limits)

/-- Ask for the signature of what was prepared, if anything was. -/
def askFor (K : Backend) (limits : Option ArtifactResourceLimits) :
    Except (Run SignResult) PreparedSigningPayload → ProviderSigning (Except SignError Octets64)
  | .error r => .done r
  | .ok prepared => .ask prepared.payload fun answer => .done (finish req K limits prepared answer)

def signingProgram (K : Backend) (limits : Option ArtifactResourceLimits)
    (guard : Except SignInvocationError Unit) : ProviderSigning (Except SignError Octets64) :=
  askFor req K limits (checkRequest req K.buffa limits guard)

end

section
variable (C : KeyCrypto) {κ : Type} [BoundKey C κ]

/-- The provider paths want the algorithm of the request, and of the operation. -/
def algorithmGuard (req : SignRequest κ κ) (requiredAlgorithm : Option AlgorithmId) :
    Except SignInvocationError Unit :=
  if (publicKeyOf C req.boundKey).algorithm ≠ req.algorithm ∨
      requiredAlgorithm.any (· != req.algorithm) then
    .error .invalidOrUnsupportedAlgorithm
  else .ok ()

/-- What is left of an answer when the output has been checked. -/
def checkedOutput (key : κ) (payload : Bytes) :
    Except SignError Octets64 → Except SignError Octets64
  | .error e => .error e
  | .ok signature =>
    if !providerSignatureIsStructurallyValid C (publicKeyOf C key).algorithm signature ||
        (BoundKey.selfVerify C κ && !verifyProviderSignature (publicKeyOf C key) payload signature)
    then .error .keyOperationFailure
    else .ok signature

/-- A failed operation without its reason. -/
def ofAwaited : Option Octets64 → Except SignError Octets64
  | none => .error .keyOperationFailure
  | some signature => .ok signature

variable {C} (K : Backend) (req : SignRequest κ κ) (limits : Option ArtifactResourceLimits)

theorem signAfterInvocationValidationAsking_eq (question : Bytes → Bytes) :
    ((signAfterInvocationValidationAsking K req limits fun payload =>
        trySign C req.boundKey payload fun m => Ask.once (question m)).andThen fun r =>
          .done (SignResult.framed r)) =
      ((askFor req K limits (prepareRequest req)).through question
        fun payload answer => checkedOutput C req.boundKey payload answer) := by
  rw [signAfterInvocationValidationAsking, prepareRequest]
  cases prepareSigningPayload req with
  | error e => rfl
  | ok prepared =>
    simp only [askFor, trySign, Ask.once, Ask.andThen_ask, Ask.andThen_done, Ask.through_ask,
      Ask.through_done]
    congr 1
    funext answer
    cases answer with
    | error e => rfl
    | ok signature =>
      simp only [checkedOutput]
      split <;> rfl

/-- The synchronous operation with a callback for payloads, or for what is made
of them. -/
theorem signWithProviderInner_eq (requiredAlgorithm : Option AlgorithmId)
    (question : Bytes → Bytes) :
    signWithProviderInner C K req limits requiredAlgorithm (fun m => Ask.once (question m)) =
      (signingProgram req K limits (algorithmGuard C req requiredAlgorithm)).through question
        fun payload answer => checkedOutput C req.boundKey payload answer := by
  unfold signWithProviderInner signingProgram checkRequest algorithmGuard
  generalize (if limits.isSome then validateInvocationShape req else validateInvocation req) =
    validation
  cases validation with
  | error e => rfl
  | ok u =>
    simp only
    by_cases hguard : (publicKeyOf C req.boundKey).algorithm ≠ req.algorithm ∨
        requiredAlgorithm.any (· != req.algorithm) = true
    · rw [if_pos hguard, if_pos hguard]
      rfl
    · rw [if_neg hguard, if_neg hguard]
      simp only [signAfterInvocationValidationAsking_eq]
      cases limits with
      | none => rfl
      | some limits =>
        simp only
        cases preflightSigningOutput K.buffa req limits with
        | error e => rfl
        | ok encoding =>
          cases encoding with
          | error e => rfl
          | ok n =>
            simp only
            cases validateKeyidContent req <;> rfl

theorem signWithProviderInner_message :
    signWithProviderInner C K req limits none Ask.once =
      (signingProgram req K limits (algorithmGuard C req none)).through id
        fun payload answer => checkedOutput C req.boundKey payload answer :=
  signWithProviderInner_eq K req limits none id

theorem signWithProviderInner_digest (sha256 : Bytes → Bytes) :
    signWithProviderInner C K req limits (some .ecdsaP256Sha256)
      (p256DigestCallback sha256 Ask.once) =
        (signingProgram req K limits (algorithmGuard C req (some .ecdsaP256Sha256))).through sha256
          fun payload answer => checkedOutput C req.boundKey payload answer :=
  signWithProviderInner_eq K req limits (some .ecdsaP256Sha256) sha256

theorem signPrepared_eq (halg : (publicKeyOf C req.boundKey).algorithm = req.algorithm) :
    Awaited.signPrepared C K req limits = (askFor req K limits (prepareRequest req)).through id
      fun payload answer => checkedOutput C req.boundKey payload (ofAwaited answer) := by
  rw [Awaited.signPrepared, prepareRequest]
  cases prepareSigningPayload req with
  | error e => rfl
  | ok prepared =>
    simp only [askFor, Ask.through_ask, Ask.through_done, id]
    congr 1
    funext answer
    cases answer with
    | none => rfl
    | some signature =>
      simp only [ofAwaited, checkedOutput, halg]
      split <;> rfl

theorem signInner_eq :
    Awaited.signInner C K req limits =
      (signingProgram req K limits (algorithmGuard C req none)).through id
        fun payload answer => checkedOutput C req.boundKey payload (ofAwaited answer) := by
  unfold Awaited.signInner signingProgram checkRequest algorithmGuard
  generalize (if limits.isSome then validateInvocationShape req else validateInvocation req) =
    validation
  cases validation with
  | error e => rfl
  | ok u =>
    simp only
    by_cases hguard : (publicKeyOf C req.boundKey).algorithm ≠ req.algorithm
    · rw [if_pos hguard, if_pos (.inl hguard)]
      rfl
    · have hguard' : ¬ ((publicKeyOf C req.boundKey).algorithm ≠ req.algorithm ∨
          (none : Option AlgorithmId).any (· != req.algorithm) = true) :=
        not_or.mpr ⟨hguard, Bool.false_ne_true⟩
      rw [if_neg hguard, if_neg hguard']
      simp only [signPrepared_eq K req _ (not_not.mp hguard)]
      cases limits with
      | none => rfl
      | some limits =>
        simp only
        cases preflightSigningOutput K.buffa req limits with
        | error e => rfl
        | ok encoding =>
          cases encoding with
          | error e => rfl
          | ok n =>
            simp only
            cases validateKeyidContent req <;> rfl

end

/-! ## The unbounded operations -/

theorem expectUnbounded_eq_success_iff {r : Run SignResult} {s : SignSuccess} :
    expectUnbounded r = some (.success s) ↔ r = some (.ok (.ok (.success s))) := by
  constructor
  · intro h
    cases r with
    | none => cases h
    | some r =>
      cases r with
      | error e => cases h
      | ok r =>
        cases r with
        | error e => cases h
        | ok outcome =>
          cases h
          rfl
  · intro h
    rw [h]
    rfl

theorem run_unbounded_eq_success_iff {A : Type} {p : ProviderSigning A} {answer : Bytes → A}
    {s : SignSuccess} :
    (p.andThen fun r => .done (expectUnbounded r)).run answer = some (.success s) ↔
      p.run answer = some (.ok (.ok (.success s))) := by
  rw [Ask.run_andThen]
  exact expectUnbounded_eq_success_iff

/-! ## What precedes the question -/

section
variable {Ed25519 P256 : Type} {req : SignRequest Ed25519 P256} {K : Backend}
  {limits : Option ArtifactResourceLimits} {guard : Except SignInvocationError Unit}
  {prepared : PreparedSigningPayload}

theorem validateInvocationShape_eq_ok_iff : validateInvocationShape req = .ok () ↔
    validateInvocationParameters req = .ok () ∧ validateKeyAlgorithm req = .ok () := by
  rw [validateInvocationShape]
  cases validateInvocationParameters req with
  | error e => exact ⟨fun h => (by cases h), fun h => (by cases h.1)⟩
  | ok u => exact ⟨fun h => ⟨rfl, h⟩, fun h => h.2⟩

theorem validateInvocation_eq_ok_iff : validateInvocation req = .ok () ↔
    validateInvocationShape req = .ok () ∧ validateKeyidContent req = .ok () := by
  rw [validateInvocationShape_eq_ok_iff, validateInvocation]
  cases validateInvocationParameters req with
  | error e => exact ⟨fun h => (by cases h), fun h => (by cases h.1.1)⟩
  | ok u =>
    cases validateKeyidContent req with
    | error e => exact ⟨fun h => (by cases h), fun h => (by cases h.2)⟩
    | ok u' => exact ⟨fun h => ⟨⟨rfl, h⟩, rfl⟩, fun h => h.1.2⟩

variable (req K limits guard prepared) in
/-- All that is checked before a provider is asked. -/
structure Admitted : Prop where
  validated : validateInvocation req = .ok ()
  guard : guard = .ok ()
  sized : ∀ l ∈ limits, ∃ n, preflightSigningOutput K.buffa req l = .ok (.ok n)
  prepared : prepareSigningPayload req = .ok prepared

theorem prepareRequest_eq_ok_iff :
    prepareRequest req = .ok prepared ↔ prepareSigningPayload req = .ok prepared := by
  rw [prepareRequest]
  cases prepareSigningPayload req with
  | error e => exact ⟨fun h => (by cases h), fun h => (by cases h)⟩
  | ok prepared' =>
    constructor
    · intro h
      cases h
      rfl
    · intro h
      cases h
      rfl

theorem checkRequest_none_eq_ok_iff : checkRequest req K.buffa none guard = .ok prepared ↔
    validateInvocation req = .ok () ∧ guard = .ok () ∧
      prepareSigningPayload req = .ok prepared := by
  unfold checkRequest
  simp only [Option.isSome_none, Bool.false_eq_true, if_false]
  cases validateInvocation req with
  | error e => exact ⟨fun h => (by cases h), fun h => (by cases h.1)⟩
  | ok u =>
    cases guard with
    | error e => exact ⟨fun h => (by cases h), fun h => (by cases h.2.1)⟩
    | ok u' =>
      exact ⟨fun h => ⟨rfl, rfl, prepareRequest_eq_ok_iff.mp h⟩,
        fun h => prepareRequest_eq_ok_iff.mpr h.2.2⟩

theorem checkRequest_some_eq_ok_iff {l : ArtifactResourceLimits} :
    checkRequest req K.buffa (some l) guard = .ok prepared ↔
      validateInvocationShape req = .ok () ∧ guard = .ok () ∧
        (∃ n, preflightSigningOutput K.buffa req l = .ok (.ok n)) ∧
        validateKeyidContent req = .ok () ∧ prepareSigningPayload req = .ok prepared := by
  unfold checkRequest
  simp only [Option.isSome_some, if_true]
  cases validateInvocationShape req with
  | error e => exact ⟨fun h => (by cases h), fun h => (by cases h.1)⟩
  | ok u =>
    cases guard with
    | error e => exact ⟨fun h => (by cases h), fun h => (by cases h.2.1)⟩
    | ok u' =>
      cases preflightSigningOutput K.buffa req l with
      | error e => exact ⟨fun h => (by cases h), fun h => (by cases h.2.2.1.choose_spec)⟩
      | ok encoding =>
        cases encoding with
        | error e => exact ⟨fun h => (by cases h), fun h => (by cases h.2.2.1.choose_spec)⟩
        | ok n =>
          cases validateKeyidContent req with
          | error e => exact ⟨fun h => (by cases h), fun h => (by cases h.2.2.2.1)⟩
          | ok u'' =>
            exact ⟨fun h => ⟨rfl, rfl, ⟨n, rfl⟩, rfl, prepareRequest_eq_ok_iff.mp h⟩,
              fun h => prepareRequest_eq_ok_iff.mpr h.2.2.2.2⟩

/-- The checks accept what is admitted, in either order. -/
theorem checkRequest_eq_ok_iff : checkRequest req K.buffa limits guard = .ok prepared ↔
    Admitted req K limits guard prepared := by
  cases limits with
  | none =>
    rw [checkRequest_none_eq_ok_iff]
    constructor
    · intro h
      exact ⟨h.1, h.2.1, fun l hl => (by cases hl), h.2.2⟩
    · intro h
      exact ⟨h.validated, h.guard, h.prepared⟩
  | some l =>
    rw [checkRequest_some_eq_ok_iff]
    constructor
    · intro h
      obtain ⟨hshape, hguard, hsized, hcontent, hprepared⟩ := h
      refine ⟨validateInvocation_eq_ok_iff.mpr ⟨hshape, hcontent⟩, hguard, fun l' hl' => ?_,
        hprepared⟩
      cases hl'
      exact hsized
    · intro h
      obtain ⟨hshape, hcontent⟩ := validateInvocation_eq_ok_iff.mp h.validated
      exact ⟨hshape, h.guard, h.sized l rfl, hcontent, h.prepared⟩

theorem ne_success_of_prepareRequest {r : Run SignResult} (h : prepareRequest req = .error r)
    (s : SignSuccess) : r ≠ some (.ok (.ok (.success s))) := by
  rw [prepareRequest] at h
  cases hprepare : prepareSigningPayload req with
  | ok prepared =>
    rw [hprepare] at h
    cases h
  | error e =>
    rw [hprepare] at h
    cases h
    intro hr
    cases hr

/-- What the checks end an operation with is no signature. -/
theorem ne_success_of_checkRequest {r : Run SignResult}
    (h : checkRequest req K.buffa limits guard = .error r) (s : SignSuccess) :
    r ≠ some (.ok (.ok (.success s))) := by
  intro hr
  subst hr
  unfold checkRequest at h
  split at h
  · cases h
  · split at h
    · cases h
    · split at h
      · exact ne_success_of_prepareRequest h s rfl
      · split at h
        · cases h
        · cases h
        · split at h
          · cases h
          · exact ne_success_of_prepareRequest h s rfl

variable (req K limits guard) in
/-- A program ends at the checks, or asks for a signature over what they admit. -/
theorem signingProgram_cases :
    (∃ r, checkRequest req K.buffa limits guard = .error r ∧
      signingProgram req K limits guard = .done r) ∨
    ∃ prepared, Admitted req K limits guard prepared ∧
      signingProgram req K limits guard = .ask prepared.payload fun answer =>
        .done (finish req K limits prepared answer) := by
  unfold signingProgram
  cases h : checkRequest req K.buffa limits guard with
  | error r => exact .inl ⟨r, rfl, rfl⟩
  | ok prepared => exact .inr ⟨prepared, checkRequest_eq_ok_iff.mp h, rfl⟩

theorem finish_eq_success_iff {answer : Except SignError Octets64} {s : SignSuccess} :
    finish req K limits prepared answer = some (.ok (.ok (.success s))) ↔
      ∃ signature, answer = .ok signature ∧
        finishSigning K req prepared signature limits = some (.ok (.success s)) := by
  cases answer with
  | error e =>
    exact ⟨fun h => (by cases h), fun h => (by cases h.choose_spec.1)⟩
  | ok signature =>
    rw [finish, SignResult.framed, Option.map_eq_some_iff]
    constructor
    · intro h
      obtain ⟨r, hr, hok⟩ := h
      cases r with
      | error e => cases hok
      | ok outcome =>
        cases hok
        exact ⟨signature, rfl, hr⟩
    · intro h
      obtain ⟨signature', hsignature, hfinish⟩ := h
      cases hsignature
      exact ⟨_, hfinish, rfl⟩

/-- A success has one signature in it, over what was prepared. -/
theorem signed_of_success {answer : Bytes → Except SignError Octets64} {s : SignSuccess}
    (h : (signingProgram req K limits guard).run answer = some (.ok (.ok (.success s)))) :
    ∃ prepared signature, Admitted req K limits guard prepared ∧
      (signingProgram req K limits guard).calls answer = [prepared.payload] ∧
      answer prepared.payload = .ok signature ∧
      finishSigning K req prepared signature limits = some (.ok (.success s)) := by
  rcases signingProgram_cases req K limits guard with ⟨r, hr, hp⟩ | ⟨prepared, hprepared, hp⟩
  · rw [hp] at h
    exact absurd h (ne_success_of_checkRequest hr s)
  · rw [hp] at h
    obtain ⟨signature, hsignature, hfinish⟩ := finish_eq_success_iff.mp h
    refine ⟨prepared, signature, hprepared, ?_, hsignature, hfinish⟩
    rw [hp]
    rfl

theorem admitted_of_mem_calls {answer : Bytes → Except SignError Octets64} {payload : Bytes}
    (h : payload ∈ (signingProgram req K limits guard).calls answer) :
    ∃ prepared, Admitted req K limits guard prepared ∧ payload = prepared.payload := by
  rcases signingProgram_cases req K limits guard with ⟨r, hr, hp⟩ | ⟨prepared, hprepared, hp⟩
  · rw [hp] at h
    cases h
  · rw [hp] at h
    exact ⟨prepared, hprepared, List.mem_singleton.mp h⟩

variable (req K limits guard) in
theorem length_calls_signingProgram (answer : Bytes → Except SignError Octets64) :
    ((signingProgram req K limits guard).calls answer).length ≤ 1 := by
  rcases signingProgram_cases req K limits guard with ⟨r, hr, hp⟩ | ⟨prepared, hprepared, hp⟩
  · rw [hp]
    exact Nat.zero_le 1
  · rw [hp]
    exact Nat.le_refl 1

end

/-! ## One signature -/

section
variable {Ed25519 P256 A : Type} (req : SignRequest Ed25519 P256) (K : Backend)
  (limits : Option ArtifactResourceLimits) (guard : Except SignInvocationError Unit)

/-- A provider is asked once at most, about the payload that is framed, when
everything else has been checked.  `question` is what it gets of a payload. -/
structure OneSignature (question : Bytes → Bytes) (p : ProviderSigning A) : Prop where
  length_calls_le : ∀ answer, (p.calls answer).length ≤ 1
  admitted : ∀ answer, ∀ q ∈ p.calls answer, ∃ prepared,
    Admitted req K limits guard prepared ∧ q = question prepared.payload
  framed : ∀ answer s, p.run answer = some (.ok (.ok (.success s))) → ∃ prepared carrier,
    Admitted req K limits guard prepared ∧ p.calls answer = [question prepared.payload] ∧
      Verification.components req.outputForm.artifactForm s.artifact =
        some (prepared.payload, carrier)

/-- The framed payload is the prepared one, with limits and without. -/
theorem components_of_finished {K : Backend} (hK : K.Lawful) {req : SignRequest Ed25519 P256}
    {limits : Option ArtifactResourceLimits} {prepared : PreparedSigningPayload}
    {signature : Octets64} {s : SignSuccess}
    (h : finishSigning K req prepared signature limits = some (.ok (.success s))) :
    ∃ carrier, Verification.components req.outputForm.artifactForm s.artifact =
      some (prepared.payload, carrier) := by
  obtain ⟨carrier, hcarrier, -⟩ :=
    components_emitted hK (finishSigning_spec hK (finishSigning_of_limits h)).1
  exact ⟨carrier, hcarrier⟩

/-- Whatever interprets the program, it asks for one signature. -/
theorem oneSignature_through {K : Backend} (hK : K.Lawful) (question : Bytes → Bytes)
    (translate : Bytes → A → Except SignError Octets64) :
    OneSignature req K limits guard question
      ((signingProgram req K limits guard).through question translate) where
  length_calls_le answer := by
    rw [Ask.calls_through, List.length_map]
    exact length_calls_signingProgram req K limits guard _
  admitted answer q hq := by
    rw [Ask.calls_through] at hq
    obtain ⟨payload, hpayload, hquestion⟩ := List.mem_map.mp hq
    obtain ⟨prepared, hprepared, heq⟩ := admitted_of_mem_calls hpayload
    rw [heq] at hquestion
    exact ⟨prepared, hprepared, hquestion.symm⟩
  framed answer s h := by
    rw [Ask.run_through] at h
    obtain ⟨prepared, signature, hprepared, hcalls, -, hfinish⟩ := signed_of_success h
    obtain ⟨carrier, hcarrier⟩ := components_of_finished hK hfinish
    refine ⟨prepared, carrier, hprepared, ?_, hcarrier⟩
    rw [Ask.calls_through, hcalls]
    rfl

end

section
variable (C : KeyCrypto) (κ : Type) [BoundKey C κ]

/-- The awaited operations are the synchronous ones, for every key, request,
ceiling and answer, and all of them ask for one signature at most. -/
theorem provider_signing_agrees {K : Backend} (hK : K.Lawful) (sha256 : Bytes → Bytes)
    (req : SignRequest κ κ) :
    (∀ limits : Option ArtifactResourceLimits,
      (signWithProviderInner C K req limits none Ask.once).adapt ofAwaited =
        Awaited.signInner C K req limits ∧
      OneSignature req K limits (algorithmGuard C req none) id
        (signWithProviderInner C K req limits none Ask.once) ∧
      OneSignature req K limits (algorithmGuard C req (some .ecdsaP256Sha256)) sha256
        (signWithProviderInner C K req limits (some .ecdsaP256Sha256)
          (p256DigestCallback sha256 Ask.once)) ∧
      OneSignature req K limits (algorithmGuard C req none) id
        (Awaited.signInner C K req limits)) ∧
    (signWithProvider C K req Ask.once).adapt ofAwaited =
      Awaited.signWithAsyncProvider C K req ∧
    ∀ limits, (signWithProviderAndResourceLimits C K req limits Ask.once).adapt ofAwaited =
      Awaited.signWithAsyncProviderAndResourceLimits C K req limits := by
  have hagree : ∀ limits, (signWithProviderInner C K req limits none Ask.once).adapt ofAwaited =
      Awaited.signInner C K req limits := by
    intro limits
    rw [signInner_eq, signWithProviderInner_message, Ask.adapt_through]
  refine ⟨fun limits => ⟨hagree limits, ?_, ?_, ?_⟩, ?_, fun limits => hagree (some limits)⟩
  · rw [signWithProviderInner_message]
    exact oneSignature_through req limits _ hK id _
  · rw [signWithProviderInner_digest]
    exact oneSignature_through req limits _ hK sha256 _
  · rw [signInner_eq]
    exact oneSignature_through req limits _ hK id _
  · rw [signWithProvider, Ask.adapt_andThen, hagree none]
    rfl

end

namespace Reference

open Verification.Reference (keyCrypto letterPublicKey letterSignature letterArtifact)

/-- The key that signs a letter, held by a provider. -/
def providerKey : ProviderSigningKey keyCrypto where
  publicKey := .ed25519 letterPublicKey letterPublicKey
  resolved := ⟨.ed25519, letterPublicKey, rfl⟩

def providerRequest :
    SignRequest (ProviderSigningKey keyCrypto) (ProviderSigningKey keyCrypto) where
  payload := [0x72]
  algorithm := .ed25519
  key := .ed25519 providerKey
  keyid := some "release-2026".toList
  appendMissingFinalNewline := true
  outputForm := .yaml
  algorithmParameters := []

theorem signWithProvider_letter :
    (signWithProvider keyCrypto Core.Reference.backend providerRequest Ask.once).run
      (fun _ => .ok letterSignature) = some (.success ⟨letterArtifact, [0x72, 0x0A]⟩) := by
  decide +kernel

end Reference

theorem provider_signing_agrees_letter :
    (Awaited.signWithAsyncProvider Verification.Reference.keyCrypto Core.Reference.backend
      Reference.providerRequest).run (fun _ => some Verification.Reference.letterSignature) =
        some (.success ⟨Verification.Reference.letterArtifact, [0x72, 0x0A]⟩) := by
  rw [← (provider_signing_agrees Verification.Reference.keyCrypto _ Core.Reference.backend_lawful id
    Reference.providerRequest).2.1, Ask.run_adapt]
  exact Reference.signWithProvider_letter

end Signing
end YamlSigil
