/-
A size policy filters signing.

With a policy, signing refuses some artifacts that it would emit without one, and
does nothing else: the artifacts over the ceiling of the policy, and those in the
protobuf form over the ceiling of the format.  The latter are refused before a
signature is asked for.  The projections in front of the question and the exact
check behind it cannot disagree about this.
-/
import YamlSigil.Signing.ProviderProgram

namespace YamlSigil
namespace Signing

open Control YamlSigil.Core
open Pb (Filters filters_of_outcomes)
open Verification (KeyCrypto Octets64)

/-! ## The signing program -/

section
variable {Ed25519 P256 : Type} {req : SignRequest Ed25519 P256} {K : Backend}
  {limits : Option ArtifactResourceLimits} {guard : Except SignInvocationError Unit}
  {prepared : PreparedSigningPayload} {signature : Octets64} {s : SignSuccess}

theorem signingProgram_of_admitted (h : Admitted req K limits guard prepared) :
    signingProgram req K limits guard =
      .ask prepared.payload fun answer => .done (finish req K limits prepared answer) := by
  rw [signingProgram, checkRequest_eq_ok_iff.mpr h]
  rfl

/-- Without a policy the same is admitted. -/
theorem Admitted.unbounded (h : Admitted req K limits guard prepared) :
    Admitted req K none guard prepared where
  validated := h.validated
  guard := h.guard
  sized _ hl := by cases hl
  prepared := h.prepared

theorem checkRequest_of_resource {l : ArtifactResourceLimits} {e : ArtifactResourceError}
    (h : Admitted req K none guard prepared)
    (hsize : preflightSigningOutput K.buffa req l = .error e) :
    checkRequest req K.buffa (some l) guard = .error (some (.error e)) := by
  have hshape := (validateInvocation_eq_ok_iff.mp h.validated).1
  unfold checkRequest
  simp only [Option.isSome_some, if_true]
  rw [hshape, h.guard]
  simp only
  rw [hsize]

theorem checkRequest_of_format {l : ArtifactResourceLimits} {e : Pb.EncodeErrorKind}
    (h : Admitted req K none guard prepared)
    (hsize : preflightSigningOutput K.buffa req l = .ok (.error e)) :
    checkRequest req K.buffa (some l) guard = .error (some (.ok (.error e))) := by
  have hshape := (validateInvocation_eq_ok_iff.mp h.validated).1
  unfold checkRequest
  simp only [Option.isSome_some, if_true]
  rw [hshape, h.guard]
  simp only
  rw [hsize]

/-- The exact check behind the question, against the artifact without a policy. -/
theorem finish_filters {l : ArtifactResourceLimits} (hprojected :
      req.outputForm = .protobuf → s.artifact.length ≤ l.ceiling ∧
        s.artifact.length ≤ K.buffa.maxMessageBytes.toNat)
    (h : finishSigning K req prepared signature none = some (.ok (.success s))) :
    Filters K.buffa l (req.outputForm = .protobuf) s.artifact.length (some (.success s))
      (finish req K (some l) prepared (.ok signature)) := by
  rw [finish, SignResult.framed]
  cases hform : req.outputForm with
  | yaml => exact (finishSigning_filters hform l h).of_wire (iff_of_false id fun h => (by cases h))
  | protobuf =>
    obtain ⟨hle, hmax⟩ := hprojected hform
    rw [finishSigning_protobuf hform, h]
    exact filters_of_outcomes (fun hlt => absurd hlt (Nat.not_lt.mpr hle))
      (fun _ _ hlt => absurd hlt (Nat.not_lt.mpr hmax)) fun _ _ => rfl

/-- A success without a policy decides the run with one. -/
theorem signingProgram_filters (hK : K.Lawful) (l : ArtifactResourceLimits)
    {answer : Bytes → Except SignError Octets64}
    (h : (signingProgram req K none guard).run answer = some (.ok (.ok (.success s)))) :
    Filters K.buffa l (req.outputForm = .protobuf) s.artifact.length (some (.success s))
      ((signingProgram req K (some l) guard).run answer) := by
  obtain ⟨prepared, signature, hadmitted, -, hanswer, hfinish⟩ := signed_of_success h
  obtain ⟨hle, heq⟩ := projectedLength_of_finished hK hadmitted.prepared hfinish
  have hpreflight := preflightSigningOutput_spec req K.buffa l
  rcases hpreflight.outcome with ⟨e, he, hlt⟩ | ⟨he, hceiling, hproto, hmax⟩ |
    ⟨hn, hceiling, hmax⟩
  · -- the projection is over the ceiling, and the artifact is no shorter
    rw [signingProgram, checkRequest_of_resource hadmitted (Option.some.inj he)]
    have hlarge := Nat.lt_of_lt_of_le hlt hle
    exact filters_of_outcomes
      (fun _ => ⟨e, rfl, fun hsmall => hpreflight.kind he (Nat.lt_of_le_of_lt hle hsmall)⟩)
      (fun hle' => absurd hlarge (Nat.not_lt.mpr hle'))
      fun hle' => absurd hlarge (Nat.not_lt.mpr hle')
  · -- a projection in protobuf form is exact
    rw [signingProgram, checkRequest_of_format hadmitted (Option.some.inj he)]
    rw [heq hproto] at hceiling hmax
    exact filters_of_outcomes (fun hlt => absurd hlt (Nat.not_lt.mpr hceiling)) (fun _ _ _ => rfl)
      fun _ hle' => absurd hmax (Nat.not_lt.mpr (hle' hproto))
  · have hbounded : Admitted req K (some l) guard prepared := by
      refine ⟨hadmitted.validated, hadmitted.guard, fun l' hl' => ?_, hadmitted.prepared⟩
      cases hl'
      exact ⟨_, Option.some.inj hn⟩
    rw [signingProgram_of_admitted hbounded, Ask.run_ask, Ask.run_done, hanswer]
    refine finish_filters (fun hproto => ?_) hfinish
    rw [heq hproto] at hceiling hmax
    exact ⟨hceiling, hmax hproto⟩

/-- What a policy lets through comes out without it. -/
theorem signingProgram_unbounded {answer : Bytes → Except SignError Octets64}
    (h : (signingProgram req K limits guard).run answer = some (.ok (.ok (.success s)))) :
    (signingProgram req K none guard).run answer = some (.ok (.ok (.success s))) := by
  obtain ⟨prepared, signature, hadmitted, -, hanswer, hfinish⟩ := signed_of_success h
  rw [signingProgram_of_admitted hadmitted.unbounded]
  exact finish_eq_success_iff.mpr ⟨signature, hanswer, finishSigning_of_limits hfinish⟩

theorem finishSigning_ne_error (e : ArtifactResourceError) :
    finishSigning K req prepared signature none ≠ some (.error e) := by
  intro h
  rw [finishSigning_unbounded] at h
  obtain ⟨r, -, hr⟩ := Option.map_eq_some_iff.mp h
  cases hr

/-- In the protobuf form, no size is refused behind the question. -/
theorem calls_signingProgram_of_rejected (hproto : req.outputForm = .protobuf)
    {answer : Bytes → Except SignError Octets64}
    (h : (∃ e, (signingProgram req K limits guard).run answer = some (.error e)) ∨
      ∃ e, (signingProgram req K limits guard).run answer = some (.ok (.error e))) :
    (signingProgram req K limits guard).calls answer = [] := by
  rcases signingProgram_cases req K limits guard with ⟨r, -, hp⟩ | ⟨prepared, -, hp⟩
  · rw [hp]
    rfl
  rw [hp] at h
  simp only [Ask.run_ask, Ask.run_done] at h
  cases hanswer : answer prepared.payload with
  | error e =>
    rw [hanswer] at h
    rcases h with ⟨e', he⟩ | ⟨e', he⟩ <;> cases he
  | ok signature =>
    rw [hanswer, finish, SignResult.framed, finishSigning_protobuf hproto] at h
    rcases h with ⟨e', he⟩ | ⟨e', he⟩
    · obtain ⟨r, hr, hframed⟩ := Option.map_eq_some_iff.mp he
      cases r with
      | error e'' => exact absurd hr (finishSigning_ne_error e'')
      | ok outcome => cases hframed
    · obtain ⟨r, -, hframed⟩ := Option.map_eq_some_iff.mp he
      cases r <;> cases hframed

end

/-! ## Operations with a policy and without -/

section
variable {Ed25519 P256 : Type} {K : Backend} {A : Type}

/-- What an operation with a policy has to do with the one without, against every
provider. -/
structure PolicyFilters (req : SignRequest Ed25519 P256) (K : Backend)
    (unbounded : Ask Bytes A (Run SignOutcome))
    (bounded : ArtifactResourceLimits → ProviderSigning A) : Prop where
  filters : ∀ limits answer s, unbounded.run answer = some (.success s) →
    Filters K.buffa limits (req.outputForm = .protobuf) s.artifact.length (some (.success s))
      ((bounded limits).run answer)
  unbounded_of_bounded : ∀ limits answer s,
    (bounded limits).run answer = some (.ok (.ok (.success s))) →
      unbounded.run answer = some (.success s)
  calls_of_rejected : req.outputForm = .protobuf → ∀ limits answer,
    ((∃ e, (bounded limits).run answer = some (.error e)) ∨
      ∃ e, (bounded limits).run answer = some (.ok (.error e))) →
    (bounded limits).calls answer = []

/-- Behind an interpreter too. -/
theorem policyFilters_through (hK : K.Lawful) (req : SignRequest Ed25519 P256)
    (guard : Except SignInvocationError Unit) (question : Bytes → Bytes)
    (translate : Bytes → A → Except SignError Octets64) :
    PolicyFilters req K
      (((signingProgram req K none guard).through question translate).andThen fun r =>
        .done (expectUnbounded r))
      fun limits => (signingProgram req K (some limits) guard).through question translate where
  filters limits answer s h := by
    have h := run_unbounded_eq_success_iff.mp h
    rw [Ask.run_through] at h ⊢
    exact signingProgram_filters hK limits h
  unbounded_of_bounded limits answer s h := by
    refine run_unbounded_eq_success_iff.mpr ?_
    rw [Ask.run_through] at h ⊢
    exact signingProgram_unbounded h
  calls_of_rejected hproto limits answer h := by
    rw [Ask.run_through] at h
    rw [Ask.calls_through, calls_signingProgram_of_rejected hproto h]
    rfl

end

/-! ## The built-in keys

Their signing function is the answer. -/

section
variable {Ed25519 P256 : Type} {req : SignRequest Ed25519 P256} {K : Backend}

theorem run_askFor_prepareRequest (limits : Option ArtifactResourceLimits)
    (answer : Bytes → Except SignError Octets64) :
    (askFor req K limits (prepareRequest req)).run answer =
      SignResult.framed (signAfterInvocationValidation K req limits answer) := by
  rw [prepareRequest, signAfterInvocationValidation]
  cases prepareSigningPayload req with
  | error e => rfl
  | ok prepared =>
    simp only [askFor, Ask.run_ask, Ask.run_done]
    cases answer prepared.payload <;> rfl

end

section
variable (C : SigningCrypto) (K : Backend) (draws : List C.Nonce)
  (req : SignRequest C.Ed25519SigningKey C.P256SigningKey)

/-- The built-in operations around an arbitrary signing function. -/
def builtInSigning (limits : Option ArtifactResourceLimits) :
    ProviderSigning (Except SignError Octets64) :=
  signingProgram req K limits (.ok ())

theorem signWithResourceLimits_eq (limits : ArtifactResourceLimits) :
    signWithResourceLimits C K draws req limits = (builtInSigning C K req (some limits)).run
      fun payload => signDigest C draws payload req.algorithm req.key := by
  unfold signWithResourceLimits builtInSigning signingProgram checkRequest
  simp only [Option.isSome_some, if_true]
  cases validateInvocationShape req with
  | error e => rfl
  | ok u =>
    simp only
    cases preflightSigningOutput K.buffa req limits with
    | error e => rfl
    | ok encoding =>
      cases encoding with
      | error e => rfl
      | ok n =>
        simp only
        cases validateKeyidContent req with
        | error e => rfl
        | ok u' => exact (run_askFor_prepareRequest (some limits) _).symm

theorem sign_eq : sign C K draws req = expectUnbounded ((builtInSigning C K req none).run
    fun payload => signDigest C draws payload req.algorithm req.key) := by
  unfold sign signInner builtInSigning signingProgram checkRequest
  simp only [Option.isSome_none, Bool.false_eq_true, if_false]
  cases validateInvocation req with
  | error e => rfl
  | ok u =>
    simp only
    rw [run_askFor_prepareRequest]
    cases signAfterInvocationValidation K req none fun payload =>
        signDigest C draws payload req.algorithm req.key with
    | none => rfl
    | some r => cases r <;> rfl

theorem policyFilters_builtIn {K : Backend} (hK : K.Lawful) : PolicyFilters req K
    ((builtInSigning C K req none).andThen fun r => .done (expectUnbounded r))
    fun limits => builtInSigning C K req (some limits) where
  filters limits _ _ h := signingProgram_filters hK limits (run_unbounded_eq_success_iff.mp h)
  unbounded_of_bounded _ _ _ h :=
    run_unbounded_eq_success_iff.mpr (signingProgram_unbounded h)
  calls_of_rejected hproto _ _ h := calls_signingProgram_of_rejected hproto h

end

/-- The sizes in front of the question, against what is emitted. -/
structure SizesBound (K : Backend) {Ed25519 P256 : Type} (req : SignRequest Ed25519 P256) :
    Prop where
  yaml : req.outputForm = .yaml → ∀ prepared (signature : Octets64) artifact size,
    prepareSigningPayload req = .ok prepared →
    emitYamlArtifact K prepared.payload req signature = some (.ok artifact) →
    minimumArtifactLen req = some size → size ≤ artifact.length
  protobuf : ∀ (signature : Octets64) artifact,
    emitProtoArtifact K req.payload req signature = some (.ok artifact) →
    protoSigningSize req.payload.length (req.keyid.map fun k => (asBytes k).length) =
      some artifact.length

theorem sizesBound {K : Backend} (hK : K.Lawful) {Ed25519 P256 : Type}
    (req : SignRequest Ed25519 P256) : SizesBound K req where
  yaml hyaml prepared signature artifact size hprepared hemit hsize := by
    rw [minimumArtifactLen_eq] at hsize
    rw [← eq_of_usizeOf hsize]
    exact minimumLength_le hK hyaml hprepared hemit
  protobuf _ _ hemit := protoSigningSize_of_emitted hemit

/-- Main result on policies: they filter each of the signing operations, for every
request and every signing function, and the sizes in front of the question are a
lower bound in YAML and exact in protobuf. -/
theorem policies_filter_signing {K : Backend} (hK : K.Lawful) :
    (∀ (C : SigningCrypto) (draws : List C.Nonce)
      (req : SignRequest C.Ed25519SigningKey C.P256SigningKey),
      (∀ limits s, sign C K draws req = some (.success s) →
        Filters K.buffa limits (req.outputForm = .protobuf) s.artifact.length (some (.success s))
          (signWithResourceLimits C K draws req limits)) ∧
      (∀ limits s, signWithResourceLimits C K draws req limits =
        some (.ok (.ok (.success s))) → sign C K draws req = some (.success s)) ∧
      (∀ limits, signWithResourceLimits C K draws req limits =
        (builtInSigning C K req (some limits)).run fun payload =>
          signDigest C draws payload req.algorithm req.key) ∧
      PolicyFilters req K
        ((builtInSigning C K req none).andThen fun r => .done (expectUnbounded r))
        fun limits => builtInSigning C K req (some limits)) ∧
    (∀ (C : KeyCrypto) (κ : Type) [BoundKey C κ] (sha256 : Bytes → Bytes) (req : SignRequest κ κ),
      PolicyFilters req K (signWithProvider C K req Ask.once)
        (fun limits => signWithProviderAndResourceLimits C K req limits Ask.once) ∧
      PolicyFilters req K (signWithP256DigestProvider C K sha256 req Ask.once)
        (fun limits => signWithP256DigestProviderAndResourceLimits C K sha256 req limits
          Ask.once) ∧
      PolicyFilters req K (Awaited.signWithAsyncProvider C K req)
        fun limits => Awaited.signWithAsyncProviderAndResourceLimits C K req limits) ∧
    ∀ (Ed25519 P256 : Type) (req : SignRequest Ed25519 P256), SizesBound K req := by
  refine ⟨fun C draws req => ⟨fun limits s h => ?_, fun limits s h => ?_,
    signWithResourceLimits_eq C K draws req, policyFilters_builtIn C req hK⟩,
    fun C κ _ sha256 req => ⟨?_, ?_, ?_⟩, fun _ _ req => sizesBound hK req⟩
  · rw [sign_eq] at h
    rw [signWithResourceLimits_eq]
    exact signingProgram_filters hK limits (expectUnbounded_eq_success_iff.mp h)
  · rw [signWithResourceLimits_eq] at h
    rw [sign_eq]
    exact expectUnbounded_eq_success_iff.mpr (signingProgram_unbounded h)
  · have hfilters := policyFilters_through hK req (algorithmGuard C req none) id
      fun payload answer => checkedOutput C req.boundKey payload answer
    simp only [← signWithProviderInner_message] at hfilters
    exact hfilters
  · have hfilters := policyFilters_through hK req (algorithmGuard C req (some .ecdsaP256Sha256))
      sha256 fun payload answer => checkedOutput C req.boundKey payload answer
    simp only [← signWithProviderInner_digest] at hfilters
    exact hfilters
  · have hfilters := policyFilters_through hK req (algorithmGuard C req none) id
      fun payload answer => checkedOutput C req.boundKey payload (ofAwaited answer)
    simp only [← signInner_eq] at hfilters
    exact hfilters

/-- The artifact of a letter under a ceiling of 200 octets. -/
theorem policies_filter_signing_letter :
    ∃ e, (signWithProviderAndResourceLimits Verification.Reference.keyCrypto
      Core.Reference.backend Reference.providerRequest ⟨some ⟨200, by decide⟩⟩ Ask.once).run
        (fun _ => .ok Verification.Reference.letterSignature) = some (.error e) := by
  have hfilters := (policies_filter_signing Core.Reference.backend_lawful).2.1
    Verification.Reference.keyCrypto (ProviderSigningKey Verification.Reference.keyCrypto) id
    Reference.providerRequest
  have hrun := hfilters.1.filters ⟨some ⟨200, by decide⟩⟩ _ _ Reference.signWithProvider_letter
  exact hrun.resource.mpr (by decide +kernel)

end Signing
end YamlSigil
