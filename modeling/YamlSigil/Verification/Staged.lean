/-
Verification in two stages.

A caller can pre-verify an artifact, look at the response and continue with it,
or with a response of its own making.  Both stages together are `verify`.
-/
import YamlSigil.Verification.Verdict

namespace YamlSigil
namespace Verification

open YamlSigil.Core Transcription

/-! ## The stages -/

section
variable (K : Backend)

/-- `allowUnsigned` means nothing to the protobuf form. -/
def preVerify (inputBytes : Bytes) (form : ArtifactForm) (allowUnsigned : Bool) :
    Run PreVerifyResponse :=
  match form with
  | .yaml => preVerifyYaml K inputBytes allowUnsigned
  | .proto => preVerifyProto K inputBytes

def canPreVerify (inputBytes : Bytes) (form : ArtifactForm) (allowUnsigned : Bool) : Run Bool := do
  let pre ← preVerify K inputBytes form allowUnsigned
  match pre.outcome with
  | .ok => some true
  | .unsigned => some (allowUnsigned && form == .yaml)
  | .structuralFailure | .metadataParseFailure => some false

end

/-! The second stage as callers see it, with the check that `verify` makes of its
options. -/

namespace Staged

section
variable (C : Crypto) {Ed25519 P256 : Type} [Ed25519VerificationKey Ed25519]
  [P256VerificationKey P256]

def verifyFromPreVerifyYaml (pre : PreVerifyResponse) (keys : PublicKeys Ed25519 P256)
    (options : VerifierOptions) : Run (Except InvocationError VerifierState) :=
  if options.algorithmParameters ≠ [] then some (.error .invalidAlgorithmParameters)
  else Verification.verifyFromPreVerifyYaml C pre keys options

def verifyFromPreVerifyProto (pre : PreVerifyResponse) (keys : PublicKeys Ed25519 P256)
    (options : VerifierOptions) : Run (Except InvocationError VerifierState) :=
  if options.algorithmParameters ≠ [] then some (.error .invalidAlgorithmParameters)
  else Verification.verifyFromPreVerifyProto C pre keys options

def verifyFromPreVerify (pre : PreVerifyResponse) (keys : PublicKeys Ed25519 P256)
    (options : VerifierOptions) : Run (Except InvocationError VerifierState) :=
  match pre.form with
  | .yaml => verifyFromPreVerifyYaml C pre keys options
  | .proto => verifyFromPreVerifyProto C pre keys options

/-- The form of the response selects the check of the same form. -/
theorem verifyFromPreVerify_eq (pre : PreVerifyResponse) (keys : PublicKeys Ed25519 P256)
    (options : VerifierOptions) :
    verifyFromPreVerify C pre keys options =
      if options.algorithmParameters ≠ [] then some (.error .invalidAlgorithmParameters)
      else Verification.verifyFromPreVerify C pre.form pre keys options := by
  rw [verifyFromPreVerify]
  cases pre.form with
  | yaml => rfl
  | proto => rfl

end

end Staged

/-! ## The first stage -/

section
variable (K : Backend)

theorem preVerify_spec (bytes : Bytes) (form : ArtifactForm) :
    PreVerifies form (signedContent K form bytes) (preVerify K bytes form false) := by
  cases form with
  | yaml => exact preVerifyYaml_spec K bytes
  | proto => exact preVerifyProto_spec K bytes

/-- Pre-verification does not panic. -/
theorem exists_preVerify (bytes : Bytes) (form : ArtifactForm) :
    ∃ pre, preVerify K bytes form false = some pre := by
  have hspec := preVerify_spec K bytes form
  generalize signedContent K form bytes = content at hspec
  generalize preVerify K bytes form false = r at hspec
  cases hspec with
  | content s => exact ⟨_, rfl⟩
  | structural => exact ⟨_, rfl⟩
  | metadata => exact ⟨_, rfl⟩

/-- The flag is looked at only when a YAML artifact has no marker. -/
theorem preVerifyYaml_unsigned {a : Bytes} (h : decomposeArtifact a = .unsigned)
    (allowUnsigned : Bool) :
    preVerifyYaml K a allowUnsigned =
      some (.reject (if allowUnsigned then .unsigned else .structuralFailure) .yaml) := by
  rw [preVerifyYaml, decompose_yaml, decomposeYaml, h]
  cases allowUnsigned with
  | true => rfl
  | false => rfl

theorem preVerifyYaml_of_ne_unsigned {a : Bytes} (h : decomposeArtifact a ≠ .unsigned)
    (allowUnsigned : Bool) : preVerifyYaml K a allowUnsigned = preVerifyYaml K a false := by
  rw [preVerifyYaml, preVerifyYaml, decompose_yaml, decomposeYaml]
  cases hd : decomposeArtifact a with
  | unsigned => exact absurd hd h
  | malformed => rfl
  | signed r => rfl

theorem canPreVerify_eq {bytes : Bytes} {form : ArtifactForm} {pre : PreVerifyResponse}
    (h : preVerify K bytes form false = some pre) :
    canPreVerify K bytes form false = some (decide (pre.outcome = .ok)) := by
  rw [canPreVerify, h]
  simp only [Option.bind_eq_bind, Option.bind_some]
  cases pre.outcome <;> rfl

end

/-! ## The second stage -/

section
variable {C : Crypto} {Ed25519 P256 : Type} [Ed25519VerificationKey Ed25519]
  [P256VerificationKey P256] {keys : PublicKeys Ed25519 P256} {options : VerifierOptions}

/-- A response without content is refused, whatever the keys. -/
theorem verifyFromPreVerify_invalid {pre : PreVerifyResponse} (form : ArtifactForm)
    (h : pre.outcome ≠ .ok ∨ pre.unverifiedPayloadBytes = none ∨ pre.unverifiedSignature = none) :
    verifyFromPreVerify C form pre keys options = some (.error .invalidPreVerifyResult) := by
  rw [verifyFromPreVerify]
  by_cases hgo : pre.form ≠ form ∨ pre.outcome ≠ .ok
  · rw [if_pos hgo]
  · rw [if_neg hgo]
    rcases h with h | h | h
    · exact absurd (.inr h) hgo
    · rw [h]
    · rw [h]
      cases pre.unverifiedPayloadBytes <;> rfl

/-- The two stages in a row. -/
theorem verify_eq_staged (K : Backend) (bytes : Bytes) (form : ArtifactForm) :
    verify C K bytes form keys options =
      if options.algorithmParameters ≠ [] then some (.error .invalidAlgorithmParameters)
      else (preVerify K bytes form false).bind fun pre =>
        if pre.outcome = .ok then Staged.verifyFromPreVerify C pre keys options
        else some (.ok .malformedAttemptedSigned) := by
  rw [verify_eq_verdict]
  by_cases hparams : options.algorithmParameters ≠ []
  · rw [if_pos hparams, if_pos hparams]
  · rw [if_neg hparams, if_neg hparams]
    have hpre := preVerify_spec K bytes form
    generalize signedContent K form bytes = content at hpre
    generalize preVerify K bytes form false = pre at hpre
    cases hpre with
    | content s =>
      have hstate : (some (s.response form)).bind (fun pre =>
          stateFromPreVerify pre (verifyFromPreVerify C form · keys options)) =
            some (verdict C keys options (some s)) := stateFromPreVerify_spec (.content s)
      have hok : (s.response form).outcome = .ok := rfl
      rw [← hstate, Option.bind_some, Option.bind_some, if_pos hok, Staged.verifyFromPreVerify_eq,
        if_neg hparams]
      rfl
    | structural => rfl
    | metadata => rfl

/-! ## What the result depends on -/

variable {Ed25519' P256' : Type} [Ed25519VerificationKey Ed25519'] [P256VerificationKey P256']
  {keys' : PublicKeys Ed25519' P256'} {options' : VerifierOptions}

/-- The keys and the options are looked at by the check on 64 octets only. -/
theorem verifyExtractedSignature_congr {payload sig : Bytes} {alg : AlgorithmId}
    (h : ∀ s : Octets64, sig = s.val →
      checkOctets64 C payload s keys options alg = checkOctets64 C payload s keys' options' alg) :
    verifyExtractedSignature C payload alg.wireValue sig keys options =
      verifyExtractedSignature C payload alg.wireValue sig keys' options' := by
  by_cases hlen : sig.length = 64
  · rw [verifyExtractedSignature_octets64 payload alg ⟨sig, hlen⟩,
      verifyExtractedSignature_octets64 payload alg ⟨sig, hlen⟩, h ⟨sig, hlen⟩ rfl]
  · rw [verifyExtractedSignature_of_length_ne hlen, verifyExtractedSignature_of_length_ne hlen]

theorem verdict_congr {content : Option SignedContent}
    (h : ∀ c, content = some c → ∀ s : Octets64, c.fields.signature = s.val →
      checkOctets64 C c.payload s keys options c.fields.alg =
        checkOctets64 C c.payload s keys' options' c.fields.alg) :
    verdict C keys options content = verdict C keys' options' content := by
  cases content with
  | none => rfl
  | some c =>
    rw [verdict, verdict]
    cases ho : octets64 c.fields.signature with
    | none => rfl
    | some s => exact h c rfl s (octets64_eq_some_iff.mp ho)

/-- Main result on the stages: they are `verify`, the summary of the first stage
says whether the second one would start, the flag for unsigned artifacts matters
to unsigned YAML alone, and the second stage refuses what the first one did not
accept. -/
theorem staged_verification (K : Backend) (keys : PublicKeys Ed25519 P256)
    (options : VerifierOptions) :
    (∀ bytes form, ∃ pre, preVerify K bytes form false = some pre ∧
      verify C K bytes form keys options =
        (if options.algorithmParameters ≠ [] then some (.error .invalidAlgorithmParameters)
        else if pre.outcome = .ok then Staged.verifyFromPreVerify C pre keys options
        else some (.ok .malformedAttemptedSigned)) ∧
      canPreVerify K bytes form false = some (decide (pre.outcome = .ok))) ∧
    (∀ bytes, preVerify K bytes .proto true = preVerify K bytes .proto false) ∧
    (∀ bytes, decomposeArtifact bytes ≠ .unsigned →
      preVerify K bytes .yaml true = preVerify K bytes .yaml false) ∧
    (∀ bytes, decomposeArtifact bytes = .unsigned →
      preVerify K bytes .yaml false = some (.reject .structuralFailure .yaml) ∧
      preVerify K bytes .yaml true = some (.reject .unsigned .yaml)) ∧
    ∀ pre : PreVerifyResponse,
      pre.outcome ≠ .ok ∨ pre.unverifiedPayloadBytes = none ∨ pre.unverifiedSignature = none →
      Staged.verifyFromPreVerify C pre keys options =
        some (.error (if options.algorithmParameters ≠ [] then .invalidAlgorithmParameters
          else .invalidPreVerifyResult)) := by
  refine ⟨fun bytes form => ?_, fun bytes => rfl, fun bytes h => preVerifyYaml_of_ne_unsigned K h true,
    fun bytes h => ⟨preVerifyYaml_unsigned K h false, preVerifyYaml_unsigned K h true⟩,
    fun pre h => ?_⟩
  · obtain ⟨pre, hpre⟩ := exists_preVerify K bytes form
    refine ⟨pre, hpre, ?_, canPreVerify_eq K hpre⟩
    rw [verify_eq_staged, hpre, Option.bind_some]
  · rw [Staged.verifyFromPreVerify_eq]
    by_cases hparams : options.algorithmParameters ≠ []
    · rw [if_pos hparams, if_pos hparams]
    · rw [if_neg hparams, if_neg hparams]
      exact verifyFromPreVerify_invalid pre.form h

end

/-- With parameters in the options, a rejected response is not what is reported. -/
theorem staged_verification_reports_parameters :
    ¬ ∀ (pre : PreVerifyResponse) (options : VerifierOptions), pre.outcome ≠ .ok →
      Staged.verifyFromPreVerify Reference.crypto pre Reference.publicKeys options =
        some (.error .invalidPreVerifyResult) := by
  intro h
  have hparams := h (.reject .structuralFailure .yaml) ⟨true, true, [0x00]⟩ (by decide)
  have herror : Staged.verifyFromPreVerify Reference.crypto (.reject .structuralFailure .yaml)
      Reference.publicKeys ⟨true, true, [0x00]⟩ = some (.error .invalidAlgorithmParameters) := rfl
  rw [herror] at hparams
  cases hparams

end Verification
end YamlSigil
