/-
The verification boundary of the WebAssembly module.

A JavaScript caller gives two byte arrays and two selectors and gets a status.  A
build with the schema gate refuses what the vendored schema refuses, before the
verifier sees it; the verifier would have refused it as well.
-/
import YamlSigil.Core.TierASchema
import YamlSigil.Verification.Keys
import YamlSigil.Verification.Verdict

namespace YamlSigil
namespace Wasm

open YamlSigil.Core Transcription Verification

/-! ## Inputs and results -/

inductive Failure where
  | invalidByteInput
  | resource (code : Text)
deriving Repr, DecidableEq

def Failure.status : Failure → Text
  | .invalidByteInput => "invocation_error".toList
  | .resource _ => "resource_error".toList

def Failure.code : Failure → Text
  | .invalidByteInput => "invalid_byte_input".toList
  | .resource code => code

/-- `From<ArtifactResourceError>` -/
def Failure.ofResourceError (error : ArtifactResourceError) : Failure :=
  match error.kind with
  | .inputArtifactTooLarge => .resource "input_artifact_too_large".toList
  | .outputArtifactTooLarge => .resource "output_artifact_too_large".toList
  | .sizeComputationOverflow => .resource "size_computation_overflow".toList

/-- A JavaScript byte view.  It is measured first and copied later, which can fail
in between. -/
structure ByteInput where
  length : Nat
  copied : Option Bytes
  copied_length : ∀ b ∈ copied, b.length = length

/-- `none` is an array whose view cannot be measured. -/
abbrev Uint8Array := Option ByteInput

def ByteInput.new : Uint8Array → Except Failure ByteInput
  | none => .error .invalidByteInput
  | some input => .ok input

def ByteInput.toVec (input : ByteInput) : Except Failure Bytes :=
  match input.copied with
  | none => .error .invalidByteInput
  | some bytes => .ok bytes

/-- Admit a length before anything is copied. -/
def withAdmittedInput (limits : ArtifactResourceLimits) (length : Nat) : Except Failure Unit :=
  if limits.maxArtifactBytes.any (length > ·.val) then
    .error (.resource "input_artifact_too_large".toList)
  else .ok ()

structure VerifyResult where
  status : Text
  code : Option Text
  payload : Option Bytes
  algorithm : Option Text
deriving Repr, DecidableEq

def VerifyResult.failure (error : Failure) : VerifyResult where
  status := error.status
  code := some error.code
  payload := none
  algorithm := none

def VerifyResult.invocation (code : Text) : VerifyResult where
  status := "invocation_error".toList
  code := some code
  payload := none
  algorithm := none

def VerifyResult.state (status : Text) (algorithm : Option Text) : VerifyResult where
  status := status
  code := none
  payload := none
  algorithm := algorithm

/-! ## Selectors and names -/

def ed25519Name : Text := "ED25519_PUREEDDSA_RAW_RS64_CANONICAL".toList

def p256Name : Text := "ECDSA_SECP256R1_SHA256_RAW_RS64".toList

def artifactForm (value : Text) : Option ArtifactForm :=
  if value = "yaml".toList then some .yaml
  else if value = "protobuf".toList then some .proto
  else none

def algorithm (value : Text) : Option AlgorithmId :=
  if value = ed25519Name then some .ed25519
  else if value = p256Name then some .ecdsaP256Sha256
  else none

def algorithmName : AlgorithmId → Text
  | .ed25519 => ed25519Name
  | .ecdsaP256Sha256 => p256Name

def verifyInvocationCode : InvocationError → Text
  | .invalidAlgorithmParameters => "invalid_algorithm_parameters".toList
  | .keyResolutionFailure => "key_resolution_failure".toList
  | .invalidPreVerifyResult => "invalid_pre_verify_result".toList
  | .invalidOrUnsupportedForm => "invalid_or_unsupported_form".toList

/-! ## Verification -/

section
variable (K : Backend) (J : JsonSchema)

def schemaValidationRejects (artifact : Bytes) (form : ArtifactForm) : Bool :=
  if form ≠ .yaml then false
  else
    match decompose ⟨artifact, .yaml, none⟩ with
    | .invocation _ => false
    | .structural result =>
      if result.outcome ≠ .ok then false
      else
        match result.signatureCarrier with
        | none => false
        | some carrier =>
          match parseSignatureDocument K carrier with
          | .error _ => false
          | .ok document =>
            match signatureDocumentValidatesTierASchema J document with
            | .ok () => false
            | .error _ => true

variable (C : KeyCrypto)

/-- The one key that the caller gives, in the slot of its algorithm. -/
def resolveKeys (keyBytes : Bytes) :
    AlgorithmId →
      Except InvocationError (PublicKeys C.Ed25519VerifyingKey C.P256VerifyingKey)
  | .ed25519 => (resolveEd25519VerifyingKey C keyBytes).map fun key => ⟨some key, none⟩
  | .ecdsaP256Sha256 => (resolveP256VerifyingKey C keyBytes).map fun key => ⟨none, some key⟩

/-- The selected algorithm alone is enabled; the rest are the defaults. -/
def verifierOptions (selectedAlgorithm : AlgorithmId) : VerifierOptions where
  verifyEd25519 := selectedAlgorithm == .ed25519
  verifyEcdsaP256Sha256 := selectedAlgorithm == .ecdsaP256Sha256
  algorithmParameters := []

/-- The status of what the verifier returns. -/
def resultOf : Except InvocationError VerifierState → VerifyResult
  | .error error => .invocation (verifyInvocationCode error)
  | .ok (.verified payload algorithm) => {
      status := "verified".toList
      code := none
      payload := some payload
      algorithm := some (algorithmName algorithm) }
  | .ok .unsigned => .state "unsigned".toList none
  | .ok .malformedAttemptedSigned => .state "malformed_attempted_signed".toList none
  | .ok (.signedButAlgorithmUnsupported algorithm) =>
    .state "signed_but_algorithm_unsupported".toList (some (algorithmName algorithm))
  | .ok .signedButFailedVerification => .state "signed_but_failed_verification".toList none

/-- The end of `verify_impl`, from the schema gate on.  `schemaGate` is the feature
`json-schema-validate`. -/
def verifyResolved (schemaGate : Bool) (artifact : Bytes) (form : ArtifactForm)
    (keys : PublicKeys C.Ed25519VerifyingKey C.P256VerifyingKey) (options : VerifierOptions)
    (limits : Option ArtifactResourceLimits) : Run VerifyResult :=
  if schemaGate && schemaValidationRejects K J artifact form then
    some (.state "malformed_attempted_signed".toList none)
  else
    match limits with
    | some limits => do
      match ← verifyWithResourceLimits C.toCrypto K artifact form keys options limits with
      | .error error => some (.failure (.ofResourceError error))
      | .ok outcome => some (resultOf outcome)
    | none => do
      let outcome ← verify C.toCrypto K artifact form keys options
      some (resultOf outcome)

def expectedKeyLength : AlgorithmId → Nat
  | .ed25519 => 32
  | .ecdsaP256Sha256 => 65

def verifyImpl (schemaGate : Bool) (artifact : Uint8Array) (formSelector algorithmSelector : Text)
    (verifyingKey : Uint8Array) (limits : Option ArtifactResourceLimits) : Run VerifyResult :=
  match ByteInput.new artifact with
  | .error error => some (.failure error)
  | .ok artifact =>
    match limits.elim (.ok ()) fun limits => withAdmittedInput limits artifact.length with
    | .error error => some (.failure error)
    | .ok () =>
      match artifactForm formSelector with
      | none => some (.invocation "invalid_or_unsupported_form".toList)
      | some form =>
        match algorithm algorithmSelector with
        | none => some (.invocation "invalid_or_unsupported_algorithm".toList)
        | some selectedAlgorithm =>
          match ByteInput.new verifyingKey with
          | .error error => some (.failure error)
          | .ok verifyingKey =>
            if verifyingKey.length ≠ expectedKeyLength selectedAlgorithm then
              some (.invocation "key_resolution_failure".toList)
            else
              match artifact.toVec with
              | .error error => some (.failure error)
              | .ok artifact =>
                match verifyingKey.toVec with
                | .error error => some (.failure error)
                | .ok keyBytes =>
                  match resolveKeys C keyBytes selectedAlgorithm with
                  | .error error => some (.invocation (verifyInvocationCode error))
                  | .ok keys =>
                    verifyResolved K J C schemaGate artifact form keys
                      (verifierOptions selectedAlgorithm) limits

end

end Wasm
end YamlSigil
