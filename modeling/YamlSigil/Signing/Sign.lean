/-
The signer: validation, payload preparation, signature, emission.

The checks stand in the source's order.  Signing with the built-in keys and
signing through a provider share all of it but the step that makes the
signature, which is a parameter of `signAfterInvocationValidation`.
-/
import YamlSigil.Core.Resource
import YamlSigil.Core.SignatureDoc
import YamlSigil.Signing.Crypto
import YamlSigil.Transcription.Transcriber

namespace YamlSigil
namespace Signing

open YamlSigil.Core Transcription
open Verification (Octets64)

/-! ## Requests and answers -/

inductive OutputForm where
  | yaml
  | protobuf
deriving Repr, DecidableEq

inductive SignInvocationError where
  | invalidOrUnsupportedOutputForm
  | invalidOrUnsupportedAlgorithm
  | invalidAlgorithmParameters
  | invalidKeyid
deriving Repr, DecidableEq

inductive SignError where
  | invalidPayloadBytes
  | payloadLineTerminatorRefusal
  | keyOperationFailure
  | invalidOrUnsupportedAlgorithm
  | yamlSerialize (detail : Text)
deriving Repr, DecidableEq

inductive SigningKey (Ed25519 P256 : Type) where
  | ed25519 (key : Ed25519)
  | ecdsaP256Sha256 (key : P256)

structure SignRequest (Ed25519 P256 : Type) where
  payload : Bytes
  algorithm : AlgorithmId
  key : SigningKey Ed25519 P256
  keyid : Option Text
  appendMissingFinalNewline : Bool
  outputForm : OutputForm
  algorithmParameters : Bytes

structure SignSuccess where
  artifact : Bytes
  /-- Empty unless the payload was changed. -/
  modifiedPayload : Bytes
deriving Repr, DecidableEq

inductive SignOutcome where
  | success (s : SignSuccess)
  | invocation (e : SignInvocationError)
  | signer (e : SignError)
deriving Repr, DecidableEq

structure SignerCapabilities where
  supportedOutputForms : List OutputForm
  supportedAlgorithms : List AlgorithmId
deriving Repr, DecidableEq

def signerCapabilities : SignerCapabilities where
  supportedOutputForms := [.yaml, .protobuf]
  supportedAlgorithms := [.ed25519, .ecdsaP256Sha256]

/-! ## Validation -/

section
variable {Ed25519 P256 : Type} (req : SignRequest Ed25519 P256)

def validateInvocationParameters : Except SignInvocationError Unit :=
  if req.outputForm ∉ signerCapabilities.supportedOutputForms then
    .error .invalidOrUnsupportedOutputForm
  else if req.algorithm ∉ signerCapabilities.supportedAlgorithms then
    .error .invalidOrUnsupportedAlgorithm
  else if req.algorithmParameters ≠ [] then .error .invalidAlgorithmParameters
  else
    match req.keyid with
    | none => .ok ()
    | some keyid =>
      let octets := (asBytes keyid).length
      if octets = 0 ∨ octets > 1024 then .error .invalidKeyid else .ok ()

def validateKeyAlgorithm : Except SignInvocationError Unit :=
  match req.algorithm, req.key with
  | .ed25519, .ed25519 _ => .ok ()
  | .ecdsaP256Sha256, .ecdsaP256Sha256 _ => .ok ()
  | _, _ => .error .invalidOrUnsupportedAlgorithm

def validateKeyidContent : Except SignInvocationError Unit :=
  if req.keyid.any fun keyid => keyid.contains '\r' || keyid.contains '\n' then
    .error .invalidKeyid
  else .ok ()

def validateInvocation : Except SignInvocationError Unit := do
  validateInvocationParameters req
  validateKeyidContent req
  validateKeyAlgorithm req

end

/-! ## The payload -/

def normalizeYamlPayload (payload : Bytes) (appendMissingFinalNewline : Bool) :
    Except SignError Bytes :=
  if (fromUtf8 payload).isNone then .error .invalidPayloadBytes
  else if [0xEF, 0xBB, 0xBF].isPrefixOf payload then .error .invalidPayloadBytes
  else if payload.isEmpty then .ok []
  else if [0x0A].isSuffixOf payload then .ok payload
  else if appendMissingFinalNewline then .ok (payload ++ [0x0A])
  else .error .payloadLineTerminatorRefusal

structure PreparedSigningPayload where
  payload : Bytes
  modifiedPayload : Bytes
deriving Repr, DecidableEq

/-- The octets to sign.  Only YAML output has rules for them. -/
def prepareSigningPayload {Ed25519 P256 : Type} (req : SignRequest Ed25519 P256) :
    Except SignError PreparedSigningPayload := do
  let payload ←
    match req.outputForm with
    | .yaml => do
      let payload ← normalizeYamlPayload req.payload req.appendMissingFinalNewline
      match validatePayloadStream payload with
      | .error _ => .error .invalidPayloadBytes
      | .ok () => .ok payload
    | .protobuf => .ok req.payload
  let modifiedPayload := if req.payload = payload then [] else payload
  .ok { payload, modifiedPayload }

/-! ## Emission -/

/-- The inner signature message. -/
def encodeInnerSignatureCarrier (B : Pb.Buffa) (algorithm : AlgorithmId) (signature : Bytes)
    (keyid : Option Text) : Run Bytes :=
  expectOk (((Pb.YamlSigilSignature.new algorithm signature).setKeyid keyid).encodeToVec B)

section
variable (K : Backend) {Ed25519 P256 : Type}

def serializeYamlSignatureCarrier (req : SignRequest Ed25519 P256) (sigBytes : Bytes) :
    Except SignError Text :=
  let doc : SignatureDocument := {
    schema := schemaV1alpha1
    alg := req.algorithm.asYamlStr
    keyid := req.keyid
    signature := K.base64.encode sigBytes }
  match serializeSignatureDocument K doc with
  | .error e => .error (.yamlSerialize e.toText)
  | .ok body => .ok (if ['\n'].isSuffixOf body then body else body ++ ['\n'])

def emitYamlArtifact (payload : Bytes) (req : SignRequest Ed25519 P256) (sigBytes : Bytes) :
    Run (Except SignError Bytes) :=
  match serializeYamlSignatureCarrier K req sigBytes with
  | .error e => some (.error e)
  | .ok body => do
    match ← compose ⟨payload, asBytes body, .yaml⟩ with
    | .success s => some (.ok s.artifact)
    | .invocation _ | .error _ => some (.error (.yamlSerialize "compose failed".toList))

def emitYamlArtifactWithResourceLimits (payload : Bytes) (req : SignRequest Ed25519 P256)
    (sigBytes : Bytes) (limits : ArtifactResourceLimits) :
    Run (Except ArtifactResourceError (Except SignError Bytes)) :=
  match serializeYamlSignatureCarrier K req sigBytes with
  | .error e => some (.ok (.error e))
  | .ok body =>
    match (checkedAdd payload.length 4).bind (checkedAdd · (asBytes body).length) with
    | none => some (.error (limits.sizeComputationOverflow .yaml))
    | some encodedSize =>
      match limits.checkOutputSize .yaml encodedSize with
      | .error e => some (.error e)
      | .ok _ => do
        match ← compose ⟨payload, asBytes body, .yaml⟩ with
        | .success s => some (.ok (.ok s.artifact))
        | .invocation _ | .error _ =>
          some (.ok (.error (.yamlSerialize "compose failed".toList)))

def emitProtoArtifact (payload : Bytes) (req : SignRequest Ed25519 P256) (sigBytes : Bytes) :
    Run (Except SignError Bytes) := do
  let carrier ← encodeInnerSignatureCarrier K.buffa req.algorithm sigBytes req.keyid
  let artifact ← composeProtoOuter payload carrier
  some (.ok artifact)

def finishSigning (req : SignRequest Ed25519 P256) (prepared : PreparedSigningPayload)
    (sigBytes : Octets64) (limits : Option ArtifactResourceLimits) :
    Run (Except ArtifactResourceError SignOutcome) := do
  let emitted ←
    match req.outputForm with
    | .yaml =>
      match limits with
      | some limits => emitYamlArtifactWithResourceLimits K prepared.payload req sigBytes limits
      | none => (emitYamlArtifact K prepared.payload req sigBytes).map .ok
    | .protobuf => (emitProtoArtifact K prepared.payload req sigBytes).map .ok
  match emitted with
  | .error e => some (.error e)
  | .ok (.error e) => some (.ok (.signer e))
  | .ok (.ok artifact) =>
    some (.ok (.success { artifact, modifiedPayload := prepared.modifiedPayload }))

def signAfterInvocationValidation (req : SignRequest Ed25519 P256)
    (limits : Option ArtifactResourceLimits) (signPayload : Bytes → Except SignError Octets64) :
    Run (Except ArtifactResourceError SignOutcome) :=
  match prepareSigningPayload req with
  | .error e => some (.ok (.signer e))
  | .ok prepared =>
    match signPayload prepared.payload with
    | .error e => some (.ok (.signer e))
    | .ok signature => finishSigning K req prepared signature limits

end

/-! ## Signing with the built-in keys -/

section
variable (C : SigningCrypto)

/-- One draw of the generator after the other, until the signature has no zero
component.  The generator fails behind its last draw. -/
def signP256WithRng (payload : Bytes) (key : C.P256SigningKey) :
    List C.Nonce → Except SignError Octets64
  | [] => .error .keyOperationFailure
  | nonce :: draws =>
    match C.signPrehashed key nonce (C.sha256 payload) with
    | some signature => .ok (C.p256SignatureToBytes signature)
    | none => signP256WithRng payload key draws

def signDigest (draws : List C.Nonce) (payload : Bytes) (algorithm : AlgorithmId)
    (key : SigningKey C.Ed25519SigningKey C.P256SigningKey) : Except SignError Octets64 :=
  match algorithm, key with
  | .ed25519, .ed25519 sk => .ok (C.ed25519Sign sk payload)
  | .ecdsaP256Sha256, .ecdsaP256Sha256 sk => signP256WithRng C payload sk draws
  | _, _ => .error .invalidOrUnsupportedAlgorithm

variable (K : Backend) (draws : List C.Nonce)

def signInner (req : SignRequest C.Ed25519SigningKey C.P256SigningKey) : Run SignOutcome :=
  match validateInvocation req with
  | .error e => some (.invocation e)
  | .ok () => do
    let r ← signAfterInvocationValidation K req none fun payload =>
      signDigest C draws payload req.algorithm req.key
    expectOk r

/-- Sign with the built-in keys. -/
def sign (req : SignRequest C.Ed25519SigningKey C.P256SigningKey) : Run SignOutcome :=
  signInner C K draws req

end

end Signing
end YamlSigil
